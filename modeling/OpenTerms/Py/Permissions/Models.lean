import OpenTerms.Py.Canonical
import Mathlib.Data.List.DropRight
import Mathlib.Logic.Function.Basic

/-!
# `permissions/models.py`, `permissions/cache.py` and the helpers of `permissions/client.py`

A document is the reply it came in together with the dict that reply
loads as, so one that was never received cannot be built; a cache entry
likewise carries the digest of the very text of its document, and a time
its response sets. The store
of a cache is a map from keys to entries. Times are of any type with a
subtraction and an order: `time.time()` and its float arithmetic are not
looked into.
-/

namespace OpenTerms

namespace Py

namespace Permissions

/-- What `json.loads` raises. -/
inductive LoadsErr where
  | jsonDecodeError
  /-- What `except json.JSONDecodeError` lets through. -/
  | raised (e : PyErr)

/-- What the client calls and does not define. -/
structure Libs where
  sha256 : Bytes → Bytes
  /-- What a text of JSON stands for. -/
  json : PyStr → Option PyVal
  /-- What `json.loads` raises of a text for another reason than its not
  being JSON: the `ValueError` of an integer with more digits than `int`
  converts. -/
  unloadable : PyStr → Option PyErr
  /-- `str.lower`. -/
  lower : PyStr → PyStr

/-- `json.loads`. -/
def Libs.loads (libs : Libs) (text : PyStr) : Except LoadsErr PyVal :=
  match libs.unloadable text with
  | some e => .error (.raised e)
  | none =>
    match libs.json text with
    | some v => .ok v
    | none => .error .jsonDecodeError

theorem Libs.loads_eq_ok_iff {libs : Libs} {text : PyStr} {v : PyVal} :
    libs.loads text = .ok v ↔ libs.unloadable text = none ∧ libs.json text = some v := by
  unfold Libs.loads
  cases libs.unloadable text with
  | some e => simp
  | none => cases libs.json text <;> simp

/-- How many digits `int` converts, `sys.int_info.default_max_str_digits`. -/
def maxStrDigits : ℕ := 4300

/-! ## Helpers of the client -/

/-- `str.isspace` of one character. -/
def isSpace (c : CodePoint) : Bool :=
  (0x09 ≤ c.val && c.val ≤ 0x0D) || (0x1C ≤ c.val && c.val ≤ 0x20) || c.val == 0x85
    || c.val == 0xA0 || c.val == 0x1680 || (0x2000 ≤ c.val && c.val ≤ 0x200A) || c.val == 0x2028
    || c.val == 0x2029 || c.val == 0x202F || c.val == 0x205F || c.val == 0x3000

/-- `str.strip`. -/
def strip (s : PyStr) : PyStr := (s.dropWhile isSpace).rdropWhile isSpace

/-- `re.sub(r"^https?://", "", …)`. -/
def dropScheme (s : PyStr) : PyStr :=
  if lit "http://" <+: s then s.drop 7
  else if lit "https://" <+: s then s.drop 8
  else s

/-- `_normalise_domain`. -/
def normaliseDomain (libs : Libs) (domain : PyStr) : PyStr :=
  (dropScheme (libs.lower (strip domain))).takeWhile (· ≠ chr '/')

/-- A letter of a header without its case. `requests` reads headers as
Latin-1, where only ASCII letters match one another in the patterns
below. -/
def foldCase (b : Byte) : Byte :=
  if 0x41 ≤ b.val ∧ b.val ≤ 0x5A then Fin.ofNat _ (b.val + 0x20) else b

/-- The digits of the first `max-age=(\d+)`. -/
def maxAgeDigits : Bytes → Option Bytes
  | [] => none
  | b :: bs =>
    let digits := ((b :: bs).drop 8).takeWhile fun d => IsDigit d.val
    if lit "max-age=" <+: b :: bs ∧ digits ≠ [] then some digits else maxAgeDigits bs

/-- The number some digits are of. -/
def digitsValue (digits : Bytes) : ℤ := digits.foldl (fun n d => 10 * n + (d.val - 0x30 : ℤ)) 0

/-- `int` of a run of digits. -/
def intOfDigits (digits : Bytes) : Except PyErr ℤ :=
  if maxStrDigits < digits.length then .error (.valueError []) else .ok (digitsValue digits)

/-- `no-store|no-cache`. -/
def forbidsCaching (cacheControl : Bytes) : Bool :=
  lit "no-store" <:+: cacheControl.map foldCase || lit "no-cache" <:+: cacheControl.map foldCase

/-- `_parse_max_age`. -/
def parseMaxAge (cacheControl : Bytes) : Except PyErr (Option ℤ) :=
  match maxAgeDigits (cacheControl.map foldCase) with
  | some digits => some <$> intOfDigits digits
  | none => .ok (if forbidsCaching cacheControl then some 0 else none)

/-- `_sha256`. -/
def sha256Text (libs : Libs) (content : PyStr) : Except PyErr PyStr := do
  let bytes ← encodeUtf8 content
  .ok (hex (libs.sha256 bytes))

/-! ## Replies and documents -/

/-- What the code reads of a response. -/
structure Response where
  statusCode : ℕ
  text : PyStr
  /-- The `Cache-Control` header, if there is one. -/
  cacheControl : Option Bytes
  deriving DecidableEq

/-- What `session.get` does. -/
inductive Reply where
  | response (r : Response)
  | requestException
  /-- An exception the client does not catch. -/
  | raised (e : PyErr)

/-- The reply to a request, the requests being numbered. -/
structure Download where
  number : ℕ
  reply : Reply

/-- A parsed openterms.json, with the response it was parsed from. -/
structure Document (libs : Libs) where
  number : ℕ
  response : Response
  data : PyDict
  loaded : libs.loads response.text = .ok (.obj data)

/-- The seconds a response is kept. -/
def ttlOf (defaultTtl : ℤ) (resp : Response) : Except PyErr ℤ :=
  let ccHeader := resp.cacheControl.getD []
  if ccHeader = [] then .ok defaultTtl
  else do
    let parsedTtl ← parseMaxAge ccHeader
    .ok (parsedTtl.getD defaultTtl)

/-- `CacheEntry`. -/
structure CacheEntry (libs : Libs) (T : Type) where
  data : Document libs
  fetchedAt : T
  ttl : ℤ
  contentHash : PyStr
  hashed : sha256Text libs data.response.text = .ok contentHash
  timed : ∃ defaultTtl, ttlOf defaultTtl data.response = .ok ttl

inductive Permission where
  | allow
  | deny
  | notSpecified
  deriving DecidableEq

inductive Source where
  | cache
  | network
  deriving DecidableEq

/-- `CheckResult`. -/
structure CheckResult where
  domain : PyStr
  action : PyStr
  decision : Permission
  rawValue : PyVal
  source : Source

/-- `PermissionReceipt`. -/
structure PermissionReceipt where
  domain : PyStr
  action : PyStr
  decision : Permission
  timestamp : PyStr
  opentermsHash : PyStr

/-! ## The cache -/

/-- The store of a `TermsCache`. -/
abbrev Store (libs : Libs) (T : Type) := PyStr → Option (CacheEntry libs T)

variable {libs : Libs} {T : Type}

namespace TermsCache

/-- `TermsCache.set`. -/
def set (store : Store libs T) (domain : PyStr) (entry : CacheEntry libs T) : Store libs T :=
  Function.update store domain (some entry)

/-- `TermsCache.delete`. -/
def delete (store : Store libs T) (domain : PyStr) : Store libs T :=
  Function.update store domain none

/-- `TermsCache.clear`, and a new `TermsCache`. -/
def empty : Store libs T := fun _ => none

end TermsCache

variable [Sub T] [IntCast T] [LinearOrder T]

/-- `is_expired`, at the time `now`. -/
def CacheEntry.isExpired (entry : CacheEntry libs T) (now : T) : Bool :=
  if entry.ttl ≤ 0 then false else decide ((entry.ttl : T) < now - entry.fetchedAt)

namespace TermsCache

/-- `TermsCache.get`: an expired entry is dropped. -/
def get (now : T) (store : Store libs T) (domain : PyStr) :
    Option (CacheEntry libs T) × Store libs T :=
  match store domain with
  | none => (none, store)
  | some entry =>
    if entry.isExpired now then (none, delete store domain) else (some entry, store)

/-- What a lookup finds was stored and is not expired. -/
theorem get_eq_some_iff {now : T} {store : Store libs T} {domain : PyStr}
    {entry : CacheEntry libs T} :
    (get now store domain).1 = some entry
      ↔ store domain = some entry ∧ entry.isExpired now = false := by
  unfold get
  cases store domain with
  | none => simp
  | some e =>
    by_cases he : e.isExpired now
    · simp only [he, if_true, Option.some.injEq]
      exact ⟨nofun, fun ⟨h, h'⟩ => absurd (h ▸ he) (by rw [h']; decide)⟩
    · simp only [he, Bool.false_eq_true, if_false, Option.some.injEq]
      exact ⟨fun h => ⟨h, by rw [← h]; exact Bool.eq_false_iff.mpr he⟩, fun h => h.1⟩

/-- What a lookup leaves was there before. -/
theorem get_store {now : T} {store : Store libs T} {domain key : PyStr}
    {entry : CacheEntry libs T} (h : (get now store domain).2 key = some entry) :
    store key = some entry := by
  unfold get at h
  cases hd : store domain with
  | none =>
    rw [hd] at h
    exact h
  | some e =>
    simp only [hd] at h
    split_ifs at h
    · simp only [delete, Function.update_apply] at h
      split_ifs at h
      exact h
    · exact h

/-- What a lookup finds is left where it was. -/
theorem get_found {now : T} {store : Store libs T} {domain : PyStr} {entry : CacheEntry libs T}
    (h : (get now store domain).1 = some entry) :
    (get now store domain).2 domain = some entry := by
  obtain ⟨hs, hl⟩ := get_eq_some_iff.mp h
  simp only [get, hs, hl, Bool.false_eq_true, if_false]

/-- A live entry, where it has a lifetime at all, is as old as that at
most. -/
theorem age_le_of_live {entry : CacheEntry libs T} {now : T} (h : entry.isExpired now = false)
    (httl : 0 < entry.ttl) : now - entry.fetchedAt ≤ (entry.ttl : T) := by
  rw [CacheEntry.isExpired, if_neg (by omega), decide_eq_false_iff_not] at h
  exact not_lt.mp h

end TermsCache

end Permissions

end Py

end OpenTerms
