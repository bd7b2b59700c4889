import OpenTerms.Common.Threads
import OpenTerms.Py.Permissions.Models

/-!
# `permissions/client.py`

The methods of `OpenTermsClient` as programs over the operations of a
cache, a session and a clock, each atomic, and the module's functions
over the client the module holds. A cache is named by a reference: two
clients given the same one share it, and `OpenTermsClient()` is given the
module's.
-/

namespace OpenTerms

namespace Py

namespace Permissions

open Json

/-- A `TermsCache` object. -/
abbrev CacheRef := ℕ

/-- `get_default_cache()`. -/
def getDefaultCache : CacheRef := 0

/-- `OpenTermsClient`. -/
structure OpenTermsClient where
  defaultTtl : ℤ
  timeout : ℤ
  userAgent : PyStr
  registryUrl : Option PyStr
  cache : CacheRef
  deriving DecidableEq

/-- `OpenTermsClient.__init__`. -/
def OpenTermsClient.init (defaultTtl timeout : ℤ) (userAgent : PyStr) (cache : Option CacheRef)
    (registryUrl : Option PyStr) : OpenTermsClient where
  defaultTtl := defaultTtl
  timeout := timeout
  userAgent := userAgent
  registryUrl :=
    match registryUrl with
    | some url => if url = [] then none else some (url.rdropWhile (· = chr '/'))
    | none => none
  cache := cache.getD getDefaultCache

/-- `_default_client` as the module is loaded: `OpenTermsClient()`. -/
def defaultClient : OpenTermsClient :=
  .init 3600 10 (lit "openterms-py/1.0") none (some (lit "https://openterms.com/registry"))

/-! ## Operations -/

/-- What the methods do that others see, or that others decide. -/
inductive Op (libs : Libs) (T : Type) where
  | cacheGet (cache : CacheRef) (domain : PyStr)
  | cacheSet (cache : CacheRef) (domain : PyStr) (entry : CacheEntry libs T)
  | cacheDelete (cache : CacheRef) (domain : PyStr)
  | cacheClear (cache : CacheRef)
  /-- `session.get`. -/
  | sessionGet (userAgent url : PyStr) (timeout : ℤ)
  /-- `time.time()`. -/
  | time
  /-- `_utc_now_iso()`. -/
  | utcNowIso
  | defaultClient
  | setDefaultClient (client : OpenTermsClient)

/-- An answer of the cache, with the time it was given at. -/
structure Lookup (libs : Libs) (T : Type) where
  now : T
  entry : Option (CacheEntry libs T)

@[reducible] def Ans (libs : Libs) (T : Type) : Op libs T → Type
  | .cacheGet .. => Lookup libs T
  | .sessionGet .. => Download
  | .time => T
  | .utcNowIso => PyStr
  | .defaultClient => OpenTermsClient
  | .cacheSet .. | .cacheDelete .. | .cacheClear _ | .setDefaultClient _ => Unit

abbrev ClientM (libs : Libs) (T : Type) := Prog (Op libs T) (Ans libs T) PyErr

namespace ClientM

variable {libs : Libs} {T : Type}

/-- `_cache.get`. -/
abbrev cacheGet (cache : CacheRef) (domain : PyStr) : ClientM libs T (Lookup libs T) :=
  Prog.op (Op.cacheGet cache domain)

/-- `_cache.set`. -/
abbrev cacheSet (cache : CacheRef) (domain : PyStr) (entry : CacheEntry libs T) :
    ClientM libs T Unit :=
  Prog.op (Op.cacheSet cache domain entry)

/-- `_cache.delete`. -/
abbrev cacheDelete (cache : CacheRef) (domain : PyStr) : ClientM libs T Unit :=
  Prog.op (Op.cacheDelete cache domain)

/-- `_cache.clear`. -/
abbrev cacheClear (cache : CacheRef) : ClientM libs T Unit := Prog.op (Op.cacheClear cache)

abbrev sessionGet (userAgent url : PyStr) (timeout : ℤ) : ClientM libs T Download :=
  Prog.op (Op.sessionGet userAgent url timeout)

abbrev time : ClientM libs T T := Prog.op Op.time

abbrev utcNowIso : ClientM libs T PyStr := Prog.op Op.utcNowIso

/-- `_default_client`. -/
abbrev defaultClient : ClientM libs T OpenTermsClient := Prog.op Op.defaultClient

abbrev setDefaultClient (client : OpenTermsClient) : ClientM libs T Unit :=
  Prog.op (Op.setDefaultClient client)

end ClientM

/-- What the calls share: the caches, the requests made, and the module's
client. -/
structure World (libs : Libs) (T : Type) where
  caches : CacheRef → Store libs T
  requests : ℕ
  client : OpenTermsClient

/-- What comes in from outside at a step: a time, its text, and what a
request would be met with. -/
structure Moment (T : Type) where
  now : T
  iso : PyStr
  reply : Reply

variable {libs : Libs} {T : Type}

/-- A world with nothing in the caches yet. -/
def World.initial (client : OpenTermsClient) : World libs T where
  caches _ := TermsCache.empty
  requests := 0
  client := client

/-- The world with one cache changed. -/
def World.withStore (w : World libs T) (cache : CacheRef) (store : Store libs T) : World libs T :=
  { w with caches := Function.update w.caches cache store }

section

variable [Sub T] [IntCast T] [LinearOrder T]

/-- What an operation answers and does. -/
def handle (w : World libs T) (m : Moment T) : (o : Op libs T) → Ans libs T o × World libs T
  | .cacheGet cache domain =>
    let (entry, store) := TermsCache.get m.now (w.caches cache) domain
    (⟨m.now, entry⟩, w.withStore cache store)
  | .cacheSet cache domain entry =>
    ((), w.withStore cache (TermsCache.set (w.caches cache) domain entry))
  | .cacheDelete cache domain => ((), w.withStore cache (TermsCache.delete (w.caches cache) domain))
  | .cacheClear cache => ((), w.withStore cache TermsCache.empty)
  | .sessionGet _ _ _ => (⟨w.requests, m.reply⟩, { w with requests := w.requests + 1 })
  | .time => (m.now, w)
  | .utcNowIso => (m.iso, w)
  | .defaultClient => (w.client, w)
  | .setDefaultClient client => ((), { w with client := client })

omit [Sub T] [IntCast T] [LinearOrder T] in
theorem World.withStore_caches (w : World libs T) (cache cache' : CacheRef) (store : Store libs T) :
    (w.withStore cache store).caches cache' = if cache' = cache then store else w.caches cache' :=
  Function.update_apply _ _ _ _

/-- An entry a cache has was there before, or is the one just stored. -/
theorem stored_before {w : World libs T} {m : Moment T} {o : Op libs T} {cache : CacheRef}
    {key : PyStr} {entry : CacheEntry libs T}
    (h : (handle w m o).2.caches cache key = some entry) :
    w.caches cache key = some entry ∨ o = .cacheSet cache key entry := by
  cases o with
  | cacheGet cache' domain =>
    simp only [handle, World.withStore_caches] at h
    split_ifs at h with hcache
    · subst hcache
      exact .inl (TermsCache.get_store h)
    · exact .inl h
  | cacheSet cache' domain entry' =>
    simp only [handle, World.withStore_caches, TermsCache.set] at h
    split_ifs at h with hcache
    · rw [Function.update_apply] at h
      split_ifs at h with hkey
      · cases h
        exact .inr (by rw [hcache, hkey])
      · exact .inl (hcache ▸ h)
    · exact .inl h
  | cacheDelete cache' domain =>
    simp only [handle, World.withStore_caches, TermsCache.delete] at h
    split_ifs at h with hcache
    · rw [Function.update_apply] at h
      split_ifs at h
      exact .inl (hcache ▸ h)
    · exact .inl h
  | cacheClear cache' =>
    simp only [handle, World.withStore_caches] at h
    split_ifs at h
    · cases h
    · exact .inl h
  | sessionGet userAgent url timeout => exact .inl h
  | time => exact .inl h
  | utcNowIso => exact .inl h
  | defaultClient => exact .inl h
  | setDefaultClient client => exact .inl h

/-- Requests are only ever added. -/
theorem requests_le (w : World libs T) (m : Moment T) (o : Op libs T) :
    w.requests ≤ (handle w m o).2.requests := by
  cases o with
  | sessionGet userAgent url timeout => exact Nat.le_succ _
  | _ => exact Nat.le_refl _

/-- The module's client changes when it is set. -/
theorem client_unchanged (w : World libs T) (m : Moment T) {o : Op libs T}
    (h : ∀ client, o ≠ .setDefaultClient client) : (handle w m o).2.client = w.client := by
  cases o with
  | setDefaultClient client => exact absurd rfl (h client)
  | _ => rfl

/-- An entry a lookup finds is there, before and after, and not expired. -/
theorem lookup_found {w : World libs T} {m : Moment T} {cache : CacheRef} {key : PyStr}
    {now : T} {entry : CacheEntry libs T}
    (h : (handle w m (.cacheGet cache key)).1 = ⟨now, some entry⟩) :
    w.caches cache key = some entry ∧ entry.isExpired now = false
      ∧ (handle w m (.cacheGet cache key)).2.caches cache key = some entry := by
  simp only [handle, Lookup.mk.injEq] at h
  obtain ⟨rfl, h⟩ := h
  obtain ⟨hstored, hlive⟩ := TermsCache.get_eq_some_iff.mp h
  refine ⟨hstored, hlive, ?_⟩
  simp only [handle, World.withStore_caches, if_true]
  exact TermsCache.get_found h

end

/-! ## Fetching -/

/-- What `_fetch_raw` returns when it finds a document. -/
structure Raw (libs : Libs) where
  document : Document libs
  contentHash : PyStr
  hashed : sha256Text libs document.response.text = .ok contentHash
  ttl : ℤ
  timed : ∃ defaultTtl, ttlOf defaultTtl document.response = .ok ttl

/-- What is made of the document of a response. -/
def Document.raw (defaultTtl : ℤ) (document : Document libs) : Except PyErr (Raw libs) :=
  match hashed : sha256Text libs document.response.text with
  | .error e => .error e
  | .ok contentHash =>
    match timed : ttlOf defaultTtl document.response with
    | .error e => .error e
    | .ok ttl => .ok ⟨document, contentHash, hashed, ttl, defaultTtl, timed⟩

/-- What is made of a reply: nothing, if it is no answer of status 200
holding a dict that `taken` takes. -/
def OpenTermsClient.accept (self : OpenTermsClient) (taken : PyDict → Bool) (d : Download) :
    Except PyErr (Option (Raw libs)) :=
  match d.reply with
  | .requestException => .ok none
  | .raised e => .error e
  | .response resp =>
    if resp.statusCode ≠ 200 then .ok none
    else
      match h : libs.loads resp.text with
      | .ok (.obj data) =>
        if taken data then some <$> Document.raw self.defaultTtl ⟨d.number, resp, data, h⟩
        else .ok none
      | .ok _ | .error .jsonDecodeError => .ok none
      | .error (.raised e) => .error e

/-- The first of the addresses that has a document. -/
def OpenTermsClient.firstOf (self : OpenTermsClient) : List PyStr → ClientM libs T (Option (Raw libs))
  | [] => pure none
  | url :: urls => do
    let resp ← ClientM.sessionGet self.userAgent url self.timeout
    match ← self.accept (fun _ => true) resp with
    | some raw => pure (some raw)
    | none => self.firstOf urls

/-- `_fetch_raw`. -/
def OpenTermsClient.fetchRaw (self : OpenTermsClient) (domain : PyStr) :
    ClientM libs T (Option (Raw libs)) := do
  let urls := [lit "https://" ++ domain ++ lit "/.well-known/openterms.json",
    lit "https://" ++ domain ++ lit "/openterms.json"]
  match ← self.firstOf urls with
  | some raw => pure (some raw)
  | none =>
    match self.registryUrl with
    | none => pure none
    | some registry =>
      if registry = [] then pure none
      else do
        let url := registry ++ (chr '/' :: domain)
        let resp ← ClientM.sessionGet self.userAgent url self.timeout
        liftM (self.accept (fun parsed => lit "error" ∉ names parsed) resp)

/-- `OpenTermsClient.fetch`. -/
def OpenTermsClient.fetch (self : OpenTermsClient) (domain : PyStr) :
    ClientM libs T (Option (Document libs)) := do
  let domain := normaliseDomain libs domain
  let cached ← ClientM.cacheGet self.cache domain
  match cached.entry with
  | some entry => pure (some entry.data)
  | none =>
    match ← self.fetchRaw domain with
    | none => pure none
    | some raw => do
      let fetchedAt ← ClientM.time
      ClientM.cacheSet self.cache domain
        ⟨raw.document, fetchedAt, raw.ttl, raw.contentHash, raw.hashed, raw.timed⟩
      pure (some raw.document)

/-! ## Checking -/

/-- The value of the first permission of the action's name, the case of
letters aside; `None` where there is none. -/
def lookupPermission (libs : Libs) (actionLower : PyStr) : PyDict → PyVal
  | [] => .null
  | (key, val) :: permissions =>
    if libs.lower key = actionLower then val else lookupPermission libs actionLower permissions

/-- The decision a permission's value stands for. -/
def decisionOf : PyVal → Permission
  | .bool allowed => if allowed then .allow else .deny
  | .obj conditions =>
    match getD (lit "allowed") conditions with
    | .bool true => .allow
    | .bool false => .deny
    | _ => .notSpecified
  | _ => .notSpecified

/-- What `check` makes of the document it got, if any. -/
def checkResult (domain action : PyStr) (source : Source) :
    Option (Document libs) → Except PyErr CheckResult
  | none => .ok ⟨domain, action, .notSpecified, .null, source⟩
  | some document =>
    match (get? (lit "permissions") document.data).getD (.obj []) with
    | .obj permissions =>
      let rawValue := lookupPermission libs (libs.lower action) permissions
      .ok ⟨domain, action, decisionOf rawValue, rawValue, source⟩
    | _ => .error .attributeError

/-- `OpenTermsClient.check`, with the document its result was computed
from. -/
def OpenTermsClient.check (self : OpenTermsClient) (domain action : PyStr) :
    ClientM libs T (Option (Document libs) × CheckResult) := do
  let domain := normaliseDomain libs domain
  let cachedBefore ← ClientM.cacheGet self.cache domain
  let source := if cachedBefore.entry.isSome then .cache else .network
  let data ← self.fetch domain
  let result ← checkResult domain action source data
  pure (data, result)

/-- `OpenTermsClient.permission_receipt`. -/
def OpenTermsClient.permissionReceipt (self : OpenTermsClient) (domain action : PyStr)
    (decision : Permission) : ClientM libs T PermissionReceipt := do
  let domain := normaliseDomain libs domain
  let cached ← ClientM.cacheGet self.cache domain
  let contentHash :=
    match cached.entry with
    | some entry => entry.contentHash
    | none => []
  let timestamp ← ClientM.utcNowIso
  pure ⟨domain, action, decision, timestamp, contentHash⟩

/-- `OpenTermsClient.clear_cache`. -/
def OpenTermsClient.clearCache (self : OpenTermsClient) : Option PyStr → ClientM libs T Unit
  | some domain => ClientM.cacheDelete self.cache (normaliseDomain libs domain)
  | none => ClientM.cacheClear self.cache

/-! ## Calls -/

/-- What is called on a client. -/
inductive ClientCall where
  | fetch (domain : PyStr)
  | check (domain action : PyStr)
  | permissionReceipt (domain action : PyStr) (decision : Permission)
  | clearCache (domain : Option PyStr)
  deriving DecidableEq

/-- What a call returns. -/
inductive Returned (libs : Libs) where
  | document (data : Option (Document libs))
  | checked (data : Option (Document libs)) (result : CheckResult)
  | receipt (r : PermissionReceipt)
  | nothing

/-- The document a call returned, or made its decision from. -/
def Returned.document? : Returned libs → Option (Document libs)
  | .document data => data
  | .checked data _ => data
  | .receipt _ | .nothing => none

/-- A call on a client. -/
def OpenTermsClient.run (self : OpenTermsClient) : ClientCall → ClientM libs T (Returned libs)
  | .fetch domain => do
    let data ← self.fetch domain
    pure (.document data)
  | .check domain action => do
    let (data, result) ← self.check domain action
    pure (.checked data result)
  | .permissionReceipt domain action decision => do
    let r ← self.permissionReceipt domain action decision
    pure (.receipt r)
  | .clearCache domain => do
    self.clearCache domain
    pure .nothing

/-- What is called on the module: `configure`, or a function that hands the
call to the module's client. -/
inductive ModuleCall where
  | onClient (k : ClientCall)
  | configure (defaultTtl timeout : ℤ) (userAgent : PyStr) (registryUrl : Option PyStr)
  deriving DecidableEq

/-- A call on the module. -/
def moduleRun : ModuleCall → ClientM libs T (Returned libs)
  | .onClient k => do
    let client ← ClientM.defaultClient
    client.run k
  | .configure defaultTtl timeout userAgent registryUrl => do
    ClientM.setDefaultClient (.init defaultTtl timeout userAgent none registryUrl)
    pure .nothing

section

variable [Sub T] [IntCast T] [LinearOrder T]

/-- Calls on one client. -/
def OpenTermsClient.system (libs : Libs) (T : Type) [Sub T] [IntCast T] [LinearOrder T]
    (self : OpenTermsClient) :
    System (Op libs T) (Ans libs T) PyErr (Returned libs) ClientCall (World libs T) (Moment T) where
  body := self.run
  handle := handle

/-- Calls on the module. -/
def moduleSystem (libs : Libs) (T : Type) [Sub T] [IntCast T] [LinearOrder T] :
    System (Op libs T) (Ans libs T) PyErr (Returned libs) ModuleCall (World libs T) (Moment T) where
  body := moduleRun
  handle := handle

end

/-! ## A client to try -/

namespace Sample

/-- The SHA-256 digest of `{}`. -/
def digestOfEmpty : Bytes :=
  [68, 19, 111, 163, 85, 179, 103, 138, 17, 70, 173, 22, 247, 232, 100, 158, 148, 251, 79, 194,
    31, 231, 126, 131, 16, 192, 96, 246, 28, 170, 255, 138]

/-- The SHA-256 digest of `{ }`. -/
def digestOfSpaced : Bytes :=
  [37, 124, 27, 233, 106, 230, 159, 75, 1, 194, 198, 155, 219, 109, 120, 96, 95, 89, 23, 88, 25,
    251, 0, 125, 11, 242, 69, 191, 72, 68, 76, 74]

/-- What `json.loads` raises of a text too short for a long integer:
nothing. -/
def ofLength (text : PyStr) : Option PyErr :=
  if text.length ≤ maxStrDigits then none else some (.valueError [])

/-- The libraries where the samples use them. -/
def stdlib : Libs where
  sha256 bytes := if bytes = lit "\x7b\x7d" then digestOfEmpty else digestOfSpaced
  json := Py.loads
  unloadable := ofLength
  lower := List.map fun c =>
    if 0x41 ≤ c.val ∧ c.val ≤ 0x5A then Fin.ofNat _ (c.val + 0x20) else c

/-- A document with this header and this text. -/
def reply (cacheControl : Option Bytes) (text : PyStr) : Reply :=
  .response ⟨200, text, cacheControl⟩

/-- A step at a time, and what a request is met with there. -/
def step {κ : Type} (now : ℤ) (reply : Reply) : Move κ Unit (Moment ℤ) :=
  .step () ⟨now, lit "2025-01-01T00:00:00Z", reply⟩

end Sample

end Permissions

end Py

end OpenTerms
