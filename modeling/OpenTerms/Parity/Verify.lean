import OpenTerms.Common.Sample
import OpenTerms.Py.Base64
import OpenTerms.Py.HashBinding
import OpenTerms.Ts.Base64
import OpenTerms.Ts.TamperEvidence

/-!
# The two verifiers

Past the hash check both look a key up and make the last three checks on
what base64 decoding gives (`checks`). The lookup differs for a `null`
key id, which in Python is the `kid` an entry does not have. Decoding
differs on text only Python's decoder takes; where TypeScript's takes it
the bytes are the same (`py_decode_of_ts`). These are the only
differences (`verifiers_agree_iff`).
-/

namespace OpenTerms

namespace Parity

open Json Utf16

/-! ## Decoding -/

/-- What TypeScript's decoder takes, Python's decodes to the same bytes. -/
theorem py_decode_of_ts {s : JsStr} {bs : Bytes} (h : Ts.b64urlDecode (.str s) = .ok bs) :
    Py.b64urlDecodeStr (decode s) = .ok bs := by
  obtain ⟨cs, ds, hstd, hdigits, hmod, rfl⟩ := Ts.b64urlDecode_eq_ok_iff.mp h
  -- the text is ASCII: what its standard form is made of has codes below 0x80
  have hlow : ∀ c ∈ Ts.toStandard s, c < 0x80 := by
    rw [hstd]
    intro c hc
    rcases List.mem_append.mp hc with hc | hc
    · obtain ⟨v, hv⟩ := Option.isSome_iff_exists.mp (hdigits.isSome c hc)
      exact (Base64.sextet?_lt hv).1
    · have := List.eq_of_mem_replicate hc
      omega
  have hascii : ∀ u ∈ s, u.val < 0x80 := by
    intro u hu
    refine Py.lt_of_fromUrlSafe_lt (hlow _ ?_)
    rw [Ts.toStandard_eq]
    exact List.mem_append_left _
      (List.mem_map_of_mem (f := fun u : CodeUnit => Base64.fromUrlSafe u.val) hu)
  have hdecode : decode s = s.map widen := decode_eq_map fun u hu => by
    have := hascii u hu
    omega
  have hwide : ∀ c ∈ decode s, c.val < 0x80 := by
    rw [hdecode, List.forall_mem_map]
    exact hascii
  have hlen : (decode s).length = s.length := by rw [hdecode, List.length_map]
  have hcodes : ((decode s).map fun c => Base64.fromUrlSafe c.val)
      = s.map fun u => Base64.fromUrlSafe u.val := by
    rw [hdecode, List.map_map]
    rfl
  rw [Py.b64urlDecodeStr_ascii hwide, hcodes, hlen, ← Ts.toStandard_eq, hstd,
    Py.a2bBase64_digits hdigits hmod, List.nil_append]

/-- Both encoders write one text. -/
theorem b64urlEncode_eq_b64url (bs : Bytes) : Py.b64urlEncode bs = decode (Ts.b64url bs) := by
  have hascii : ∀ c ∈ (Base64.pack bs).map fun v => Base64.urlSafe (Base64.sextetChar v),
      c.toNat < 0x80 := by
    rw [List.forall_mem_map]
    exact fun v _ => (Base64.urlSafe_sextetChar v).1
  have htext := decode_ofChars hascii
  rw [ofChars, ofChars, List.map_map, List.map_map] at htext
  calc Py.b64urlEncode bs
      = (Base64.pack bs).map fun v => chr (Base64.urlSafe (Base64.sextetChar v)) :=
        Base64.encodeUrl_eq bs
    _ = decode ((Base64.pack bs).map fun v => chr (Base64.urlSafe (Base64.sextetChar v))) :=
        htext.symm
    _ = decode (Ts.b64url bs) :=
        congrArg decode ((Ts.b64url_eq bs).trans (Base64.encodeUrl_eq bs)).symm

/-- **Base64url, within and across the SDKs.** One text, of the alphabet,
and either decoder takes either encoder's text back to the bytes. -/
theorem b64url_round_trip (bs : Bytes) :
    Py.b64urlEncode bs = decode (Ts.b64url bs)
      ∧ Ts.b64url bs = encode (Py.b64urlEncode bs)
      ∧ (∀ c ∈ Py.b64urlEncode bs, Base64.IsUrlCode c.val)
      ∧ (∀ u ∈ Ts.b64url bs, Base64.IsUrlCode u.val)
      ∧ Py.b64urlDecode (.str (Py.b64urlEncode bs)) = .ok bs
      ∧ Py.b64urlDecode (.str (decode (Ts.b64url bs))) = .ok bs
      ∧ Ts.b64urlDecode (.str (Ts.b64url bs)) = .ok bs
      ∧ Ts.b64urlDecode (.str (encode (Py.b64urlEncode bs))) = .ok bs := by
  have hsame := b64urlEncode_eq_b64url bs
  have hback : encode (Py.b64urlEncode bs) = Ts.b64url bs := by rw [hsame, encode_decode]
  have hpy := Py.b64urlDecode_encode bs
  have hts := Ts.b64urlDecode_b64url bs
  refine ⟨hsame, hback.symm, ?_, ?_, hpy, hsame ▸ hpy, hts, hback.symm ▸ hts⟩
  · exact fun c hc => Base64.isUrlCode_of_mem (by decide) hc
  · rw [Ts.b64url_eq]
    exact fun u hu => Base64.isUrlCode_of_mem (by decide) hu

/-- Text Python decodes to `n` bytes and TypeScript refuses. -/
def Lenient (s : JsStr) (n : ℕ) : Prop :=
  (∃ bs, Py.b64urlDecodeStr (decode s) = .ok bs ∧ bs.length = n)
    ∧ ∀ bs, Ts.b64urlDecode (.str s) ≠ .ok bs

/-! ## The last three checks -/

/-- The last three checks, on what decoding the key and the signature
gave: the code returned, or none. -/
def checks (crypto : Crypto) (hashBytes : Bytes) (pub sig : Option Bytes) : Option VerifyError :=
  match pub with
  | none => some .invalidKeyLength
  | some pub =>
    if pub.length ≠ 32 then some .invalidKeyLength
    else
      match sig with
      | none => some .invalidSignatureLength
      | some sig =>
        if sig.length ≠ 64 then some .invalidSignatureLength
        else if crypto.verify pub (domainSeparator ++ hashBytes) sig then none
        else some .invalidSignature

variable {crypto : Crypto} {hashBytes : Bytes} {signature : JsStr}

/-- What each side decodes the `x` of an entry to. -/
def pyKey (entry : List (JsStr × Doc)) : Option Bytes :=
  match get? (lit "x") entry with
  | some (.str x) => (Py.b64urlDecodeStr (decode x)).toOption
  | _ => none

def tsKey (entry : List (JsStr × Doc)) : Option Bytes :=
  match get? (lit "x") entry with
  | some (.str x) => (Ts.b64urlDecode (.str x)).toOption
  | _ => none

/-- A member that is a string or absent. -/
def StringOrAbsent (k : JsStr) (ms : List (JsStr × Doc)) : Prop :=
  get? k ms = none ∨ ∃ s, get? k ms = some (.str s)

/-- The result with an error code, or the valid one. -/
def pyResult (hashBytes : Bytes) (keyId : Py.PyVal) (error : Option VerifyError) : Py.VerifyResult :=
  { valid := error.isNone, error := error, keyId := keyId, canonicalHash := hex hashBytes }

def tsResult (hashBytes : Bytes) (keyId : Ts.JsVal) (error : Option VerifyError) : Ts.VerifyResult :=
  { valid := error.isNone, error := error, keyId := keyId, canonicalHash := hex hashBytes }

theorem py_checkSignature {entry : List (JsStr × Doc)} (hx : StringOrAbsent (lit "x") entry)
    (keyId : Py.PyVal) :
    Py.checkSignature crypto (Py.ofMembers entry) keyId (.str (decode signature)) hashBytes
      = .ok (pyResult hashBytes keyId (checks crypto hashBytes (pyKey entry)
          (Py.b64urlDecodeStr (decode signature)).toOption)) := by
  have hget : get? (lit "x") (Py.ofMembers entry) = (get? (lit "x") entry).map Py.ofDoc :=
    Py.get?_ofMembers (lit "x") entry
  have hsig : Py.b64urlDecode (.str (decode signature)) = Py.b64urlDecodeStr (decode signature) :=
    rfl
  unfold Py.checkSignature pyKey
  rcases hx with hx | ⟨x, hx⟩
  · rw [hget, hx]
    rfl
  · have hkey : Py.b64urlDecode (Py.ofDoc (.str x)) = Py.b64urlDecodeStr (decode x) := rfl
    rw [hget, hx]
    simp only [Option.map_some, hsig, hkey]
    cases hpub : Py.b64urlDecodeStr (decode x) with
    | error e =>
      simp only [Py.isValueError_of_decode hpub, or_true, if_true]
      rfl
    | ok pub =>
      by_cases hlen : pub.length = 32
      · cases hdec : Py.b64urlDecodeStr (decode signature) with
        | error e =>
          simp [Py.isValueError_of_decode hdec, hlen, checks, Except.toOption, pyResult, Py.fail]
        | ok sig =>
          by_cases hlen' : sig.length = 64
          · by_cases hv : crypto.verify pub (domainSeparator ++ hashBytes) sig = true
            · simp [hlen, hlen', hv, checks, Except.toOption, pyResult]
            · simp [hlen, hlen', hv, checks, Except.toOption, pyResult, Py.fail]
          · simp [hlen, hlen', checks, Except.toOption, pyResult, Py.fail]
      · simp [hlen, checks, Except.toOption, pyResult, Py.fail]

theorem ts_checkSignature {entry : List (JsStr × Doc)} (hx : StringOrAbsent (lit "x") entry)
    (keyId : Ts.JsVal) :
    Ts.checkSignature crypto (Ts.ofMembers entry) keyId (.str signature) hashBytes
      = tsResult hashBytes keyId (checks crypto hashBytes (tsKey entry)
          (Ts.b64urlDecode (.str signature)).toOption) := by
  have hget : get? (lit "x") (Ts.ofMembers entry) = (get? (lit "x") entry).map Ts.ofDoc :=
    Ts.get?_ofMembers (lit "x") entry
  unfold Ts.checkSignature tsKey
  rcases hx with hx | ⟨x, hx⟩
  · rw [hget, hx]
    rfl
  · rw [hget, hx]
    have hkey : Ts.ofDoc (.str x) = .str x := rfl
    simp only [Option.map_some, hkey]
    -- the empty text is refused before decoding, and would decode to no bytes
    by_cases hempty : x = []
    · subst hempty
      have hnil : Ts.b64urlDecode (.str []) = .ok [] := rfl
      simp [Ts.truthy, hnil, checks, Except.toOption, tsResult, Ts.fail]
    · have htruthy : Ts.truthy (.str x) = true := decide_eq_true hempty
      simp only [htruthy, if_true]
      cases hpub : Ts.b64urlDecode (.str x) with
      | error e => rfl
      | ok pub =>
        by_cases hlen : pub.length = 32
        · cases hdec : Ts.b64urlDecode (.str signature) with
          | error e => simp [hlen, checks, Except.toOption, tsResult, Ts.fail]
          | ok sig =>
            by_cases hlen' : sig.length = 64
            · by_cases hv : crypto.verify pub (domainSeparator ++ hashBytes) sig = true
              · simp [hlen, hlen', hv, checks, Except.toOption, tsResult]
              · simp [hlen, hlen', hv, checks, Except.toOption, tsResult, Ts.fail]
            · simp [hlen, hlen', checks, Except.toOption, tsResult, Ts.fail]
        · simp [hlen, checks, Except.toOption, tsResult, Ts.fail]

/-- **The checks part ways** where the stricter decoder gives nothing and
the other the right length. -/
theorem checks_eq_iff {pub pub' sig sig' : Option Bytes} (hpub : ∀ b, pub' = some b → pub = some b)
    (hsig : ∀ b, sig' = some b → sig = some b) :
    checks crypto hashBytes pub sig = checks crypto hashBytes pub' sig'
      ↔ ¬ ((pub' = none ∧ ∃ b, pub = some b ∧ b.length = 32)
        ∨ ((∃ b, pub' = some b ∧ b.length = 32) ∧ sig' = none
          ∧ ∃ b, sig = some b ∧ b.length = 64)) := by
  cases pub' with
  | none =>
    cases pub with
    | none => simp [checks]
    | some b =>
      by_cases hlen : b.length = 32
      · cases sig with
        | none => simp [checks, hlen]
        | some s =>
          by_cases hlen' : s.length = 64
          · by_cases hv : crypto.verify b (domainSeparator ++ hashBytes) s = true
            · simp [checks, hlen, hlen', hv]
            · simp [checks, hlen, hlen', hv]
          · simp [checks, hlen, hlen']
      · simp [checks, hlen]
  | some b =>
    obtain rfl := hpub b rfl
    by_cases hlen : b.length = 32
    · cases sig' with
      | none =>
        cases sig with
        | none => simp [checks, hlen]
        | some s =>
          by_cases hlen' : s.length = 64
          · by_cases hv : crypto.verify b (domainSeparator ++ hashBytes) s = true
            · simp [checks, hlen, hlen', hv]
            · simp [checks, hlen, hlen', hv]
          · simp [checks, hlen, hlen']
      | some s =>
        obtain rfl := hsig s rfl
        simp
    · simp [checks, hlen]

/-! ## The lookup -/

/-- The first entry with the key id. -/
def entryFor (keyId : Doc) (entries : List (List (JsStr × Doc))) : Option (List (JsStr × Doc)) :=
  entries.find? fun e => get? (lit "kid") e = some keyId

/-- The entry Python takes: `null` is the `kid` an entry does not have. -/
def pyEntry (keyId : Doc) (entries : List (List (JsStr × Doc))) : Option (List (JsStr × Doc)) :=
  entries.find? fun e => (get? (lit "kid") e).getD .null = keyId

/-- A key id as the claim has it: a string or `null`. -/
def StringOrNull (keyId : Doc) : Prop := keyId = .null ∨ ∃ s, keyId = .str s

variable {entries : List (List (JsStr × Doc))} {keyId : Doc}

theorem py_findKey (hkeyId : StringOrNull keyId)
    (hentries : ∀ e ∈ entries, StringOrAbsent (lit "kid") e) :
    Py.findKey (Py.ofDoc keyId) (entries.map fun e => .obj (Py.ofMembers e))
      = .ok ((pyEntry keyId entries).map Py.ofMembers) := by
  induction entries with
  | nil => rfl
  | cons e entries ih =>
    rw [List.forall_mem_cons] at hentries
    have hget : get? (lit "kid") (Py.ofMembers e) = (get? (lit "kid") e).map Py.ofDoc :=
      Py.get?_ofMembers (lit "kid") e
    have heq : Py.pyEq (Py.getD (lit "kid") (Py.ofMembers e)) (Py.ofDoc keyId)
        = decide ((get? (lit "kid") e).getD .null = keyId) := by
      rw [Py.getD, hget]
      rcases hkeyId with rfl | ⟨t, rfl⟩
      · rcases hentries.1 with hk | ⟨s, hk⟩
        · rw [hk]; rfl
        · rw [hk]; rfl
      · have hstr (v : Doc) : Py.ofDoc v = .str (decode t) ↔ v = .str t := by
          cases v <;> simp [Py.ofDoc, decode_injective.eq_iff]
        change Py.pyEq _ (.str (decode t)) = _
        rw [Py.pyEq_str_right]
        cases get? (lit "kid") e with
        | none => rfl
        | some v => exact decide_eq_decide.mpr (hstr v)
    rw [List.map_cons, Py.findKey, heq, pyEntry, List.find?_cons]
    by_cases hk : (get? (lit "kid") e).getD .null = keyId
    · simp only [hk, decide_true, if_true, Option.map_some]
    · simp only [hk, decide_false, Bool.false_eq_true, if_false]
      exact ih hentries.2

theorem ts_findKey (hkeyId : StringOrNull keyId)
    (hentries : ∀ e ∈ entries, StringOrAbsent (lit "kid") e) :
    Ts.findKey (Ts.ofDoc keyId) (entries.map fun e => .obj (Ts.ofMembers e))
      = .ok ((entryFor keyId entries).map Ts.ofMembers) := by
  induction entries with
  | nil => rfl
  | cons e entries ih =>
    rw [List.forall_mem_cons] at hentries
    have hget : get? (lit "kid") (Ts.ofMembers e) = (get? (lit "kid") e).map Ts.ofDoc :=
      Ts.get?_ofMembers (lit "kid") e
    have heq : Ts.propEq (lit "kid") (Ts.ofMembers e) (Ts.ofDoc keyId)
        = decide (get? (lit "kid") e = some keyId) := by
      unfold Ts.propEq
      rw [hget]
      rcases hentries.1 with hk | ⟨s, hk⟩
      · rw [hk]
        simp
      · rw [hk]
        rcases hkeyId with rfl | ⟨t, rfl⟩
        · rfl
        · simp [Ts.ofDoc, Ts.strictEq]
    rw [List.map_cons, Ts.findKey, heq, entryFor, List.find?_cons]
    by_cases hk : get? (lit "kid") e = some keyId
    · simp only [hk, decide_true, if_true, Option.map_some]
    · simp only [hk, decide_false, Bool.false_eq_true, if_false]
      exact ih hentries.2

/-- The entry is an Ed25519 key. -/
def EdKey (e : List (JsStr × Doc)) : Prop :=
  get? (lit "kty") e = some (.str (lit "OKP")) ∧ get? (lit "crv") e = some (.str (lit "Ed25519"))

instance : DecidablePred EdKey := fun _ => inferInstanceAs (Decidable (_ ∧ _))

/-- Lookup, key type, and the last three checks. -/
def afterLookup (crypto : Crypto) (hashBytes : Bytes) (entry : Option (List (JsStr × Doc)))
    (key : List (JsStr × Doc) → Option Bytes) (sig : Option Bytes) : Option VerifyError :=
  match entry with
  | none => some .keyNotFound
  | some e =>
    if EdKey e then checks crypto hashBytes (key e) sig else some .unsupportedKeyType

/-- The JWKS document holds the entries. -/
def HasEntries (jwks : List (JsStr × Doc)) (entries : List (List (JsStr × Doc))) : Prop :=
  get? (lit "keys") jwks = some (.arr (entries.map .obj))
    ∨ get? (lit "keys") jwks = none ∧ entries = []

variable {jwks : List (JsStr × Doc)}

theorem py_checkKey (hjwks : HasEntries jwks entries) (hkeyId : StringOrNull keyId)
    (hkid : ∀ e ∈ entries, StringOrAbsent (lit "kid") e)
    (hx : ∀ e ∈ entries, StringOrAbsent (lit "x") e) :
    Py.checkKey crypto (Py.ofMembers jwks) (Py.ofDoc keyId) (.str (decode signature)) hashBytes
      = .ok (pyResult hashBytes (Py.ofDoc keyId) (afterLookup crypto hashBytes
          (pyEntry keyId entries) pyKey (Py.b64urlDecodeStr (decode signature)).toOption)) := by
  have hkeys : Py.iterate ((get? (lit "keys") (Py.ofMembers jwks)).getD (.arr []))
      = .ok (entries.map fun e => .obj (Py.ofMembers e)) := by
    have hget : get? (lit "keys") (Py.ofMembers jwks) = (get? (lit "keys") jwks).map Py.ofDoc :=
      Py.get?_ofMembers (lit "keys") jwks
    rw [hget]
    rcases hjwks with h | ⟨h, rfl⟩
    · rw [h, Option.map_some, Option.getD_some, Py.ofDoc, map_arr, Py.iterate, List.map_map]
      exact congrArg Except.ok (List.map_congr_left fun e _ => Py.ofDoc_obj e)
    · rw [h]
      rfl
  have hmember (k s : JsStr) (e : List (JsStr × Doc)) :
      Py.pyEq (Py.getD (decode k) (Py.ofMembers e)) (.str (decode s))
        = decide (get? k e = some (.str s)) := by
    have hstr (v : Doc) : Py.ofDoc v = .str (decode s) ↔ v = .str s := by
      cases v <;> simp [Py.ofDoc, decode_injective.eq_iff]
    rw [Py.pyEq_getD_str, Py.get?_ofMembers]
    cases get? k e <;> simp [hstr]
  unfold Py.checkKey
  rw [hkeys, ok_bind, py_findKey hkeyId hkid, ok_bind]
  cases hentry : pyEntry keyId entries with
  | none => rfl
  | some e =>
    have hkty := hmember (lit "kty") (lit "OKP") e
    have hcrv := hmember (lit "crv") (lit "Ed25519") e
    change (if (!Py.pyEq (Py.getD (decode (lit "kty")) (Py.ofMembers e)) (.str (decode (lit "OKP")))
        || !Py.pyEq (Py.getD (decode (lit "crv")) (Py.ofMembers e))
          (.str (decode (lit "Ed25519")))) = true
      then .ok (Py.fail .unsupportedKeyType (Py.ofDoc keyId) (hex hashBytes))
      else Py.checkSignature crypto (Py.ofMembers e) (Py.ofDoc keyId) (.str (decode signature))
        hashBytes) = _
    rw [hkty, hcrv, py_checkSignature (hx e (List.mem_of_find?_eq_some hentry)), afterLookup]
    by_cases hed : EdKey e
    · rw [if_pos hed, if_neg (by simp [hed.1, hed.2])]
    · rw [if_neg hed, if_pos (by simpa [EdKey, imp_iff_not_or] using hed)]
      rfl

theorem ts_checkKey (hjwks : HasEntries jwks entries) (hkeyId : StringOrNull keyId)
    (hkid : ∀ e ∈ entries, StringOrAbsent (lit "kid") e)
    (hx : ∀ e ∈ entries, StringOrAbsent (lit "x") e) :
    Ts.checkKey crypto (Ts.ofMembers jwks) (Ts.ofDoc keyId) (.str signature) hashBytes
      = .ok (tsResult hashBytes (Ts.ofDoc keyId) (afterLookup crypto hashBytes
          (entryFor keyId entries) tsKey (Ts.b64urlDecode (.str signature)).toOption)) := by
  have hkeys : Ts.jwksKeys (Ts.ofMembers jwks)
      = .ok (entries.map fun e => .obj (Ts.ofMembers e)) := by
    unfold Ts.jwksKeys
    rw [Ts.get?_ofMembers]
    rcases hjwks with h | ⟨h, rfl⟩
    · rw [h, Option.map_some, Ts.ofDoc, map_arr, List.map_map]
      exact congrArg Except.ok (List.map_congr_left fun e _ => Ts.ofDoc_obj e)
    · rw [h]
      rfl
  have hmember (k s : JsStr) (e : List (JsStr × Doc)) :
      Ts.propEq k (Ts.ofMembers e) (.str s) = decide (get? k e = some (.str s)) := by
    have hstr (v : Doc) : Ts.ofDoc v = .str s ↔ v = .str s := by
      cases v <;> simp [Ts.ofDoc]
    rw [Ts.propEq_str, Ts.get?_ofMembers]
    cases get? k e <;> simp [hstr]
  unfold Ts.checkKey
  rw [hkeys, ok_bind, ts_findKey hkeyId hkid, ok_bind]
  cases hentry : entryFor keyId entries with
  | none => rfl
  | some e =>
    simp only [Option.map_some, hmember, ts_checkSignature (hx e (List.mem_of_find?_eq_some hentry)),
      afterLookup]
    by_cases hed : EdKey e
    · rw [if_pos hed, if_neg (by simp [hed.1, hed.2])]
    · rw [if_neg hed, if_pos (by simpa [EdKey, imp_iff_not_or] using hed)]
      rfl

/-! ## Agreement -/

variable {r : List (JsStr × Doc)} {claimed : JsStr} {p : Py.PyDict} {q : Ts.JsObject}
variable {bytes : Bytes}

/-- The two verifiers return the same flag and the same code. -/
def Agree (crypto : Crypto) (r jwks : List (JsStr × Doc)) : Prop :=
  ∃ a b, Py.verifyReceipt crypto (Py.ofMembers r) (Py.ofMembers jwks) = .ok a
    ∧ Ts.verifyReceipt crypto (Ts.ofMembers r) (Ts.ofMembers jwks) = .ok b
    ∧ a.valid = b.valid ∧ a.error = b.error

/-- Text of an entry, or else the signature's, that only Python's decoder
takes to the right length. -/
def LenientText (signature : JsStr) (e : List (JsStr × Doc)) : Prop :=
  ∃ x, get? (lit "x") e = some (.str x) ∧
    (Lenient x 32 ∨ (∃ bs, Ts.b64urlDecode (.str x) = .ok bs ∧ bs.length = 32)
      ∧ Lenient signature 64)

/-- Where the verifiers part ways: past the hash check, a `null` key id
with an entry that has no `kid`, or a key, or else a signature, in text
that only Python's decoder takes. -/
def PartWays (crypto : Crypto) (bytes : Bytes) (claimed signature : JsStr) (keyId : Doc)
    (entries : List (List (JsStr × Doc))) : Prop :=
  claimed = hex (crypto.sha256 bytes) ∧
    ((keyId = .null ∧ ∃ e ∈ entries, get? (lit "kid") e = none) ∨
      ∃ e, entryFor keyId entries = some e ∧ EdKey e ∧ LenientText signature e)

theorem toOption_eq_some_iff {ε α : Type} {x : Except ε α} {a : α} :
    x.toOption = some a ↔ x = .ok a := by
  cases x <;> simp [Except.toOption]

theorem toOption_eq_none_iff {ε α : Type} {x : Except ε α} :
    x.toOption = none ↔ ∀ a, x ≠ .ok a := by
  cases x <;> simp [Except.toOption]

theorem checks_ne {pub sig : Option Bytes} {err : VerifyError} (h : err ≠ .invalidKeyLength)
    (h' : err ≠ .invalidSignatureLength) (h'' : err ≠ .invalidSignature) :
    checks crypto hashBytes pub sig ≠ some err := by
  intro heq
  unfold checks at heq
  split at heq
  · exact h (Option.some.inj heq).symm
  split_ifs at heq
  · exact h (Option.some.inj heq).symm
  split at heq
  · exact h' (Option.some.inj heq).symm
  split_ifs at heq
  · exact h' (Option.some.inj heq).symm
  · exact h'' (Option.some.inj heq).symm

/-- Only a lookup that fails gives `KEY_NOT_FOUND`. -/
theorem afterLookup_eq_keyNotFound_iff {entry : Option (List (JsStr × Doc))}
    {key : List (JsStr × Doc) → Option Bytes} {sig : Option Bytes} :
    afterLookup crypto hashBytes entry key sig = some .keyNotFound ↔ entry = none := by
  cases entry with
  | none => simp [afterLookup]
  | some e =>
    simp only [afterLookup, reduceCtorEq, iff_false]
    split_ifs
    · exact checks_ne (by decide) (by decide) (by decide)
    · decide

/-- The last three checks agree on an entry but for lenient text. -/
theorem checks_entry_eq_iff {e : List (JsStr × Doc)} (hx : StringOrAbsent (lit "x") e) :
    checks crypto hashBytes (pyKey e) (Py.b64urlDecodeStr (decode signature)).toOption
        = checks crypto hashBytes (tsKey e) (Ts.b64urlDecode (.str signature)).toOption
      ↔ ¬ LenientText signature e := by
  have hstrict {s : JsStr} {b : Bytes} (h : (Ts.b64urlDecode (.str s)).toOption = some b) :
      (Py.b64urlDecodeStr (decode s)).toOption = some b :=
    toOption_eq_some_iff.mpr (py_decode_of_ts (toOption_eq_some_iff.mp h))
  unfold LenientText
  rcases hx with hx | ⟨x, hx⟩
  · simp [pyKey, tsKey, hx, checks]
  · have hpy : pyKey e = (Py.b64urlDecodeStr (decode x)).toOption := by rw [pyKey, hx]
    have hts : tsKey e = (Ts.b64urlDecode (.str x)).toOption := by rw [tsKey, hx]
    rw [hpy, hts, checks_eq_iff (fun _ => hstrict) (fun _ => hstrict)]
    simp only [hx, Option.some.injEq, Json.str.injEq, exists_eq_left', Lenient,
      toOption_eq_some_iff, toOption_eq_none_iff, and_comm]

theorem pyEntry_str (t : JsStr) : pyEntry (.str t) entries = entryFor (.str t) entries := by
  unfold pyEntry entryFor
  refine congrArg (entries.find? ·) (funext fun e => decide_eq_decide.mpr ?_)
  cases get? (lit "kid") e <;> simp

theorem entryFor_null (hkid : ∀ e ∈ entries, StringOrAbsent (lit "kid") e) :
    entryFor .null entries = none := by
  refine List.find?_eq_none.mpr fun e he => ?_
  rcases hkid e he with h | ⟨s, h⟩ <;> simp [h]

theorem pyEntry_null (hkid : ∀ e ∈ entries, StringOrAbsent (lit "kid") e) :
    pyEntry .null entries = none ↔ ∀ e ∈ entries, get? (lit "kid") e ≠ none := by
  unfold pyEntry
  rw [List.find?_eq_none]
  refine forall₂_congr fun e he => ?_
  rcases hkid e he with h | ⟨s, h⟩ <;> simp [h]

/-- **The outcomes past the hash check.** By the kind of key id: with a
string both look up one entry. -/
theorem afterLookup_eq_iff (hkeyId : StringOrNull keyId)
    (hkid : ∀ e ∈ entries, StringOrAbsent (lit "kid") e)
    (hx : ∀ e ∈ entries, StringOrAbsent (lit "x") e) :
    afterLookup crypto hashBytes (pyEntry keyId entries) pyKey
        (Py.b64urlDecodeStr (decode signature)).toOption
      = afterLookup crypto hashBytes (entryFor keyId entries) tsKey
        (Ts.b64urlDecode (.str signature)).toOption
      ↔ ¬ ((keyId = .null ∧ ∃ e ∈ entries, get? (lit "kid") e = none) ∨
        ∃ e, entryFor keyId entries = some e ∧ EdKey e ∧ LenientText signature e) := by
  rcases hkeyId with rfl | ⟨t, rfl⟩
  · rw [entryFor_null hkid]
    change _ = some VerifyError.keyNotFound ↔ _
    rw [afterLookup_eq_keyNotFound_iff, pyEntry_null hkid]
    simp
  · rw [pyEntry_str]
    cases hentry : entryFor (.str t) entries with
    | none => simp [afterLookup]
    | some e =>
      have hxe := hx e (List.mem_of_find?_eq_some hentry)
      by_cases hed : EdKey e
      · rw [afterLookup, afterLookup, if_pos hed, if_pos hed, checks_entry_eq_iff hxe]
        simp [hed]
      · simp [afterLookup, hed]

/-- What the claim asks of a JWKS: its entries are objects whose `kid`
and `x` are strings or absent. -/
structure WellTyped (jwks : List (JsStr × Doc)) (entries : List (List (JsStr × Doc))) : Prop where
  keys : HasEntries jwks entries
  kid : ∀ e ∈ entries, StringOrAbsent (lit "kid") e
  x : ∀ e ∈ entries, StringOrAbsent (lit "x") e

theorem py_verifyReceipt (hjwks : WellTyped jwks entries) (hkeyId : StringOrNull keyId)
    (hp : Py.buildPayload (Py.ofMembers r) = .ok p) (hb : Py.canonicalize (.obj p) = .ok bytes)
    (hclaimed : get? (lit "canonical_hash") r = some (.str claimed))
    (hsig : get? (lit "signature") r = some (.str signature))
    (hkey : get? (lit "key_id") r = some keyId) :
    Py.verifyReceipt crypto (Py.ofMembers r) (Py.ofMembers jwks)
      = .ok (pyResult (crypto.sha256 bytes) (Py.ofDoc keyId)
        (if claimed = hex (crypto.sha256 bytes) then
          afterLookup crypto (crypto.sha256 bytes) (pyEntry keyId entries) pyKey
            (Py.b64urlDecodeStr (decode signature)).toOption
        else some .hashMismatch)) := by
  have hmeta {k : JsStr} {v : Doc} (h : get? k r = some v) :
      get? (decode k) (Py.ofMembers r) = some (Py.ofDoc v) := by
    rw [Py.get?_ofMembers, h, Option.map_some]
  have hhex : decode (hex (crypto.sha256 bytes)) = hex (crypto.sha256 bytes) := by
    refine decode_ofChars fun c hc => ?_
    obtain ⟨b, -, hc⟩ := List.mem_flatMap.mp hc
    exact hexByteChars_lt c hc
  refine Py.verifyReceipt_eq_ok_iff.mpr ⟨_, _, _, crypto.sha256 bytes, hmeta hclaimed, hmeta hsig,
    hmeta hkey, Py.receiptDigest_eq_ok_iff.mpr ⟨p, bytes, hp, hb, rfl⟩, ?_⟩
  have heq : Py.ofDoc (.str claimed) = .str (hex (crypto.sha256 bytes))
      ↔ claimed = hex (crypto.sha256 bytes) := by
    change Json.str (decode claimed) = .str (hex (crypto.sha256 bytes)) ↔ _
    rw [Json.str.injEq, ← hhex, decode_injective.eq_iff]
  by_cases hc : claimed = hex (crypto.sha256 bytes)
  · rw [if_pos (heq.mpr hc), if_pos hc]
    exact py_checkKey hjwks.keys hkeyId hjwks.kid hjwks.x
  · rw [if_neg (mt heq.mp hc), if_neg hc]
    rfl

theorem ts_verifyReceipt (hjwks : WellTyped jwks entries) (hkeyId : StringOrNull keyId)
    (hq : Ts.buildPayload (Ts.ofMembers r) = .ok q) (hb : Ts.canonicalize (.obj q) = .ok bytes)
    (hclaimed : get? (lit "canonical_hash") r = some (.str claimed))
    (hsig : get? (lit "signature") r = some (.str signature))
    (hkey : get? (lit "key_id") r = some keyId) :
    Ts.verifyReceipt crypto (Ts.ofMembers r) (Ts.ofMembers jwks)
      = .ok (tsResult (crypto.sha256 bytes) (Ts.ofDoc keyId)
        (if claimed = hex (crypto.sha256 bytes) then
          afterLookup crypto (crypto.sha256 bytes) (entryFor keyId entries) tsKey
            (Ts.b64urlDecode (.str signature)).toOption
        else some .hashMismatch)) := by
  have hmeta {k : JsStr} {v : Doc} (h : get? k r = some v) :
      get? k (Ts.ofMembers r) = some (Ts.ofDoc v) := by
    rw [Ts.get?_ofMembers, h, Option.map_some]
  refine Ts.verifyReceipt_eq_ok_iff.mpr ⟨_, _, _, crypto.sha256 bytes, hmeta hclaimed, hmeta hsig,
    hmeta hkey, Ts.receiptDigest_eq_ok_iff.mpr ⟨q, bytes, hq, hb, rfl⟩, ?_⟩
  have heq : Ts.ofDoc (.str claimed) = .str (hex (crypto.sha256 bytes))
      ↔ claimed = hex (crypto.sha256 bytes) := by
    change Json.str claimed = .str (hex (crypto.sha256 bytes)) ↔ _
    rw [Json.str.injEq]
  by_cases hc : claimed = hex (crypto.sha256 bytes)
  · rw [if_pos (heq.mpr hc), if_pos hc]
    exact ts_checkKey hjwks.keys hkeyId hjwks.kid hjwks.x
  · rw [if_neg (mt heq.mp hc), if_neg hc]
    rfl

theorem agree_iff {k : Py.PyVal} {k' : Ts.JsVal} {e e' : Option VerifyError}
    (hpy : Py.verifyReceipt crypto (Py.ofMembers r) (Py.ofMembers jwks)
      = .ok (pyResult hashBytes k e))
    (hts : Ts.verifyReceipt crypto (Ts.ofMembers r) (Ts.ofMembers jwks)
      = .ok (tsResult hashBytes k' e')) :
    Agree crypto r jwks ↔ e = e' := by
  constructor
  · rintro ⟨a, b, ha, hb, -, herror⟩
    obtain rfl := Except.ok.inj (hpy.symm.trans ha)
    obtain rfl := Except.ok.inj (hts.symm.trans hb)
    exact herror
  · rintro rfl
    exact ⟨_, _, hpy, hts, rfl, rfl⟩

/-- **When the verifiers agree.** On a receipt both canonicalize to the
same bytes they return the same flag and code, unless `PartWays`. -/
theorem verifiers_agree_iff (hjwks : WellTyped jwks entries) (hkeyId : StringOrNull keyId)
    (hp : Py.buildPayload (Py.ofMembers r) = .ok p) (hb : Py.canonicalize (.obj p) = .ok bytes)
    (hq : Ts.buildPayload (Ts.ofMembers r) = .ok q) (hb' : Ts.canonicalize (.obj q) = .ok bytes)
    (hclaimed : get? (lit "canonical_hash") r = some (.str claimed))
    (hsig : get? (lit "signature") r = some (.str signature))
    (hkey : get? (lit "key_id") r = some keyId) :
    Agree crypto r jwks ↔ ¬ PartWays crypto bytes claimed signature keyId entries := by
  rw [agree_iff (py_verifyReceipt hjwks hkeyId hp hb hclaimed hsig hkey)
    (ts_verifyReceipt hjwks hkeyId hq hb' hclaimed hsig hkey)]
  unfold PartWays
  by_cases hc : claimed = hex (crypto.sha256 bytes)
  · rw [if_pos hc, if_pos hc, afterLookup_eq_iff hkeyId hjwks.kid hjwks.x]
    simp [hc]
  · simp [hc]

/-- The sample's one entry. -/
def sampleEntry : List (JsStr × Doc) :=
  [(lit "kty", .str (lit "OKP")), (lit "crv", .str (lit "Ed25519")),
    (lit "x", .str (Base64.encodeUrl Sample.publicKey)), (lit "kid", .str (lit "k1")),
    (lit "use", .str (lit "sig"))]

theorem wellTyped_sample : WellTyped Sample.jwks [sampleEntry] where
  keys := Or.inl rfl
  kid := List.forall_mem_singleton.mpr (Or.inr ⟨_, rfl⟩)
  x := List.forall_mem_singleton.mpr (Or.inr ⟨_, rfl⟩)

/-- Both decoders take the sample's texts, and the verifiers agree on it. -/
theorem verifiers_agree_sample :
    Agree Sample.crypto (Sample.receipt (.obj [])) Sample.jwks := by
  have hiff : Agree Sample.crypto (Sample.receipt (.obj [])) Sample.jwks
      ↔ ¬ PartWays Sample.crypto Sample.canonicalBytes (hex Sample.digest)
        (Base64.encodeUrl Sample.signature) (.str (lit "k1")) [sampleEntry] :=
    verifiers_agree_iff (p := Py.ofMembers (Sample.payload (.obj [])))
      (q := Ts.ofMembers (Sample.payload (.obj []))) wellTyped_sample (Or.inr ⟨_, rfl⟩)
      (by decide +kernel) (by decide +kernel) (by decide +kernel) (by decide +kernel)
      (by decide) (by decide) (by decide)
  have hkeyText : Ts.b64urlDecode (.str (Base64.encodeUrl Sample.publicKey))
      = .ok Sample.publicKey := by decide +kernel
  have hsigText : Ts.b64urlDecode (.str (Base64.encodeUrl Sample.signature))
      = .ok Sample.signature := by decide +kernel
  refine hiff.mpr ?_
  rintro ⟨-, ⟨hnull, -⟩ | ⟨e, he, -, x, hx, hlenient⟩⟩
  · cases hnull
  · obtain rfl := List.mem_singleton.mp (List.mem_of_find?_eq_some he)
    obtain rfl := Json.str.inj (Option.some.inj hx)
    rcases hlenient with hkey | ⟨-, hsig⟩
    · exact hkey.2 _ hkeyText
    · exact hsig.2 _ hsigText

/-- The sample receipt, its signature text followed by four newlines. -/
def foldedReceipt : List (JsStr × Doc) :=
  Sample.payload (.obj []) ++ [(lit "canonical_hash", .str (hex Sample.digest)),
    (lit "signature", .str (Base64.encodeUrl Sample.signature ++ lit "\n\n\n\n")),
    (lit "key_id", .str (lit "k1"))]

/-- **The verifiers do not agree**: newlines after the signature's text
leave the receipt valid in Python and not in TypeScript. -/
theorem verifiers_agree_fails :
    ¬ ∀ (crypto : Crypto) (r jwks : List (JsStr × Doc)) (entries : List (List (JsStr × Doc)))
        (keyId : Doc) (claimed signature : JsStr) (p : Py.PyDict) (q : Ts.JsObject) (bytes : Bytes),
      WellTyped jwks entries → StringOrNull keyId → Py.buildPayload (Py.ofMembers r) = .ok p →
      Py.canonicalize (.obj p) = .ok bytes → Ts.buildPayload (Ts.ofMembers r) = .ok q →
      Ts.canonicalize (.obj q) = .ok bytes →
      get? (lit "canonical_hash") r = some (.str claimed) →
      get? (lit "signature") r = some (.str signature) → get? (lit "key_id") r = some keyId →
      Agree crypto r jwks := by
  intro h
  obtain ⟨a, b, ha, hb, hvalid, -⟩ := h Sample.crypto foldedReceipt Sample.jwks [sampleEntry]
    (.str (lit "k1")) _ _ (Py.ofMembers (Sample.payload (.obj [])))
    (Ts.ofMembers (Sample.payload (.obj []))) Sample.canonicalBytes wellTyped_sample
    (Or.inr ⟨_, rfl⟩) (by decide +kernel) (by decide +kernel) (by decide +kernel)
    (by decide +kernel) rfl rfl rfl
  have hpy : Py.verifyReceipt Sample.crypto (Py.ofMembers foldedReceipt) (Py.ofMembers Sample.jwks)
      = .ok { valid := true, error := none, keyId := .str (lit "k1"),
              canonicalHash := hex Sample.digest } := by decide +kernel
  have hts : Ts.verifyReceipt Sample.crypto (Ts.ofMembers foldedReceipt) (Ts.ofMembers Sample.jwks)
      = .ok (Ts.fail .invalidSignatureLength (.str (lit "k1")) (hex Sample.digest)) := by
    decide +kernel
  obtain rfl := Except.ok.inj (hpy.symm.trans ha)
  obtain rfl := Except.ok.inj (hts.symm.trans hb)
  cases hvalid

end Parity

end OpenTerms
