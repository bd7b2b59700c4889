import OpenTerms.Py.Base64
import OpenTerms.Py.HashBinding
import OpenTerms.Py.Signing

/-!
# What `verify_receipt` reports

A receipt fails with the code of the first check it fails. `Fails` says
what each check asks, of the receipt and of the key found for it, whatever
the members hold; `verify_receipt` reports the first failure, or raises
where a value reaches a stage that does not take it (`Checkable`). How
deep a receipt may nest before Python runs out of stack is not modelled.

What is reported valid is signed member by member, but for the nulls the
canonicalizer strips: a required member may be null, and then the
signature does not cover it (`binds_required_iff`).
-/

namespace OpenTerms

namespace Py

open Json

variable {crypto : Crypto} {receipt jwks : PyDict} {keys : List PyDict}

/-! ## The checks -/

/-- The codes in the order of the checks behind them. -/
def checkOrder : List VerifyError :=
  [.hashMismatch, .keyNotFound, .unsupportedKeyType, .invalidKeyLength, .invalidSignatureLength,
    .invalidSignature]

/-- A value that is base64 text of `n` bytes. -/
def DecodesTo (v : PyVal) (n : ℕ) : Prop := ∃ bs, b64urlDecode v = .ok bs ∧ bs.length = n

/-- An Ed25519 key. -/
def EdKey (jwk : PyDict) : Prop :=
  get? (lit "kty") jwk = some (.str (lit "OKP")) ∧ get? (lit "crv") jwk = some (.str (lit "Ed25519"))

instance (jwk : PyDict) : Decidable (EdKey jwk) := inferInstanceAs (Decidable (_ ∧ _))

/-- The first key with the receipt's `key_id`. -/
def keyFor (receipt : PyDict) (keys : List PyDict) : Option PyDict :=
  keys.find? fun jwk => pyEq (getD (lit "kid") jwk) (getD (lit "key_id") receipt)

/-- The signature is one of the receipt's hash under the key found. -/
def SignatureVerifies (crypto : Crypto) (receipt jwk : PyDict) : Prop :=
  ∃ pub sig digest, b64urlDecode (getD (lit "x") jwk) = .ok pub
    ∧ b64urlDecode (getD (lit "signature") receipt) = .ok sig
    ∧ receiptDigest crypto receipt = .ok digest
    ∧ crypto.verify pub (domainSeparator ++ digest) sig = true

/-- The receipt fails the check behind a code. -/
def Fails (crypto : Crypto) (receipt : PyDict) (keys : List PyDict) : VerifyError → Prop
  | .hashMismatch => ¬ PassesHashCheck crypto receipt
  | .keyNotFound => keyFor receipt keys = none
  | .unsupportedKeyType => ∃ jwk ∈ keyFor receipt keys, ¬ EdKey jwk
  | .invalidKeyLength => ∃ jwk ∈ keyFor receipt keys, ¬ DecodesTo (getD (lit "x") jwk) 32
  | .invalidSignatureLength => ¬ DecodesTo (getD (lit "signature") receipt) 64
  | .invalidSignature => ∃ jwk ∈ keyFor receipt keys, ¬ SignatureVerifies crypto receipt jwk

/-- The result is valid where no check fails, and else it has the code of
the first that does. -/
def Reports (fails : VerifyError → Prop) (res : VerifyResult) : Prop :=
  match res.error with
  | none => res.valid = true ∧ ∀ code ∈ checkOrder, ¬ fails code
  | some code => res.valid = false ∧ ∃ before after, checkOrder = before ++ code :: after
      ∧ fails code ∧ ∀ earlier ∈ before, ¬ fails earlier

theorem reports_fail {fails : VerifyError → Prop} {code : VerifyError} {keyId : PyVal}
    {hash : PyStr} (before : List VerifyError) {after : List VerifyError}
    (horder : checkOrder = before ++ code :: after) (hcode : fails code)
    (hbefore : ∀ earlier ∈ before, ¬ fails earlier) : Reports fails (fail code keyId hash) :=
  ⟨rfl, before, after, horder, hcode, hbefore⟩

/-! ## What the checks take -/

/-- A value `canonicalize` takes. -/
def Canonicalizable (v : PyVal) : Prop :=
  Validated v ∧ Every (fun _ => True) NoSurrogate NoSurrogate v.stripNulls

theorem canonicalizable_null : Canonicalizable .null := ⟨trivial, trivial⟩

/-- A member that is a string, if it is there. -/
def TextIfPresent (k : PyStr) (ms : PyDict) : Prop := ∀ v ∈ get? k ms, ∃ s, v = .str s

/-- Every value is of a type the check it reaches takes: what is signed
can be canonicalized, and past the hash check the key's `x` and, where
that is 32 bytes, the signature are text. -/
structure Checkable (crypto : Crypto) (receipt : PyDict) (keys : List PyDict) : Prop where
  signed : ∀ k ∈ signedRequired ++ payloadKeysOptional, Canonicalizable (getD k receipt)
  key : PassesHashCheck crypto receipt → ∀ jwk ∈ keyFor receipt keys, EdKey jwk →
    TextIfPresent (lit "x") jwk
  signature : PassesHashCheck crypto receipt → ∀ jwk ∈ keyFor receipt keys, EdKey jwk →
    DecodesTo (getD (lit "x") jwk) 32 → ∃ s, getD (lit "signature") receipt = .str s

/-! ## The payload -/

/-- A payload has each of its names once, and every one is a signed one. -/
theorem payload_names {payload : PyDict} (h : buildPayload receipt = .ok payload) :
    (names payload).Nodup ∧ ∀ k ∈ names payload, k ∈ signedRequired ++ payloadKeysOptional := by
  have hpick := buildPayload_eq_ok_iff.mp h
  refine ⟨(Clean.pick (p := fun _ => True) (fun _ _ => trivial) hpick).1, fun k hk => ?_⟩
  exact List.mem_append.mpr (mem_of_mem_names_pick signedRequired_disjoint hpick hk)

/-- A payload holds what the receipt does under each signed name, but for
the optional nulls. -/
theorem getD_payload {payload : PyDict} (h : buildPayload receipt = .ok payload) {k : PyStr}
    (hk : k ∈ signedRequired ++ payloadKeysOptional) : getD k payload = getD k receipt := by
  have hpick := get?_pick signedRequired_disjoint (buildPayload_eq_ok_iff.mp h) k
  unfold getD
  by_cases hreq : k ∈ signedRequired
  · rw [hpick, if_pos hreq]
  · have hopt : k ∈ payloadKeysOptional := (List.mem_append.mp hk).resolve_left hreq
    rw [hpick, if_neg hreq, if_pos hopt]
    cases get? k receipt with
    | none => rfl
    | some v =>
      by_cases hv : v = .null
      · subst hv
        rfl
      · simp [isNotNone, Option.filter, hv]

/-- A payload is canonicalized where each signed member can be. -/
theorem payload_canonicalizable {payload : PyDict} (h : buildPayload receipt = .ok payload) :
    Canonicalizable (.obj payload)
      ↔ ∀ k ∈ signedRequired ++ payloadKeysOptional, Canonicalizable (getD k receipt) := by
  obtain ⟨hnodup, hnames⟩ := payload_names h
  have hmember : ∀ m ∈ payload, m.1 ∈ signedRequired ++ payloadKeysOptional
      ∧ getD m.1 receipt = m.2 := by
    intro m hm
    have hk := hnames m.1 (List.mem_map_of_mem hm)
    refine ⟨hk, ?_⟩
    rw [← getD_payload h hk, getD, (get?_eq_some_iff hnodup).mpr hm, Option.getD_some]
  unfold Canonicalizable Validated
  rw [stripNulls_obj, every_obj, every_obj]
  constructor
  · rintro ⟨hvalid, htext⟩ k hk
    rw [← getD_payload h hk, getD]
    cases hget : get? k payload with
    | none => exact canonicalizable_null
    | some v =>
      have hm := mem_of_get? hget
      refine ⟨(hvalid _ hm).2, ?_⟩
      by_cases hnull : v = .null
      · subst hnull
        trivial
      · exact (htext (k, v.stripNulls) (List.mem_filterMap.mpr
          ⟨_, hm, stripMember_eq_some_iff.mpr ⟨hnull, rfl⟩⟩)).2
  · intro hall
    refine ⟨fun m hm => ?_, fun m' hm' => ?_⟩
    · obtain ⟨hk, hv⟩ := hmember m hm
      exact ⟨(signed_name hk).1, hv ▸ (hall m.1 hk).1⟩
    · obtain ⟨m, hm, hstrip⟩ := List.mem_filterMap.mp hm'
      obtain ⟨-, rfl⟩ := stripMember_eq_some_iff.mp hstrip
      obtain ⟨hk, hv⟩ := hmember m hm
      exact ⟨(signed_name hk).2, hv ▸ (hall m.1 hk).2⟩

/-- **When a receipt has a digest.** -/
theorem receiptDigest_isOk_iff (hrequired : ∀ k ∈ signedRequired, k ∈ names receipt) :
    (∃ digest, receiptDigest crypto receipt = .ok digest)
      ↔ ∀ k ∈ signedRequired ++ payloadKeysOptional, Canonicalizable (getD k receipt) := by
  obtain ⟨payload, hpayload⟩ : ∃ out, pick signedRequired payloadKeysOptional isNotNone receipt = .ok out :=
    pick_isOk_iff.mpr hrequired
  have hbuild := buildPayload_eq_ok_iff.mpr hpayload
  rw [← payload_canonicalizable hbuild, Canonicalizable, ← canonicalize_isOk_iff]
  constructor
  · rintro ⟨digest, hdigest⟩
    obtain ⟨payload', bytes, hpayload', hbytes, -⟩ := receiptDigest_eq_ok_iff.mp hdigest
    obtain rfl := Except.ok.inj (hbuild.symm.trans hpayload')
    exact ⟨bytes, hbytes⟩
  · rintro ⟨bytes, hbytes⟩
    exact ⟨_, receiptDigest_eq_ok_iff.mpr ⟨payload, bytes, hbuild, hbytes, rfl⟩⟩

/-! ## The report -/

/-- Decoding gives bytes, or refuses a text with a `ValueError`, or raises
on what is no text. -/
theorem decode_cases (v : PyVal) :
    (∃ s bs, v = .str s ∧ b64urlDecode v = .ok bs)
      ∨ (∃ s e, v = .str s ∧ b64urlDecode v = .error e ∧ e.isValueError = true)
      ∨ ((∀ s, v ≠ .str s) ∧ b64urlDecode v = .error .typeError) := by
  cases v with
  | str s =>
    cases hdecode : b64urlDecodeStr s with
    | ok bs => exact .inl ⟨s, bs, rfl, hdecode⟩
    | error e => exact .inr (.inl ⟨s, e, rfl, hdecode, isValueError_of_decode hdecode⟩)
  | _ => exact .inr (.inr ⟨fun s h => (nomatch h), rfl⟩)

theorem decodesTo_iff {v : PyVal} {bs : Bytes} {n : ℕ} (h : b64urlDecode v = .ok bs) :
    DecodesTo v n ↔ bs.length = n := by
  unfold DecodesTo
  simp [h]

theorem not_decodesTo {v : PyVal} {e : PyErr} {n : ℕ} (h : b64urlDecode v = .error e) :
    ¬ DecodesTo v n := by
  unfold DecodesTo
  simp [h]

open Classical in
/-- **The last three checks**, each on what passed the ones before. -/
theorem checkSignature_eq (jwk : PyDict) (keyId signature : PyVal) (digest : Bytes) :
    checkSignature crypto jwk keyId signature digest
      = if ¬ TextIfPresent (lit "x") jwk then .error .typeError
        else if ¬ DecodesTo (getD (lit "x") jwk) 32 then
          .ok (fail .invalidKeyLength keyId (hex digest))
        else if ¬ ∃ s, signature = .str s then .error .typeError
        else if ¬ DecodesTo signature 64 then
          .ok (fail .invalidSignatureLength keyId (hex digest))
        else if ∃ pub sig, b64urlDecode (getD (lit "x") jwk) = .ok pub
            ∧ b64urlDecode signature = .ok sig
            ∧ crypto.verify pub (domainSeparator ++ digest) sig = true then
          .ok { valid := true, error := none, keyId := keyId, canonicalHash := hex digest }
        else .ok (fail .invalidSignature keyId (hex digest)) := by
  unfold checkSignature
  cases hx : get? (lit "x") jwk with
  | none =>
    have htext : TextIfPresent (lit "x") jwk := fun v hv => by
      rw [hx] at hv
      cases hv
    have hnot : ¬ DecodesTo (getD (lit "x") jwk) 32 := by
      rw [getD, hx]
      exact not_decodesTo rfl
    rw [if_neg (not_not.mpr htext), if_pos hnot]
    rfl
  | some x =>
    have hgetD : getD (lit "x") jwk = x := by rw [getD, hx, Option.getD_some]
    have htext : TextIfPresent (lit "x") jwk ↔ ∃ s, x = .str s := by
      unfold TextIfPresent
      rw [hx]
      simp only [Option.mem_some_iff, forall_eq']
    rw [hgetD, htext]
    rcases decode_cases x with ⟨s, pub, hs, hpub⟩ | ⟨s, e, hs, he, hvalue⟩ | ⟨hne, he⟩
    · rw [if_neg (not_not.mpr ⟨s, hs⟩), decodesTo_iff hpub]
      dsimp only
      rw [hpub]
      dsimp only
      by_cases hlen : pub.length = 32
      · rw [if_neg (not_not.mpr hlen), if_neg (not_not.mpr hlen)]
        rcases decode_cases signature with ⟨t, sig, ht, hsig⟩ | ⟨t, e, ht, he, hvalue⟩ | ⟨hne, he⟩
        · rw [if_neg (not_not.mpr ⟨t, ht⟩), decodesTo_iff hsig, hsig]
          simp
        · rw [if_neg (not_not.mpr ⟨t, ht⟩), if_pos (not_decodesTo he), he]
          simp [hvalue]
        · rw [if_pos (not_exists.mpr hne), he]
          rfl
      · rw [if_pos hlen, if_pos hlen]
    · rw [if_neg (not_not.mpr ⟨s, hs⟩), if_pos (not_decodesTo he)]
      dsimp only
      rw [he]
      simp [hvalue]
    · rw [if_pos (not_exists.mpr hne)]
      dsimp only
      rw [he]
      rfl

/-- Keys that are objects are searched as `find?` does. -/
theorem findKey_eq (keyId : PyVal) (keys : List PyDict) :
    findKey keyId (keys.map .obj)
      = .ok (keys.find? fun jwk => pyEq (getD (lit "kid") jwk) keyId) := by
  induction keys with
  | nil => rfl
  | cons jwk keys ih =>
    rw [List.map_cons, findKey, List.find?_cons, ih]
    cases pyEq (getD (lit "kid") jwk) keyId with
    | true => rfl
    | false => rfl

/-- The key's type decides whether its signature is looked at. -/
theorem checkKey_eq {keyId : PyVal} (hkeys : get? (lit "keys") jwks = some (.arr (keys.map .obj)))
    (hkeyId : get? (lit "key_id") receipt = some keyId) (signature : PyVal) (digest : Bytes) :
    checkKey crypto jwks keyId signature digest
      = match keyFor receipt keys with
        | none => .ok (fail .keyNotFound keyId (hex digest))
        | some jwk =>
          if EdKey jwk then checkSignature crypto jwk keyId signature digest
          else .ok (fail .unsupportedKeyType keyId (hex digest)) := by
  have hfind : (keys.find? fun jwk => pyEq (getD (lit "kid") jwk) keyId) = keyFor receipt keys := by
    rw [keyFor, getD, hkeyId, Option.getD_some]
  unfold checkKey
  rw [hkeys, Option.getD_some, iterate, ok_bind, findKey_eq, ok_bind, hfind]
  cases keyFor receipt keys with
  | none => rfl
  | some jwk =>
    simp only [pyEq_getD_str, EdKey]
    by_cases hkty : get? (lit "kty") jwk = some (.str (lit "OKP"))
    · by_cases hcrv : get? (lit "crv") jwk = some (.str (lit "Ed25519"))
      · simp [hkty, hcrv]
      · simp [hkty, hcrv]
    · simp [hkty]

/-- The last three checks return, and report, where the key's `x` and the
signature are of the types they take. -/
theorem checkSignature_reports_iff {jwk : PyDict} {keyId : PyVal} {digest : Bytes}
    (hkey : keyFor receipt keys = some jwk) (hed : EdKey jwk)
    (hpass : PassesHashCheck crypto receipt) (hdigest : receiptDigest crypto receipt = .ok digest) :
    (∃ res, checkSignature crypto jwk keyId (getD (lit "signature") receipt) digest = .ok res
        ∧ Reports (Fails crypto receipt keys) res)
      ↔ TextIfPresent (lit "x") jwk
        ∧ (DecodesTo (getD (lit "x") jwk) 32 → ∃ s, getD (lit "signature") receipt = .str s) := by
  -- the three checks before these pass
  have h0 : ¬ Fails crypto receipt keys .hashMismatch := not_not.mpr hpass
  have h1 : ¬ Fails crypto receipt keys .keyNotFound := by simp [Fails, hkey]
  have h2 : ¬ Fails crypto receipt keys .unsupportedKeyType := by simp [Fails, hkey, hed]
  have hverifies : SignatureVerifies crypto receipt jwk
      ↔ ∃ pub sig, b64urlDecode (getD (lit "x") jwk) = .ok pub
        ∧ b64urlDecode (getD (lit "signature") receipt) = .ok sig
        ∧ crypto.verify pub (domainSeparator ++ digest) sig = true := by
    unfold SignatureVerifies
    simp [hdigest]
  rw [checkSignature_eq, ← hverifies]
  by_cases hx : TextIfPresent (lit "x") jwk
  swap
  · simp [hx]
  rw [if_neg (not_not.mpr hx)]
  by_cases hlen : DecodesTo (getD (lit "x") jwk) 32
  swap
  · rw [if_pos hlen]
    refine iff_of_true ⟨_, rfl, ?_⟩ ⟨hx, fun h => absurd h hlen⟩
    exact reports_fail [.hashMismatch, .keyNotFound, .unsupportedKeyType] rfl ⟨jwk, hkey, hlen⟩
      (by simpa using ⟨h0, h1, h2⟩)
  have h3 : ¬ Fails crypto receipt keys .invalidKeyLength := by simp [Fails, hkey, hlen]
  rw [if_neg (not_not.mpr hlen)]
  by_cases htext : ∃ s, getD (lit "signature") receipt = .str s
  swap
  · simp [htext, hlen]
  rw [if_neg (not_not.mpr htext)]
  refine iff_of_true ?_ ⟨hx, fun _ => htext⟩
  by_cases hsigLen : DecodesTo (getD (lit "signature") receipt) 64
  swap
  · rw [if_pos hsigLen]
    refine ⟨_, rfl, reports_fail [.hashMismatch, .keyNotFound, .unsupportedKeyType,
      .invalidKeyLength] rfl hsigLen ?_⟩
    simpa using ⟨h0, h1, h2, h3⟩
  have h4 : ¬ Fails crypto receipt keys .invalidSignatureLength := not_not.mpr hsigLen
  rw [if_neg (not_not.mpr hsigLen)]
  by_cases hv : SignatureVerifies crypto receipt jwk
  · have h5 : ¬ Fails crypto receipt keys .invalidSignature := by simp [Fails, hkey, hv]
    rw [if_pos hv]
    refine ⟨_, rfl, rfl, ?_⟩
    simpa [checkOrder] using ⟨h0, h1, h2, h3, h4, h5⟩
  · rw [if_neg hv]
    refine ⟨_, rfl, reports_fail [.hashMismatch, .keyNotFound, .unsupportedKeyType,
      .invalidKeyLength, .invalidSignatureLength] rfl ⟨jwk, hkey, hv⟩ ?_⟩
    simpa using ⟨h0, h1, h2, h3, h4⟩

/-- Past the hash check, the key found decides what is asked of the
members. -/
theorem checkKey_reports_iff {keyId : PyVal} {digest : Bytes}
    (hkeys : get? (lit "keys") jwks = some (.arr (keys.map .obj)))
    (hkeyId : get? (lit "key_id") receipt = some keyId) (hpass : PassesHashCheck crypto receipt)
    (hdigest : receiptDigest crypto receipt = .ok digest) :
    (∃ res, checkKey crypto jwks keyId (getD (lit "signature") receipt) digest = .ok res
        ∧ Reports (Fails crypto receipt keys) res)
      ↔ ∀ jwk ∈ keyFor receipt keys, EdKey jwk → TextIfPresent (lit "x") jwk
        ∧ (DecodesTo (getD (lit "x") jwk) 32 → ∃ s, getD (lit "signature") receipt = .str s) := by
  have h0 : ¬ Fails crypto receipt keys .hashMismatch := not_not.mpr hpass
  rw [checkKey_eq hkeys hkeyId]
  cases hkey : keyFor receipt keys with
  | none =>
    refine iff_of_true ⟨_, rfl, reports_fail [.hashMismatch] rfl hkey ?_⟩ nofun
    simpa using h0
  | some jwk =>
    have h1 : ¬ Fails crypto receipt keys .keyNotFound := by simp [Fails, hkey]
    simp only [Option.mem_some_iff, forall_eq']
    by_cases hed : EdKey jwk
    · simp only [hed, true_imp_iff]
      exact checkSignature_reports_iff hkey hed hpass hdigest
    · simp only [hed, false_imp_iff, iff_true]
      refine ⟨_, rfl, reports_fail [.hashMismatch, .keyNotFound] rfl ⟨jwk, hkey, hed⟩ ?_⟩
      simpa using ⟨h0, h1⟩

/-- **Verification reports the first failing check**, exactly where every
value is of a type its check takes. -/
theorem verifyReceipt_reports_iff (crypto : Crypto) (receipt jwks : PyDict) (keys : List PyDict)
    (hfields : ∀ k ∈ signedRequired ++ metadataKeys, k ∈ names receipt)
    (hkeys : get? (lit "keys") jwks = some (.arr (keys.map .obj))) :
    (∃ res, verifyReceipt crypto receipt jwks = .ok res ∧ Reports (Fails crypto receipt keys) res)
      ↔ Checkable crypto receipt keys := by
  have hmember : ∀ k ∈ [lit "canonical_hash", lit "signature", lit "key_id"],
      ∃ v, get? k receipt = some v := fun k hk =>
    Option.ne_none_iff_exists'.mp
      (mt get?_eq_none_iff.mp (not_not.mpr (hfields k (List.mem_append_right _ hk))))
  simp only [List.forall_mem_cons, List.not_mem_nil, IsEmpty.forall_iff, implies_true,
    and_true] at hmember
  obtain ⟨⟨claimed, hclaimed⟩, ⟨signature, hsig⟩, ⟨keyId, hkeyId⟩⟩ := hmember
  have hsigD : getD (lit "signature") receipt = signature := by rw [getD, hsig, Option.getD_some]
  have hdigestOk := @receiptDigest_isOk_iff crypto receipt
    fun k hk => hfields k (List.mem_append_left _ hk)
  by_cases hsigned : ∀ k ∈ signedRequired ++ payloadKeysOptional, Canonicalizable (getD k receipt)
  swap
  · -- without a digest nothing is returned
    refine iff_of_false ?_ fun h => hsigned h.signed
    rintro ⟨res, hres, -⟩
    obtain ⟨-, -, -, digest, -, -, -, hdigest, -⟩ := verifyReceipt_eq_ok_iff.mp hres
    exact hsigned (hdigestOk.mp ⟨digest, hdigest⟩)
  obtain ⟨digest, hdigest⟩ := hdigestOk.mpr hsigned
  have hresult (res : VerifyResult) : verifyReceipt crypto receipt jwks = .ok res
      ↔ if claimed = .str (hex digest)
        then checkKey crypto jwks keyId (getD (lit "signature") receipt) digest = .ok res
        else res = fail .hashMismatch keyId (hex digest) := by
    rw [verifyReceipt_eq_ok_iff, hsigD]
    simp [hclaimed, hsig, hkeyId, hdigest]
  have hpass : PassesHashCheck crypto receipt ↔ claimed = .str (hex digest) := by
    unfold PassesHashCheck
    simp [hdigest, hclaimed]
  by_cases hhash : claimed = .str (hex digest)
  · simp only [hresult, if_pos hhash]
    rw [checkKey_reports_iff hkeys hkeyId (hpass.mpr hhash) hdigest]
    constructor
    · intro h
      exact ⟨hsigned, fun _ jwk hkey hed => (h jwk hkey hed).1,
        fun _ jwk hkey hed => (h jwk hkey hed).2⟩
    · intro h jwk hkey hed
      exact ⟨h.key (hpass.mpr hhash) jwk hkey hed, h.signature (hpass.mpr hhash) jwk hkey hed⟩
  · refine iff_of_true ⟨_, (hresult _).mpr (by rw [if_neg hhash]), ?_⟩
      ⟨hsigned, fun h => absurd (hpass.mp h) hhash, fun h => absurd (hpass.mp h) hhash⟩
    exact reports_fail [] rfl (mt hpass.mp hhash) (by simp)

/-- The sample's keys as objects. -/
def sampleKeys : List PyDict :=
  [[(lit "kty", .str (lit "OKP")), (lit "crv", .str (lit "Ed25519")),
    (lit "x", .str (Base64.encodeUrl Sample.publicKey)), (lit "kid", .str (lit "k1")),
    (lit "use", .str (lit "sig"))]]

/-- A key of another kind under the sample's id. -/
def rsaKeys : List PyDict := [[(lit "kty", .str (lit "RSA")), (lit "kid", .str (lit "k1"))]]

/-- Under its own key the receipt is valid; under a key of another kind it
passes two checks and fails the third. -/
theorem verifyReceipt_reports_sample :
    (∃ res, verifyReceipt Sample.crypto (sampleReceipt []) (ofMembers Sample.jwks) = .ok res
        ∧ Reports (Fails Sample.crypto (sampleReceipt []) sampleKeys) res ∧ res.valid = true)
      ∧ ∃ res, verifyReceipt Sample.crypto (sampleReceipt [])
          [(lit "keys", .arr (rsaKeys.map .obj))] = .ok res
        ∧ Reports (Fails Sample.crypto (sampleReceipt []) rsaKeys) res
        ∧ res.error = some .unsupportedKeyType := by
  have hdigest : receiptDigest Sample.crypto (sampleReceipt []) = .ok Sample.digest := by
    decide +kernel
  have hsigned : ∀ k ∈ signedRequired ++ payloadKeysOptional,
      Canonicalizable (getD k (sampleReceipt [])) :=
    (receiptDigest_isOk_iff (by decide)).mp ⟨_, hdigest⟩
  have hown : keyFor (sampleReceipt []) sampleKeys = sampleKeys.head? := by decide
  have hother : ∀ jwk ∈ keyFor (sampleReceipt []) rsaKeys, ¬ EdKey jwk := by decide
  constructor
  · have hcheckable : Checkable Sample.crypto (sampleReceipt []) sampleKeys := by
      refine ⟨hsigned, fun _ jwk hjwk _ => ?_, fun _ _ _ _ _ => ⟨_, rfl⟩⟩
      obtain rfl := Option.some.inj (hown.symm.trans hjwk)
      intro x hx
      exact ⟨_, (Option.some.inj hx).symm⟩
    -- what is reported is what the run comes to
    obtain ⟨res, hres, hreports⟩ := (verifyReceipt_reports_iff Sample.crypto (sampleReceipt [])
      (ofMembers Sample.jwks) sampleKeys (by decide) (by decide)).mpr hcheckable
    have hvalid : verifyReceipt Sample.crypto (sampleReceipt []) (ofMembers Sample.jwks)
        = .ok { valid := true, error := none, keyId := .str (lit "k1"),
                canonicalHash := hex Sample.digest } := by decide +kernel
    obtain rfl := Except.ok.inj (hres.symm.trans hvalid)
    exact ⟨_, hres, hreports, rfl⟩
  · have hcheckable : Checkable Sample.crypto (sampleReceipt []) rsaKeys :=
      ⟨hsigned, fun _ jwk hjwk hed => absurd hed (hother jwk hjwk),
        fun _ jwk hjwk hed => absurd hed (hother jwk hjwk)⟩
    obtain ⟨res, hres, hreports⟩ := (verifyReceipt_reports_iff Sample.crypto (sampleReceipt [])
      [(lit "keys", .arr (rsaKeys.map .obj))] rsaKeys (by decide) rfl).mpr hcheckable
    have hfails : verifyReceipt Sample.crypto (sampleReceipt [])
          [(lit "keys", .arr (rsaKeys.map .obj))]
        = .ok (fail .unsupportedKeyType (.str (lit "k1")) (hex Sample.digest)) := by decide +kernel
    obtain rfl := Except.ok.inj (hres.symm.trans hfails)
    exact ⟨_, hres, hreports, rfl⟩

/-- A receipt whose `action_context` is `{"a": 1.5}` raises where it could
only have failed its hash check. -/
theorem verifyReceipt_raises :
    (∀ k ∈ signedRequired ++ metadataKeys,
        k ∈ names (ofMembers (Sample.receipt (.obj [(lit "a", .num (.dec false 15 (-1)))]))))
      ∧ get? (lit "keys") (ofMembers Sample.jwks) = some (.arr (sampleKeys.map .obj))
      ∧ verifyReceipt Sample.crypto
          (ofMembers (Sample.receipt (.obj [(lit "a", .num (.dec false 15 (-1)))])))
          (ofMembers Sample.jwks)
        = .error (.canonicalizationError (.floatValue (.float (.fin (3 / 2))))) :=
  ⟨by decide +kernel, by decide +kernel, by decide +kernel⟩

/-! ## What the signature covers -/

/-- The bytes whose hash the signature of a receipt is made of. -/
def SignedBytes (receipt : PyDict) (bytes : Bytes) : Prop :=
  ∃ payload, buildPayload receipt = .ok payload ∧ canonicalize (.obj payload) = .ok bytes

/-- The receipt's signature is one of these bytes, under some key. -/
def Covers (crypto : Crypto) (receipt : PyDict) (bytes : Bytes) : Prop :=
  ∃ pub sig, b64urlDecode (getD (lit "signature") receipt) = .ok sig
    ∧ crypto.verify pub (domainSeparator ++ crypto.sha256 bytes) sig = true

/-- The bytes are an object with a value for each required name. -/
def BindsRequired (bytes : Bytes) : Prop :=
  ∃ ms, loadsBytes bytes = some (.obj ms) ∧ ∀ k ∈ signedRequired, ∃ v, (k, v) ∈ ms ∧ v ≠ .null

/-- A valid result comes of a signature that verifies. -/
theorem verifies_of_checkKey {keyId signature : PyVal} {digest : Bytes} {res : VerifyResult}
    (h : checkKey crypto jwks keyId signature digest = .ok res) (hvalid : res.valid = true) :
    ∃ pub sig, b64urlDecode signature = .ok sig
      ∧ crypto.verify pub (domainSeparator ++ digest) sig = true := by
  unfold checkKey at h
  obtain ⟨keys, -, h⟩ := bind_eq_ok_iff.mp h
  obtain ⟨found, -, h⟩ := bind_eq_ok_iff.mp h
  cases found with
  | none =>
    cases h
    cases hvalid
  | some jwk =>
    dsimp only at h
    rw [checkSignature_eq] at h
    split_ifs at h with hkty hx hlen htext hsigLen hv
    -- every result but one is a failure
    all_goals try (cases h; cases hvalid)
    obtain ⟨pub, sig, -, hsig, hverify⟩ := hv
    exact ⟨pub, sig, hsig, hverify⟩

/-- A valid receipt has the hash and a signature of its own payload. -/
theorem covered_of_valid {res : VerifyResult} (h : verifyReceipt crypto receipt jwks = .ok res)
    (hvalid : res.valid = true) : ∃ payload bytes, buildPayload receipt = .ok payload
      ∧ canonicalize (.obj payload) = .ok bytes ∧ Covers crypto receipt bytes := by
  obtain ⟨claimed, signature, keyId, digest, -, hsig, -, hdigest, hcase⟩ :=
    verifyReceipt_eq_ok_iff.mp h
  by_cases heq : claimed = .str (hex digest)
  · rw [if_pos heq] at hcase
    obtain ⟨payload, bytes, hpayload, hbytes, rfl⟩ := receiptDigest_eq_ok_iff.mp hdigest
    obtain ⟨pub, sig, hdecode, hverify⟩ := verifies_of_checkKey hcase hvalid
    refine ⟨payload, bytes, hpayload, hbytes, pub, sig, ?_, hverify⟩
    rw [getD, hsig, Option.getD_some, hdecode]
  · rw [if_neg heq] at hcase
    subst hcase
    cases hvalid

/-- Stripping and sorting keep the members that are not null. -/
theorem exists_mem_canonical {ms : PyDict} {k : PyStr} :
    (∃ v, (k, v) ∈ sortMembers ((ms.filterMap stripMember).map sortMember) ∧ v ≠ .null)
      ↔ ∃ v, (k, v) ∈ ms ∧ v ≠ .null := by
  have hnull (v : PyVal) : v.stripNulls.sortKeys = .null ↔ v = .null := by
    cases v <;> simp
  constructor
  · rintro ⟨v, hv, -⟩
    obtain ⟨m, hm, heq⟩ := List.mem_map.mp (mem_sortMembers.mp hv)
    obtain ⟨m₀, hm₀, hstrip⟩ := List.mem_filterMap.mp hm
    obtain ⟨hne, rfl⟩ := stripMember_eq_some_iff.mp hstrip
    obtain rfl : m₀.1 = k := congrArg Prod.fst heq
    exact ⟨m₀.2, hm₀, hne⟩
  · rintro ⟨v, hv, hne⟩
    refine ⟨v.stripNulls.sortKeys, mem_sortMembers.mpr (List.mem_map.mpr ⟨(k, v.stripNulls), ?_, rfl⟩),
      mt (hnull v).mp hne⟩
    exact List.mem_filterMap.mpr ⟨_, hv, stripMember_eq_some_iff.mpr ⟨hne, rfl⟩⟩

/-- The bytes of a payload bind what its receipt has a value for. -/
theorem bindsRequired_iff {payload : PyDict} {bytes : Bytes} (hu : UniqueNames (.obj receipt))
    (hpayload : buildPayload receipt = .ok payload)
    (hbytes : canonicalize (.obj payload) = .ok bytes) :
    BindsRequired bytes ↔ ∀ k ∈ signedRequired, get? k receipt ≠ some .null := by
  have hloads := loadsBytes_canonicalize (uniqueNames_buildPayload hu hpayload) hbytes
  rw [stripNulls_obj, sortKeys_obj] at hloads
  have hnodup := (payload_names hpayload).1
  -- a required member of the payload is that of the receipt, and is there
  have hmember : ∀ k ∈ signedRequired, (∃ v, (k, v) ∈ payload ∧ v ≠ .null)
      ↔ get? k receipt ≠ some .null := by
    intro k hk
    have hget := get?_pick signedRequired_disjoint (buildPayload_eq_ok_iff.mp hpayload) k
    rw [if_pos hk] at hget
    have hin : k ∈ names receipt :=
      pick_isOk_iff.mp ⟨_, buildPayload_eq_ok_iff.mp hpayload⟩ k hk
    obtain ⟨w, hw⟩ := Option.ne_none_iff_exists'.mp (mt get?_eq_none_iff.mp (not_not.mpr hin))
    simp only [← get?_eq_some_iff hnodup, hget, hw, Option.some.injEq, exists_eq_left', ne_eq]
  constructor
  · rintro ⟨ms, hms, hbinds⟩ k hk
    obtain rfl := Json.obj.inj (Option.some.inj (hloads.symm.trans hms))
    exact (hmember k hk).mp (exists_mem_canonical.mp (hbinds k hk))
  · intro h
    exact ⟨_, hloads, fun k hk => exists_mem_canonical.mpr ((hmember k hk).mpr (h k hk))⟩

/-- **A valid receipt binds its required members** exactly where none of
them is null: presence is checked before nulls are stripped. -/
theorem binds_required_iff (crypto : Crypto) (receipt jwks : PyDict) (res : VerifyResult)
    (hu : UniqueNames (.obj receipt)) (hres : verifyReceipt crypto receipt jwks = .ok res)
    (hvalid : res.valid = true) :
    (∃ bytes, SignedBytes receipt bytes ∧ Covers crypto receipt bytes ∧ BindsRequired bytes)
      ↔ ∀ k ∈ signedRequired, get? k receipt ≠ some .null := by
  obtain ⟨payload, bytes, hpayload, hbytes, hcovers⟩ := covered_of_valid hres hvalid
  rw [← bindsRequired_iff hu hpayload hbytes]
  constructor
  · rintro ⟨bytes', ⟨payload', hpayload', hbytes'⟩, -, hbinds⟩
    obtain rfl := Except.ok.inj (hpayload.symm.trans hpayload')
    obtain rfl := Except.ok.inj (hbytes.symm.trans hbytes')
    exact hbinds
  · intro hbinds
    exact ⟨bytes, ⟨payload, hpayload, hbytes⟩, hcovers, hbinds⟩

/-- The digest and the signature of the sample payload without a
`workspace_id`. -/
def unboundDigest : Bytes :=
  [235, 177, 181, 142, 72, 42, 213, 129, 181, 54, 46, 148, 252, 156, 40, 85, 162, 211, 226, 209,
    75, 156, 186, 32, 173, 241, 228, 224, 195, 90, 168, 72]

def unboundSignature : Bytes :=
  [22, 243, 175, 135, 174, 126, 190, 103, 155, 218, 112, 84, 45, 243, 172, 22, 33, 165, 144, 208,
    147, 248, 197, 9, 45, 0, 242, 158, 83, 61, 202, 131, 114, 31, 172, 70, 24, 232, 19, 173, 107,
    125, 73, 226, 72, 85, 144, 144, 216, 205, 170, 81, 49, 177, 131, 137, 133, 228, 86, 52, 233, 12,
    6, 6]

/-- SHA-256 and Ed25519 at those bytes. -/
def unboundCrypto : Crypto where
  sha256 _ := unboundDigest
  publicKey _ := Sample.publicKey
  sign _ _ := unboundSignature
  verify key _ sig := decide (key = Sample.publicKey ∧ sig = unboundSignature)

/-- The sample receipt with a null `workspace_id`, hashed and signed. -/
def unboundReceipt : PyDict :=
  (lit "workspace_id", .null) :: ofMembers ((Sample.payload (.obj [])).drop 1)
    ++ [(lit "canonical_hash", .str (hex unboundDigest)),
      (lit "signature", .str (Base64.encodeUrl unboundSignature)), (lit "key_id", .str (lit "k1"))]

theorem binds_required_sample :
    ∃ bytes, SignedBytes (sampleReceipt []) bytes ∧ Covers Sample.crypto (sampleReceipt []) bytes
      ∧ BindsRequired bytes :=
  (binds_required_iff Sample.crypto (sampleReceipt []) (ofMembers Sample.jwks)
    { valid := true, error := none, keyId := .str (lit "k1"), canonicalHash := hex Sample.digest }
    (by decide +kernel) (by decide +kernel) rfl).mpr (by decide +kernel)

/-- A null `workspace_id` passes the check for presence, is stripped, and
the receipt verifies. -/
theorem valid_without_workspace :
    verifyReceipt unboundCrypto unboundReceipt (ofMembers Sample.jwks)
        = .ok { valid := true, error := none, keyId := .str (lit "k1"),
                canonicalHash := hex unboundDigest }
      ∧ ∀ bytes, SignedBytes unboundReceipt bytes → ¬ BindsRequired bytes := by
  refine ⟨by decide +kernel, ?_⟩
  rintro bytes ⟨payload, hpayload, hbytes⟩ hbinds
  have hvalues := (bindsRequired_iff (by decide) hpayload hbytes).mp hbinds
  exact hvalues (lit "workspace_id") (by decide) (by decide)

end Py

end OpenTerms
