import OpenTerms.Py.RoundTrip

/-!
# Payloads that are signed as they are

`sign_receipt` asks of a payload only that its names are among those it
may have, not that any are there, while `verify_receipt` builds the
payload again and needs the required ones. So a signed payload verifies
exactly when it has them (`signed_verifies_or_lacks`): what else
`build_payload` does to it, the members in an order of its own and the
nulls gone, the canonical bytes do not see. In the JWKS that `build_jwks`
makes of several keys each is found by its own key id (`firstKey_buildJwks`).
-/

namespace OpenTerms

namespace Py

open Json

variable {crypto : Crypto} {payload signed jwks : PyDict} {keyId : PyStr}

/-! ## The payload built again -/

/-- Nulls apart, the same members give the same bytes. -/
theorem canonicalize_of_sameButNulls {v w : PyVal} {bytes : Bytes} (hv : UniqueNames v)
    (hw : UniqueNames w) (h : SameButNulls v w) (hvalid : Validated w)
    (hb : canonicalize v = .ok bytes) : canonicalize w = .ok bytes := by
  obtain ⟨-, henc⟩ := canonicalize_eq_ok_iff.mp hb
  have hsort := (same_iff_sortKeys_eq hv.stripNulls hw.stripNulls).mp h
  exact canonicalize_eq_ok_iff.mpr ⟨hvalid, hsort ▸ henc⟩

/-- The metadata is none of what is signed. -/
theorem get?_withMetadata_signed (hash signature keyId : PyStr) (payload : PyDict) {k : PyStr}
    (hk : k ∈ signedRequired ∨ k ∈ payloadKeysOptional) :
    get? k (withMetadata hash signature keyId payload) = get? k payload := by
  have hmeta : ∀ k ∈ signedRequired ++ payloadKeysOptional,
      k ≠ lit "key_id" ∧ k ≠ lit "signature" ∧ k ≠ lit "canonical_hash" := by decide
  obtain ⟨h1, h2, h3⟩ := hmeta k (List.mem_append.mpr hk)
  rw [get?_withMetadata, if_neg h1, if_neg h2, if_neg h3]

/-- **What `build_payload` makes of a signed payload** has the same bytes. -/
theorem canonicalize_rebuilt {hash signature : PyStr} {bytes : Bytes} {rebuilt : PyDict}
    (hu : UniqueNames (.obj payload)) (hnames : ∀ k ∈ names payload, k ∈ signedKeys)
    (hb : canonicalize (.obj payload) = .ok bytes)
    (h : buildPayload (withMetadata hash signature keyId payload) = .ok rebuilt) :
    canonicalize (.obj rebuilt) = .ok bytes := by
  have hpick := buildPayload_eq_ok_iff.mp h
  have hu' : UniqueNames (.obj rebuilt) := uniqueNames_buildPayload (uniqueNames_withMetadata hu) h
  have hget (k : PyStr) (hk : k ∈ signedRequired ∨ k ∈ payloadKeysOptional) (v : PyVal) :
      get? k rebuilt = some v ↔ get? k payload = some v ∧ (k ∈ signedRequired ∨ v ≠ .null) := by
    rw [get?_pick signedRequired_disjoint hpick, get?_withMetadata_signed _ _ _ _ hk]
    by_cases hr : k ∈ signedRequired
    · rw [if_pos hr, and_iff_left (Or.inl hr)]
    · rw [if_neg hr, if_pos (hk.resolve_left hr), Option.filter_eq_some_iff, or_iff_right hr]
      simp [isNotNone]
  have hknown {k : PyStr} {v : PyVal} (hk : get? k payload = some v) :
      k ∈ signedRequired ∨ k ∈ payloadKeysOptional :=
    List.mem_append.mp (hnames k (mem_names.mpr ⟨v, mem_of_get? hk⟩))
  have hrebuilt {k : PyStr} {v : PyVal} (hk : get? k rebuilt = some v) :
      k ∈ signedRequired ∨ k ∈ payloadKeysOptional :=
    mem_of_mem_names_pick signedRequired_disjoint hpick (mem_names.mpr ⟨v, mem_of_get? hk⟩)
  refine canonicalize_of_sameButNulls hu hu' (sameButNulls_of_get? hu hu' fun k v hne => ?_) ?_ hb
  · constructor
    · exact fun hk => (hget k (hknown hk) v).mpr ⟨hk, Or.inr hne⟩
    · exact fun hk => ((hget k (hrebuilt hk) v).mp hk).1
  · have hvalid := every_obj.mp (canonicalize_eq_ok_iff.mp hb).1
    refine every_obj.mpr fun m hm => ?_
    have hm := (get?_eq_some_iff (uniqueNames_obj.mp hu').1).mpr hm
    exact hvalid m (mem_of_get? ((hget m.1 (hrebuilt hm) m.2).mp hm).1)

/-! ## The verdict -/

/-- What `build_payload` raises names a field that is missing. -/
def MissingField (receipt : PyDict) (e : PyErr) : Prop :=
  ∃ k, k ∉ names receipt ∧
    (k ∈ payloadKeysRequired ∧ e = .valueError (lit "Missing required payload field: " ++ k)
      ∨ k ∈ payloadKeysSignedEnvelope
        ∧ e = .valueError (lit "Missing required signed envelope field: " ++ k))

theorem copyRequired_error {src dst : PyDict} {ks : List PyStr} {k : PyStr}
    (h : copyRequired src ks dst = .error k) : k ∈ ks ∧ k ∉ names src := by
  induction ks generalizing dst with
  | nil => cases h
  | cons k' ks ih =>
    rw [copyRequired] at h
    cases hget : get? k' src with
    | none =>
      rw [hget] at h
      obtain rfl : k' = k := Except.error.inj h
      exact ⟨List.mem_cons_self, get?_eq_none_iff.mp hget⟩
    | some v =>
      rw [hget] at h
      obtain ⟨hk, hsrc⟩ := ih h
      exact ⟨List.mem_cons_of_mem _ hk, hsrc⟩

/-- **When `build_payload` raises, and what.** -/
theorem missingField_of_buildPayload {receipt : PyDict} {e : PyErr}
    (h : buildPayload receipt = .error e) : MissingField receipt e := by
  unfold buildPayload requireKeys at h
  cases hrequired : copyRequired receipt payloadKeysRequired [] with
  | error k =>
    rw [hrequired] at h
    obtain rfl := Except.error.inj h
    obtain ⟨hk, hmissing⟩ := copyRequired_error hrequired
    exact ⟨k, hmissing, Or.inl ⟨hk, rfl⟩⟩
  | ok mid =>
    rw [hrequired] at h
    simp only [ok_bind] at h
    cases henvelope : copyRequired receipt payloadKeysSignedEnvelope mid with
    | error k =>
      rw [henvelope] at h
      obtain rfl := Except.error.inj h
      obtain ⟨hk, hmissing⟩ := copyRequired_error henvelope
      exact ⟨k, hmissing, Or.inr ⟨hk, rfl⟩⟩
    | ok mid' =>
      rw [henvelope] at h
      cases h

/-- The verdict on a signed payload that has the required members. -/
theorem verifyReceipt_signed [Ucd] (kp : KeyPair crypto) {privateKey : PrivateKeyInput}
    (hkey : privateKey.seed = kp.seed) (hu : UniqueNames (.obj payload))
    (hrequired : ∀ k ∈ signedRequired, k ∈ names payload)
    (hsign : signReceipt crypto payload privateKey keyId = .ok signed)
    (hjwks : FirstKey jwks keyId (publicKeyToJwk (crypto.publicKey kp.seed) keyId)) :
    ∃ hash, get? (lit "canonical_hash") signed = some (.str hash)
      ∧ verifyReceipt crypto signed jwks
        = .ok { valid := true, error := none, keyId := .str keyId, canonicalHash := hash } := by
  obtain ⟨-, -, hnames, sk, bytes, hsk, hbytes, rfl⟩ := signReceipt_eq_ok_iff.mp hsign
  obtain rfl : sk = kp.seed := (coercePrivateKey_eq hsk).trans hkey
  have hfound : ∀ k ∈ signedRequired, k ∈ names (withMetadata (hex (crypto.sha256 bytes))
      (b64urlEncode (crypto.sign kp.seed (domainSeparator ++ crypto.sha256 bytes))) keyId
      payload) := by
    intro k hk
    by_contra hmissing
    have hnone := get?_eq_none_iff.mpr hmissing
    rw [get?_withMetadata_signed _ _ _ _ (Or.inl hk)] at hnone
    exact get?_eq_none_iff.mp hnone (hrequired k hk)
  obtain ⟨rebuilt, hpick⟩ := pick_isOk_iff.mpr hfound
  have hrebuilt := buildPayload_eq_ok_iff.mpr hpick
  have hbytes' := canonicalize_rebuilt hu hnames hbytes hrebuilt
  refine ⟨_, by rw [get?_withMetadata]; rfl, verifyReceipt_eq_ok_iff.mpr
    ⟨_, _, _, _, by rw [get?_withMetadata]; rfl, by rw [get?_withMetadata]; rfl,
      by rw [get?_withMetadata]; rfl,
      receiptDigest_eq_ok_iff.mpr ⟨rebuilt, bytes, hrebuilt, hbytes', rfl⟩, ?_⟩⟩
  rw [if_pos rfl]
  exact checkKey_signed kp _ hjwks

/-! ## Several keys -/

/-- **Each key by its own id**, in the JWKS of keys with distinct ids. -/
theorem firstKey_buildJwks {keys : List (Bytes × PyStr)} {publicKey : Bytes}
    (hkeys : (keys.map Prod.snd).Nodup) (hmem : (publicKey, keyId) ∈ keys) :
    FirstKey (buildJwks keys) keyId (publicKeyToJwk publicKey keyId) := by
  obtain ⟨before, after, rfl⟩ := List.append_of_mem hmem
  refine ⟨before.map fun key => .obj (publicKeyToJwk key.1 key.2),
    after.map fun key => .obj (publicKeyToJwk key.1 key.2), ?_, rfl, ?_⟩
  · show some (Json.arr (List.map _ (before ++ (publicKey, keyId) :: after))) = _
    rw [List.map_append, List.map_cons]
  · rw [List.forall_mem_map]
    intro key hkey
    refine ⟨publicKeyToJwk key.1 key.2, rfl, fun hkid => ?_⟩
    have hsame : key.2 = keyId := Json.str.inj (Option.some.inj hkid)
    rw [List.map_append, List.map_cons, List.nodup_append] at hkeys
    exact hkeys.2.2 key.2 (List.mem_map_of_mem hkey) keyId List.mem_cons_self hsame

/-- **What is signed verifies, or lacks a field.** Under the JWKS that
`build_jwks` makes of any keys with distinct ids, the signer's among them,
`verify_receipt` takes what `sign_receipt` returned exactly when the payload
had every required member, whatever its order and nulls. Otherwise it raises
the `ValueError` that names a missing one. -/
theorem signed_verifies_or_lacks [Ucd] (kp : KeyPair crypto) {privateKey : PrivateKeyInput}
    {keys : List (Bytes × PyStr)} (hkey : privateKey.seed = kp.seed)
    (hkeys : (keys.map Prod.snd).Nodup) (hmem : (crypto.publicKey kp.seed, keyId) ∈ keys)
    (hu : UniqueNames (.obj payload))
    (hsign : signReceipt crypto payload privateKey keyId = .ok signed) :
    ((∀ k ∈ signedRequired, k ∈ names payload)
        ∧ ∃ hash, get? (lit "canonical_hash") signed = some (.str hash)
          ∧ verifyReceipt crypto signed (buildJwks keys)
            = .ok { valid := true, error := none, keyId := .str keyId, canonicalHash := hash })
      ∨ (∃ k ∈ signedRequired, k ∉ names payload)
        ∧ ∃ e, verifyReceipt crypto signed (buildJwks keys) = .error e ∧ MissingField signed e := by
  by_cases hrequired : ∀ k ∈ signedRequired, k ∈ names payload
  · left
    exact ⟨hrequired, verifyReceipt_signed kp hkey hu hrequired hsign
      (firstKey_buildJwks hkeys hmem)⟩
  · right
    push Not at hrequired
    refine ⟨hrequired, ?_⟩
    obtain ⟨k, hk, hmissing⟩ := hrequired
    obtain ⟨-, -, -, sk, bytes, -, -, rfl⟩ := signReceipt_eq_ok_iff.mp hsign
    generalize hsigned : withMetadata _ _ _ _ = signed
    have hlacks : k ∉ names signed := by
      rw [← get?_eq_none_iff, ← hsigned, get?_withMetadata_signed _ _ _ _ (Or.inl hk)]
      exact get?_eq_none_iff.mpr hmissing
    have hmeta (field : String) {s : PyStr} (h : get? (lit field) signed = some (.str s)) :
        requireMetadata signed (lit field) = .ok (.str s) := requireMetadata_eq_ok_iff.mpr h
    have hhash := hmeta "canonical_hash" (by rw [← hsigned, get?_withMetadata]; rfl)
    have hsignature := hmeta "signature" (by rw [← hsigned, get?_withMetadata]; rfl)
    have hkeyId := hmeta "key_id" (by rw [← hsigned, get?_withMetadata]; rfl)
    cases hbuild : buildPayload signed with
    | ok rebuilt =>
      have hnames := pick_isOk_iff.mp ⟨rebuilt, buildPayload_eq_ok_iff.mp hbuild⟩
      exact absurd (hnames k hk) hlacks
    | error e =>
      refine ⟨e, ?_, missingField_of_buildPayload hbuild⟩
      unfold verifyReceipt receiptDigest
      rw [hhash, ok_bind, hsignature, ok_bind, hkeyId, ok_bind, hbuild]
      rfl

section Sample

attribute [local instance] Ucd.allPrintable

/-- The sample receipt verifies in a JWKS with another key before its own. -/
theorem signed_verifies_sample :
    ∃ hash, verifyReceipt Sample.crypto (ofMembers (Sample.receipt (.obj [])))
        (buildJwks [(Sample.publicKey, lit "k0"), (Sample.publicKey, lit "k1")])
      = .ok { valid := true, error := none, keyId := .str (lit "k1"), canonicalHash := hash } := by
  have hsign : signReceipt Sample.crypto (ofMembers (Sample.payload (.obj [])))
      (.bytes Sample.seed) (lit "k1") = .ok (ofMembers (Sample.receipt (.obj []))) := by
    decide +kernel
  have hrequired : ∀ k ∈ signedRequired, k ∈ names (ofMembers (Sample.payload (.obj []))) := by
    decide
  have hmem : ((Sample.publicKey, lit "k1") : Bytes × PyStr)
      ∈ [(Sample.publicKey, lit "k0"), (Sample.publicKey, lit "k1")] := by decide
  rcases signed_verifies_or_lacks Sample.keyPair rfl (by decide) hmem (by decide) hsign
    with ⟨-, hash, -, hverify⟩ | ⟨⟨k, hk, hmissing⟩, -⟩
  · exact ⟨hash, hverify⟩
  · exact absurd (hrequired k hk) hmissing

end Sample

end Py

end OpenTerms
