import OpenTerms.Common.Sample
import OpenTerms.Py.CanonicalText
import OpenTerms.Py.Verification

/-!
# What a canonical hash binds

A receipt passes the hash check when its `canonical_hash` is the digest of
its own signed payload. Two such receipts with one hash have one payload,
nulls and member order aside, unless the hash collides
(`canonicalize_faithful`).
-/

namespace OpenTerms

namespace Py

open Json

variable {crypto : Crypto} {receipt jwks payload : PyDict}

/-- The members a payload must have. -/
def signedRequired : List PyStr := payloadKeysRequired ++ payloadKeysSignedEnvelope

theorem signedRequired_disjoint : ∀ k ∈ signedRequired, k ∉ payloadKeysOptional := by decide

/-- The signed names are plain ASCII. -/
theorem signed_name {k : PyStr} (hk : k ∈ signedRequired ++ payloadKeysOptional) :
    BmpName k ∧ NoSurrogate k := by
  have hlit : signedRequired ++ payloadKeysOptional
      = ["workspace_id", "agent_id", "action_type", "terms_url", "terms_hash", "timestamp",
          "pricing_version", "receipt_id", "amount_charged", "created_at", "action_context",
          "ors_version", "issuer", "provider", "decision", "request_binding", "terms_type",
          "terms_service", "terms_version"].map lit := rfl
  have hascii : ∀ s ∈ ["workspace_id", "agent_id", "action_type", "terms_url", "terms_hash",
      "timestamp", "pricing_version", "receipt_id", "amount_charged", "created_at",
      "action_context", "ors_version", "issuer", "provider", "decision", "request_binding",
      "terms_type", "terms_service", "terms_version"], Utf16.Ascii s := by decide
  rw [hlit] at hk
  obtain ⟨s, hs, rfl⟩ := List.mem_map.mp hk
  have hlow := Utf16.lit_ascii (hascii s hs)
  exact ⟨fun c hc => by have := hlow c hc; omega, fun c hc => by have := hlow c hc; omega⟩

/-- `build_payload` is the payload of the three key lists. -/
theorem buildPayload_eq_ok_iff : buildPayload receipt = .ok payload
    ↔ pick signedRequired payloadKeysOptional isNotNone receipt = .ok payload := by
  unfold buildPayload requireKeys
  rw [pick_eq_ok_iff, signedRequired, copyRequired_append]
  cases copyRequired receipt payloadKeysRequired [] with
  | error k => simp
  | ok mid =>
    simp only [ok_bind]
    cases copyRequired receipt payloadKeysSignedEnvelope mid with
    | error k => simp
    | ok mid' => simp [eq_comm]

/-- A payload has no name twice where its receipt has none. -/
theorem uniqueNames_buildPayload (hr : UniqueNames (.obj receipt))
    (h : buildPayload receipt = .ok payload) : UniqueNames (.obj payload) := by
  rw [uniqueNames_obj] at hr ⊢
  exact Clean.pick hr.2 (buildPayload_eq_ok_iff.mp h)

theorem receiptDigest_eq_ok_iff {digest : Bytes} : receiptDigest crypto receipt = .ok digest
    ↔ ∃ payload bytes, buildPayload receipt = .ok payload
      ∧ canonicalize (.obj payload) = .ok bytes ∧ digest = crypto.sha256 bytes := by
  unfold receiptDigest
  simp only [bind_eq_ok_iff, Except.ok.injEq]
  constructor
  · rintro ⟨payload, hp, bytes, hb, rfl⟩
    exact ⟨payload, bytes, hp, hb, rfl⟩
  · rintro ⟨payload, bytes, hp, hb, rfl⟩
    exact ⟨payload, hp, bytes, hb, rfl⟩

/-- The receipt's `canonical_hash` is the digest of what it signs. -/
def PassesHashCheck (crypto : Crypto) (receipt : PyDict) : Prop :=
  ∃ digest, receiptDigest crypto receipt = .ok digest
    ∧ get? (lit "canonical_hash") receipt = some (.str (hex digest))

theorem requireMetadata_eq_ok_iff {k : PyStr} {v : PyVal} :
    requireMetadata receipt k = .ok v ↔ get? k receipt = some v := by
  unfold requireMetadata
  cases get? k receipt <;> simp

/-- **What `verify_receipt` does after its hash check**, and that it does
so only past it. -/
theorem verifyReceipt_eq_ok_iff {res : VerifyResult} :
    verifyReceipt crypto receipt jwks = .ok res
      ↔ ∃ claimedHash signature keyId digest,
        get? (lit "canonical_hash") receipt = some claimedHash
          ∧ get? (lit "signature") receipt = some signature
          ∧ get? (lit "key_id") receipt = some keyId
          ∧ receiptDigest crypto receipt = .ok digest
          ∧ (if claimedHash = .str (hex digest)
              then checkKey crypto jwks keyId signature digest = .ok res
              else res = fail .hashMismatch keyId (hex digest)) := by
  have branch (claimedHash signature keyId : PyVal) (digest : Bytes) :
      (if (!pyEq (.str (hex digest)) claimedHash) = true
          then .ok (fail .hashMismatch keyId (hex digest))
          else checkKey crypto jwks keyId signature digest) = (.ok res : Except PyErr VerifyResult)
        ↔ (if claimedHash = .str (hex digest)
            then checkKey crypto jwks keyId signature digest = .ok res
            else res = fail .hashMismatch keyId (hex digest)) := by
    by_cases h : claimedHash = .str (hex digest)
    · simp [h]
    · simp [h, eq_comm]
  unfold verifyReceipt
  simp only [bind_eq_ok_iff, requireMetadata_eq_ok_iff, branch]
  constructor
  · rintro ⟨c, hc, s, hs, k, hk, d, hd, h⟩
    exact ⟨c, s, k, d, hc, hs, hk, hd, h⟩
  · rintro ⟨c, s, k, d, hc, hs, hk, hd, h⟩
    exact ⟨c, hc, s, hs, k, hk, d, hd, h⟩

/-- Two receipts with one hash sign one payload, or two colliding ones. -/
theorem same_payload_of_canonical_hash {r r' : PyDict} (hr : UniqueNames (.obj r))
    (hr' : UniqueNames (.obj r')) (hpass : PassesHashCheck crypto r)
    (hpass' : PassesHashCheck crypto r')
    (hhash : get? (lit "canonical_hash") r = get? (lit "canonical_hash") r') :
    ∃ p p' b b', buildPayload r = .ok p ∧ buildPayload r' = .ok p'
      ∧ canonicalize (.obj p) = .ok b ∧ canonicalize (.obj p') = .ok b'
      ∧ (Same (stripNulls (.obj p)) (stripNulls (.obj p')) ∨ Collision crypto b b') := by
  obtain ⟨digest, hd, hget⟩ := hpass
  obtain ⟨digest', hd', hget'⟩ := hpass'
  obtain ⟨p, b, hp, hb, rfl⟩ := receiptDigest_eq_ok_iff.mp hd
  obtain ⟨p', b', hp', hb', rfl⟩ := receiptDigest_eq_ok_iff.mp hd'
  refine ⟨p, p', b, b', hp, hp', hb, hb', ?_⟩
  rw [hget, hget', Option.some.injEq, Json.str.injEq] at hhash
  have hsha : crypto.sha256 b = crypto.sha256 b' := hex_injective (by decide) hhash
  have hu := uniqueNames_buildPayload hr hp
  have hu' := uniqueNames_buildPayload hr' hp'
  by_cases hbytes : b = b'
  · exact Or.inl ((canonicalize_inj_iff hu hu' hb hb').mp hbytes)
  · exact Or.inr ⟨hbytes, hsha⟩

/-- **Canonicalization loses nothing but nulls and member order.** The
bytes read back as the stripped payload, two payloads share their bytes
exactly when they are the same stripped payload, and so one hash binds
one payload up to a collision. -/
theorem canonicalize_faithful (crypto : Crypto) :
    (∀ (v : PyVal) (bytes : Bytes), UniqueNames v → canonicalize v = .ok bytes →
      ∃ w, loadsBytes bytes = some w ∧ Same w v.stripNulls) ∧
    (∀ (v w : PyVal) (b c : Bytes), UniqueNames v → UniqueNames w → canonicalize v = .ok b →
      canonicalize w = .ok c → (b = c ↔ Same v.stripNulls w.stripNulls)) ∧
    (∀ r r' : PyDict, UniqueNames (.obj r) → UniqueNames (.obj r') → PassesHashCheck crypto r →
      PassesHashCheck crypto r' →
      get? (lit "canonical_hash") r = get? (lit "canonical_hash") r' →
      ∃ p p' b b', buildPayload r = .ok p ∧ buildPayload r' = .ok p'
        ∧ canonicalize (.obj p) = .ok b ∧ canonicalize (.obj p') = .ok b'
        ∧ (Same (stripNulls (.obj p)) (stripNulls (.obj p')) ∨ Collision crypto b b')) := by
  refine ⟨fun v bytes hu h => ?_, fun v w b c hv hw hb hc => canonicalize_inj_iff hv hw hb hc,
    fun r r' hr hr' hpass hpass' hhash =>
      same_payload_of_canonical_hash hr hr' hpass hpass' hhash⟩
  exact ⟨_, loadsBytes_canonicalize hu h, same_sortKeys hu.stripNulls⟩

/-- The sample receipt, with other members before its own. -/
def sampleReceipt (others : PyDict) : PyDict :=
  others ++ ofMembers (Sample.receipt (.obj []))

/-- A null issuer is not signed, and the two receipts have one hash. -/
theorem canonicalize_faithful_sample :
    (∃ w, loadsBytes (lit "\x7b\"a\":[1,true]\x7d") = some w
      ∧ Same w (stripNulls (.obj [(lit "b", .null), (lit "a", .arr [.num (.int 1), .bool true])])))
    ∧ ((lit "\x7b\"a\":[1,true]\x7d" : Bytes) = lit "\x7b\x7d" ↔
        Same (stripNulls (.obj [(lit "b", .null), (lit "a", .arr [.num (.int 1), .bool true])]))
          (stripNulls (.obj [(lit "b", .null)] : PyVal)))
    ∧ ∃ p p' b b', buildPayload (sampleReceipt []) = .ok p
      ∧ buildPayload (sampleReceipt [(lit "issuer", .null)]) = .ok p'
      ∧ canonicalize (.obj p) = .ok b ∧ canonicalize (.obj p') = .ok b'
      ∧ (Same (stripNulls (.obj p)) (stripNulls (.obj p')) ∨ Collision Sample.crypto b b') :=
  ⟨(canonicalize_faithful Sample.crypto).1 _ _ (by decide) rfl,
    (canonicalize_faithful Sample.crypto).2.1 _ _ _ _ (by decide) (by decide) rfl rfl,
    (canonicalize_faithful Sample.crypto).2.2 _ _ (by decide) (by decide)
      ⟨Sample.digest, by decide, by decide⟩
      ⟨Sample.digest, by decide, by decide⟩ (by decide)⟩

end Py

end OpenTerms
