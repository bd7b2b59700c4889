import OpenTerms.Common.Sample
import OpenTerms.Ts.CanonicalText
import OpenTerms.Ts.Verify

/-!
# Tamper evidence of `verifyReceipt`

`verifyReceipt_eq_ok_iff` states what the verifier reads: three metadata
members, the digest of the payload, and the keys. A second receipt with
the metadata of a valid one therefore verifies exactly when its payload
has the same canonical bytes, which is when the payloads are the same
once nulls and `__proto__` members are removed (`verifies_iff_same`). An
edit inside a `__proto__` member is not seen.
-/

namespace OpenTerms

namespace Ts

open Json

variable {crypto : Crypto} {receipt jwks payload : JsObject}

/-- The members a payload must have. -/
def signedRequired : List JsStr := payloadKeysRequired ++ payloadKeysSignedEnvelope

/-- The members a payload may have. -/
def signedOptional : List JsStr := payloadKeysOptional ++ payloadKeysV2

theorem signedRequired_disjoint : ∀ k ∈ signedRequired, k ∉ signedOptional := by decide

/-- `buildPayload` is the payload of the key lists. -/
theorem buildPayload_eq_ok_iff : buildPayload receipt = .ok payload
    ↔ pick signedRequired signedOptional isNotNull receipt = .ok payload := by
  unfold buildPayload requireKeys
  rw [pick_eq_ok_iff, signedRequired, signedOptional, copyRequired_append]
  cases copyRequired receipt payloadKeysRequired [] with
  | error k => simp
  | ok mid =>
    simp only [ok_bind]
    cases copyRequired receipt payloadKeysSignedEnvelope mid with
    | error k => simp
    | ok mid' => simp [copyPresent_append, eq_comm]

theorem uniqueNames_buildPayload (hr : UniqueNames (.obj receipt))
    (h : buildPayload receipt = .ok payload) : UniqueNames (.obj payload) := by
  rw [uniqueNames_obj] at hr ⊢
  exact Clean.pick hr.2 (buildPayload_eq_ok_iff.mp h)

theorem receiptDigest_eq_ok_iff {digest : Bytes} : receiptDigest crypto receipt = .ok digest
    ↔ ∃ payload bytes, buildPayload receipt = .ok payload
      ∧ canonicalize (.obj payload) = .ok bytes ∧ digest = crypto.sha256 bytes := by
  unfold receiptDigest
  simp only [bind_eq_ok_iff, Except.ok.injEq]
  constructor
  · rintro ⟨payload, hp, bytes, hb, rfl⟩
    exact ⟨payload, bytes, hp, hb, rfl⟩
  · rintro ⟨payload, bytes, hp, hb, rfl⟩
    exact ⟨payload, hp, bytes, hb, rfl⟩

theorem requireMetadata_eq_ok_iff {k : JsStr} {v : JsVal} :
    requireMetadata receipt k = .ok v ↔ get? k receipt = some v := by
  unfold requireMetadata
  cases get? k receipt <;> simp

@[simp] theorem strictEq_str (s : JsStr) (w : JsVal) :
    strictEq (.str s) w = decide (w = .str s) := by
  cases w <;> simp [strictEq, eq_comm]

/-- **What `verifyReceipt` does after its hash check**, and that it does
so only past it. -/
theorem verifyReceipt_eq_ok_iff {res : VerifyResult} :
    verifyReceipt crypto receipt jwks = .ok res
      ↔ ∃ claimedHash signature keyId digest,
        get? (lit "canonical_hash") receipt = some claimedHash
          ∧ get? (lit "signature") receipt = some signature
          ∧ get? (lit "key_id") receipt = some keyId
          ∧ receiptDigest crypto receipt = .ok digest
          ∧ (if claimedHash = .str (hex digest)
              then checkKey crypto jwks keyId signature digest = .ok res
              else res = fail .hashMismatch keyId (hex digest)) := by
  have branch (claimedHash signature keyId : JsVal) (digest : Bytes) :
      (if (!strictEq (.str (hex digest)) claimedHash) = true
          then .ok (fail .hashMismatch keyId (hex digest))
          else checkKey crypto jwks keyId signature digest) = (.ok res : Except TsErr VerifyResult)
        ↔ (if claimedHash = .str (hex digest)
            then checkKey crypto jwks keyId signature digest = .ok res
            else res = fail .hashMismatch keyId (hex digest)) := by
    by_cases h : claimedHash = .str (hex digest)
    · simp [h]
    · simp [h, eq_comm]
  unfold verifyReceipt
  simp only [bind_eq_ok_iff, requireMetadata_eq_ok_iff, branch]
  constructor
  · rintro ⟨c, hc, s, hs, k, hk, d, hd, h⟩
    exact ⟨c, s, k, d, hc, hs, hk, hd, h⟩
  · rintro ⟨c, s, k, d, hc, hs, hk, hd, h⟩
    exact ⟨c, hc, s, hs, k, hk, d, hd, h⟩

/-- `verifyReceipt` reports the receipt valid. -/
def Verifies (crypto : Crypto) (receipt jwks : JsObject) : Prop :=
  ∃ res, verifyReceipt crypto receipt jwks = .ok res ∧ res.valid = true

/-- A valid receipt carries the hash of its payload, and its signature
passed the checks on the key. -/
theorem verifies_iff : Verifies crypto receipt jwks
    ↔ ∃ signature keyId payload bytes,
      buildPayload receipt = .ok payload ∧ canonicalize (.obj payload) = .ok bytes
        ∧ get? (lit "canonical_hash") receipt = some (.str (hex (crypto.sha256 bytes)))
        ∧ get? (lit "signature") receipt = some signature
        ∧ get? (lit "key_id") receipt = some keyId
        ∧ ∃ res, checkKey crypto jwks keyId signature (crypto.sha256 bytes) = .ok res
          ∧ res.valid = true := by
  unfold Verifies
  simp only [verifyReceipt_eq_ok_iff]
  constructor
  · rintro ⟨res, ⟨claimedHash, signature, keyId, digest, hc, hs, hk, hd, hcase⟩, hvalid⟩
    obtain ⟨payload, bytes, hp, hb, rfl⟩ := receiptDigest_eq_ok_iff.mp hd
    by_cases heq : claimedHash = .str (hex (crypto.sha256 bytes))
    · rw [if_pos heq] at hcase
      exact ⟨signature, keyId, payload, bytes, hp, hb, heq ▸ hc, hs, hk, res, hcase, hvalid⟩
    · rw [if_neg heq] at hcase
      subst hcase
      cases hvalid
  · rintro ⟨signature, keyId, payload, bytes, hp, hb, hc, hs, hk, res, hres, hvalid⟩
    exact ⟨res, ⟨_, signature, keyId, _, hc, hs, hk,
      receiptDigest_eq_ok_iff.mpr ⟨payload, bytes, hp, hb, rfl⟩, by rwa [if_pos rfl]⟩, hvalid⟩

/-- Trees that are the same once stripped are both accepted or neither. -/
theorem canonicalize_of_same {v w : JsVal} {bytes : Bytes} (hv : UniqueNames v)
    (hw : UniqueNames w) (hsame : Same (stripped v) (stripped w))
    (h : canonicalize v = .ok bytes) : canonicalize w = .ok bytes := by
  have hsort : (stripped v).sortKeys = (stripped w).sortKeys :=
    (same_iff_sortKeys_eq hv.without.stripNulls hw.without.stripNulls).mp hsame
  obtain ⟨hacc, rfl⟩ := (canonicalize_eq_ok_iff hv).mp h
  refine (canonicalize_eq_ok_iff hw).mpr ⟨?_, by rw [← hsort]⟩
  exact every_sortKeys.mp (hsort ▸ every_sortKeys.mpr hacc)

section Tamper

variable {r r' p p' : JsObject}

/-- The signature metadata of two receipts is the same. -/
def SameMetadata (r r' : JsObject) : Prop :=
  ∀ k ∈ signatureMetadataKeys, get? k r = get? k r'

/-- SHA-256 does not collide on the bytes of two payloads. -/
def NoCollision (crypto : Crypto) (p p' : JsObject) : Prop :=
  ∀ b b', canonicalize (.obj p) = .ok b → canonicalize (.obj p') = .ok b' →
    ¬ Collision crypto b b'

/-- **What of an edit is seen.** A receipt with the metadata of a valid one
is valid exactly when its payload is the same, nulls and `__proto__`
members aside. -/
theorem verifies_iff_same (hr : UniqueNames (.obj r)) (hr' : UniqueNames (.obj r'))
    (hvalid : Verifies crypto r jwks) (hmeta : SameMetadata r r')
    (hp : buildPayload r = .ok p) (hp' : buildPayload r' = .ok p')
    (hcoll : NoCollision crypto p p') :
    Verifies crypto r' jwks ↔ Same (stripped (.obj p)) (stripped (.obj p')) := by
  have hu := uniqueNames_buildPayload hr hp
  have hu' := uniqueNames_buildPayload hr' hp'
  have hhash : get? (lit "canonical_hash") r = get? (lit "canonical_hash") r' :=
    hmeta _ (by decide)
  have hsig : get? (lit "signature") r = get? (lit "signature") r' := hmeta _ (by decide)
  have hkey : get? (lit "key_id") r = get? (lit "key_id") r' := hmeta _ (by decide)
  obtain ⟨signature, keyId, q, b, hq, hb, hc, hs, hk, hcheck⟩ := verifies_iff.mp hvalid
  obtain rfl := Except.ok.inj (hp.symm.trans hq)
  constructor
  · intro h'
    obtain ⟨-, -, q', b', hq', hb', hc', -⟩ := verifies_iff.mp h'
    obtain rfl := Except.ok.inj (hp'.symm.trans hq')
    rw [← hhash, hc, Option.some.injEq, Json.str.injEq] at hc'
    have hsha : crypto.sha256 b = crypto.sha256 b' := hex_injective (by decide) hc'
    by_cases hbytes : b = b'
    · exact (canonicalize_inj_iff hu hu' hb hb').mp hbytes
    · exact absurd ⟨hbytes, hsha⟩ (hcoll b b' hb hb')
  · intro hsame
    exact verifies_iff.mpr ⟨signature, keyId, p', b, hp',
      canonicalize_of_same hu hu' hsame hb, hhash ▸ hc, hsig ▸ hs, hkey ▸ hk, hcheck⟩

/-- **When tampering is evident.** A receipt that differs from a valid one
in what it signs, nulls aside, and carries its metadata, is rejected
exactly when the difference is not confined to `__proto__` members. -/
theorem tamper_evident_iff (hr : UniqueNames (.obj r)) (hr' : UniqueNames (.obj r'))
    (hvalid : Verifies crypto r jwks) (hmeta : SameMetadata r r')
    (hp : buildPayload r = .ok p) (hp' : buildPayload r' = .ok p')
    (hcoll : NoCollision crypto p p') :
    (¬ Same (Json.stripNulls (.obj p)) (Json.stripNulls (.obj p')) → ¬ Verifies crypto r' jwks)
      ↔ (Same (Json.stripNulls (.obj p)) (Json.stripNulls (.obj p'))
        ∨ ¬ Same (stripped (.obj p)) (stripped (.obj p'))) := by
  rw [verifies_iff_same hr hr' hvalid hmeta hp hp' hcoll]
  tauto

/-- The sample receipt as `JSON.parse` gives it. -/
def sampleReceipt (context : Doc) : JsObject :=
  ofMembers (Sample.receipt context)

/-- The sample JWKS as `JSON.parse` gives it. -/
def sampleJwks : JsObject := ofMembers Sample.jwks

/-- A context nobody signed, under `__proto__`. -/
def protoContext : Doc := .obj [(protoName, .obj [(lit "limit", .num (.int 1))])]

/-- What the sample receipt signs. -/
def samplePayload (context : Doc) : JsObject :=
  ofMembers (Sample.payload context)

def sampleResult : VerifyResult :=
  { valid := true, error := none, keyId := .str (lit "k1"), canonicalHash := hex Sample.digest }

/-- The two payloads have the same bytes. -/
theorem noCollision_sample :
    NoCollision Sample.crypto (samplePayload (.obj [])) (samplePayload protoContext) := by
  intro b b' hb hb' hcoll
  have hsame : canonicalize (.obj (samplePayload (.obj [])))
      = canonicalize (.obj (samplePayload protoContext)) := by decide +kernel
  rw [hsame, hb', Except.ok.injEq] at hb
  exact hcoll.1 hb.symm

/-- The context somebody else wrote in. -/
def limitContext : Doc := .obj [(lit "limit", .num (.int 1))]

/-- The SHA-256 of the payload with that context. -/
def limitDigest : Bytes :=
  [80, 228, 81, 149, 176, 72, 164, 70, 114, 56, 224, 27, 228, 177, 235, 16, 49, 53, 14, 79, 188,
    183, 123, 137, 87, 7, 242, 1, 95, 102, 85, 1]

/-- The sample's crypto, with the hash of either payload. -/
def limitCrypto : Crypto :=
  { Sample.crypto with
    sha256 := fun bytes => if bytes = Sample.canonicalBytes then Sample.digest else limitDigest }

/-- A member added to the signed context is seen. -/
theorem tamper_evident_sample :
    Verifies limitCrypto (sampleReceipt (.obj [])) sampleJwks
      ∧ ¬ Verifies limitCrypto (sampleReceipt limitContext) sampleJwks := by
  have hvalid : Verifies limitCrypto (sampleReceipt (.obj [])) sampleJwks :=
    ⟨sampleResult, by decide +kernel, rfl⟩
  have hcoll : NoCollision limitCrypto (samplePayload (.obj [])) (samplePayload limitContext) := by
    -- the payload as it was hashes to the receipt's hash, the other one to another
    intro b b' hb hb' hcoll
    have hown : canonicalize (.obj (samplePayload (.obj []))) = .ok Sample.canonicalBytes := by
      decide +kernel
    have hother : (canonicalize (.obj (samplePayload limitContext))).map limitCrypto.sha256
        = .ok limitDigest := by decide +kernel
    have hbytes : b = Sample.canonicalBytes := Except.ok.inj (hb.symm.trans hown)
    have hdigest : limitCrypto.sha256 b = Sample.digest := if_pos hbytes
    rw [hb'] at hother
    have hdigest' : limitCrypto.sha256 b' = limitDigest := Except.ok.inj hother
    exact absurd (hdigest.symm.trans (hcoll.2.trans hdigest')) (by decide +kernel)
  have hmeta : SameMetadata (sampleReceipt (.obj [])) (sampleReceipt limitContext) := by
    unfold SameMetadata
    decide +kernel
  have hiff := tamper_evident_iff (by decide) (by decide) hvalid hmeta (by decide +kernel)
    (by decide +kernel) hcoll
  refine ⟨hvalid, hiff.mpr (.inr ?_) ?_⟩
  · rw [same_iff_sortKeys_eq (by decide +kernel) (by decide +kernel)]
    decide +kernel
  · rw [same_iff_sortKeys_eq (by decide) (by decide)]
    decide

/-- **Tampering is not evident**: a `__proto__` member added to the signed
context leaves the receipt valid. -/
theorem tamper_evident_fails :
    ¬ ∀ (crypto : Crypto) (r r' jwks p p' : JsObject), UniqueNames (.obj r) →
      UniqueNames (.obj r') → Verifies crypto r jwks → SameMetadata r r' →
      buildPayload r = .ok p → buildPayload r' = .ok p' → NoCollision crypto p p' →
      ¬ Same (Json.stripNulls (.obj p)) (Json.stripNulls (.obj p')) → ¬ Verifies crypto r' jwks := by
  intro h
  refine h Sample.crypto (sampleReceipt (.obj [])) (sampleReceipt protoContext) sampleJwks
    (samplePayload (.obj [])) (samplePayload protoContext) (by decide) (by decide)
    ⟨sampleResult, by decide +kernel, rfl⟩ (by unfold SameMetadata; decide +kernel)
    (by decide +kernel) (by decide +kernel) noCollision_sample ?_
    ⟨sampleResult, by decide +kernel, rfl⟩
  rw [same_iff_sortKeys_eq (by decide) (by decide)]
  decide

end Tamper

end Ts

end OpenTerms
