import OpenTerms.Py.RoundTrip
import OpenTerms.Ts.RoundTrip

/-!
# Signing and verifying, in each SDK

One statement for both: what `sign_receipt` makes of a receipt's payload
is verified once it has travelled as JSON text, any text that denotes it,
against any JWKS in which the SDK's own JWK is the first with the key id.
-/

namespace OpenTerms

namespace Parity

open Json

/-- **Sign, transport, verify.** A text denotes the signed receipt when it
is parsed as the same members in some order; in TypeScript, as the ones
`JSON.stringify` writes. The first half of each part is that the
language's own writer produces such a text. Python's key id is one JSON
text can carry: a surrogate pair in it is one character (`decode`). -/
theorem sign_transport_verify [Ucd] (crypto : Crypto) (kp : KeyPair crypto)
    (r : List (JsStr × Doc)) (keyId : JsStr) (hr : UniqueNames (.obj r)) :
    (∀ (privateKey : Py.PrivateKeyInput) (payload signed : Py.PyDict),
      privateKey.seed = kp.seed → Py.buildPayload (Py.ofMembers r) = .ok payload →
      Py.signReceipt crypto payload privateKey (Utf16.decode keyId) = .ok signed →
      Py.loads (Py.dumps (.obj signed)) = some (.obj signed) ∧
      ∀ (text : PyStr) (received jwks : Py.PyDict), Py.loads text = some (.obj received) →
        Same (.obj received) (.obj signed) →
        Py.FirstKey jwks (Utf16.decode keyId)
          (Py.publicKeyToJwk (crypto.publicKey kp.seed) (Utf16.decode keyId)) →
        ∃ hash, get? (lit "canonical_hash") signed = some (.str hash)
          ∧ Py.verifyReceipt crypto received jwks
            = .ok { valid := true, error := none, keyId := .str (Utf16.decode keyId),
                    canonicalHash := hash }) ∧
    (∀ payload signed : Ts.JsObject, Ts.buildPayload (Ts.ofMembers r) = .ok payload →
      Ts.signReceipt crypto payload kp.seed keyId = .ok signed →
      (Lacks Ts.protoName (.obj payload) →
        Ts.jsonParse (Ts.stringify (.obj signed)) = some (.obj signed)) ∧
      ∀ (text : JsStr) (received jwks : Ts.JsObject), Ts.jsonParse text = some (.obj received) →
        Same (.obj received) (Ts.jsonValue (.obj signed)) →
        Ts.FirstKey jwks keyId (Ts.publicKeyToJwk (crypto.publicKey kp.seed) keyId) →
        ∃ hash, get? (lit "canonical_hash") signed = some (.str hash)
          ∧ Ts.verifyReceipt crypto received jwks
            = .ok { valid := true, error := none, keyId := .str keyId, canonicalHash := hash }) := by
  have hpy : UniqueNames (.obj (Py.ofMembers r)) := by
    rw [← Py.ofDoc_obj]
    exact Py.uniqueNames_ofDoc hr
  have hts : UniqueNames (.obj (Ts.ofMembers r)) := by
    rw [← Ts.ofDoc_obj]
    exact Ts.uniqueNames_ofDoc hr
  constructor
  · intro privateKey payload signed hkey hp hsign
    refine ⟨(Py.loads_dumps_signed hpy hp (Py.decoded_decode keyId) hsign).1, ?_⟩
    intro text received jwks htext hsame hjwks
    exact Py.verifyReceipt_received kp hpy hp hkey hsign (Py.uniqueNames_loads htext) hsame hjwks
  · intro payload signed hp hsign
    refine ⟨fun hlacks => Ts.jsonParse_stringify_signed hts hp hlacks hsign, ?_⟩
    intro text received jwks htext hsame hjwks
    exact Ts.verifyReceipt_received kp hts hp hsign (Ts.uniqueNames_jsonParse htext) hsame hjwks

theorem sign_transport_verify_sample :
    (∃ hash, get? (lit "canonical_hash") (Py.ofMembers (Sample.receipt (.obj [])))
        = some (.str hash)
      ∧ Py.verifyReceipt Sample.crypto (Py.ofMembers (Sample.receipt (.obj [])))
          (Py.ofMembers Sample.jwks)
        = .ok { valid := true, error := none, keyId := .str (Utf16.decode (lit "k1")),
                canonicalHash := hash }) ∧
    ∃ hash, get? (lit "canonical_hash") (Ts.ofMembers (Sample.receipt (.obj [])))
        = some (.str hash)
      ∧ Ts.verifyReceipt Sample.crypto (Ts.ofMembers (Sample.receipt (.obj [])))
          (Ts.ofMembers Sample.jwks)
        = .ok { valid := true, error := none, keyId := .str (lit "k1"),
                canonicalHash := hash } := by
  have h := @sign_transport_verify Ucd.allPrintable Sample.crypto Sample.keyPair (Sample.payload (.obj [])) (lit "k1")
    (by decide)
  have := Ucd.allPrintable
  obtain ⟨hpy, hpy'⟩ := h.1 (.bytes Sample.seed) (Py.ofMembers (Sample.payload (.obj [])))
    (Py.ofMembers (Sample.receipt (.obj []))) rfl (by decide +kernel) (by decide +kernel)
  obtain ⟨hts, hts'⟩ := h.2 (Ts.ofMembers (Sample.payload (.obj [])))
    (Ts.ofMembers (Sample.receipt (.obj []))) (by decide +kernel) (by decide +kernel)
  refine ⟨hpy' _ _ _ hpy (Same.refl (by decide)) ⟨[], [], by decide,
    by decide, by simp⟩, hts' _ _ _ (hts (by unfold Lacks; decide)) ?_ ⟨[], [], by decide,
    by decide, by simp⟩⟩
  have hjson : Ts.jsonValue (.obj (Ts.ofMembers (Sample.receipt (.obj []))))
      = .obj (Ts.ofMembers (Sample.receipt (.obj []))) := by decide +kernel
  rw [hjson]
  exact Same.refl (by decide)

end Parity

end OpenTerms
