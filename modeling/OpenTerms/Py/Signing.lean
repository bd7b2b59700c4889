import OpenTerms.Common.Base64
import OpenTerms.Py.Canonical
import OpenTerms.Py.Verification

/-!
# `receipts/signing.py`

`sign_receipt` takes a payload apart from the names it may have, signs
its canonical bytes, and adds the three metadata members. The JWK of a
public key is what a verifier looks the key up in. `dumps` is
`json.dumps` with its defaults, which a signed receipt travels as.
-/

namespace OpenTerms

namespace Py

open Json

/-- `_SIGNED_KEYS`. -/
def signedKeys : List PyStr :=
  payloadKeysRequired ++ payloadKeysSignedEnvelope ++ payloadKeysOptional

/-- `_METADATA_KEYS`. -/
def metadataKeys : List PyStr := ["canonical_hash", "signature", "key_id"].map lit

/-- `PrivateKeyInput`: a key object, which holds a seed of the right
length, or a seed. -/
inductive PrivateKeyInput where
  | privateKey (seed : Bytes)
  | bytes (seed : Bytes)

/-- The seed an input is or holds. -/
def PrivateKeyInput.seed : PrivateKeyInput → Bytes
  | .privateKey seed => seed
  | .bytes seed => seed

/-- `_coerce_private_key`. -/
def coercePrivateKey : PrivateKeyInput → Except PyErr Bytes
  | .privateKey seed => .ok seed
  | .bytes seed =>
    if seed.length ≠ 32 then
      .error (.valueError (lit "Ed25519 private key seed must be 32 bytes, got "
        ++ decimal seed.length))
    else .ok seed

/-- `sorted(keys)` as a message shows it. -/
def reprSorted [Ucd] (keys : List PyStr) : PyStr :=
  repr (.arr ((keys.insertionSort (· ≤ ·)).map .str))

/-- `sign_receipt`. -/
def signReceipt [Ucd] (crypto : Crypto) (payload : PyDict) (privateKey : PrivateKeyInput)
    (keyId : PyStr) : Except PyErr PyDict := do
  raiseWhen (keyId = []) (.valueError (lit "key_id must be a non-empty string"))
  let leaked := (names payload).filter (· ∈ metadataKeys)
  raiseWhen (leaked ≠ []) (.valueError (lit "payload must not contain signature metadata keys: "
    ++ reprSorted leaked))
  let unknown := (names payload).filter (· ∉ signedKeys)
  raiseWhen (unknown ≠ []) (.valueError (lit "payload contains unknown keys: "
    ++ reprSorted unknown))
  let sk ← coercePrivateKey privateKey
  let message ← signingInput crypto (.obj payload)
  let signature := crypto.sign sk message
  let hash ← canonicalHash crypto (.obj payload)
  let signed := set (lit "canonical_hash") (.str hash) payload
  let signed := set (lit "signature") (.str (b64urlEncode signature)) signed
  .ok (set (lit "key_id") (.str keyId) signed)

/-- `public_key_to_jwk`. -/
def publicKeyToJwk (publicKey : Bytes) (kid : PyStr) : PyDict :=
  [(lit "kty", .str (lit "OKP")), (lit "crv", .str (lit "Ed25519")),
    (lit "x", .str (b64urlEncode publicKey)), (lit "kid", .str kid), (lit "use", .str (lit "sig"))]

/-- `build_jwks`. -/
def buildJwks (keys : List (Bytes × PyStr)) : PyDict :=
  [(lit "keys", .arr (keys.map fun key => .obj (publicKeyToJwk key.1 key.2)))]

/-! ## Transport -/

/-- Characters outside ASCII as escapes of their code units:
`ensure_ascii=True`. -/
def wideAscii (c : CodePoint) : PyStr :=
  if c.val < 0x7F then [c] else (Utf16.encodeChar c).flatMap fun u => ofChars (unicodeEscape u.val)

/-- A number as `json.dumps` writes it. -/
def dumpsNumber : PyNum → PyStr
  | .float .nan => lit "NaN"
  | .float (.inf neg) => lit (if neg then "-Infinity" else "Infinity")
  | x => reprNum x

/-- `json.dumps` with its defaults. -/
def spaced : Style PyStr PyNum 0x110000 where
  quote := quoteWith wideAscii
  number := dumpsNumber
  comma := lit ", "
  colon := lit ": "

def dumps (v : PyVal) : PyStr := spaced.write v

end Py

end OpenTerms
