import OpenTerms.Common.Base64
import OpenTerms.Common.Fallible
import OpenTerms.Py.Canonical

/-!
# `receipts/verification.py` and `receipts/_b64.py`

`verify_receipt`: the six checks in order, each a code returned, with the
exceptions the code does not catch left as they are. Base64 is decoded by
`binascii`, which skips what is not in its alphabet and stops at a
complete pad.
-/

namespace OpenTerms

namespace Py

open Json

/-! ## Base64 -/

/-- `b64url_encode`: both url-safe characters put in at once. -/
def b64urlEncode (data : Bytes) : PyStr := Base64.encodeUrl data

/-- `binascii.a2b_base64`, not strict: `quad` digits of the group are
read, `left` holds the bits of the last one not yet written out, and
`pads` counts the pads since. -/
def a2bBase64 : List ℕ → (quad left pads : ℕ) → Bytes → Except PyErr Bytes
  | [], quad, _, _, out => if quad = 0 then .ok out else .error .binasciiError
  | c :: cs, quad, left, pads, out =>
    if c = 0x3D then
      if 2 ≤ quad then
        if 4 ≤ quad + (pads + 1) then .ok out else a2bBase64 cs quad left (pads + 1) out
      else a2bBase64 cs quad left pads out
    else
      match Base64.sextet? c with
      | none => a2bBase64 cs quad left pads out
      | some v =>
        match quad with
        | 0 => a2bBase64 cs 1 v.val 0 out
        | 1 => a2bBase64 cs 2 (v.val % 16) 0 (out ++ [Fin.ofNat _ (left * 4 + v.val / 16)])
        | 2 => a2bBase64 cs 3 (v.val % 4) 0 (out ++ [Fin.ofNat _ (left * 16 + v.val / 4)])
        | _ => a2bBase64 cs 0 0 0 (out ++ [Fin.ofNat _ (left * 64 + v.val)])

/-- `b64url_decode` of a string: padded to a multiple of four, encoded as
ASCII, decoded. -/
def b64urlDecodeStr (data : PyStr) : Except PyErr Bytes :=
  let padLen := (4 - data.length % 4) % 4
  let padded := data.map Fin.val ++ List.replicate padLen 0x3D
  if padded.any (fun c => 0x80 ≤ c) then .error .unicodeEncodeError
  else a2bBase64 (padded.map Base64.fromUrlSafe) 0 0 0 []

/-- `b64url_decode`: on anything but a string `len` or `+` raises a
`TypeError`. -/
def b64urlDecode : PyVal → Except PyErr Bytes
  | .str s => b64urlDecodeStr s
  | _ => .error .typeError

/-! ## Verification -/

structure VerifyResult where
  valid : Bool
  error : Option VerifyError
  keyId : PyVal
  canonicalHash : PyStr
  deriving DecidableEq

/-- `_fail`. -/
def fail (error : VerifyError) (keyId : PyVal) (computedHash : PyStr) : VerifyResult :=
  { valid := false, error := some error, keyId := keyId, canonicalHash := computedHash }

/-- A signature metadata field, which must be there. -/
def requireMetadata (receipt : PyDict) (k : PyStr) : Except PyErr PyVal :=
  match get? k receipt with
  | some v => .ok v
  | none => .error (.valueError (lit "Missing required signature metadata field: " ++ k))

/-- `iter` of a value. -/
def iterate : PyVal → Except PyErr (List PyVal)
  | .arr xs => .ok xs
  | .obj ms => .ok ((names ms).map .str)
  | .str s => .ok (s.map fun c => .str [c])
  | _ => .error .typeError

/-- The first key whose `kid` is the receipt's; an entry that is no dict
has no `get`. -/
def findKey (keyId : PyVal) : List PyVal → Except PyErr (Option PyDict)
  | [] => .ok none
  | .obj k :: ks => if pyEq (getD (lit "kid") k) keyId then .ok (some k) else findKey keyId ks
  | _ :: _ => .error .attributeError

/-- The last three checks, on the key found: its length, the signature's,
and the signature itself. -/
def checkSignature (crypto : Crypto) (jwk : PyDict) (keyId signature : PyVal)
    (hashBytes : Bytes) : Except PyErr VerifyResult :=
  let hashHex := hex hashBytes
  let x :=
    match get? (lit "x") jwk with
    | some x => b64urlDecode x
    | none => .error .keyError
  match x with
  | .error e =>
    if e = .keyError ∨ e.isValueError then .ok (fail .invalidKeyLength keyId hashHex)
    else .error e
  | .ok pubBytes =>
    if pubBytes.length ≠ 32 then .ok (fail .invalidKeyLength keyId hashHex)
    else
      match b64urlDecode signature with
      | .error e =>
        if e.isValueError then .ok (fail .invalidSignatureLength keyId hashHex) else .error e
      | .ok sigBytes =>
        if sigBytes.length ≠ 64 then .ok (fail .invalidSignatureLength keyId hashHex)
        else if crypto.verify pubBytes (domainSeparator ++ hashBytes) sigBytes then
          .ok { valid := true, error := none, keyId := keyId, canonicalHash := hashHex }
        else .ok (fail .invalidSignature keyId hashHex)

/-- Key lookup and key type, then the signature. -/
def checkKey (crypto : Crypto) (jwks : PyDict) (keyId signature : PyVal) (hashBytes : Bytes) :
    Except PyErr VerifyResult := do
  let hashHex := hex hashBytes
  let keys ← iterate ((get? (lit "keys") jwks).getD (.arr []))
  match ← findKey keyId keys with
  | none => .ok (fail .keyNotFound keyId hashHex)
  | some jwk =>
    if !pyEq (getD (lit "kty") jwk) (.str (lit "OKP"))
        || !pyEq (getD (lit "crv") jwk) (.str (lit "Ed25519")) then
      .ok (fail .unsupportedKeyType keyId hashHex)
    else checkSignature crypto jwk keyId signature hashBytes

/-- The hash of what a receipt signs. -/
def receiptDigest (crypto : Crypto) (receipt : PyDict) : Except PyErr Bytes := do
  let payload ← buildPayload receipt
  let canonicalBytes ← canonicalize (.obj payload)
  .ok (crypto.sha256 canonicalBytes)

def verifyReceipt (crypto : Crypto) (receipt jwks : PyDict) : Except PyErr VerifyResult := do
  let claimedHash ← requireMetadata receipt (lit "canonical_hash")
  let signature ← requireMetadata receipt (lit "signature")
  let keyId ← requireMetadata receipt (lit "key_id")
  let hashBytes ← receiptDigest crypto receipt
  if !pyEq (.str (hex hashBytes)) claimedHash then
    .ok (fail .hashMismatch keyId (hex hashBytes))
  else checkKey crypto jwks keyId signature hashBytes

end Py

end OpenTerms
