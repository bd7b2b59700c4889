import OpenTerms.Common.Base64
import OpenTerms.Ts.Canonical

/-!
# `verify.ts`

`verifyReceipt`: the six checks in order. The base64 text is checked
against a pattern before Node decodes it, and everything the decoder
throws is caught.
-/

namespace OpenTerms

namespace Ts

open Json

/-! ## Base64 -/

/-- `/^[A-Za-z0-9+/]*={0,2}$/`. -/
def isBase64 (std : List ℕ) : Bool :=
  let rest := std.dropWhile fun c => (Base64.sextet? c).isSome
  rest.all (· = 0x3D) && rest.length ≤ 2

/-- `Buffer.from(std, "base64")`: the digits before the padding. -/
def bufferFromBase64 (std : List ℕ) : Bytes :=
  Base64.unpack ((std.takeWhile (· ≠ 0x3D)).filterMap Base64.sextet?)

/-- The standard base64 text `b64urlDecode` makes of a url-safe one. -/
def toStandard (s : JsStr) : List ℕ :=
  let pad := if s.length % 4 = 0 then [] else List.replicate (4 - s.length % 4) 0x3D
  s.map (fun u => Base64.fromUrlSafe u.val) ++ pad

/-- `b64urlDecode`: a value that is no string has no `replace`. -/
def b64urlDecode : JsVal → Except TsErr Bytes
  | .str s =>
    if isBase64 (toStandard s) then .ok (bufferFromBase64 (toStandard s))
    else .error (.error (lit "invalid base64url"))
  | _ => .error .typeError

/-! ## Verification -/

structure VerifyResult where
  valid : Bool
  error : Option VerifyError
  keyId : JsVal
  canonicalHash : JsStr
  deriving DecidableEq

/-- `fail`. -/
def fail (error : VerifyError) (keyId : JsVal) (hash : JsStr) : VerifyResult :=
  { valid := false, error := some error, keyId := keyId, canonicalHash := hash }

/-- `===` between values of two documents: objects and arrays are never
the same one. -/
def strictEq : JsVal → JsVal → Bool
  | .null, .null => true
  | .bool a, .bool b => a = b
  | .num x, .num y => x.eqNum y
  | .str s, .str t => s = t
  | _, _ => false

/-- Whether a property that may be missing is `=== v`. -/
def propEq (k : JsStr) (ms : JsObject) (v : JsVal) : Bool := (get? k ms).any (strictEq · v)

theorem strictEq_str_right (v : JsVal) (s : JsStr) : strictEq v (.str s) = decide (v = .str s) := by
  cases v <;> simp [strictEq]

theorem propEq_str {k : JsStr} {ms : JsObject} {s : JsStr} :
    propEq k ms (.str s) = decide (get? k ms = some (.str s)) := by
  unfold propEq
  cases get? k ms <;> simp [strictEq_str_right]

/-- What `!v` is false of. -/
def truthy : JsVal → Bool
  | .null => false
  | .bool b => b
  | .num x => x ≠ .nan && !x.eqNum (.fin 0)
  | .str s => s ≠ []
  | .arr _ => true
  | .obj _ => true

/-- A signature metadata field, which must be there. -/
def requireMetadata (receipt : JsObject) (k : JsStr) : Except TsErr JsVal :=
  match get? k receipt with
  | some v => .ok v
  | none => .error (.error (lit "Missing required signature metadata field: " ++ k))

/-- `(jwks.keys ?? [])`, of which `find` must be a function. -/
def jwksKeys (jwks : JsObject) : Except TsErr (List JsVal) :=
  match get? (lit "keys") jwks with
  | none => .ok []
  | some .null => .ok []
  | some (.arr xs) => .ok xs
  | some _ => .error .typeError

/-- `find((k) => k.kid === keyId)`: `null` has no properties, and what is
neither object nor `null` has no `kid`. -/
def findKey (keyId : JsVal) : List JsVal → Except TsErr (Option JsObject)
  | [] => .ok none
  | .null :: _ => .error .typeError
  | .obj k :: ks => if propEq (lit "kid") k keyId then .ok (some k) else findKey keyId ks
  | _ :: ks => findKey keyId ks

/-- The last three checks, on the key found. -/
def checkSignature (crypto : Crypto) (jwk : JsObject) (keyId signature : JsVal)
    (hashBytes : Bytes) : VerifyResult :=
  let hashHex := hex hashBytes
  let x :=
    match get? (lit "x") jwk with
    | some x => if truthy x then b64urlDecode x else .error .typeError
    | none => .error .typeError
  match x with
  | .error _ => fail .invalidKeyLength keyId hashHex
  | .ok pubBytes =>
    if pubBytes.length ≠ 32 then fail .invalidKeyLength keyId hashHex
    else
      match b64urlDecode signature with
      | .error _ => fail .invalidSignatureLength keyId hashHex
      | .ok sigBytes =>
        if sigBytes.length ≠ 64 then fail .invalidSignatureLength keyId hashHex
        else if crypto.verify pubBytes (domainSeparator ++ hashBytes) sigBytes then
          { valid := true, error := none, keyId := keyId, canonicalHash := hashHex }
        else fail .invalidSignature keyId hashHex

/-- Key lookup and key type, then the signature. -/
def checkKey (crypto : Crypto) (jwks : JsObject) (keyId signature : JsVal) (hashBytes : Bytes) :
    Except TsErr VerifyResult := do
  let hashHex := hex hashBytes
  let keys ← jwksKeys jwks
  match ← findKey keyId keys with
  | none => .ok (fail .keyNotFound keyId hashHex)
  | some jwk =>
    if !propEq (lit "kty") jwk (.str (lit "OKP"))
        || !propEq (lit "crv") jwk (.str (lit "Ed25519")) then
      .ok (fail .unsupportedKeyType keyId hashHex)
    else .ok (checkSignature crypto jwk keyId signature hashBytes)

/-- The hash of what a receipt signs. -/
def receiptDigest (crypto : Crypto) (receipt : JsObject) : Except TsErr Bytes := do
  let payload ← buildPayload receipt
  let canonicalBytes ← canonicalize (.obj payload)
  .ok (crypto.sha256 canonicalBytes)

def verifyReceipt (crypto : Crypto) (receipt jwks : JsObject) : Except TsErr VerifyResult := do
  let claimedHash ← requireMetadata receipt (lit "canonical_hash")
  let signature ← requireMetadata receipt (lit "signature")
  let keyId ← requireMetadata receipt (lit "key_id")
  let hashBytes ← receiptDigest crypto receipt
  if !strictEq (.str (hex hashBytes)) claimedHash then
    .ok (fail .hashMismatch keyId (hex hashBytes))
  else checkKey crypto jwks keyId signature hashBytes

end Ts

end OpenTerms
