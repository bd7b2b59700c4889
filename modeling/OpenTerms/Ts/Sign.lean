import OpenTerms.Common.Base64
import OpenTerms.Ts.Canonical
import OpenTerms.Ts.Verify

/-!
# `sign.ts`

`signReceipt` takes a payload apart from the names it may have, signs
its canonical bytes, and adds the three metadata members. What
`JSON.stringify` writes of the result is `jsonValue` of it, `null`
standing for a number JSON cannot write.
-/

namespace OpenTerms

namespace Ts

open Json

/-- `SIGNED_KEYS`. -/
def signedKeys : List JsStr :=
  payloadKeysRequired ++ payloadKeysSignedEnvelope ++ payloadKeysOptional ++ payloadKeysV2

/-- `METADATA_KEYS`. -/
def metadataKeys : List JsStr := signatureMetadataKeys

/-- `.replace` of every `a` by `b`. -/
def replaceAll (a b : Char) (s : List Char) : List Char := s.map fun c => if c = a then b else c

/-- `b64url`: one replacement after the other, then `.replace(/=+$/, "")`. -/
def b64url (bytes : Bytes) : JsStr :=
  ofChars ((replaceAll '/' '_' (replaceAll '+' '-' (Base64.encodeChars bytes))).rdropWhile (· = '='))

/-- **The replacements do not meet**: what the first puts in the second
leaves alone. -/
theorem b64url_eq (bytes : Bytes) : b64url bytes = Base64.encodeUrl bytes := by
  have hreplace : (fun c : Char => if c = '/' then '_' else c) ∘ (fun c => if c = '+' then '-' else c)
      = Base64.urlSafe := by
    funext c
    unfold Base64.urlSafe
    by_cases hplus : c = '+'
    · subst hplus
      rfl
    · simp only [Function.comp_apply, if_neg hplus]
  unfold b64url Base64.encodeUrl replaceAll
  rw [List.map_map, hreplace]

/-- `coerceSeed`. -/
def coerceSeed (privateKey : Bytes) : Except TsErr Bytes :=
  if privateKey.length ≠ 32 then
    .error (.error (lit "Ed25519 private key seed must be 32 bytes, got "
      ++ decimal privateKey.length))
  else .ok privateKey

/-- `JSON.stringify(keys.sort())`. -/
def stringifySorted (keys : List JsStr) : JsStr :=
  chr '[' :: (joinWith (lit ",") ((keys.insertionSort (· ≤ ·)).map quoteJson) ++ [chr ']'])

/-- `signReceipt`. -/
def signReceipt (crypto : Crypto) (payload : JsObject) (privateKey : Bytes) (keyId : JsStr) :
    Except TsErr JsObject := do
  raiseWhen (keyId = []) (.error (lit "keyId must be a non-empty string"))
  let leaked := (names payload).filter (· ∈ metadataKeys)
  raiseWhen (leaked ≠ []) (.error (lit "payload must not contain signature metadata keys: "
    ++ stringifySorted leaked))
  let unknown := (names payload).filter (· ∉ signedKeys)
  raiseWhen (unknown ≠ []) (.error (lit "payload contains unknown keys: "
    ++ stringifySorted unknown))
  let seed ← coerceSeed privateKey
  let message ← signingInput crypto (.obj payload)
  let sig := crypto.sign seed message
  let hash ← canonicalHash crypto (.obj payload)
  .ok (set (lit "key_id") (.str keyId) (set (lit "signature") (.str (b64url sig))
    (set (lit "canonical_hash") (.str hash) payload)))

/-- `publicKeyToJwk`. -/
def publicKeyToJwk (publicKey : Bytes) (kid : JsStr) : JsObject :=
  [(lit "kty", .str (lit "OKP")), (lit "crv", .str (lit "Ed25519")),
    (lit "x", .str (b64url publicKey)), (lit "kid", .str kid), (lit "use", .str (lit "sig"))]

/-! ## Transport -/

/-- A number as a JSON value: `null` where it is not finite. -/
def jsonNumber (x : Double) : JsVal := if x.rat?.isSome then .num x else .null

mutual

/-- What `JSON.stringify` writes of a value. -/
def jsonValue : JsVal → JsVal
  | .num x => jsonNumber x
  | .arr xs => .arr (jsonItems xs)
  | .obj ms => .obj (jsonMembers ms)
  | v => v

def jsonItems : List JsVal → List JsVal
  | [] => []
  | x :: xs => jsonValue x :: jsonItems xs

def jsonMembers : JsObject → JsObject
  | [] => []
  | (k, v) :: ms => (k, jsonValue v) :: jsonMembers ms

end

end Ts

end OpenTerms
