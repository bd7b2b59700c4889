import OpenTerms.Common.Crypto
import OpenTerms.Common.Fallible
import OpenTerms.Common.Members
import OpenTerms.Ts.Value

/-!
# `canonical.ts`

The canonicalizer: `stripNulls` first, then `canonicalSerialize`, which
sorts the member names by code units and checks names and numbers as it
reaches them. `buildPayload` picks the signed members out of a receipt.
-/

namespace OpenTerms

namespace Ts

open Json

def payloadKeysRequired : List JsStr :=
  ["workspace_id", "agent_id", "action_type", "terms_url", "terms_hash", "timestamp",
    "pricing_version"].map lit

def payloadKeysSignedEnvelope : List JsStr :=
  ["receipt_id", "amount_charged", "created_at"].map lit

def payloadKeysOptional : List JsStr :=
  ["action_context", "ors_version", "issuer", "provider", "decision", "request_binding"].map lit

/-- The v0.2 fields `buildPayload` passes through. -/
def payloadKeysV2 : List JsStr := ["terms_type", "terms_service", "terms_version"].map lit

def signatureMetadataKeys : List JsStr := ["canonical_hash", "signature", "key_id"].map lit

/-- Throws at a leading surrogate. -/
def assertBmpKey (key : JsStr) : Except TsErr Unit :=
  if key.any (fun u => 0xD800 ≤ u.val && u.val ≤ 0xDBFF) then
    .error (.canonicalizationError (.nonBmpKey key))
  else .ok ()

mutual

/-- `stripNulls`: the object is rebuilt by assignment. -/
def stripNulls : JsVal → JsVal
  | .arr xs => .arr (stripItems xs)
  | .obj ms => .obj (stripMembers ms [])
  | v => v

def stripItems : List JsVal → List JsVal
  | [] => []
  | x :: xs => stripNulls x :: stripItems xs

def stripMembers : JsObject → JsObject → JsObject
  | [], out => out
  | (_, .null) :: ms, out => stripMembers ms out
  | (k, v) :: ms, out => stripMembers ms (assign k (stripNulls v) out)

end

/-- The number case of `canonicalSerialize`. -/
def serializeNumber (x : Double) : Except TsErr JsStr :=
  if x = .nan then .error (.canonicalizationError .nan)
  else if x.rat?.isNone then .error (.canonicalizationError .infinity)
  else if !x.isInteger then .error (.canonicalizationError (.float x))
  else if !x.isSafeInteger then .error (.canonicalizationError (.unsafeInteger x))
  else .ok (numberToString x)

mutual

/-- `canonicalSerialize` of a value whose members stand in the order
`Object.keys(obj).sort()` visits them. -/
def serializeSorted : JsVal → Except TsErr JsStr
  | .null => .ok (lit "null")
  | .bool true => .ok (lit "true")
  | .bool false => .ok (lit "false")
  | .num x => serializeNumber x
  | .str s => .ok (quoteJson s)
  | .arr xs => do
    let parts ← serializeItems xs
    .ok (chr '[' :: (joinWith (lit ",") parts ++ [chr ']']))
  | .obj ms => do
    let parts ← serializeMembers ms
    .ok (chr '{' :: (joinWith (lit ",") parts ++ [chr '}']))

def serializeItems : List JsVal → Except TsErr (List JsStr)
  | [] => .ok []
  | x :: xs => do
    let part ← serializeSorted x
    let parts ← serializeItems xs
    .ok (part :: parts)

def serializeMembers : JsObject → Except TsErr (List JsStr)
  | [] => .ok []
  | (k, v) :: ms => do
    assertBmpKey k
    let part ← serializeSorted v
    let parts ← serializeMembers ms
    .ok ((quoteJson k ++ (lit ":" ++ part)) :: parts)

end

/-- `canonicalSerialize`: every object's names sorted by code units. -/
def canonicalSerialize (value : JsVal) : Except TsErr JsStr := serializeSorted value.sortKeys

def canonicalize (payload : JsVal) : Except TsErr Bytes := do
  let str ← canonicalSerialize (stripNulls payload)
  .ok (textEncode str)

def canonicalHash (crypto : Crypto) (payload : JsVal) : Except TsErr JsStr := do
  let bytes ← canonicalize payload
  .ok (hex (crypto.sha256 bytes))

def signingInput (crypto : Crypto) (payload : JsVal) : Except TsErr Bytes := do
  let bytes ← canonicalize payload
  .ok (domainSeparator ++ crypto.sha256 bytes)

/-- Copies the named members, throwing for an absent one. The names are
none of `Object.prototype`'s, so `in` asks for an own property. -/
def requireKeys (what : String) (receipt : JsObject) (ks : List JsStr) (payload : JsObject) :
    Except TsErr JsObject :=
  match copyRequired receipt ks payload with
  | .ok payload => .ok payload
  | .error k => .error (.error (lit what ++ k))

/-- What `!== null` keeps. -/
def isNotNull (v : JsVal) : Bool := v ≠ .null

def buildPayload (receipt : JsObject) : Except TsErr JsObject := do
  let payload ← requireKeys "Missing required payload field: " receipt payloadKeysRequired []
  let payload ← requireKeys "Missing required signed envelope field: " receipt
    payloadKeysSignedEnvelope payload
  let payload := copyPresent isNotNull receipt payloadKeysOptional payload
  .ok (copyPresent isNotNull receipt payloadKeysV2 payload)

/-! ## The text of a rejection -/

/-- The message of a `CanonicalizationError`. -/
def Rejection.message : Rejection → JsStr
  | .nan => lit "NaN is not a valid canonical value"
  | .infinity => lit "Infinity is not a valid canonical value"
  | .float x =>
    lit "Float values are not allowed in ORS v0.1 canonical receipts (got " ++ numberToString x
      ++ lit ")"
  | .unsafeInteger x =>
    lit "Integer " ++ numberToString x
      ++ lit " exceeds Number.MAX_SAFE_INTEGER; encode as a string instead"
  | .nonBmpKey key =>
    lit "Object key contains a non-BMP (supplementary-plane) character; not supported by ORS v0.1 canonicalization: "
      ++ quoteJson key

end Ts

end OpenTerms
