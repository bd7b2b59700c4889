import OpenTerms.Common.Crypto
import OpenTerms.Common.Members
import OpenTerms.Py.Value

/-!
# `receipts/canonical.py`

The canonicalizer: `_validate` on the raw tree, `strip_nulls`, and
`json.dumps` with sorted keys and compact separators, encoded as UTF-8.
`build_payload` picks the signed members out of a receipt.
-/

namespace OpenTerms

namespace Py

open Json

def payloadKeysRequired : List PyStr :=
  ["workspace_id", "agent_id", "action_type", "terms_url", "terms_hash", "timestamp",
    "pricing_version"].map lit

def payloadKeysSignedEnvelope : List PyStr :=
  ["receipt_id", "amount_charged", "created_at"].map lit

def payloadKeysOptional : List PyStr :=
  ["action_context", "ors_version", "issuer", "provider", "decision", "request_binding",
    "terms_type", "terms_service", "terms_version"].map lit

/-- `2**53 - 1`. -/
def maxSafeInteger : ℤ := 9007199254740991

mutual

/-- `_validate`: numbers and member names, nulls and what they hide
included. -/
def validate : PyVal → Except PyErr Unit
  | .obj ms => validateMembers ms
  | .arr xs => validateItems xs
  | .bool _ => .ok ()
  | .num (.int z) =>
    if maxSafeInteger < |z| then .error (.canonicalizationError (.unsafeInteger z)) else .ok ()
  | .num x => .error (.canonicalizationError (.floatValue x))
  | .str _ => .ok ()
  | .null => .ok ()

def validateItems : List PyVal → Except PyErr Unit
  | [] => .ok ()
  | x :: xs => do
    validate x
    validateItems xs

def validateMembers : PyDict → Except PyErr Unit
  | [] => .ok ()
  | (k, v) :: ms => do
    if k.any (fun c => 0xFFFF < c.val) then
      .error (.canonicalizationError (.nonBmpKey k))
    validate v
    validateMembers ms

end

/-- `separators=(",", ":"), ensure_ascii=False`. -/
def compact : Style PyStr PyNum 0x110000 where
  quote := quoteWith wideRaw
  number := reprNum
  comma := lit ","
  colon := lit ":"

/-- A number `allow_nan=False` lets through. -/
def JsonCompliant : PyNum → Prop
  | .float x => x.rat?.isSome
  | _ => True

instance : DecidablePred JsonCompliant
  | .float x => inferInstanceAs (Decidable (x.rat?.isSome = true))
  | .int _ => .isTrue trivial
  | .negZero => .isTrue trivial

/-- `json.dumps(…, sort_keys=True, allow_nan=False)`. -/
def dumpsCanonical (v : PyVal) : Except PyErr PyStr :=
  if Every JsonCompliant (fun _ => True) (fun _ => True) v then .ok (compact.write v.sortKeys)
  else .error (.valueError (lit "Out of range float values are not JSON compliant"))

/-- `str.encode("utf-8")`. -/
def encodeUtf8 (s : PyStr) : Except PyErr Bytes :=
  match Utf8.encode s with
  | some bytes => .ok bytes
  | none => .error .unicodeEncodeError

def canonicalize (payload : PyVal) : Except PyErr Bytes := do
  validate payload
  let canonicalStr ← dumpsCanonical payload.stripNulls
  encodeUtf8 canonicalStr

def canonicalHash (crypto : Crypto) (payload : PyVal) : Except PyErr PyStr := do
  let bytes ← canonicalize payload
  .ok (hex (crypto.sha256 bytes))

def signingInput (crypto : Crypto) (payload : PyVal) : Except PyErr Bytes := do
  let bytes ← canonicalize payload
  .ok (domainSeparator ++ crypto.sha256 bytes)

/-- Copies the named members, raising a `ValueError` for an absent one. -/
def requireKeys (what : String) (receipt : PyDict) (ks : List PyStr) (payload : PyDict) :
    Except PyErr PyDict :=
  match copyRequired receipt ks payload with
  | .ok payload => .ok payload
  | .error k => .error (.valueError (lit what ++ k))

/-- What `is not None` keeps. -/
def isNotNone (v : PyVal) : Bool := v ≠ .null

def buildPayload (receipt : PyDict) : Except PyErr PyDict := do
  let payload ← requireKeys "Missing required payload field: " receipt payloadKeysRequired []
  let payload ← requireKeys "Missing required signed envelope field: " receipt
    payloadKeysSignedEnvelope payload
  .ok (copyPresent isNotNone receipt payloadKeysOptional payload)

/-! ## The text of a rejection -/

/-- The message of a `CanonicalizationError`. -/
def Rejection.message [Ucd] : Rejection → PyStr
  | .nonBmpKey k =>
    lit "Object key contains a non-BMP (supplementary-plane) character; not supported by ORS v0.1 canonicalization: "
      ++ reprStr k
  | .unsafeInteger z =>
    lit "Integer " ++ decimal z
      ++ lit " exceeds JavaScript Number.MAX_SAFE_INTEGER; encode as a string instead"
  | .floatValue x =>
    lit "Float values are not allowed in ORS v0.1 canonical receipts (got " ++ reprNum x
      ++ lit ")"

end Py

end OpenTerms
