import OpenTerms.Common.GlobSpec
import OpenTerms.Ts.PolicyTypes

/-!
# `policy_pattern.ts`

Paths into a receipt and the five operators of the pattern language. A
path part is looked up with `in`, so names of `Object.prototype` lead out
of the receipt.
-/

namespace OpenTerms

namespace Ts

open Json

/-- The walk of `resolvePath` from a value, part after part. -/
def walkPath : List JsStr → JsAny → JsAny
  | [], cur => cur
  | part :: parts, .json (.obj ms) =>
    if hasProp ms part then walkPath parts (getProp ms part) else .json .null
  | part :: parts, .objectPrototype =>
    if prototypeProp part ≠ .undefined then walkPath parts (prototypeProp part) else .json .null
  | _ :: _, _ => .json .null

/-- `resolvePath`. -/
def resolvePath (receipt : JsObject) (path : JsStr) : JsAny :=
  if path = [] then .json .null else walkPath (path.splitOn (chr '.')) (.json (.obj receipt))

/-- `globMatch`. -/
def globMatch (pattern target : JsStr) : Bool := Glob.run (chr '*') (chr '?') pattern target

/-- It decides the language of its pattern, over code units. -/
theorem globMatch_iff (pattern target : JsStr) :
    globMatch pattern target = true ↔ target ∈ Glob.language (chr '*') (chr '?') pattern :=
  Glob.run_iff

/-- What an operator says of a target's text. -/
def applyOp (op : PatternOp) (value target : JsStr) : Bool :=
  match op with
  | .equalsOp => target = value
  | .prefixOp => value.isPrefixOf target
  | .suffixOp => value.isSuffixOf target
  | .containsOp => value <:+: target
  | .globOp => globMatch value target

/-- `matchOne`. -/
def matchOne (op value : JsStr) (target : JsAny) : Except TsErr Bool :=
  match validOps.find? fun o => lit o.text = op with
  | none => .error (.error (lit "Unknown pattern operator: '" ++ (op ++ lit "'")))
  | some o =>
    if nullish target then .ok false
    else do
      let targetStr ← anyToStr target
      .ok (applyOp o value targetStr)

end Ts

end OpenTerms
