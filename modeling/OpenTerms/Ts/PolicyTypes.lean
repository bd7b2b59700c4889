import OpenTerms.Common.Policy
import OpenTerms.Ts.Object

/-!
# `policy_types.ts`

The interfaces promise more than a value from `JSON.parse` keeps: a
`Rule` is any object with the four fields, whatever they hold, since that
is all `coercePolicy` asks of one. `ruleFromDict` is where a document is
checked.
-/

namespace OpenTerms

namespace Ts

open Json

/-- An object with the four fields of a rule, and its other members. -/
structure Rule where
  id : JsVal
  type : JsVal
  outcome : JsVal
  parameters : JsVal
  others : JsObject
  deriving DecidableEq

structure Policy where
  version : JsVal
  rules : List Rule
  deriving DecidableEq

/-- A rule's result: whether `fired` is truthy, and the reason. -/
structure RuleResult where
  fired : Bool
  reason : JsAny
  deriving DecidableEq

/-- `EvalContext`, over the type of the clock's readings. -/
structure EvalContext (T : Type) where
  aggregates : JsObject
  deadlineMonotonic : Option T
  evaluatedAt : Option JsStr

structure Decision where
  decision : JsVal
  triggeredRules : List JsVal
  reasons : List JsAny
  policyVersion : JsVal
  evaluatedAt : JsStr
  deriving DecidableEq

/-! ## Reading a policy -/

/-- The fields a rule must have, in the order they are asked for. -/
def ruleFields : List JsStr := [lit "id", lit "type", lit "outcome", lit "parameters"]

/-- The one of the valid names that a value is, by `includes`. -/
def oneOf {α : Type} (text : α → String) (valid : List α) (v : JsAny) : Option α :=
  valid.find? fun a => v = .json (.str (lit (text a)))

/-- The loop of `ruleFromDict`. -/
def requireFields (d : JsVal) : List JsStr → Except TsErr Unit
  | [] => .ok ()
  | k :: ks => do
    let present ← hasKey d k
    raiseWhen (!present) (.error (lit "Rule is missing required field '" ++ (k ++ lit "'")))
    requireFields d ks

/-- `ruleFromDict`, of anything an array of rules may hold. -/
def ruleFromDict (d : JsVal) : Except TsErr Rule := do
  requireFields d ruleFields
  let type ← readProp d (lit "type")
  match oneOf RuleType.text validRuleTypes type with
  | none => do
    let text ← anyToStr type
    .error (.error (lit "Unknown rule type: '" ++ (text ++ lit "'")))
  | some ruleType =>
    let outcome ← readProp d (lit "outcome")
    match oneOf DecisionOutcome.text validOutcomes outcome with
    | none => do
      let text ← anyToStr outcome
      .error (.error (lit "Invalid outcome: '" ++ (text ++ lit "'")))
    | some decisionOutcome =>
      match ← readProp d (lit "parameters") with
      | .json (.obj parameters) =>
        let id ← readProp d (lit "id")
        let text ← anyToStr id
        .ok { id := .str text, type := .str (lit ruleType.text),
              outcome := .str (lit decisionOutcome.text), parameters := .obj parameters,
              others := [] }
      | _ => .error (.error (lit "Rule.parameters must be an object"))

/-- `policyFromDict`. -/
def policyFromDict (d : JsObject) : Except TsErr Policy := do
  let version ← anyToStr (orElse (getProp d (lit "version")) (.str (lit "inline")))
  match orElse (getProp d (lit "rules")) (.arr []) with
  | .json (.arr rawRules) =>
    let rules ← rawRules.mapM ruleFromDict
    .ok { version := .str version, rules := rules }
  | _ => .error (.error (lit "Policy.rules must be a list"))

/-- A value as a rule, where `coercePolicy`'s probe finds the four fields
on it. None of them is inherited. -/
def Rule.probe : JsVal → Option Rule
  | .obj ms => do
    let id ← get? (lit "id") ms
    let type ← get? (lit "type") ms
    let outcome ← get? (lit "outcome") ms
    let parameters ← get? (lit "parameters") ms
    some { id := id, type := type, outcome := outcome, parameters := parameters,
           others := ms.filter fun m => m.1 ∉ ruleFields }
  | _ => none

end Ts

end OpenTerms
