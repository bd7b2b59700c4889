import OpenTerms.Common.Fallible
import OpenTerms.Common.Policy
import OpenTerms.Py.Value

/-!
# `policy/types.py`

The dataclasses of the policy engine and the two `from_dict`. What the
type annotations promise of a `Rule` is in its fields: a type and an
outcome outside the enumerations cannot be built, and `Rule.from_dict` is
where a document earns them.
-/

namespace OpenTerms

namespace Py

open Json

structure Rule where
  id : PyStr
  type : RuleType
  outcome : DecisionOutcome
  parameters : PyDict

structure Policy where
  version : PyStr
  rules : List Rule

/-- What one rule says of a receipt. -/
structure RuleResult where
  fired : Bool
  reason : PyStr
  deriving DecidableEq

/-- `EvalContext`, over the type of the clock's readings. -/
structure EvalContext (T : Type) where
  aggregates : PyDict
  deadlineMonotonic : Option T
  evaluatedAt : Option PyStr

structure Decision where
  decision : DecisionOutcome
  triggeredRules : List PyStr
  reasons : List PyStr
  policyVersion : PyStr
  evaluatedAt : PyStr
  deriving DecidableEq

/-! ## Reading a policy -/

/-- `k in v`: a key of a dict, an item of a list, a part of a string. -/
def contains (k : PyStr) : PyVal → Except PyErr Bool
  | .obj ms => .ok (k ∈ names ms)
  | .arr xs => .ok (xs.any fun x => pyEq x (.str k))
  | .str s => .ok (k <:+: s)
  | _ => .error .typeError

/-- `v[k]`. -/
def subscript (k : PyStr) : PyVal → Except PyErr PyVal
  | .obj ms =>
    match get? k ms with
    | some v => .ok v
    | none => .error .keyError
  | _ => .error .typeError

/-- The one of the valid names that a value equals. -/
def oneOf {α : Type} (text : α → String) (valid : List α) (v : PyVal) : Option α :=
  valid.find? fun a => pyEq v (.str (lit (text a)))

/-- The fields a rule must have, in the order they are asked for. -/
def ruleFields : List PyStr := [lit "id", lit "type", lit "outcome", lit "parameters"]

/-- The first loop of `Rule.from_dict`. -/
def requireFields (d : PyVal) : List PyStr → Except PyErr Unit
  | [] => .ok ()
  | k :: ks => do
    let present ← contains k d
    raiseWhen (!present)
      (.valueError (lit "Rule is missing required field '" ++ (k ++ lit "'")))
    requireFields d ks

variable [Ucd]

/-- `Rule.from_dict`, of anything a list of rules may hold. -/
def Rule.fromDict (d : PyVal) : Except PyErr Rule := do
  requireFields d ruleFields
  let type ← subscript (lit "type") d
  match oneOf RuleType.text validRuleTypes type with
  | none => .error (.valueError (lit "Unknown rule type: " ++ repr type))
  | some ruleType =>
    let outcome ← subscript (lit "outcome") d
    match oneOf DecisionOutcome.text validOutcomes outcome with
    | none => .error (.valueError (lit "Invalid outcome: " ++ repr outcome))
    | some decisionOutcome =>
      match ← subscript (lit "parameters") d with
      | .obj parameters =>
        let id ← subscript (lit "id") d
        .ok { id := str id, type := ruleType, outcome := decisionOutcome, parameters := parameters }
      | _ => .error (.valueError (lit "Rule.parameters must be an object"))

/-- `Policy.from_dict`. -/
def Policy.fromDict (d : PyDict) : Except PyErr Policy :=
  let version := str ((get? (lit "version") d).getD (.str (lit "inline")))
  match (get? (lit "rules") d).getD (.arr []) with
  | .arr rawRules => do
    let rules ← rawRules.mapM Rule.fromDict
    .ok { version := version, rules := rules }
  | _ => .error (.valueError (lit "Policy.rules must be a list"))

/-! ## What a rule is read from -/

omit [Ucd] in
theorem eq_text_of_oneOf {α : Type} {text : α → String} {valid : List α} {v : PyVal} {a : α}
    (h : oneOf text valid v = some a) : v = .str (lit (text a)) := by
  have heq := List.find?_some h
  rwa [pyEq_str_right, decide_eq_true_iff] at heq

omit [Ucd] in
theorem get?_of_subscript {k : PyStr} {ms : PyDict} {v : PyVal}
    (h : subscript k (.obj ms) = .ok v) : get? k ms = some v := by
  unfold subscript at h
  dsimp only at h
  split at h
  · next w hw => rw [hw, Except.ok.inj h]
  · cases h

/-- The members a rule is made of. -/
theorem ruleFromDict_eq_ok {d : PyVal} {rule : Rule} (h : Rule.fromDict d = .ok rule) :
    ∃ ms id, d = .obj ms
      ∧ get? (lit "type") ms = some (.str (lit rule.type.text))
      ∧ get? (lit "outcome") ms = some (.str (lit rule.outcome.text))
      ∧ get? (lit "parameters") ms = some (.obj rule.parameters)
      ∧ get? (lit "id") ms = some id ∧ rule.id = str id := by
  obtain ⟨_, -, h⟩ := bind_eq_ok_iff.mp h
  obtain ⟨type, htype, h⟩ := bind_eq_ok_iff.mp h
  cases d with
  | obj ms =>
    cases htypeOf : oneOf RuleType.text validRuleTypes type with
    | none =>
      rw [htypeOf] at h
      cases h
    | some ruleType =>
      rw [htypeOf] at h
      obtain ⟨outcome, houtcome, h⟩ := bind_eq_ok_iff.mp h
      cases houtcomeOf : oneOf DecisionOutcome.text validOutcomes outcome with
      | none =>
        rw [houtcomeOf] at h
        cases h
      | some decisionOutcome =>
        rw [houtcomeOf] at h
        obtain ⟨parameters, hparameters, h⟩ := bind_eq_ok_iff.mp h
        cases parameters with
        | obj ps =>
          obtain ⟨id, hid, h⟩ := bind_eq_ok_iff.mp h
          obtain rfl := Except.ok.inj h
          obtain rfl := eq_text_of_oneOf htypeOf
          obtain rfl := eq_text_of_oneOf houtcomeOf
          exact ⟨ms, id, rfl, get?_of_subscript htype, get?_of_subscript houtcome,
            get?_of_subscript hparameters, get?_of_subscript hid, rfl⟩
        | null | bool | num | str | arr => cases h
  | null | bool | num | str | arr => cases htype

/-! ## What a document raises -/

/-- Not the exception of a deadline. -/
def NotTimeout (e : PyErr) : Prop := e ≠ .policyTimeout

omit [Ucd] in
theorem raises_contains (k : PyStr) (d : PyVal) : Raises NotTimeout (contains k d) := by
  cases d
  case obj | arr | str => exact raises_ok _
  all_goals exact raises_error nofun

omit [Ucd] in
theorem raises_subscript (k : PyStr) (d : PyVal) : Raises NotTimeout (subscript k d) := by
  cases d
  case obj ms =>
    rw [subscript]
    split
    · exact raises_ok _
    · exact raises_error nofun
  all_goals exact raises_error nofun

omit [Ucd] in
theorem raises_requireFields (d : PyVal) (ks : List PyStr) :
    Raises NotTimeout (requireFields d ks) := by
  induction ks with
  | nil => exact raises_ok _
  | cons k ks ih =>
    refine (raises_contains k d).bind fun _ _ => ?_
    exact (raises_raiseWhen nofun).bind fun _ _ => ih

theorem raises_ruleFromDict (d : PyVal) : Raises NotTimeout (Rule.fromDict d) := by
  refine (raises_requireFields d ruleFields).bind fun _ _ => ?_
  refine (raises_subscript _ d).bind fun type _ => ?_
  split
  · exact raises_error nofun
  · refine (raises_subscript _ d).bind fun outcome _ => ?_
    split
    · exact raises_error nofun
    · refine (raises_subscript _ d).bind fun parameters _ => ?_
      split
      · exact (raises_subscript _ d).bind fun _ _ => raises_ok _
      · exact raises_error nofun

/-- Reading a policy meets no deadline. -/
theorem raises_policyFromDict (d : PyDict) : Raises NotTimeout (Policy.fromDict d) := by
  unfold Policy.fromDict
  dsimp only
  split
  · exact (Raises.mapM raises_ruleFromDict _).bind fun _ _ => raises_ok _
  · exact raises_error nofun

end Py

end OpenTerms
