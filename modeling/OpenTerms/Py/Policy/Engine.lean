import OpenTerms.Common.Trail
import OpenTerms.Py.Policy.Rules

/-!
# `policy/engine.py`

`evaluate_with_context`: the loop over the rules, the timeout caught
around it, and the maximum of the outcomes that fired. Without a deadline
the loop records what each rule says by itself (`firing`), so that the
decision is the strictest outcome of the rules that fire
(`evaluateWithContext_ok`), whatever their order.
-/

namespace OpenTerms

namespace Py

open Json

/-- What `evaluate` takes for a policy. -/
inductive PolicyInput where
  | policy (p : Policy)
  | dict (d : PyDict)

/-- `_evaluated_at`. -/
def evaluatedAt (receipt : PyDict) (override : Option PyStr) : PyStr :=
  match override with
  | some t => t
  | none =>
    ([lit "created_at", lit "timestamp"].findSome? fun key =>
      match getD key receipt with
      | .str s => if s = [] then none else some s
      | _ => none).getD (lit "1970-01-01T00:00:00Z")

/-- The reason recorded on a timeout. -/
def timeoutReason : PyStr := lit "TIMEOUT: rule evaluation exceeded the per-evaluation budget"

/-- The first of the outcomes of highest precedence, `allow` where
nothing fired. -/
def finalDecision (firedOutcomes : List DecisionOutcome) : DecisionOutcome :=
  (firedOutcomes.argmax DecisionOutcome.precedence).getD .allow

/-- **The maximum is the strictest outcome.** -/
theorem finalDecision_eq (os : List DecisionOutcome) : finalDecision os = strictest os := by
  unfold finalDecision
  cases h : os.argmax DecisionOutcome.precedence with
  | none =>
    rw [List.argmax_eq_none] at h
    subst h
    rfl
  | some o => exact (strictest_eq_of_argmax h).symm

variable [Ucd]

/-- `_coerce_policy`. -/
def coercePolicy : PolicyInput → Except PyErr Policy
  | .policy p => .ok p
  | .dict d => Policy.fromDict d

section

variable {T : Type} [LT T] [DecidableLT T]

/-- What the loop records of a rule that fired. -/
def record (rule : Rule) (result : RuleResult) : Option (Entry PyStr PyStr DecisionOutcome) :=
  if result.fired then some ⟨rule.id, result.reason, rule.outcome⟩ else none

/-- The body of the loop over the rules. -/
def visit (receipt : PyDict) (ctx : EvalContext T) (rule : Rule) :
    Timed T PyErr (Option (Entry PyStr PyStr DecisionOutcome)) := do
  Timed.checkDeadline .policyTimeout ctx.deadlineMonotonic
  let result ← applyRule rule receipt ctx
  pure (record rule result)

/-- What `evaluate_with_context` makes of the loop: a deny on the timeout
it catches, with the lists as far as they were filled, and the decision
where the loop ends by itself. -/
def conclude (receipt : PyDict) (pol : Policy) (override : Option PyStr) :
    Trail PyStr PyStr DecisionOutcome × Except PyErr Unit → Except PyErr Decision
  | (trail, .error .policyTimeout) =>
    .ok { decision := .deny,
          triggeredRules := trail.triggered,
          reasons := trail.reasons ++ [timeoutReason],
          policyVersion := pol.version,
          evaluatedAt := evaluatedAt receipt override }
  | (_, .error e) => .error e
  | (trail, .ok ()) =>
    .ok { decision := finalDecision trail.outcomes,
          triggeredRules := trail.triggered,
          reasons := trail.reasons,
          policyVersion := pol.version,
          evaluatedAt := evaluatedAt receipt override }

/-- `evaluate_with_context`. -/
def evaluateWithContext (receipt : PyDict) (policy : PolicyInput) (ctx : EvalContext T)
    (clock : Stream' T) : Except PyErr Decision := do
  let pol ← coercePolicy policy
  conclude receipt pol ctx.evaluatedAt
    (Trail.walk (visit receipt ctx) pol.rules clock Trail.empty)

/-- `evaluate`: a budget that is not positive sets no deadline. -/
def evaluate [Zero T] [Add T] (receipt : PyDict) (policy : PolicyInput)
    (aggregates : Option PyDict) (budgetSeconds : T) (evaluatedAt : Option PyStr)
    (clock : Stream' T) : Except PyErr Decision :=
  let context (deadline : Option T) : EvalContext T :=
    { aggregates := aggregates.getD [], deadlineMonotonic := deadline, evaluatedAt := evaluatedAt }
  if 0 < budgetSeconds then
    evaluateWithContext receipt policy (context (some (clock.head + budgetSeconds))) clock.tail
  else evaluateWithContext receipt policy (context none) clock

end

section

variable {T : Type} [LT T] [DecidableLT T] [Zero T] [Add T] {receipt : PyDict}
  {policy : PolicyInput} {aggregates : Option PyDict} {budgetSeconds : T} {override : Option PyStr}
  {clock : Stream' T}

/-- The rule at which its deadline cuts an evaluation short, counted from
the first. -/
def cutAt (receipt : PyDict) (policy : PolicyInput) (aggregates : Option PyDict) (budgetSeconds : T)
    (override : Option PyStr) (clock : Stream' T) : Option ℕ :=
  match coercePolicy policy with
  | .error _ => none
  | .ok pol =>
    let (deadline, rest) := Timed.started budgetSeconds clock
    Trail.cutAt .policyTimeout (visit receipt ⟨aggregates.getD [], deadline, override⟩) pol.rules rest

theorem evaluate_eq : evaluate receipt policy aggregates budgetSeconds override clock
    = evaluateWithContext receipt policy
        ⟨aggregates.getD [], (Timed.started budgetSeconds clock).1, override⟩
        (Timed.started budgetSeconds clock).2 := by
  unfold evaluate Timed.started
  dsimp only
  by_cases hbudget : 0 < budgetSeconds
  · rw [if_pos hbudget, if_pos hbudget]
  · rw [if_neg hbudget, if_neg hbudget]

end

/-! ## Without a deadline -/

/-- What a rule comes to on a receipt when nothing interrupts it. -/
def firing (receipt aggregates : PyDict) (rule : Rule) :
    Except PyErr (Option (Entry PyStr PyStr DecisionOutcome)) := do
  let result ← ruleSays rule receipt aggregates
  .ok (record rule result)

/-- The rule fires on the receipt. -/
def Fires (rule : Rule) (receipt aggregates : PyDict) : Prop :=
  ∃ result, ruleSays rule receipt aggregates = .ok result ∧ result.fired = true

/-- The decision on a list of entries. -/
def decisionOf (receipt : PyDict) (pol : Policy) (override : Option PyStr)
    (es : List (Entry PyStr PyStr DecisionOutcome)) : Decision :=
  { decision := strictest (es.map Entry.outcome),
    triggeredRules := es.map Entry.id,
    reasons := es.map Entry.reason,
    policyVersion := pol.version,
    evaluatedAt := evaluatedAt receipt override }

/-- A deny on a timeout, after what an evaluation came to. -/
def Decision.timedOut (D : Decision) : Decision :=
  { D with decision := .deny, reasons := D.reasons ++ [timeoutReason] }

omit [Ucd] in
theorem conclude_ok (receipt : PyDict) (pol : Policy) (override : Option PyStr)
    (es : List (Entry PyStr PyStr DecisionOutcome)) :
    conclude receipt pol override (Trail.ofEntries es, .ok ())
      = .ok (decisionOf receipt pol override es) := by
  simp only [conclude, Trail.ofEntries, finalDecision_eq, decisionOf]

omit [Ucd] in
theorem conclude_timeout (receipt : PyDict) (pol : Policy) (override : Option PyStr)
    (es : List (Entry PyStr PyStr DecisionOutcome)) :
    conclude receipt pol override (Trail.ofEntries es, .error .policyTimeout)
      = .ok (decisionOf receipt pol override es).timedOut := rfl

omit [Ucd] in
/-- An exception other than the timeout goes through. -/
theorem conclude_error {e : PyErr} (h : NotTimeout e) (receipt : PyDict) (pol : Policy)
    (override : Option PyStr) (trail : Trail PyStr PyStr DecisionOutcome) :
    conclude receipt pol override (trail, .error e) = .error e := by
  cases e
  case policyTimeout => exact absurd rfl h
  all_goals rfl

section

variable {T : Type} [LT T] [DecidableLT T] {receipt : PyDict} {ctx : EvalContext T}
  {policy : PolicyInput} {pol : Policy}

theorem untimed_visit (hctx : ctx.deadlineMonotonic = none) (rule : Rule) :
    Timed.Untimed (visit receipt ctx rule) (firing receipt ctx.aggregates rule) := by
  unfold visit
  rw [hctx]
  refine Timed.Untimed.check ?_ _
  exact (untimed_applyRule hctx).bind fun result _ => Timed.untimed_pure _

theorem cut_visit (rule : Rule) :
    Timed.Cut .policyTimeout (visit receipt ctx rule) (firing receipt ctx.aggregates rule) := by
  unfold visit
  refine Timed.Cut.check ?_ _
  exact cut_applyRule.bind fun result _ => (Timed.untimed_pure _).cut _

/-- **An evaluation cut at a rule** denies, with what the rules before it
come to under the same clock. -/
theorem evaluate_of_cutAt [Zero T] [Add T] {aggregates : Option PyDict} {budgetSeconds : T}
    {override : Option PyStr} {clock : Stream' T} {n : ℕ}
    (h : cutAt receipt policy aggregates budgetSeconds override clock = some n) :
    ∃ pol D, coercePolicy policy = .ok pol ∧ n < pol.rules.length
      ∧ evaluate receipt (.policy { pol with rules := pol.rules.take n }) aggregates budgetSeconds
          override clock = .ok D
      ∧ evaluate receipt policy aggregates budgetSeconds override clock = .ok D.timedOut := by
  unfold cutAt at h
  cases hpol : coercePolicy policy with
  | error e =>
    rw [hpol] at h
    cases h
  | ok pol =>
    rw [hpol] at h
    obtain ⟨hlt, es, htake, hall⟩ := Trail.walk_of_cutAt [] h
    refine ⟨pol, decisionOf receipt pol override es, rfl, hlt, ?_, ?_⟩
    · rw [evaluate_eq, evaluateWithContext, coercePolicy, ok_bind]
      exact (congrArg _ htake).trans (conclude_ok _ _ _ es)
    · rw [evaluate_eq, evaluateWithContext, hpol, ok_bind]
      exact (congrArg _ hall).trans (conclude_timeout _ _ _ es)

/-- **An evaluation cut at no rule** comes to what it comes to without a
deadline. -/
theorem evaluate_of_not_cut [Zero T] [Add T] {aggregates : Option PyDict} {budgetSeconds : T}
    {override : Option PyStr} {clock : Stream' T} (clock' : Stream' T)
    (h : cutAt receipt policy aggregates budgetSeconds override clock = none) :
    evaluate receipt policy aggregates budgetSeconds override clock
      = evaluateWithContext receipt policy ⟨aggregates.getD [], none, override⟩ clock' := by
  rw [evaluate_eq, evaluateWithContext, evaluateWithContext]
  unfold cutAt at h
  cases hpol : coercePolicy policy with
  | error e => rfl
  | ok pol =>
    rw [hpol] at h
    rw [ok_bind, ok_bind]
    refine congrArg _ (Trail.walk_of_not_cut (fun rule _ => untimed_visit rfl rule) ?_ [] h)
    exact fun rule _ => cut_visit rule

/-- **The engine without a deadline**, where every rule returns: the
strictest outcome of what fires, with the ids and reasons in order. -/
theorem evaluateWithContext_ok (hpol : coercePolicy policy = .ok pol)
    (hctx : ctx.deadlineMonotonic = none)
    (hrules : ∀ rule ∈ pol.rules, Trail.Returns (firing receipt ctx.aggregates) rule)
    (clock : Stream' T) :
    evaluateWithContext receipt policy ctx clock
      = .ok (decisionOf receipt pol ctx.evaluatedAt
          (Trail.entries (firing receipt ctx.aggregates) pol.rules)) := by
  have hwalk : Trail.walk (visit receipt ctx) pol.rules clock (Trail.ofEntries [])
      = (Trail.ofEntries (Trail.entries (firing receipt ctx.aggregates) pol.rules), .ok ()) :=
    Trail.walk_ok (fun rule _ => untimed_visit hctx rule) hrules clock []
  rw [evaluateWithContext, hpol, ok_bind]
  exact (congrArg _ hwalk).trans (conclude_ok _ _ _ _)

/-- A rule that raises does not raise the timeout. -/
theorem firing_notTimeout (aggregates : PyDict) (rule : Rule) :
    Raises NotTimeout (firing receipt aggregates rule) := by
  refine Raises.bind (fun e he => ?_) fun _ _ => raises_ok _
  obtain ⟨text, rfl⟩ := raises_ruleSays rule receipt aggregates e he
  exact nofun

/-- **It raises** where a rule does. -/
theorem returns_of_evaluate {clock : Stream' T} {D : Decision}
    (hpol : coercePolicy policy = .ok pol) (hctx : ctx.deadlineMonotonic = none)
    (h : evaluateWithContext receipt policy ctx clock = .ok D) :
    ∀ rule ∈ pol.rules, Trail.Returns (firing receipt ctx.aggregates) rule := by
  have hv : ∀ rule ∈ pol.rules, Timed.Untimed (visit receipt ctx rule)
      (firing receipt ctx.aggregates rule) := fun rule _ => untimed_visit hctx rule
  cases hwalk : (Trail.walk (visit receipt ctx) pol.rules clock (Trail.ofEntries [])).2 with
  | ok u => exact Trail.returns_of_walk_ok hv hwalk
  | error e =>
    obtain ⟨rule, -, hrule⟩ := Trail.raises_of_walk_error hv hwalk
    have hconclude := conclude_error (firing_notTimeout _ rule e hrule) receipt pol ctx.evaluatedAt
      (Trail.walk (visit receipt ctx) pol.rules clock (Trail.ofEntries [])).1
    rw [← hwalk] at hconclude
    rw [evaluateWithContext, hpol] at h
    cases hconclude.symm.trans h

end

end Py

end OpenTerms
