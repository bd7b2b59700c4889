import OpenTerms.Common.Trail
import OpenTerms.Ts.PolicyRules

/-!
# `policy.ts`

`evaluateWithContext`: a policy is taken as it is when the probe of
`coercePolicy` finds the fields of a rule on every member of its list, so
the reduction at the end meets outcomes that nobody checked. Each is
looked up in `PRECEDENCE` by its text, and what is found is compared by
`>`, where numbers compare with numbers and functions by their source
text.
-/

namespace OpenTerms

namespace Ts

open Json

/-- A policy that goes through unchecked: it has a version, and every
rule passes the probe. -/
def candidate (policy : JsObject) : Option Policy := do
  let version ← get? (lit "version") policy
  match get? (lit "rules") policy with
  | some (.arr rawRules) => do
    let rules ← rawRules.mapM Rule.probe
    some { version := version, rules := rules }
  | _ => none

/-- `coercePolicy`. -/
def coercePolicy (policy : JsObject) : Except TsErr Policy :=
  match candidate policy with
  | some p => .ok p
  | none => policyFromDict policy

/-- `evaluatedAt`. -/
def evaluatedAt (receipt : JsObject) (override : Option JsStr) : JsStr :=
  match override with
  | some t => t
  | none =>
    ([lit "created_at", lit "timestamp"].findSome? fun key =>
      match getProp receipt key with
      | .json (.str s) => if s = [] then none else some s
      | _ => none).getD (lit "1970-01-01T00:00:00Z")

/-- The reason recorded on a timeout. -/
def timeoutReason : JsStr := lit "TIMEOUT: rule evaluation exceeded the per-evaluation budget"

/-! ## The reduction -/

/-- What `>` sees of a `PRECEDENCE` entry: a number, the text of a
function or of the prototype, or nothing that compares. -/
inductive Rank where
  | number (n : ℕ)
  | text (s : JsStr)
  | nan
  deriving DecidableEq

/-- `x > y`. -/
def Rank.gt : Rank → Rank → Bool
  | .number a, .number b => b < a
  | .text s, .text t => t < s
  | _, _ => false

/-- `PRECEDENCE[o]`. -/
def precedence (o : JsVal) : Except TsErr Rank := do
  let key ← toStr o
  match validOutcomes.find? fun d => lit d.text = key with
  | some d => .ok (.number d.precedence)
  | none =>
    match inherited key with
    | .undefined => .ok .nan
    | v => do
      let text ← anyToStr v
      .ok (.text text)

/-- The function `reduce` is given. -/
def stricter (acc o : JsVal) : Except TsErr JsVal := do
  let p ← precedence o
  let q ← precedence acc
  .ok (if p.gt q then o else acc)

/-- `allow` where nothing fired, and otherwise the reduction. -/
def finalDecision : List JsVal → Except TsErr JsVal
  | [] => .ok (.str (lit "allow"))
  | o :: os => os.foldlM stricter o

/-! ## The engine -/

section

variable {T : Type} [LT T] [DecidableLT T]

/-- What the loop records of a rule that fired. -/
def record (rule : Rule) (result : RuleResult) : Option (Entry JsVal JsAny JsVal) :=
  if result.fired then some ⟨rule.id, result.reason, rule.outcome⟩ else none

/-- The body of the loop over the rules. -/
def visit (receipt : JsObject) (ctx : EvalContext T) (rule : Rule) :
    Timed T TsErr (Option (Entry JsVal JsAny JsVal)) := do
  Timed.checkDeadline .policyTimeoutError ctx.deadlineMonotonic
  let result ← applyRule rule receipt ctx
  pure (record rule result)

/-- What `evaluateWithContext` makes of the loop. -/
def conclude (receipt : JsObject) (pol : Policy) (override : Option JsStr) :
    Trail JsVal JsAny JsVal × Except TsErr Unit → Except TsErr Decision
  | (trail, .error .policyTimeoutError) =>
    .ok { decision := .str (lit "deny"),
          triggeredRules := trail.triggered,
          reasons := trail.reasons ++ [.json (.str timeoutReason)],
          policyVersion := pol.version,
          evaluatedAt := evaluatedAt receipt override }
  | (_, .error e) => .error e
  | (trail, .ok ()) => do
    let final ← finalDecision trail.outcomes
    .ok { decision := final,
          triggeredRules := trail.triggered,
          reasons := trail.reasons,
          policyVersion := pol.version,
          evaluatedAt := evaluatedAt receipt override }

/-- `evaluateWithContext`. -/
def evaluateWithContext (receipt policy : JsObject) (ctx : EvalContext T) (clock : Stream' T) :
    Except TsErr Decision := do
  let pol ← coercePolicy policy
  conclude receipt pol ctx.evaluatedAt
    (Trail.walk (visit receipt ctx) pol.rules clock Trail.empty)

/-- `evaluate`: a budget that is not positive sets no deadline. -/
def evaluate [Zero T] [Add T] (receipt policy : JsObject) (aggregates : Option JsObject)
    (budgetSeconds : T) (evaluatedAt : Option JsStr) (clock : Stream' T) :
    Except TsErr Decision :=
  let context (deadline : Option T) : EvalContext T :=
    { aggregates := aggregates.getD [], deadlineMonotonic := deadline, evaluatedAt := evaluatedAt }
  if 0 < budgetSeconds then
    evaluateWithContext receipt policy (context (some (clock.head + budgetSeconds))) clock.tail
  else evaluateWithContext receipt policy (context none) clock

end

section

variable {T : Type} [LT T] [DecidableLT T] [Zero T] [Add T] {receipt policy : JsObject}
  {aggregates : Option JsObject} {budgetSeconds : T} {override : Option JsStr} {clock : Stream' T}

/-- The rule at which its deadline cuts an evaluation short, counted from
the first. -/
def cutAt (receipt policy : JsObject) (aggregates : Option JsObject) (budgetSeconds : T)
    (override : Option JsStr) (clock : Stream' T) : Option ℕ :=
  match coercePolicy policy with
  | .error _ => none
  | .ok pol =>
    let (deadline, rest) := Timed.started budgetSeconds clock
    Trail.cutAt .policyTimeoutError (visit receipt ⟨aggregates.getD [], deadline, override⟩) pol.rules
      rest

theorem evaluate_eq : evaluate receipt policy aggregates budgetSeconds override clock
    = evaluateWithContext receipt policy
        ⟨aggregates.getD [], (Timed.started budgetSeconds clock).1, override⟩
        (Timed.started budgetSeconds clock).2 := by
  unfold evaluate Timed.started
  dsimp only
  by_cases hbudget : 0 < budgetSeconds
  · rw [if_pos hbudget, if_pos hbudget]
  · rw [if_neg hbudget, if_neg hbudget]

end

/-! ## Without a deadline -/

/-- What a rule comes to on a receipt when nothing interrupts it. -/
def firing (receipt aggregates : JsObject) (rule : Rule) :
    Except TsErr (Option (Entry JsVal JsAny JsVal)) := do
  let result ← ruleSays rule receipt aggregates
  .ok (record rule result)

/-- What the loop leads to where every rule returns. -/
def decisionOf (receipt : JsObject) (pol : Policy) (override : Option JsStr)
    (es : List (Entry JsVal JsAny JsVal)) : Except TsErr Decision := do
  let final ← finalDecision (es.map Entry.outcome)
  .ok { decision := final,
        triggeredRules := es.map Entry.id,
        reasons := es.map Entry.reason,
        policyVersion := pol.version,
        evaluatedAt := evaluatedAt receipt override }

section

variable {T : Type} [LT T] [DecidableLT T] {receipt policy : JsObject} {ctx : EvalContext T}
  {pol : Policy}

theorem untimed_visit (hctx : ctx.deadlineMonotonic = none) (rule : Rule) :
    Timed.Untimed (visit receipt ctx rule) (firing receipt ctx.aggregates rule) := by
  unfold visit
  rw [hctx]
  refine Timed.Untimed.check ?_ _
  exact (untimed_applyRule hctx).bind fun result _ => Timed.untimed_pure _

/-- A rule that throws does not throw the timeout. -/
theorem firing_notTimeout (aggregates : JsObject) (rule : Rule) :
    Raises NotTimeout (firing receipt aggregates rule) :=
  (raises_ruleSays rule receipt aggregates).bind fun _ _ => raises_ok _

/-- An exception other than the timeout goes through. -/
theorem conclude_error {e : TsErr} (h : NotTimeout e) (receipt : JsObject) (pol : Policy)
    (override : Option JsStr) (trail : Trail JsVal JsAny JsVal) :
    conclude receipt pol override (trail, .error e) = .error e := by
  cases e
  case policyTimeoutError => exact absurd rfl h
  all_goals rfl

/-- **The engine without a deadline**, where every rule returns. -/
theorem evaluateWithContext_ok (hpol : coercePolicy policy = .ok pol)
    (hctx : ctx.deadlineMonotonic = none)
    (hrules : ∀ rule ∈ pol.rules, Trail.Returns (firing receipt ctx.aggregates) rule)
    (clock : Stream' T) :
    evaluateWithContext receipt policy ctx clock
      = decisionOf receipt pol ctx.evaluatedAt
          (Trail.entries (firing receipt ctx.aggregates) pol.rules) := by
  have hwalk : Trail.walk (visit receipt ctx) pol.rules clock (Trail.ofEntries [])
      = (Trail.ofEntries (Trail.entries (firing receipt ctx.aggregates) pol.rules), .ok ()) :=
    Trail.walk_ok (fun rule _ => untimed_visit hctx rule) hrules clock []
  rw [evaluateWithContext, hpol, ok_bind]
  exact congrArg _ hwalk

/-- **It throws** where a rule does. -/
theorem returns_of_evaluate {clock : Stream' T} {D : Decision}
    (hpol : coercePolicy policy = .ok pol) (hctx : ctx.deadlineMonotonic = none)
    (h : evaluateWithContext receipt policy ctx clock = .ok D) :
    ∀ rule ∈ pol.rules, Trail.Returns (firing receipt ctx.aggregates) rule := by
  have hv : ∀ rule ∈ pol.rules, Timed.Untimed (visit receipt ctx rule)
      (firing receipt ctx.aggregates rule) := fun rule _ => untimed_visit hctx rule
  cases hwalk : (Trail.walk (visit receipt ctx) pol.rules clock (Trail.ofEntries [])).2 with
  | ok u => exact Trail.returns_of_walk_ok hv hwalk
  | error e =>
    obtain ⟨rule, -, hrule⟩ := Trail.raises_of_walk_error hv hwalk
    have hconclude := conclude_error (firing_notTimeout _ rule e hrule) receipt pol ctx.evaluatedAt
      (Trail.walk (visit receipt ctx) pol.rules clock (Trail.ofEntries [])).1
    rw [← hwalk] at hconclude
    rw [evaluateWithContext, hpol] at h
    cases hconclude.symm.trans h

end

end Ts

end OpenTerms
