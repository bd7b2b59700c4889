import OpenTerms.Py.Policy.Engine

/-!
# What the Python engine guarantees

Without a deadline a decision is the fired rules' ids and reasons, in
declared order, and the strictest of their outcomes (`engine_spec`); so
the order of the rules does not reach the decision, and more rules never
lower it.

Under a deadline, whatever the clock shows, the outcome is the one
without, or a deny that stops at some rule with the trail of the rules
before it (`deadline_fails_closed`). The exception raised inside does not
leave the engine.
-/

namespace OpenTerms

namespace Py

open Json

section

variable [Ucd] {T : Type} [LT T] [DecidableLT T]

/-! ## The fired rules -/

/-- The rules that fire, each with its result, in declared order. -/
def firedRules (receipt : PyDict) (ctx : EvalContext T) (clock : Stream' T) (rules : List Rule) :
    List (Rule × RuleResult) :=
  rules.filterMap fun rule =>
    match (applyRule rule receipt ctx).result clock with
    | .ok result => if result.fired then some (rule, result) else none
    | .error _ => none

/-- The record of a rule that fired. -/
def toEntry (p : Rule × RuleResult) : Entry PyStr PyStr DecisionOutcome :=
  ⟨p.1.id, p.2.reason, p.1.outcome⟩

variable {receipt : PyDict} {ctx : EvalContext T} {policy : PolicyInput} {pol : Policy}
  {clock : Stream' T}

theorem applyRule_result (hctx : ctx.deadlineMonotonic = none) (rule : Rule)
    (clock : Stream' T) :
    (applyRule rule receipt ctx).result clock = ruleSays rule receipt ctx.aggregates :=
  (untimed_applyRule hctx).result_eq clock

/-- What the loop records is what the fired rules are. -/
theorem entries_eq (hctx : ctx.deadlineMonotonic = none) (clock : Stream' T)
    (rules : List Rule) :
    Trail.entries (firing receipt ctx.aggregates) rules
      = (firedRules receipt ctx clock rules).map toEntry := by
  unfold Trail.entries firedRules
  rw [List.map_filterMap]
  refine List.filterMap_congr fun rule _ => ?_
  rw [applyRule_result hctx rule clock]
  unfold Trail.recorded firing
  cases ruleSays rule receipt ctx.aggregates with
  | error e => rfl
  | ok result =>
    change record rule result = _
    unfold record
    by_cases h : result.fired
    · simp only [h, if_true, Option.map_some, toEntry]
    · simp only [h]
      rfl

theorem returns_firing (hctx : ctx.deadlineMonotonic = none) {rule : Rule}
    (h : ∃ result, (applyRule rule receipt ctx).result clock = .ok result) :
    Trail.Returns (firing receipt ctx.aggregates) rule := by
  obtain ⟨result, hresult⟩ := h
  rw [applyRule_result hctx rule clock] at hresult
  exact ⟨record rule result, by rw [firing, hresult]; rfl⟩

/-- The decision of a policy whose rules all return. -/
theorem evaluateWithContext_fired (hpol : coercePolicy policy = .ok pol)
    (hctx : ctx.deadlineMonotonic = none)
    (hrules : ∀ rule ∈ pol.rules,
      ∃ result, (applyRule rule receipt ctx).result clock = .ok result) :
    evaluateWithContext receipt policy ctx clock
      = .ok (decisionOf receipt pol ctx.evaluatedAt
          ((firedRules receipt ctx clock pol.rules).map toEntry)) := by
  rw [evaluateWithContext_ok hpol hctx (fun rule h => returns_firing hctx (hrules rule h)) clock,
    entries_eq hctx clock]

omit [Ucd] in
theorem mem_outcomes {o : DecisionOutcome} {fired : List (Rule × RuleResult)} :
    o ∈ (fired.map toEntry).map Entry.outcome ↔ ∃ p ∈ fired, p.1.outcome = o := by
  simp [toEntry]

/-- **The engine's specification.** -/
theorem engine_spec (hpol : coercePolicy policy = .ok pol)
    (hctx : ctx.deadlineMonotonic = none)
    (hrules : ∀ rule ∈ pol.rules,
      ∃ result, (applyRule rule receipt ctx).result clock = .ok result) :
    ∃ D, evaluateWithContext receipt policy ctx clock = .ok D
      ∧ D.triggeredRules = (firedRules receipt ctx clock pol.rules).map (·.1.id)
      ∧ D.reasons = (firedRules receipt ctx clock pol.rules).map (·.2.reason)
      ∧ D.reasons.length = D.triggeredRules.length
      ∧ (D.decision = .deny
        ↔ ∃ p ∈ firedRules receipt ctx clock pol.rules, p.1.outcome = .deny)
      ∧ (D.decision = .escalate
        ↔ (¬ ∃ p ∈ firedRules receipt ctx clock pol.rules, p.1.outcome = .deny)
          ∧ ∃ p ∈ firedRules receipt ctx clock pol.rules, p.1.outcome = .escalate)
      ∧ (D.decision = .allow
        ↔ (¬ ∃ p ∈ firedRules receipt ctx clock pol.rules, p.1.outcome = .deny)
          ∧ ¬ ∃ p ∈ firedRules receipt ctx clock pol.rules, p.1.outcome = .escalate)
      -- any order of the rules
      ∧ (∀ policy' pol', coercePolicy policy' = .ok pol' → pol'.rules.Perm pol.rules →
          ∃ D', evaluateWithContext receipt policy' ctx clock = .ok D'
            ∧ D'.decision = D.decision
            ∧ D'.triggeredRules = (firedRules receipt ctx clock pol'.rules).map (·.1.id)
            ∧ D'.triggeredRules.Perm D.triggeredRules)
      -- rules added anywhere
      ∧ ∀ policy' pol', coercePolicy policy' = .ok pol' → pol.rules.Sublist pol'.rules →
          (∀ rule ∈ pol'.rules,
            ∃ result, (applyRule rule receipt ctx).result clock = .ok result) →
          ∃ D', evaluateWithContext receipt policy' ctx clock = .ok D'
            ∧ D.decision ≤ D'.decision := by
  set fired := firedRules receipt ctx clock pol.rules with hfired
  have hdeny : strictest ((fired.map toEntry).map Entry.outcome) = .deny
      ↔ ∃ p ∈ fired, p.1.outcome = .deny := by
    rw [strictest_eq_deny_iff, mem_outcomes]
  have hescalate : strictest ((fired.map toEntry).map Entry.outcome) = .escalate
      ↔ (¬ ∃ p ∈ fired, p.1.outcome = .deny) ∧ ∃ p ∈ fired, p.1.outcome = .escalate := by
    rw [strictest_eq_escalate_iff, mem_outcomes, mem_outcomes]
  refine ⟨_, evaluateWithContext_fired hpol hctx hrules, ?_, ?_, ?_, hdeny, hescalate, ?_, ?_, ?_⟩
  · simp only [decisionOf, List.map_map]
    rfl
  · simp only [decisionOf, List.map_map]
    rfl
  · simp only [decisionOf, List.length_map]
  · exact strictest_eq_allow_iff.trans (by rw [mem_outcomes, mem_outcomes])
  · intro policy' pol' hpol' hperm
    have hperm' : (firedRules receipt ctx clock pol'.rules).Perm fired := hperm.filterMap _
    refine ⟨_, evaluateWithContext_fired hpol' hctx fun rule h =>
      hrules rule (hperm.mem_iff.mp h), ?_, ?_, ?_⟩
    · exact strictest_perm ((hperm'.map toEntry).map Entry.outcome)
    · simp only [decisionOf, List.map_map]
      rfl
    · exact (hperm'.map toEntry).map Entry.id
  · intro policy' pol' hpol' hsub hrules'
    refine ⟨_, evaluateWithContext_fired hpol' hctx hrules', ?_⟩
    have hsub' : fired.Sublist (firedRules receipt ctx clock pol'.rules) := hsub.filterMap _
    exact strictest_mono fun o ho => ((hsub'.map toEntry).map Entry.outcome).subset ho

end

section Sample

attribute [local instance] Ucd.allPrintable

/-- A rule on the amount charged. -/
def sampleRule (id : PyStr) (type : RuleType) (outcome : DecisionOutcome) (threshold : ℤ) : Rule :=
  { id := id, type := type, outcome := outcome,
    parameters := [(lit "threshold", .num (.int threshold))] }

def samplePolicy : Policy :=
  { version := lit "v1",
    rules := [sampleRule (lit "watch") .escalationThreshold .escalate 100,
      sampleRule (lit "small") .maxAmount .deny 900,
      sampleRule (lit "cap") .maxAmount .deny 200] }

theorem engine_spec_sample :
    ∃ D, evaluateWithContext [(lit "amount_charged", .num (.int 500))] (.policy samplePolicy)
        (⟨[], none, none⟩ : EvalContext ℕ) (Stream'.const 0) = .ok D
      ∧ D.decision = .deny ∧ D.triggeredRules = [lit "watch", lit "cap"] := by
  have hrules : ∀ rule ∈ samplePolicy.rules, ∃ result,
      (applyRule rule [(lit "amount_charged", .num (.int 500))]
        (⟨[], none, none⟩ : EvalContext ℕ)).result (Stream'.const 0) = .ok result := by
    unfold samplePolicy
    rw [List.forall_mem_cons, List.forall_mem_cons, List.forall_mem_singleton]
    exact ⟨⟨_, rfl⟩, ⟨_, rfl⟩, ⟨_, rfl⟩⟩
  have hpol : coercePolicy (.policy samplePolicy) = .ok samplePolicy := rfl
  obtain ⟨D, hD, htriggered, -, -, hdeny, -⟩ := engine_spec hpol rfl hrules
  refine ⟨D, hD, hdeny.mpr ?_, htriggered.trans (by decide)⟩
  exact ⟨_, List.mem_cons_of_mem _ List.mem_cons_self, rfl⟩

end Sample

section

variable [Ucd] {T : Type} [LT T] [DecidableLT T] {receipt : PyDict} {ctx : EvalContext T}
  {policy : PolicyInput} {pol : Policy} {clock : Stream' T}

/-! ## Without a deadline -/

/-- One evaluation without a deadline. -/
theorem evaluate_eq_ok_iff [Zero T] [Add T] {budgetSeconds : T} (hpol : coercePolicy policy = .ok pol)
    (hbudget : ¬ 0 < budgetSeconds) {aggregates : Option PyDict} {override : Option PyStr}
    {D : Decision} :
    evaluate receipt policy aggregates budgetSeconds override clock = .ok D
      ↔ (∀ R ∈ pol.rules, Succeeds (ruleSays R receipt (aggregates.getD [])))
        ∧ D = decisionOf receipt pol override
          (Trail.entries (firing receipt (aggregates.getD [])) pol.rules) := by
  have hreturns (R : Rule) : Trail.Returns (firing receipt (aggregates.getD [])) R
      ↔ Succeeds (ruleSays R receipt (aggregates.getD [])) := by
    unfold Trail.Returns firing
    constructor
    · rintro ⟨e, h⟩
      obtain ⟨result, hresult, -⟩ := bind_eq_ok_iff.mp h
      exact ⟨result, hresult⟩
    · rintro ⟨result, hresult⟩
      rw [hresult]
      exact ⟨_, rfl⟩
  unfold evaluate
  dsimp only
  rw [if_neg hbudget]
  have hok := @evaluateWithContext_ok _ T _ _ receipt ⟨aggregates.getD [], none, override⟩ _ pol hpol rfl
  constructor
  · intro h
    have hall := returns_of_evaluate hpol rfl h
    exact ⟨fun R hR => (hreturns R).mp (hall R hR), Except.ok.inj (h.symm.trans (hok hall clock))⟩
  · rintro ⟨hall, rfl⟩
    exact hok (fun R hR => (hreturns R).mpr (hall R hR)) clock

omit [LT T] [DecidableLT T] in
/-- What is recorded of a receipt: the rules that fire, by their ids. -/
theorem mem_triggered_iff {aggregates : PyDict} {override : Option PyStr} {id : PyStr} :
    id ∈ (decisionOf receipt pol override
        (Trail.entries (firing receipt aggregates) pol.rules)).triggeredRules
      ↔ ∃ R ∈ pol.rules, R.id = id ∧ Fires R receipt aggregates := by
  have hrecorded (R : Rule) : (∃ e, Trail.recorded (firing receipt aggregates) R = some e ∧ e.id = id)
      ↔ R.id = id ∧ Fires R receipt aggregates := by
    unfold Trail.recorded firing Fires
    cases ruleSays R receipt aggregates with
    | error e => simp [bind, Except.bind]
    | ok result =>
      rw [ok_bind]
      dsimp only
      unfold record
      cases hfired : result.fired <;> simp [hfired]
  unfold decisionOf Trail.entries
  dsimp only
  rw [List.mem_map]
  simp only [List.mem_filterMap, ← hrecorded]
  constructor
  · rintro ⟨e, ⟨R, hR, he⟩, hid⟩
    exact ⟨R, hR, e, he, hid⟩
  · rintro ⟨R, hR, e, he, hid⟩
    exact ⟨e, ⟨R, hR, he⟩, hid⟩

/-! ## Under a deadline -/

omit [Ucd] [LT T] [DecidableLT T] in
/-- The context without its deadline. -/
def EvalContext.unlimited (ctx : EvalContext T) : EvalContext T :=
  { ctx with deadlineMonotonic := none }

theorem unlimited_ok (hpol : coercePolicy policy = .ok pol)
    (hrules : ∀ rule ∈ pol.rules, Trail.Returns (firing receipt ctx.aggregates) rule)
    (clock : Stream' T) :
    evaluateWithContext receipt policy ctx.unlimited clock
      = .ok (decisionOf receipt pol ctx.evaluatedAt
          (Trail.entries (firing receipt ctx.aggregates) pol.rules)) :=
  @evaluateWithContext_ok _ T _ _ receipt ctx.unlimited policy pol hpol rfl hrules clock

/-- A decision without a deadline is that of rules that all return. -/
theorem unlimited_eq_ok {D : Decision} (hpol : coercePolicy policy = .ok pol)
    (h : evaluateWithContext receipt policy ctx.unlimited clock = .ok D) :
    D = decisionOf receipt pol ctx.evaluatedAt
      (Trail.entries (firing receipt ctx.aggregates) pol.rules) := by
  have hreturns := @returns_of_evaluate _ T _ _ receipt ctx.unlimited policy pol clock D hpol rfl h
  exact Except.ok.inj (h.symm.trans (unlimited_ok hpol hreturns clock))

/-- **One evaluation under two contexts**: a deadline leaves it alone, or
stops it at a rule, with the trail of the rules before it. -/
theorem deadline_cut (hpol : coercePolicy policy = .ok pol) (clock clock' : Stream' T) :
    evaluateWithContext receipt policy ctx clock'
        = evaluateWithContext receipt policy ctx.unlimited clock
      ∨ ∃ k, (∀ rule ∈ pol.rules.take k, Trail.Returns (firing receipt ctx.aggregates) rule)
        ∧ evaluateWithContext receipt policy ctx clock'
          = .ok (decisionOf receipt pol ctx.evaluatedAt
              (Trail.entries (firing receipt ctx.aggregates) (pol.rules.take k))).timedOut := by
  have hv : ∀ rule ∈ pol.rules, Timed.Untimed (visit receipt ctx.unlimited rule)
      (firing receipt ctx.aggregates rule) := fun rule _ => untimed_visit rfl rule
  have hv' : ∀ rule ∈ pol.rules, Timed.Cut .policyTimeout (visit receipt ctx rule)
      (firing receipt ctx.aggregates rule) := fun rule _ => cut_visit rule
  rw [evaluateWithContext, evaluateWithContext, hpol, ok_bind, ok_bind]
  rcases Trail.walk_cut hv hv' clock clock' [] with h | ⟨k, hk, h⟩
  · exact Or.inl (congrArg _ h)
  · exact Or.inr ⟨k, hk, (congrArg _ h).trans (conclude_timeout _ _ _ _)⟩

omit [Ucd] in
theorem timedOut_take (es : List (Entry PyStr PyStr DecisionOutcome)) (n : ℕ)
    (override : Option PyStr) :
    (decisionOf receipt pol override (es.take n)).timedOut
      = { decision := .deny,
          triggeredRules := (decisionOf receipt pol override es).triggeredRules.take n,
          reasons := (decisionOf receipt pol override es).reasons.take n ++ [timeoutReason],
          policyVersion := (decisionOf receipt pol override es).policyVersion,
          evaluatedAt := (decisionOf receipt pol override es).evaluatedAt } := by
  simp only [Decision.timedOut, decisionOf, List.map_take]

/-- The engine lets no timeout out. -/
theorem evaluateWithContext_ne_timeout (policy : PolicyInput) (clock : Stream' T) :
    evaluateWithContext receipt policy ctx clock ≠ .error .policyTimeout := by
  intro h
  have hraises : Raises NotTimeout (evaluateWithContext receipt policy ctx clock) := by
    refine Raises.bind ?_ fun pol _ => ?_
    · cases policy with
      | policy p => exact raises_ok p
      | dict d => exact raises_policyFromDict d
    · unfold conclude
      split
      · exact raises_ok _
      · next hne _ => exact raises_error hne
      · exact raises_ok _
  exact hraises _ h rfl

/-- **A deadline fails closed.** Whatever the clock shows, the engine
under a deadline does what it does without one, or denies with the trail
of the rules before the one it stopped at and one `TIMEOUT` reason. -/
theorem deadline_fails_closed (receipt : PyDict) (policy : PolicyInput) (ctx : EvalContext T)
    (clock clock' : Stream' T) :
    (∀ D, evaluateWithContext receipt policy ctx.unlimited clock = .ok D →
      evaluateWithContext receipt policy ctx clock' = .ok D
        ∨ ∃ n, evaluateWithContext receipt policy ctx clock'
          = .ok { decision := .deny,
                  triggeredRules := D.triggeredRules.take n,
                  reasons := D.reasons.take n ++ [timeoutReason],
                  policyVersion := D.policyVersion,
                  evaluatedAt := D.evaluatedAt })
      ∧ (∀ e, evaluateWithContext receipt policy ctx.unlimited clock = .error e →
        evaluateWithContext receipt policy ctx clock' = .error e
          -- the evaluation of the rules before the interruption, cut off
          ∨ ∃ pol k D, coercePolicy policy = .ok pol
            ∧ evaluateWithContext receipt (.policy { pol with rules := pol.rules.take k })
                ctx.unlimited clock = .ok D
            ∧ evaluateWithContext receipt policy ctx clock'
              = .ok { D with decision := .deny, reasons := D.reasons ++ [timeoutReason] })
      ∧ (∀ D D', evaluateWithContext receipt policy ctx.unlimited clock = .ok D →
        evaluateWithContext receipt policy ctx clock' = .ok D' → D.decision ≤ D'.decision)
      ∧ evaluateWithContext receipt policy ctx clock' ≠ .error .policyTimeout := by
  cases hpol : coercePolicy policy with
  | error e =>
    have hboth (c : EvalContext T) (cl : Stream' T) :
        evaluateWithContext receipt policy c cl = .error e := by
      rw [evaluateWithContext, hpol]
      rfl
    refine ⟨fun D h => ?_, fun e' h => Or.inl ?_, fun D D' h _ => ?_,
      evaluateWithContext_ne_timeout policy clock'⟩
    · rw [hboth] at h
      cases h
    · rw [hboth] at h ⊢
      exact h
    · rw [hboth] at h
      cases h
  | ok pol =>
    refine ⟨fun D h => ?_, fun e h => ?_, fun D D' h h' => ?_,
      evaluateWithContext_ne_timeout policy clock'⟩
    · rcases deadline_cut hpol clock clock' with hsame | ⟨k, -, hcut⟩
      · exact Or.inl (hsame.trans h)
      · rw [unlimited_eq_ok hpol h, hcut, Trail.entries_take, timedOut_take]
        exact Or.inr ⟨_, rfl⟩
    · rcases deadline_cut hpol clock clock' with hsame | ⟨k, hk, hcut⟩
      · exact Or.inl (hsame.trans h)
      · have hfirst : coercePolicy (.policy { pol with rules := pol.rules.take k })
            = .ok { pol with rules := pol.rules.take k } := rfl
        exact Or.inr ⟨pol, k, _, rfl, unlimited_ok hfirst hk clock, hcut⟩
    · rcases deadline_cut hpol clock clock' with hsame | ⟨k, -, hcut⟩
      · rw [Except.ok.inj (h'.symm.trans (hsame.trans h))]
      · rw [Except.ok.inj (h'.symm.trans hcut)]
        exact DecisionOutcome.le_deny _

end

end Py

end OpenTerms
