import OpenTerms.Ts.Policy

/-!
# The TypeScript engine under a deadline

The reduction at the end may throw on outcomes nobody checked, and it may
end on something other than the strictest of them. Neither reaches a run
that is cut short: it never gets to the reduction, and its decision is the
string `deny` (`interrupted_denies`).
-/

namespace OpenTerms

namespace Ts

open Json

section

variable {T : Type} [LT T] [DecidableLT T] {rule : Rule} {receipt policy : JsObject}
  {ctx : EvalContext T} {pol : Policy}

/-- The deadline is checked before each pattern, and only there. -/
theorem cut_matchPatterns (pats : List JsVal) :
    Timed.Cut .policyTimeoutError (matchPatterns rule receipt ctx pats)
      (matchingPatterns rule receipt pats) := by
  induction pats with
  | nil => exact (Timed.untimed_pure []).cut _
  | cons pat pats ih =>
    rw [matchPatterns]
    refine Timed.Cut.check ?_ _
    refine ((Timed.untimed_lift _).cut _).bind fun hit _ => ?_
    exact ih.bind fun rest _ => (Timed.untimed_pure _).cut _

theorem cut_evaluator (type : RuleType) :
    Timed.Cut .policyTimeoutError (evaluator type rule receipt ctx)
      (typeSays type rule receipt ctx.aggregates) := by
  unfold evaluator typeSays
  cases type
  case argsPatternMatch =>
    refine ((Timed.untimed_lift _).cut _).bind fun params _ => ?_
    exact (cut_matchPatterns params.1).bind fun hits _ => (Timed.untimed_pure _).cut _
  all_goals exact (Timed.untimed_lift _).cut _

theorem cut_applyRule :
    Timed.Cut .policyTimeoutError (applyRule rule receipt ctx)
      (ruleSays rule receipt ctx.aggregates) := by
  refine ((Timed.untimed_lift _).cut _).bind fun key _ => ?_
  split
  · exact cut_evaluator _
  · exact (Timed.untimed_lift _).cut _

theorem cut_visit (rule : Rule) :
    Timed.Cut .policyTimeoutError (visit receipt ctx rule)
      (firing receipt ctx.aggregates rule) := by
  unfold visit
  refine Timed.Cut.check ?_ _
  exact cut_applyRule.bind fun result _ => (Timed.untimed_pure _).cut _

/-- The context without its deadline. -/
def EvalContext.unlimited (ctx : EvalContext T) : EvalContext T :=
  { ctx with deadlineMonotonic := none }

/-- The decision of a run cut short after some entries. -/
def interrupted (receipt : JsObject) (pol : Policy) (override : Option JsStr)
    (es : List (Entry JsVal JsAny JsVal)) : Decision :=
  { decision := .str (lit "deny"),
    triggeredRules := es.map Entry.id,
    reasons := es.map Entry.reason ++ [.json (.str timeoutReason)],
    policyVersion := pol.version,
    evaluatedAt := evaluatedAt receipt override }

/-- **One evaluation under two contexts**: a deadline leaves it alone, or
stops it at a rule, with the trail of the rules before it. -/
theorem deadline_cut (hpol : coercePolicy policy = .ok pol) (clock clock' : Stream' T) :
    evaluateWithContext receipt policy ctx clock'
        = evaluateWithContext receipt policy ctx.unlimited clock
      ∨ ∃ k, (∀ rule ∈ pol.rules.take k, Trail.Returns (firing receipt ctx.aggregates) rule)
        ∧ evaluateWithContext receipt policy ctx clock'
          = .ok (interrupted receipt pol ctx.evaluatedAt
              (Trail.entries (firing receipt ctx.aggregates) (pol.rules.take k))) := by
  have hv : ∀ rule ∈ pol.rules, Timed.Untimed (visit receipt ctx.unlimited rule)
      (firing receipt ctx.aggregates rule) := fun rule _ => untimed_visit rfl rule
  have hv' : ∀ rule ∈ pol.rules, Timed.Cut .policyTimeoutError (visit receipt ctx rule)
      (firing receipt ctx.aggregates rule) := fun rule _ => cut_visit rule
  rw [evaluateWithContext, evaluateWithContext, hpol, ok_bind, ok_bind]
  rcases Trail.walk_cut hv hv' clock clock' [] with h | ⟨k, hk, h⟩
  · exact Or.inl (congrArg _ h)
  · refine Or.inr ⟨k, hk, (congrArg _ h).trans ?_⟩
    rfl

/-- **An evaluation cut at a rule** denies, with what the rules before it
record under the same clock. -/
theorem evaluate_of_cutAt [Zero T] [Add T] {aggregates : Option JsObject} {budgetSeconds : T}
    {override : Option JsStr} {clock : Stream' T} {n : ℕ}
    (h : cutAt receipt policy aggregates budgetSeconds override clock = some n) :
    ∃ pol es, coercePolicy policy = .ok pol ∧ n < pol.rules.length
      ∧ Trail.walk (visit receipt
            ⟨aggregates.getD [], (Timed.started budgetSeconds clock).1, override⟩)
          (pol.rules.take n) (Timed.started budgetSeconds clock).2 Trail.empty
        = (Trail.ofEntries es, .ok ())
      ∧ evaluate receipt policy aggregates budgetSeconds override clock
        = .ok (interrupted receipt pol override es) := by
  unfold cutAt at h
  cases hpol : coercePolicy policy with
  | error e =>
    rw [hpol] at h
    cases h
  | ok pol =>
    rw [hpol] at h
    obtain ⟨hlt, es, htake, hall⟩ := Trail.walk_of_cutAt [] h
    refine ⟨pol, es, rfl, hlt, htake, ?_⟩
    rw [evaluate_eq, evaluateWithContext, hpol, ok_bind]
    exact (congrArg _ hall).trans rfl

/-- **An evaluation cut at no rule** comes to what it comes to without a
deadline. -/
theorem evaluate_of_not_cut [Zero T] [Add T] {aggregates : Option JsObject} {budgetSeconds : T}
    {override : Option JsStr} {clock : Stream' T} (clock' : Stream' T)
    (h : cutAt receipt policy aggregates budgetSeconds override clock = none) :
    evaluate receipt policy aggregates budgetSeconds override clock
      = evaluateWithContext receipt policy ⟨aggregates.getD [], none, override⟩ clock' := by
  rw [evaluate_eq, evaluateWithContext, evaluateWithContext]
  unfold cutAt at h
  cases hpol : coercePolicy policy with
  | error e => rfl
  | ok pol =>
    rw [hpol] at h
    rw [ok_bind, ok_bind]
    refine congrArg _ (Trail.walk_of_not_cut (fun rule _ => untimed_visit rfl rule) ?_ [] h)
    exact fun rule _ => cut_visit rule

/-- A decision without a deadline has the trail of all the rules. -/
theorem unlimited_eq_ok {clock : Stream' T} {D : Decision} (hpol : coercePolicy policy = .ok pol)
    (h : evaluateWithContext receipt policy ctx.unlimited clock = .ok D) :
    D.triggeredRules = (Trail.entries (firing receipt ctx.aggregates) pol.rules).map Entry.id
      ∧ D.reasons = (Trail.entries (firing receipt ctx.aggregates) pol.rules).map Entry.reason
      ∧ D.policyVersion = pol.version ∧ D.evaluatedAt = evaluatedAt receipt ctx.evaluatedAt := by
  have hreturns := returns_of_evaluate hpol rfl h
  rw [evaluateWithContext_ok hpol rfl hreturns clock] at h
  obtain ⟨final, -, h⟩ := bind_eq_ok_iff.mp h
  obtain rfl := Except.ok.inj h
  exact ⟨rfl, rfl, rfl, rfl⟩

/-! ## No timeout leaves the engine -/

theorem raises_requireFields (d : JsVal) (ks : List JsStr) :
    Raises NotTimeout (requireFields d ks) := by
  induction ks with
  | nil => exact raises_ok _
  | cons k ks ih =>
    refine (raises_hasKey d k).bind fun _ _ => ?_
    exact (raises_raiseWhen (by rintro ⟨⟩)).bind fun _ _ => ih

theorem raises_ruleFromDict (d : JsVal) : Raises NotTimeout (ruleFromDict d) := by
  refine (raises_requireFields d _).bind fun _ _ => ?_
  refine (raises_readProp d _).bind fun type _ => ?_
  split
  · exact (raises_text type).bind fun _ _ => raises_error (by rintro ⟨⟩)
  · refine (raises_readProp d _).bind fun outcome _ => ?_
    split
    · exact (raises_text outcome).bind fun _ _ => raises_error (by rintro ⟨⟩)
    · refine (raises_readProp d _).bind fun parameters _ => ?_
      split
      · refine (raises_readProp d _).bind fun id _ => ?_
        exact (raises_text id).bind fun _ _ => raises_ok _
      · exact raises_error (by rintro ⟨⟩)

theorem raises_coercePolicy (policy : JsObject) : Raises NotTimeout (coercePolicy policy) := by
  unfold coercePolicy
  split
  · exact raises_ok _
  · refine (raises_text _).bind fun version _ => ?_
    split
    · exact (Raises.mapM raises_ruleFromDict _).bind fun rules _ => raises_ok _
    · exact raises_error (by rintro ⟨⟩)

theorem raises_precedence (o : JsVal) : Raises NotTimeout (precedence o) := by
  refine ((raises_toStr o).imp notTimeout_of_typeError).bind fun key _ => ?_
  split
  · exact raises_ok _
  · split
    · exact raises_ok _
    · exact (raises_text _).bind fun _ _ => raises_ok _

theorem raises_reduce (os : List JsVal) (acc : JsVal) :
    Raises NotTimeout (os.foldlM stricter acc) := by
  induction os generalizing acc with
  | nil => exact raises_ok _
  | cons o os ih =>
    rw [List.foldlM_cons]
    refine Raises.bind ?_ fun next _ => ih next
    refine (raises_precedence o).bind fun p _ => ?_
    exact (raises_precedence acc).bind fun q _ => raises_ok _

theorem evaluateWithContext_ne_timeout (clock : Stream' T) :
    evaluateWithContext receipt policy ctx clock ≠ .error .policyTimeoutError := by
  intro h
  have hraises : Raises NotTimeout (evaluateWithContext receipt policy ctx clock) := by
    refine (raises_coercePolicy policy).bind fun pol _ => ?_
    unfold conclude
    split
    · exact raises_ok _
    · next hne _ => exact raises_error hne
    · refine Raises.bind ?_ fun final _ => raises_ok _
      unfold finalDecision
      split
      · exact raises_ok _
      · exact raises_reduce _ _
  exact hraises _ h rfl

/-- **A run cut short denies.** Whatever the clock shows, the engine under
a deadline does what it does without one, or decides the string `deny`
with the trail of the rules before the one it stopped at and one `TIMEOUT`
reason. That holds also where without a deadline it throws, in a later
rule or in the reduction. -/
theorem interrupted_denies (receipt policy : JsObject) (ctx : EvalContext T)
    (clock clock' : Stream' T) :
    (∀ D, evaluateWithContext receipt policy ctx.unlimited clock = .ok D →
      evaluateWithContext receipt policy ctx clock' = .ok D
        ∨ ∃ n, evaluateWithContext receipt policy ctx clock'
          = .ok { decision := .str (lit "deny"),
                  triggeredRules := D.triggeredRules.take n,
                  reasons := D.reasons.take n ++ [.json (.str timeoutReason)],
                  policyVersion := D.policyVersion,
                  evaluatedAt := D.evaluatedAt })
      ∧ (∀ e, evaluateWithContext receipt policy ctx.unlimited clock = .error e →
        evaluateWithContext receipt policy ctx clock' = .error e
          ∨ ∃ pol k, coercePolicy policy = .ok pol
            ∧ (∀ rule ∈ pol.rules.take k, Succeeds (ruleSays rule receipt ctx.aggregates))
            ∧ evaluateWithContext receipt policy ctx clock'
              = .ok (interrupted receipt pol ctx.evaluatedAt
                  (Trail.entries (firing receipt ctx.aggregates) (pol.rules.take k))))
      ∧ evaluateWithContext receipt policy ctx clock' ≠ .error .policyTimeoutError := by
  cases hpol : coercePolicy policy with
  | error e =>
    have hboth (c : EvalContext T) (cl : Stream' T) :
        evaluateWithContext receipt policy c cl = .error e := by
      rw [evaluateWithContext, hpol]
      rfl
    refine ⟨fun D h => ?_, fun e' h => Or.inl ?_, evaluateWithContext_ne_timeout clock'⟩
    · rw [hboth] at h
      cases h
    · rw [hboth] at h ⊢
      exact h
  | ok pol =>
    refine ⟨fun D h => ?_, fun e h => ?_, evaluateWithContext_ne_timeout clock'⟩
    · rcases deadline_cut hpol clock clock' with hsame | ⟨k, -, hcut⟩
      · exact Or.inl (hsame.trans h)
      · obtain ⟨hids, hreasons, hversion, hat⟩ := unlimited_eq_ok hpol h
        rw [hids, hreasons, hversion, hat, hcut, interrupted, Trail.entries_take, List.map_take,
          List.map_take]
        exact Or.inr ⟨_, rfl⟩
    · rcases deadline_cut hpol clock clock' with hsame | ⟨k, hk, hcut⟩
      · exact Or.inl (hsame.trans h)
      · refine Or.inr ⟨pol, k, rfl, fun rule hrule => ?_, hcut⟩
        obtain ⟨e', he'⟩ := hk rule hrule
        obtain ⟨result, hresult, -⟩ := bind_eq_ok_iff.mp he'
        exact ⟨result, hresult⟩

end

end Ts

end OpenTerms
