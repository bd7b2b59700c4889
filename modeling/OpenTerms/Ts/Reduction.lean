import OpenTerms.Ts.Policy

/-!
# What the TypeScript reduction decides

`reduce` keeps the fired outcome it holds unless the next one compares
higher. Where it starts on an outcome with a rank, what it ends on leads
the list: the first of the highest rank (`reduce_leads`). Where it starts
on one without, no rank compares higher, and it ends without
(`reduce_unranked`).

Outcomes that went through `ruleFromDict` are strings with a rank. Those
that `coercePolicy` lets through need not be, and then a `deny` further
down the list can be lost (`deny_masked`): it is not exactly where the
fired outcomes are well led (`deny_dominates_iff`).
-/

namespace OpenTerms

namespace Ts

open Json

/-- The rank an outcome has by its text. -/
def rank? (o : JsVal) : Option ℕ :=
  match toStr o with
  | .ok key => (validOutcomes.find? fun d => lit d.text = key).map DecisionOutcome.precedence
  | .error _ => none

/-- `w` is the first of the highest rank in the list. -/
def Leads (os : List JsVal) (w : JsVal) : Prop :=
  ∃ before after r, os = before ++ w :: after ∧ rank? w = some r
    ∧ (∀ o ∈ before, ∀ k ∈ rank? o, k < r) ∧ ∀ o ∈ after, ∀ k ∈ rank? o, k ≤ r

/-- The first of the highest rank is one. -/
theorem Leads.unique {os : List JsVal} {v w : JsVal} (hv : Leads os v) (hw : Leads os w) :
    v = w := by
  obtain ⟨before, after, r, hos, hr, hbefore, hafter⟩ := hv
  obtain ⟨before', after', r', hos', hr', hbefore', hafter'⟩ := hw
  rw [hos] at hos'
  rcases List.append_eq_append_iff.mp hos' with ⟨mid, hmid, htail⟩ | ⟨mid, hmid, htail⟩
  · cases mid with
    | nil => exact (List.cons.inj htail).1
    | cons m mid =>
      -- `v` stands before `w`
      obtain ⟨rfl, rfl⟩ := List.cons.inj htail
      have hlt : r < r' := hbefore' v (by simp [hmid]) r hr
      have hle : r' ≤ r := hafter w (by simp) r' hr'
      omega
  · cases mid with
    | nil => exact (List.cons.inj htail).1.symm
    | cons m mid =>
      obtain ⟨rfl, rfl⟩ := List.cons.inj htail
      have hlt : r' < r := hbefore w (by simp [hmid]) r' hr'
      have hle : r ≤ r' := hafter' v (by simp) r hr
      omega

/-- What `PRECEDENCE[o]` is, by the rank. -/
theorem precedence_eq_ok {o : JsVal} {p : Rank} (h : precedence o = .ok p) :
    match rank? o with
    | some k => p = .number k
    | none => ∀ n, p ≠ .number n := by
  obtain ⟨key, hkey, h⟩ := bind_eq_ok_iff.mp h
  unfold rank?
  rw [hkey]
  dsimp only
  cases hfind : validOutcomes.find? fun d => decide (lit d.text = key) with
  | some d =>
    rw [hfind] at h
    exact (Except.ok.inj h).symm
  | none =>
    rw [hfind] at h
    dsimp only at h
    intro n hn
    subst hn
    split at h
    · cases h
    · obtain ⟨text, -, htext⟩ := bind_eq_ok_iff.mp h
      cases htext

/-- One turn of the reduction, from an outcome with a rank. -/
theorem stricter_ranked {acc o w : JsVal} {k : ℕ} (hacc : rank? acc = some k)
    (h : stricter acc o = .ok w) :
    (w = o ∧ ∃ r ∈ rank? o, k < r) ∨ (w = acc ∧ ∀ r ∈ rank? o, r ≤ k) := by
  obtain ⟨p, hp, h⟩ := bind_eq_ok_iff.mp h
  obtain ⟨q, hq, h⟩ := bind_eq_ok_iff.mp h
  have hp := precedence_eq_ok hp
  have hq := precedence_eq_ok hq
  rw [hacc] at hq
  dsimp only at hq
  subst hq
  obtain rfl := Except.ok.inj h
  cases hrank : rank? o with
  | none =>
    rw [hrank] at hp
    refine Or.inr ⟨if_neg ?_, by simp⟩
    cases p with
    | number n => exact absurd rfl (hp n)
    | text s => simp [Rank.gt]
    | nan => simp [Rank.gt]
  | some r =>
    rw [hrank] at hp
    dsimp only at hp
    subst hp
    by_cases hlt : k < r
    · exact Or.inl ⟨if_pos (by simpa [Rank.gt] using hlt), r, rfl, hlt⟩
    · refine Or.inr ⟨if_neg (by simpa [Rank.gt] using hlt), ?_⟩
      rintro r' ⟨⟩
      omega

/-- One turn from an outcome without a rank. -/
theorem stricter_unranked {acc o w : JsVal} (hacc : rank? acc = none)
    (h : stricter acc o = .ok w) : rank? w = none := by
  obtain ⟨p, hp, h⟩ := bind_eq_ok_iff.mp h
  obtain ⟨q, hq, h⟩ := bind_eq_ok_iff.mp h
  have hp := precedence_eq_ok hp
  have hq := precedence_eq_ok hq
  rw [hacc] at hq
  dsimp only at hq
  obtain rfl := Except.ok.inj h
  split
  · next hgt =>
    cases hrank : rank? o with
    | none => rfl
    | some r =>
      rw [hrank] at hp
      dsimp only at hp
      subst hp
      cases q with
      | number n => exact absurd rfl (hq n)
      | text s => simp [Rank.gt] at hgt
      | nan => simp [Rank.gt] at hgt
  · exact hacc

/-- **From an outcome with a rank** the reduction ends on the first of
the highest. -/
theorem reduce_leads {os : List JsVal} {acc w : JsVal} (hacc : (rank? acc).isSome)
    (h : os.foldlM stricter acc = .ok w) : Leads (acc :: os) w := by
  induction os generalizing acc with
  | nil =>
    obtain rfl := Except.ok.inj h
    obtain ⟨k, hk⟩ := Option.isSome_iff_exists.mp hacc
    exact ⟨[], [], k, rfl, hk, by simp, by simp⟩
  | cons o os ih =>
    rw [List.foldlM_cons] at h
    obtain ⟨next, hnext, hrest⟩ := bind_eq_ok_iff.mp h
    obtain ⟨k, hk⟩ := Option.isSome_iff_exists.mp hacc
    rcases stricter_ranked hk hnext with ⟨rfl, r, hr, hlt⟩ | ⟨rfl, hle⟩
    · -- the new outcome takes over, and what it led before trails it
      obtain ⟨before, after, r', hos, hr', hbefore, hafter⟩ :=
        ih (Option.isSome_iff_exists.mpr ⟨r, hr⟩) hrest
      have hrr' : r ≤ r' := by
        cases before with
        | nil =>
          obtain ⟨rfl, -⟩ := List.cons.inj hos
          exact (Option.some.inj (hr.symm.trans hr')).le
        | cons b before =>
          obtain ⟨rfl, -⟩ := List.cons.inj hos
          exact (hbefore _ List.mem_cons_self r hr).le
      refine ⟨acc :: before, after, r', by rw [hos]; rfl, hr', ?_, hafter⟩
      rw [List.forall_mem_cons]
      refine ⟨fun k' hk' => ?_, hbefore⟩
      rw [hk] at hk'
      obtain rfl := Option.some.inj hk'
      omega
    · obtain ⟨before, after, r', hos, hr', hbefore, hafter⟩ := ih hacc hrest
      cases before with
      | nil =>
        obtain ⟨rfl, rfl⟩ := List.cons.inj hos
        obtain rfl := Option.some.inj (hk.symm.trans hr')
        refine ⟨[], o :: os, k, rfl, hk, by simp, ?_⟩
        rw [List.forall_mem_cons]
        exact ⟨hle, hafter⟩
      | cons b before =>
        obtain ⟨rfl, rfl⟩ := List.cons.inj hos
        have hlt : k < r' := hbefore _ List.mem_cons_self k hk
        refine ⟨next :: o :: before, after, r', rfl, hr', ?_, hafter⟩
        rw [List.forall_mem_cons] at hbefore ⊢
        rw [List.forall_mem_cons]
        exact ⟨hbefore.1, fun r hr => lt_of_le_of_lt (hle r hr) hlt, hbefore.2⟩

/-- **From an outcome without a rank** it ends on one without. -/
theorem reduce_unranked {os : List JsVal} {acc w : JsVal} (hacc : rank? acc = none)
    (h : os.foldlM stricter acc = .ok w) : rank? w = none := by
  induction os generalizing acc with
  | nil =>
    obtain rfl := Except.ok.inj h
    exact hacc
  | cons o os ih =>
    rw [List.foldlM_cons] at h
    obtain ⟨next, hnext, h⟩ := bind_eq_ok_iff.mp h
    exact ih (stricter_unranked hacc hnext) h

/-! ## The decision -/

/-- What the reduction does right by: nothing fired, or the first fired
outcome has a rank and the first of the highest rank is a string. -/
def WellLed (os : List JsVal) : Prop :=
  os = [] ∨ (∃ o ∈ os.head?, (rank? o).isSome) ∧ ∃ s, Leads os (.str s)

/-- The outcomes of the enumeration. -/
def IsOutcome (v : JsVal) : Prop := ∃ d : DecisionOutcome, v = .str (lit d.text)

theorem rank?_outcome (d : DecisionOutcome) : rank? (.str (lit d.text)) = some d.precedence := by
  cases d <;> decide

/-- A string with a rank is an outcome. -/
theorem outcome_of_rank {s : JsStr} {r : ℕ} (h : rank? (.str s) = some r) :
    ∃ d : DecisionOutcome, s = lit d.text ∧ d.precedence = r := by
  obtain ⟨d, hd, hr⟩ := Option.map_eq_some_iff.mp h
  have htext := List.find?_some hd
  exact ⟨d, (of_decide_eq_true htext).symm, hr⟩

theorem leads_cons {o w : JsVal} {os : List JsVal} (h : Leads (o :: os) w) :
    ∀ v ∈ o :: os, ∀ k ∈ rank? v, ∀ r ∈ rank? w, k ≤ r := by
  obtain ⟨before, after, r, hos, hr, hbefore, hafter⟩ := h
  intro v hv k hk r' hr'
  obtain rfl := Option.some.inj (hr.symm.trans hr')
  rw [hos, List.mem_append, List.mem_cons] at hv
  rcases hv with hv | rfl | hv
  · exact (hbefore v hv k hk).le
  · exact (Option.some.inj (hk.symm.trans hr)).le
  · exact hafter v hv k hk

/-- **The reduction keeps to the enumeration and to `deny`** exactly when
the fired outcomes are well led. -/
theorem finalDecision_iff {os : List JsVal} {w : JsVal} (h : finalDecision os = .ok w) :
    (IsOutcome w ∧ (.str (lit "deny") ∈ os → w = .str (lit "deny"))) ↔ WellLed os := by
  cases os with
  | nil =>
    obtain rfl := Except.ok.inj h
    exact iff_of_true ⟨⟨.allow, rfl⟩, fun hmem => absurd hmem List.not_mem_nil⟩ (Or.inl rfl)
  | cons o os =>
    cases hrank : rank? o with
    | none =>
      -- nothing ranked can win
      have hw := reduce_unranked hrank h
      refine iff_of_false ?_ ?_
      · rintro ⟨⟨d, rfl⟩, -⟩
        rw [rank?_outcome] at hw
        cases hw
      · rintro (hnil | ⟨⟨v, hv, hsome⟩, -⟩)
        · cases hnil
        · obtain rfl := Option.some.inj hv
          rw [hrank] at hsome
          cases hsome
    | some k =>
      have hlead := reduce_leads (Option.isSome_iff_exists.mpr ⟨k, hrank⟩) h
      constructor
      · rintro ⟨⟨d, rfl⟩, -⟩
        exact Or.inr ⟨⟨o, rfl, Option.isSome_iff_exists.mpr ⟨k, hrank⟩⟩, _, hlead⟩
      · rintro (hnil | ⟨-, s, hs⟩)
        · cases hnil
        · obtain rfl := hlead.unique hs
          obtain ⟨-, -, r, -, hr, -⟩ := id hs
          obtain ⟨d, rfl, rfl⟩ := outcome_of_rank hr
          refine ⟨⟨d, rfl⟩, fun hdeny => ?_⟩
          have hle : DecisionOutcome.deny.precedence ≤ d.precedence :=
            leads_cons hs _ hdeny _ (rank?_outcome .deny) _ hr
          rw [le_antisymm (DecisionOutcome.le_deny d) hle]
          rfl

/-! ## Where it throws -/

/-- A lookup throws where the outcome has no text. -/
theorem succeeds_precedence (o : JsVal) : Succeeds (precedence o) ↔ Succeeds (toStr o) := by
  unfold precedence
  refine (succeeds_bind_const fun key _ => iff_true_intro ?_).trans (and_iff_left trivial)
  cases validOutcomes.find? fun d => decide (lit d.text = key) with
  | some d => exact succeeds_ok _
  | none =>
    rcases inherited_cases key with hnone | ⟨f, hf⟩ | hproto
    · rw [hnone]
      exact succeeds_ok _
    · rw [hf]
      exact succeeds_ok _
    · rw [hproto]
      exact succeeds_ok _

theorem succeeds_stricter (acc o : JsVal) :
    Succeeds (stricter acc o) ↔ Succeeds (toStr o) ∧ Succeeds (toStr acc) := by
  unfold stricter
  rw [← succeeds_precedence, ← succeeds_precedence]
  refine succeeds_bind_const fun p _ => ?_
  exact (succeeds_bind_const fun q _ => iff_true_intro (succeeds_ok _)).trans (and_iff_left trivial)

/-- The reduction looks at every outcome, unless there is but one. -/
theorem succeeds_reduce {os : List JsVal} {acc : JsVal} (hos : os ≠ []) :
    Succeeds (os.foldlM stricter acc)
      ↔ Succeeds (toStr acc) ∧ ∀ o ∈ os, Succeeds (toStr o) := by
  induction os generalizing acc with
  | nil => exact absurd rfl hos
  | cons o os ih =>
    -- the next accumulator is one of the two just looked at
    have hnext {w : JsVal} (hw : stricter acc o = .ok w) :
        (Succeeds (toStr acc) ∧ Succeeds (toStr o)) ∧ Succeeds (toStr w) := by
      obtain ⟨ho, hacc⟩ := (succeeds_stricter acc o).mp ⟨w, hw⟩
      obtain ⟨p, -, hw⟩ := bind_eq_ok_iff.mp hw
      obtain ⟨q, -, hw⟩ := bind_eq_ok_iff.mp hw
      refine ⟨⟨hacc, ho⟩, ?_⟩
      rw [← Except.ok.inj hw]
      split
      · exact ho
      · exact hacc
    rw [List.foldlM_cons, List.forall_mem_cons, succeeds_bind_iff]
    by_cases hnil : os = []
    · subst hnil
      constructor
      · rintro ⟨w, hw, -⟩
        obtain ⟨⟨hacc, ho⟩, -⟩ := hnext hw
        exact ⟨hacc, ho, by simp⟩
      · rintro ⟨hacc, ho, -⟩
        obtain ⟨w, hw⟩ := (succeeds_stricter acc o).mpr ⟨ho, hacc⟩
        exact ⟨w, hw, succeeds_ok w⟩
    · constructor
      · rintro ⟨w, hw, hrest⟩
        obtain ⟨⟨hacc, ho⟩, -⟩ := hnext hw
        exact ⟨hacc, ho, ((ih hnil).mp hrest).2⟩
      · rintro ⟨hacc, ho, hall⟩
        obtain ⟨w, hw⟩ := (succeeds_stricter acc o).mpr ⟨ho, hacc⟩
        exact ⟨w, hw, (ih hnil).mpr ⟨(hnext hw).2, hall⟩⟩

/-- **The reduction throws** where two outcomes or more are compared and
one has no text. -/
theorem succeeds_finalDecision (os : List JsVal) :
    Succeeds (finalDecision os) ↔ os.length ≤ 1 ∨ ∀ o ∈ os, Succeeds (toStr o) := by
  cases os with
  | nil => exact iff_of_true (succeeds_ok _) (Or.inl (by simp))
  | cons o os =>
    cases os with
    | nil => exact iff_of_true (succeeds_ok _) (Or.inl (by simp))
    | cons a os =>
      rw [finalDecision, succeeds_reduce (by simp), List.forall_mem_cons]
      simp

/-! ## The engine -/

section

variable {T : Type} [LT T] [DecidableLT T]

/-- A rule fires on a receipt. -/
def Fires (receipt : JsObject) (ctx : EvalContext T) (clock : Stream' T) (rule : Rule) : Prop :=
  ∃ result, (applyRule rule receipt ctx).result clock = .ok result ∧ result.fired = true

/-- The outcomes of the rules that fire, in declared order. -/
def firedOutcomes (receipt : JsObject) (ctx : EvalContext T) (clock : Stream' T)
    (rules : List Rule) : List JsVal :=
  rules.filterMap fun rule =>
    match (applyRule rule receipt ctx).result clock with
    | .ok result => if result.fired then some rule.outcome else none
    | .error _ => none

variable {receipt policy : JsObject} {ctx : EvalContext T} {clock : Stream' T} {pol : Policy}

theorem mem_firedOutcomes {o : JsVal} {rules : List Rule} :
    o ∈ firedOutcomes receipt ctx clock rules
      ↔ ∃ rule ∈ rules, Fires receipt ctx clock rule ∧ rule.outcome = o := by
  unfold firedOutcomes Fires
  rw [List.mem_filterMap]
  refine exists_congr fun rule => and_congr_right fun _ => ?_
  cases (applyRule rule receipt ctx).result clock with
  | error e => simp
  | ok result => by_cases h : result.fired <;> simp [h]

/-- The outcomes the loop records. -/
theorem outcomes_entries (hctx : ctx.deadlineMonotonic = none) (clock : Stream' T)
    (rules : List Rule) :
    (Trail.entries (firing receipt ctx.aggregates) rules).map Entry.outcome
      = firedOutcomes receipt ctx clock rules := by
  unfold Trail.entries firedOutcomes
  rw [List.map_filterMap]
  refine List.filterMap_congr fun rule _ => ?_
  rw [(untimed_applyRule hctx).result_eq clock]
  unfold Trail.recorded firing
  cases ruleSays rule receipt ctx.aggregates with
  | error e => rfl
  | ok result =>
    change (record rule result).map Entry.outcome = _
    unfold record
    by_cases h : result.fired
    · simp only [h, if_true, Option.map_some]
    · simp only [h]
      rfl

/-- A decision is the reduction of the outcomes that fired. -/
theorem finalDecision_of_evaluate {D : Decision} (hpol : coercePolicy policy = .ok pol)
    (hctx : ctx.deadlineMonotonic = none)
    (h : evaluateWithContext receipt policy ctx clock = .ok D) :
    finalDecision (firedOutcomes receipt ctx clock pol.rules) = .ok D.decision := by
  rw [evaluateWithContext_ok hpol hctx (returns_of_evaluate hpol hctx h), decisionOf,
    outcomes_entries hctx clock] at h
  obtain ⟨final, hfinal, h⟩ := bind_eq_ok_iff.mp h
  rw [hfinal, ← Except.ok.inj h]

/-- **Deny dominates**, and the decision is an outcome, exactly when the
fired outcomes are well led. -/
theorem deny_dominates_iff {D : Decision} (hpol : coercePolicy policy = .ok pol)
    (hctx : ctx.deadlineMonotonic = none)
    (h : evaluateWithContext receipt policy ctx clock = .ok D) :
    (IsOutcome D.decision
        ∧ ((∃ rule ∈ pol.rules, Fires receipt ctx clock rule ∧ rule.outcome = .str (lit "deny"))
          → D.decision = .str (lit "deny")))
      ↔ WellLed (firedOutcomes receipt ctx clock pol.rules) := by
  rw [← finalDecision_iff (finalDecision_of_evaluate hpol hctx h), mem_firedOutcomes]

/-- **The engine throws** where a rule does, or else the reduction. -/
theorem succeeds_evaluateWithContext (hpol : coercePolicy policy = .ok pol)
    (hctx : ctx.deadlineMonotonic = none) :
    Succeeds (evaluateWithContext receipt policy ctx clock)
      ↔ (∀ rule ∈ pol.rules, Succeeds (ruleSays rule receipt ctx.aggregates))
        ∧ Succeeds (finalDecision (firedOutcomes receipt ctx clock pol.rules)) := by
  have hreturns (rule : Rule) : Trail.Returns (firing receipt ctx.aggregates) rule
      ↔ Succeeds (ruleSays rule receipt ctx.aggregates) :=
    (succeeds_bind_const fun _ _ => iff_true_intro (succeeds_ok _)).trans (and_iff_left trivial)
  constructor
  · rintro ⟨D, hD⟩
    have hall := returns_of_evaluate hpol hctx hD
    exact ⟨fun rule hrule => (hreturns rule).mp (hall rule hrule),
      _, finalDecision_of_evaluate hpol hctx hD⟩
  · rintro ⟨hall, hfinal⟩
    rw [evaluateWithContext_ok hpol hctx fun rule hrule => (hreturns rule).mpr (hall rule hrule),
      decisionOf, outcomes_entries hctx clock]
    exact (succeeds_bind_const fun _ _ => iff_true_intro (succeeds_ok _)).mpr ⟨hfinal, trivial⟩

end

/-! ## A masked deny -/

/-- The members of a rule that fires above a threshold of zero. -/
def rawRule (id outcome : JsStr) : JsVal :=
  .obj [(lit "id", .str id), (lit "type", .str (lit "max_amount")), (lit "outcome", .str outcome),
    (lit "parameters", .obj [(lit "threshold", .num (.fin 0))])]

/-- Two such rules, the second a deny. -/
def rawPolicy (outcome : JsStr) : JsObject :=
  [(lit "version", .str (lit "v1")),
    (lit "rules", .arr [rawRule (lit "first") outcome, rawRule (lit "second") (lit "deny")])]

/-- The rule the probe makes of it. -/
def probedRule (id outcome : JsStr) : Rule :=
  { id := .str id, type := .str (lit "max_amount"), outcome := .str outcome,
    parameters := .obj [(lit "threshold", .num (.fin 0))], others := [] }

def probedPolicy (outcome : JsStr) : Policy :=
  { version := .str (lit "v1"),
    rules := [probedRule (lit "first") outcome, probedRule (lit "second") (lit "deny")] }

/-- A receipt both rules fire on. -/
def chargedReceipt : JsObject := [(lit "amount_charged", .num (.fin 5))]

/-- A context without aggregates and without a deadline. -/
def bareContext : EvalContext ℕ := ⟨[], none, none⟩

theorem deny_dominates_sample :
    ∃ D, evaluateWithContext chargedReceipt (rawPolicy (lit "escalate")) bareContext (Stream'.const 0)
        = .ok D ∧ D.decision = .str (lit "deny") := by
  have hpol : coercePolicy (rawPolicy (lit "escalate")) = .ok (probedPolicy (lit "escalate")) := by
    decide
  have hfired : firedOutcomes chargedReceipt bareContext (Stream'.const 0)
      (probedPolicy (lit "escalate")).rules = [.str (lit "escalate"), .str (lit "deny")] := by
    decide
  have hled : WellLed [.str (lit "escalate"), .str (lit "deny")] := by
    refine Or.inr ⟨⟨_, rfl, by decide⟩, lit "deny", [.str (lit "escalate")], [], 2, rfl,
      by decide, ?_, by simp⟩
    rw [List.forall_mem_singleton]
    decide
  obtain ⟨D, hD⟩ : ∃ D, evaluateWithContext chargedReceipt (rawPolicy (lit "escalate")) bareContext
      (Stream'.const 0) = .ok D := ⟨_, rfl⟩
  have hiff := deny_dominates_iff hpol rfl hD
  rw [hfired] at hiff
  refine ⟨D, hD, (hiff.mpr hled).2 ?_⟩
  rw [← mem_firedOutcomes, hfired]
  simp

/-- **An outcome nobody checked masks a deny.** -/
theorem deny_masked :
    ∃ D, evaluateWithContext chargedReceipt (rawPolicy (lit "bogus")) bareContext (Stream'.const 0)
        = .ok D
      ∧ coercePolicy (rawPolicy (lit "bogus")) = .ok (probedPolicy (lit "bogus"))
      ∧ (∃ rule ∈ (probedPolicy (lit "bogus")).rules,
        Fires chargedReceipt bareContext (Stream'.const 0) rule ∧ rule.outcome = .str (lit "deny"))
      ∧ D.decision ≠ .str (lit "deny") ∧ ¬ IsOutcome D.decision := by
  refine ⟨_, rfl, by decide, ?_, by decide, ?_⟩
  · rw [← mem_firedOutcomes]
    decide
  · rintro ⟨d, hd⟩
    cases d <;> revert hd <;> decide

end Ts

end OpenTerms
