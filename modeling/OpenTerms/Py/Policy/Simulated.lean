import OpenTerms.Py.Policy.Loosening
import OpenTerms.Py.Policy.Validate

/-!
# What a simulation shows

`compute_simulation_diffs` evaluates a log under a second policy, with
snapshots of that policy's own: they are filed under the id of its first
`daily_limit` rule. A looser policy whose first such rule has the id it had
sees the same snapshots, so nothing it decides otherwise is stricter
(`simulation_loosens`). Where that rule is deleted the next one takes its
place, and sees the day's total where it saw single receipts.
-/

namespace OpenTerms

namespace Py

namespace Corpus

open Json

/-! ## Counters -/

section

variable {α : Type} [DecidableEq α]

/-- One more of something. -/
theorem sum_set_succ (c : List (α × ℕ)) (x : α) :
    ((set x ((get? x c).getD 0 + 1) c).map Prod.snd).sum = (c.map Prod.snd).sum + 1 := by
  induction c with
  | nil => rfl
  | cons m c ih =>
    obtain ⟨k, n⟩ := m
    rw [Json.set, get?_cons]
    by_cases h : k = x
    · rw [if_pos h, if_pos h, List.map_cons, List.map_cons, List.sum_cons, List.sum_cons,
        Option.getD_some]
      dsimp only
      omega
    · rw [if_neg h, if_neg h, List.map_cons, List.map_cons, List.sum_cons, List.sum_cons, ih]
      dsimp only
      omega

/-- **Nothing is left out.** -/
theorem sum_counter (xs : List α) : ((counter xs).map Prod.snd).sum = xs.length := by
  have hfrom (c : List (α × ℕ)) :
      ((xs.foldl (fun c x => set x ((get? x c).getD 0 + 1) c) c).map Prod.snd).sum
        = (c.map Prod.snd).sum + xs.length := by
    induction xs generalizing c with
    | nil => rfl
    | cons x xs ih =>
      rw [List.foldl_cons, ih, sum_set_succ, List.length_cons]
      omega
  have hstart := hfrom []
  rwa [show (([] : List (α × ℕ)).map Prod.snd).sum = 0 from rfl, Nat.zero_add] at hstart

/-- And nothing else is counted. -/
theorem mem_of_mem_counter {xs : List α} {m : α × ℕ} (h : m ∈ counter xs) : m.1 ∈ xs := by
  have hfrom (c : List (α × ℕ))
      (hm : m ∈ xs.foldl (fun c x => set x ((get? x c).getD 0 + 1) c) c) : m.1 ∈ xs ∨ m ∈ c := by
    clear h
    induction xs generalizing c with
    | nil => exact Or.inr hm
    | cons x xs ih =>
      rcases ih (Json.set x ((get? x c).getD 0 + 1) c) hm with hxs | hset
      · exact Or.inl (List.mem_cons_of_mem _ hxs)
      · rcases mem_of_mem_set hset with rfl | hc
        · exact Or.inl List.mem_cons_self
        · exact Or.inr hc
  rcases hfrom [] h with hxs | hnil
  · exact hxs
  · cases hnil

end

/-! ## The simulation -/

section

variable [Ucd] {pol pol' : Policy}

/-- **One receipt under a looser policy**, with one snapshot. -/
theorem corpusDecision_loosened (hloose : LoosenedPolicy pol pol') {r : LogReceipt}
    {aggregates : PyDict} (hreturns : ∀ R ∈ pol.rules, Succeeds (ruleSays R r.receipt aggregates)) :
    (corpusDecision pol' r aggregates).triggeredRules.Sublist
        (corpusDecision pol r aggregates).triggeredRules
      ∧ (corpusDecision pol' r aggregates).decision ≤ (corpusDecision pol r aggregates).decision := by
  have hrecords : ∀ R ∈ pol.rules, Trail.Returns (firing r.receipt aggregates) R := by
    intro R hR
    obtain ⟨result, hresult⟩ := hreturns R hR
    exact ⟨_, bind_eq_ok_iff.mpr ⟨result, hresult, rfl⟩⟩
  have hsub := effects_sublist hloose hrecords
  constructor
  · have hids := hsub.map Prod.fst
    rwa [List.map_map, List.map_map] at hids
  · refine strictest_mono fun o ho => ?_
    have houtcomes := (hsub.map Prod.snd).subset
    rw [List.map_map, List.map_map] at houtcomes
    exact houtcomes ho

variable {T : Type} [LT T] [DecidableLT T] [Zero T] [Add T]
variable {policy policy' : PyDict} {budgetSeconds : T} {clocks clocks' : Stream' (Stream' T)}
variable {log : List LogReceipt} {ds : List CorpusDecision} {diffs : List SimulationDiff}
variable {transitions : List ((DecisionOutcome × DecisionOutcome) × ℕ)}

/-- **A simulation of a looser policy** whose first daily limit is under the
same id shows no receipt on which more rules fire or the decision is
stricter, no transition to a stricter outcome, and each diff in one
transition. -/
theorem simulation_loosens (hpol : Policy.fromDict policy = .ok pol)
    (hpol' : Policy.fromDict policy' = .ok pol') (hloose : LoosenedPolicy pol pol')
    (hbudget : ¬ 0 < budgetSeconds)
    (hfirst : findRuleId policy' (lit "daily_limit") = findRuleId policy (lit "daily_limit"))
    (hds : evaluateCorpus log policy budgetSeconds clocks = .ok ds)
    (h : computeSimulationDiffs log ds policy' budgetSeconds clocks' = .ok (diffs, transitions)) :
    (∀ d ∈ diffs, d.v2.2.Sublist d.v1.2 ∧ d.v2.1 ≤ d.v1.1)
      ∧ (∀ t ∈ transitions, t.1.2 ≤ t.1.1)
      ∧ (transitions.map Prod.snd).sum = diffs.length := by
  obtain ⟨ruleId, hruleId, -⟩ := bind_eq_ok_iff.mp hds
  obtain ⟨-, hall, rfl⟩ := (evaluateCorpus_eq_ok_iff hpol hbudget hruleId).mp hds
  obtain ⟨ds', hds', h⟩ := bind_eq_ok_iff.mp h
  have hds' : evaluateCorpus log policy' budgetSeconds clocks' = .ok ds' := raised_eq_ok_iff.mp hds'
  obtain ⟨-, -, rfl⟩ := (evaluateCorpus_eq_ok_iff hpol' hbudget (hfirst.trans hruleId)).mp hds'
  obtain ⟨-, h⟩ := check_eq_ok_iff.mp h
  obtain ⟨hdiffs, htransitions⟩ := Prod.mk.inj (Except.ok.inj h)
  have hlooser : ∀ d ∈ diffs, d.v2.2.Sublist d.v1.2 ∧ d.v2.1 ≤ d.v1.1 := by
    intro d hd
    rw [← hdiffs] at hd
    obtain ⟨p, hp, rfl⟩ := List.mem_map.mp hd
    obtain ⟨i, hi, rfl⟩ := List.getElem_of_mem (List.mem_of_mem_filter hp)
    rw [List.length_zip, List.length_zip, List.length_mapIdx, List.length_mapIdx] at hi
    simp only [List.getElem_zip, List.getElem_mapIdx, CorpusDecision.shown]
    refine corpusDecision_loosened hloose fun R hR => (ruleSays_isOk_iff R _ _ _).mpr ?_
    exact hall _ (List.getElem_mem (by omega)) R hR
  refine ⟨hlooser, fun t ht => ?_, ?_⟩
  · rw [← htransitions, hdiffs] at ht
    obtain ⟨d, hd, hdt⟩ := List.mem_map.mp (mem_of_mem_counter ht)
    rw [← hdt]
    exact (hlooser d hd).2
  · rw [← htransitions, sum_counter, List.length_map, hdiffs]

end

section Sample

attribute [local instance] Ucd.allPrintable

/-- Raising the limit of a policy lets the second of two receipts through. -/
theorem simulation_loosens_sample :
    ∃ ds diffs transitions,
      evaluateCorpus [sampleReceipt 60, sampleReceipt 60] (limitsPolicy [("agent", 100)])
          (0 : ℕ) (Stream'.const (Stream'.const 0)) = .ok ds
      ∧ computeSimulationDiffs [sampleReceipt 60, sampleReceipt 60] ds
          (limitsPolicy [("agent", 150)]) (0 : ℕ) (Stream'.const (Stream'.const 0))
            = .ok (diffs, transitions)
      ∧ transitions = [((.deny, .allow), 1)]
      ∧ (∀ d ∈ diffs, d.v2.2.Sublist d.v1.2 ∧ d.v2.1 ≤ d.v1.1)
      ∧ (∀ t ∈ transitions, t.1.2 ≤ t.1.1)
      ∧ (transitions.map Prod.snd).sum = diffs.length := by
  have hloose : LoosenedPolicy { version := lit "v1", rules := [limitRule ("agent", 100)] }
      { version := lit "v1", rules := [limitRule ("agent", 150)] } := by
    refine ⟨_, List.Sublist.refl _, .cons (.inr ⟨rfl, rfl, rfl, ?_⟩) .nil⟩
    refine ⟨fun k hk => ?_, 100, 150, rfl, rfl, by omega⟩
    rw [limitRule, limitRule, get?_cons, get?_cons, if_neg (Ne.symm hk), if_neg (Ne.symm hk)]
  have hloosens {ds : List CorpusDecision} {diffs : List SimulationDiff}
      {transitions : List ((DecisionOutcome × DecisionOutcome) × ℕ)} :=
    @simulation_loosens _ _ _ ℕ _ _ _ _ (limitsPolicy [("agent", 100)])
      (limitsPolicy [("agent", 150)]) 0 (Stream'.const (Stream'.const 0))
      (Stream'.const (Stream'.const 0)) [sampleReceipt 60, sampleReceipt 60] ds diffs transitions
      rfl rfl hloose (by decide) rfl
  exact ⟨_, _, _, rfl, rfl, rfl, hloosens rfl rfl⟩

/-- Without the rule before it, a limit sees the day's total. -/
example : (evaluateCorpus [sampleReceipt 60, sampleReceipt 60]
      (limitsPolicy [("total", 1000), ("agent", 100)]) (0 : ℕ) (Stream'.const (Stream'.const 0))).map
        (List.map CorpusDecision.shown) = .ok [(.allow, []), (.allow, [])]
    ∧ (evaluateCorpus [sampleReceipt 60, sampleReceipt 60]
      (limitsPolicy [("agent", 100)]) (0 : ℕ) (Stream'.const (Stream'.const 0))).map
        (List.map CorpusDecision.shown) = .ok [(.allow, []), (.deny, [lit "agent"])] :=
  ⟨rfl, rfl⟩

end Sample

end Corpus

end Py

end OpenTerms
