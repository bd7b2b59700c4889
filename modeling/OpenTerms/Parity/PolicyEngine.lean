import OpenTerms.Parity.Policy

/-!
# The two engines on one policy

Each engine's decision is the strictest outcome of the rules that fire,
and its list is their ids, so the engines agree where each rule does
(`engines_agree_iff`). They part in three places: TypeScript throws where
it cannot print a value its reason quotes, or the version of a policy
without rules, and the URL rules compare by code units there.
-/

namespace OpenTerms

namespace Parity

open Json Utf16

section

variable [Ucd] {receipt aggregates policy : Members}

/-! ## What the rules say -/

/-- What Python's evaluator of a rule says. -/
def pySays (receipt aggregates : Members) (r : RuleDoc) : Except Py.PyErr Py.RuleResult :=
  Py.ruleSays r.toPy (Py.ofMembers receipt) (Py.ofMembers aggregates)

omit [Ucd] in
/-- What TypeScript's says. -/
def tsSays (receipt aggregates : Members) (r : RuleDoc) : Except Ts.TsErr Ts.RuleResult :=
  Ts.typeSays r.type r.toTs (Ts.ofMembers receipt) (Ts.ofMembers aggregates)

/-- The rule fires in Python. -/
def pyFires (receipt aggregates : Members) (r : RuleDoc) : Bool :=
  match pySays receipt aggregates r with
  | .ok result => result.fired
  | .error _ => false

omit [Ucd] in
/-- The rule fires in TypeScript. -/
def tsFires (receipt aggregates : Members) (r : RuleDoc) : Bool :=
  match tsSays receipt aggregates r with
  | .ok result => result.fired
  | .error _ => false

/-- What Python records of a rule that fires. -/
def pyRecord (receipt aggregates : Members) (r : RuleDoc) : Entry PyStr PyStr DecisionOutcome :=
  ⟨decode r.id, match pySays receipt aggregates r with
    | .ok result => result.reason
    | .error _ => [], r.outcome⟩

omit [Ucd] in
/-- What TypeScript records of one. -/
def tsRecord (receipt aggregates : Members) (r : RuleDoc) : Entry Ts.JsVal Ts.JsAny Ts.JsVal :=
  ⟨.str r.id, match tsSays receipt aggregates r with
    | .ok result => result.reason
    | .error _ => .undefined, .str (lit r.outcome.text)⟩

theorem py_recorded (r : RuleDoc) :
    Trail.recorded (Py.firing (Py.ofMembers receipt) (Py.ofMembers aggregates)) r.toPy
      = if pyFires receipt aggregates r then some (pyRecord receipt aggregates r) else none := by
  unfold Trail.recorded Py.firing pyFires pyRecord pySays
  cases Py.ruleSays r.toPy (Py.ofMembers receipt) (Py.ofMembers aggregates) with
  | error e => rfl
  | ok result => rfl

omit [Ucd] in
/-- The other members of a rule do not reach its evaluator. -/
theorem typeSays_bare (type : RuleType) (t : Ts.Rule) (receipt aggregates : Ts.JsObject) :
    Ts.typeSays type (bare t) receipt aggregates = Ts.typeSays type t receipt aggregates := by
  have hpattern (pats : List Ts.JsVal) :
      Ts.matchingPatterns (bare t) receipt pats = Ts.matchingPatterns t receipt pats := by
    induction pats with
    | nil => rfl
    | cons pat pats ih =>
      rw [Ts.matchingPatterns, Ts.matchingPatterns, ih]
      cases pat <;> rfl
  cases type
  case argsPatternMatch =>
    have hparams : Ts.patternParams (bare t) = Ts.patternParams t := rfl
    rw [Ts.typeSays, Ts.typeSays, Ts.argsPatternMatch, Ts.argsPatternMatch, hparams]
    refine bind_congr fun params => ?_
    dsimp only
    rw [hpattern]
  all_goals rfl

omit [Ucd] in
theorem ts_ruleSays {t : Ts.Rule} {r : RuleDoc} (h : bare t = r.toTs) :
    Ts.ruleSays t (Ts.ofMembers receipt) (Ts.ofMembers aggregates)
      = tsSays receipt aggregates r := by
  have htype : t.type = .str (lit r.type.text) := congrArg Ts.Rule.type h
  have hkey : Ts.toStr (.str (lit r.type.text)) = .ok (lit r.type.text) := by rw [Ts.toStr]
  unfold Ts.ruleSays tsSays
  rw [htype, hkey, ok_bind, find?_ruleType, ← h]
  exact (typeSays_bare r.type t _ _).symm

omit [Ucd] in
theorem ts_recorded {t : Ts.Rule} {r : RuleDoc} (h : bare t = r.toTs) :
    Trail.recorded (Ts.firing (Ts.ofMembers receipt) (Ts.ofMembers aggregates)) t
      = if tsFires receipt aggregates r then some (tsRecord receipt aggregates r) else none := by
  have hid : t.id = .str r.id := congrArg Ts.Rule.id h
  have houtcome : t.outcome = .str (lit r.outcome.text) := congrArg Ts.Rule.outcome h
  unfold Trail.recorded Ts.firing tsFires tsRecord
  rw [ts_ruleSays h]
  cases tsSays receipt aggregates r with
  | error e => rfl
  | ok result =>
    change Ts.record t result = _
    rw [Ts.record, hid, houtcome]

/-! ## The reductions -/

omit [Ucd] in
theorem stricter_text (a b : DecisionOutcome) :
    Ts.stricter (.str (lit a.text)) (.str (lit b.text)) = .ok (.str (lit (a ⊔ b).text)) := by
  cases a <;> cases b <;> decide

omit [Ucd] in
/-- The reduction over texts of outcomes is the supremum. -/
theorem finalDecision_text (os : List DecisionOutcome) :
    Ts.finalDecision (os.map fun o => .str (lit o.text)) = .ok (.str (lit (strictest os).text)) := by
  cases os with
  | nil => rfl
  | cons o os =>
    have hcons (a : DecisionOutcome) (as : List DecisionOutcome) :
        strictest (a :: as) = a ⊔ strictest as := Multiset.sup_cons a as
    rw [List.map_cons, Ts.finalDecision, hcons]
    induction os generalizing o with
    | nil =>
      rw [List.map_nil, List.foldlM_nil]
      have hbot : strictest [] = ⊥ := rfl
      rw [hbot, sup_bot_eq]
      rfl
    | cons a os ih =>
      rw [List.map_cons, List.foldlM_cons, stricter_text, ok_bind, ih, hcons, sup_assoc]

/-! ## The runs -/

section

variable {T T' : Type} [LT T] [DecidableLT T] [Zero T] [Add T] [LT T'] [DecidableLT T'] [Zero T']
  [Add T'] {budget : T} {budget' : T'}

/-- Python's decision, where every rule returns. -/
theorem py_evaluate_ok {pol : Py.Policy} (hbudget : ¬ 0 < budget)
    (at_ : Option PyStr) (clock : Stream' T)
    (hpol : Py.Policy.fromDict (Py.ofMembers policy) = .ok pol)
    (hrules : pol.rules = (rulesOf policy).map RuleDoc.toPy)
    (hok : ∀ r ∈ rulesOf policy, Succeeds (pySays receipt aggregates r)) :
    ∃ D, Py.evaluate (Py.ofMembers receipt) (.dict (Py.ofMembers policy))
        (some (Py.ofMembers aggregates)) budget at_ clock = .ok D
      ∧ D.decision = strictest (((rulesOf policy).filter
          (pyFires receipt aggregates)).map RuleDoc.outcome)
      ∧ D.triggeredRules = (((rulesOf policy).filter
          (pyFires receipt aggregates)).map RuleDoc.id).map decode := by
  have hentries : Trail.entries (Py.firing (Py.ofMembers receipt) (Py.ofMembers aggregates))
        pol.rules
      = ((rulesOf policy).filter (pyFires receipt aggregates)).map
          (pyRecord receipt aggregates) := by
    rw [hrules]
    refine Trail.entries_eq_filter ?_
    rw [List.forall₂_map_left_iff]
    exact List.forall₂_same.mpr fun r _ => py_recorded r
  have hreturns : ∀ rule ∈ pol.rules,
      Trail.Returns (Py.firing (Py.ofMembers receipt) (Py.ofMembers aggregates)) rule := by
    rw [hrules, List.forall_mem_map]
    intro r hr
    obtain ⟨result, hresult⟩ := hok r hr
    unfold pySays at hresult
    exact ⟨_, by rw [Py.firing, hresult]; rfl⟩
  have hcoerce : Py.coercePolicy (.dict (Py.ofMembers policy)) = .ok pol := hpol
  unfold Py.evaluate
  rw [if_neg hbudget]
  refine ⟨_, Py.evaluateWithContext_ok hcoerce rfl hreturns clock, ?_, ?_⟩
  · change strictest (List.map Entry.outcome (Trail.entries _ _)) = _
    rw [Option.getD_some, hentries, List.map_map]
    rfl
  · change List.map Entry.id (Trail.entries _ _) = _
    rw [Option.getD_some, hentries, List.map_map, List.map_map]
    rfl

/-- Python raises where a rule does. -/
theorem py_evaluate_error {pol : Py.Policy} (hbudget : ¬ 0 < budget)
    (at_ : Option PyStr) (clock : Stream' T)
    (hpol : Py.Policy.fromDict (Py.ofMembers policy) = .ok pol)
    (hrules : pol.rules = (rulesOf policy).map RuleDoc.toPy) {r : RuleDoc}
    (hr : r ∈ rulesOf policy) (hraises : ¬ Succeeds (pySays receipt aggregates r)) :
    ∃ e, Py.evaluate (Py.ofMembers receipt) (.dict (Py.ofMembers policy))
        (some (Py.ofMembers aggregates)) budget at_ clock = .error e := by
  have hcoerce : Py.coercePolicy (.dict (Py.ofMembers policy)) = .ok pol := hpol
  rw [← not_succeeds_iff]
  rintro ⟨D, hD⟩
  unfold Py.evaluate at hD
  rw [if_neg hbudget] at hD
  have hreturns := Py.returns_of_evaluate hcoerce rfl hD
  rw [hrules, List.forall_mem_map] at hreturns
  obtain ⟨entry, hentry⟩ := hreturns r hr
  obtain ⟨result, hresult, -⟩ := bind_eq_ok_iff.mp hentry
  exact hraises ⟨result, hresult⟩

omit [Ucd] in
/-- TypeScript's decision, where every rule returns. -/
theorem ts_evaluate_ok {pol : Ts.Policy} (hbudget : ¬ 0 < budget')
    (at' : Option JsStr) (clock' : Stream' T')
    (hpol : Ts.coercePolicy (Ts.ofMembers policy) = .ok pol)
    (hrules : List.Forall₂ (fun t r => bare t = r.toTs) pol.rules (rulesOf policy))
    (hok : ∀ r ∈ rulesOf policy, Succeeds (tsSays receipt aggregates r)) :
    ∃ D, Ts.evaluate (Ts.ofMembers receipt) (Ts.ofMembers policy)
        (some (Ts.ofMembers aggregates)) budget' at' clock' = .ok D
      ∧ D.decision = .str (lit (strictest (((rulesOf policy).filter
          (tsFires receipt aggregates)).map RuleDoc.outcome)).text)
      ∧ D.triggeredRules = (((rulesOf policy).filter
          (tsFires receipt aggregates)).map RuleDoc.id).map .str := by
  have hentries : Trail.entries (Ts.firing (Ts.ofMembers receipt) (Ts.ofMembers aggregates))
        pol.rules
      = ((rulesOf policy).filter (tsFires receipt aggregates)).map
          (tsRecord receipt aggregates) :=
    Trail.entries_eq_filter (hrules.imp fun t r h => ts_recorded h)
  have hreturns : ∀ t ∈ pol.rules,
      Trail.Returns (Ts.firing (Ts.ofMembers receipt) (Ts.ofMembers aggregates)) t := by
    refine forall_mem_of_forall₂ hrules fun t r hr hbare => ?_
    obtain ⟨result, hresult⟩ := hok r hr
    rw [← ts_ruleSays hbare] at hresult
    exact ⟨_, by rw [Ts.firing, hresult]; rfl⟩
  have hdecision : Ts.decisionOf (Ts.ofMembers receipt) pol at'
      (((rulesOf policy).filter (tsFires receipt aggregates)).map (tsRecord receipt aggregates))
      = .ok { decision := .str (lit (strictest (((rulesOf policy).filter
                (tsFires receipt aggregates)).map RuleDoc.outcome)).text),
              triggeredRules := (((rulesOf policy).filter
                (tsFires receipt aggregates)).map RuleDoc.id).map .str,
              reasons := (((rulesOf policy).filter (tsFires receipt aggregates)).map
                (tsRecord receipt aggregates)).map Entry.reason,
              policyVersion := pol.version,
              evaluatedAt := Ts.evaluatedAt (Ts.ofMembers receipt) at' } := by
    have houtcomes : (((rulesOf policy).filter (tsFires receipt aggregates)).map
          (tsRecord receipt aggregates)).map Entry.outcome
        = (((rulesOf policy).filter (tsFires receipt aggregates)).map RuleDoc.outcome).map
            fun o => .str (lit o.text) := by
      rw [List.map_map, List.map_map]
      rfl
    have hids : (((rulesOf policy).filter (tsFires receipt aggregates)).map
          (tsRecord receipt aggregates)).map Entry.id
        = (((rulesOf policy).filter (tsFires receipt aggregates)).map RuleDoc.id).map .str := by
      rw [List.map_map, List.map_map]
      rfl
    rw [Ts.decisionOf, houtcomes, finalDecision_text, ok_bind, hids]
  have hrun : Ts.evaluate (Ts.ofMembers receipt) (Ts.ofMembers policy)
        (some (Ts.ofMembers aggregates)) budget' at' clock'
      = Ts.decisionOf (Ts.ofMembers receipt) pol at'
          (Trail.entries (Ts.firing (Ts.ofMembers receipt) (Ts.ofMembers aggregates)) pol.rules) := by
    unfold Ts.evaluate
    rw [if_neg hbudget]
    exact @Ts.evaluateWithContext_ok T' _ _ _ _ ⟨Ts.ofMembers aggregates, none, at'⟩ pol hpol rfl
      hreturns clock'
  rw [hentries, hdecision] at hrun
  exact ⟨_, hrun, rfl, rfl⟩

omit [Ucd] in
/-- TypeScript throws where a rule does. -/
theorem ts_evaluate_error {pol : Ts.Policy} (hbudget : ¬ 0 < budget')
    (at' : Option JsStr) (clock' : Stream' T')
    (hpol : Ts.coercePolicy (Ts.ofMembers policy) = .ok pol)
    (hrules : List.Forall₂ (fun t r => bare t = r.toTs) pol.rules (rulesOf policy)) {r : RuleDoc}
    (hr : r ∈ rulesOf policy) (hraises : ¬ Succeeds (tsSays receipt aggregates r)) :
    ∃ e, Ts.evaluate (Ts.ofMembers receipt) (Ts.ofMembers policy)
        (some (Ts.ofMembers aggregates)) budget' at' clock' = .error e := by
  rw [← not_succeeds_iff]
  rintro ⟨D, hD⟩
  unfold Ts.evaluate at hD
  rw [if_neg hbudget] at hD
  have hreturns := Ts.returns_of_evaluate hpol rfl hD
  have hall : ∀ r ∈ rulesOf policy, Succeeds (tsSays receipt aggregates r) := by
    refine forall_mem_of_forall₂ hrules.flip fun r t ht hbare => ?_
    obtain ⟨entry, hentry⟩ := hreturns t ht
    obtain ⟨result, hresult, -⟩ := bind_eq_ok_iff.mp hentry
    exact ⟨result, (ts_ruleSays hbare).symm.trans hresult⟩
  exact hraises (hall r hr)

/-! ## Agreement -/

omit [Ucd] in
/-- The same decision and the same list of ids. -/
def SameDecision (D : Py.Decision) (D' : Ts.Decision) : Prop :=
  D'.decision = .str (lit D.decision.text)
    ∧ ∃ ids : List JsStr, D.triggeredRules = ids.map decode ∧ D'.triggeredRules = ids.map .str

/-- A policy Python accepts, with string ids, on a receipt and aggregates
as `InDomain` has them, where the helpers agree. -/
structure PolicyDomain (receipt aggregates policy : Members) : Prop where
  accepted : ∃ pol, Py.Policy.fromDict (Py.ofMembers policy) = .ok pol
  stringIds : StringIds policy
  rules : ∀ r ∈ rulesOf policy, InDomain receipt aggregates r
  helpers : ∀ r ∈ rulesOf policy, HelpersAgree receipt r

omit [Ucd] in
/-- Where the engines agree: what TypeScript has to print prints, and the
URL prefixes end between characters, unless a rule is refused by both. -/
structure Agreed (receipt aggregates policy : Members) : Prop where
  version : VersionPrints policy
  rules : (∃ r ∈ rulesOf policy,
      ¬ WellFormed .strict receipt r.parameters (get? r.id aggregates) r.type)
    ∨ ∀ r ∈ rulesOf policy, Prints receipt r ∧ PrefixesAgree receipt r

theorem pySays_iff {r : RuleDoc} (h : InDomain receipt aggregates r) :
    Succeeds (pySays receipt aggregates r)
      ↔ WellFormed .strict receipt r.parameters (get? r.id aggregates) r.type := by
  have hps : r.toPy.parameters = Py.ofMembers r.parameters := rfl
  exact py_ruleSays hps h.parameters h.receipt (Py.get?_ofMembers r.id aggregates)
    fun _ hd => h.aggregates _ (mem_of_get? hd)

omit [Ucd] in
/-- Rules with different ids that leave the same ids behind. -/
theorem filter_ids_inj {rs : List RuleDoc} (hnodup : (rs.map RuleDoc.id).Nodup)
    {p q : RuleDoc → Bool}
    (h : (rs.filter p).map RuleDoc.id = (rs.filter q).map RuleDoc.id) :
    ∀ r ∈ rs, p r = q r := by
  intro r hr
  have hmem (p : RuleDoc → Bool) : r.id ∈ (rs.filter p).map RuleDoc.id ↔ p r = true := by
    rw [List.mem_map]
    constructor
    · rintro ⟨r', hr', hid⟩
      obtain ⟨hr', hp⟩ := List.mem_filter.mp hr'
      rwa [← List.inj_on_of_nodup_map hnodup hr' hr hid]
    · exact fun hp => ⟨r, List.mem_filter.mpr ⟨hr, hp⟩, rfl⟩
  rw [Bool.eq_iff_iff, ← hmem p, ← hmem q, h]

/-- **The two engines agree**, above their helpers, exactly where what
TypeScript prints and the prefixes allow it; without it they part, unless
rules that share an id make up for each other. -/
theorem engines_agree_iff (h : PolicyDomain receipt aggregates policy) (hbudget : ¬ 0 < budget)
    (hbudget' : ¬ 0 < budget') (at_ : Option PyStr) (at' : Option JsStr) (clock : Stream' T)
    (clock' : Stream' T') :
    (Agreed receipt aggregates policy →
        Alike SameDecision
          (Py.evaluate (Py.ofMembers receipt) (.dict (Py.ofMembers policy))
            (some (Py.ofMembers aggregates)) budget at_ clock)
          (Ts.evaluate (Ts.ofMembers receipt) (Ts.ofMembers policy)
            (some (Ts.ofMembers aggregates)) budget' at' clock'))
      ∧ (((rulesOf policy).map RuleDoc.id).Nodup →
        Alike SameDecision
          (Py.evaluate (Py.ofMembers receipt) (.dict (Py.ofMembers policy))
            (some (Py.ofMembers aggregates)) budget at_ clock)
          (Ts.evaluate (Ts.ofMembers receipt) (Ts.ofMembers policy)
            (some (Ts.ofMembers aggregates)) budget' at' clock') →
        Agreed receipt aggregates policy) := by
  obtain ⟨pol, hpol⟩ := h.accepted
  obtain ⟨hpyRules, hreads, hfails⟩ := reads_alike hpol h.stringIds
  have hparity : ∀ r ∈ rulesOf policy, RuleParity (Prints receipt r) (PrefixesAgree receipt r)
      (pySays receipt aggregates r) (tsSays receipt aggregates r) :=
    fun r hr => rule_parity (h.rules r hr) (h.helpers r hr)
  -- a rule Python refuses, TypeScript refuses
  have hboth : ∀ pol', Ts.coercePolicy (Ts.ofMembers policy) = .ok pol' →
      List.Forall₂ (fun t r => bare t = r.toTs) pol'.rules (rulesOf policy) →
      ∀ r ∈ rulesOf policy, ¬ Succeeds (pySays receipt aggregates r) →
      Alike SameDecision
        (Py.evaluate (Py.ofMembers receipt) (.dict (Py.ofMembers policy))
          (some (Py.ofMembers aggregates)) budget at_ clock)
        (Ts.evaluate (Ts.ofMembers receipt) (Ts.ofMembers policy)
          (some (Ts.ofMembers aggregates)) budget' at' clock') := by
    intro pol' hpol' hbare r hr hraises
    have hts : ¬ Succeeds (tsSays receipt aggregates r) := by
      have hrule := hparity r hr
      obtain ⟨e, he⟩ := not_succeeds_iff.mp hraises
      rw [he] at hrule
      cases hresult : tsSays receipt aggregates r with
      | error e' => exact not_succeeds_error e'
      | ok result =>
        rw [hresult] at hrule
        cases hrule
    obtain ⟨e, he⟩ := py_evaluate_error hbudget at_ clock hpol hpyRules hr hraises
    obtain ⟨e', he'⟩ := ts_evaluate_error hbudget' at' clock' hpol' hbare hr hts
    rw [he, he']
    exact alike_error e e'
  constructor
  · rintro ⟨hversion, hrules⟩
    obtain ⟨pol', hpol', hbare⟩ := hreads hversion
    by_cases hok : ∀ r ∈ rulesOf policy, Succeeds (pySays receipt aggregates r)
    · have hrules : ∀ r ∈ rulesOf policy, Prints receipt r ∧ PrefixesAgree receipt r := by
        rcases hrules with ⟨r, hr, hraises⟩ | hrules
        · rw [← pySays_iff (h.rules r hr)] at hraises
          exact absurd (hok r hr) hraises
        · exact hrules
      have hsame : ∀ r ∈ rulesOf policy, Succeeds (tsSays receipt aggregates r)
          ∧ pyFires receipt aggregates r = tsFires receipt aggregates r := by
        intro r hr
        obtain ⟨result, hresult⟩ := hok r hr
        have hrule := hparity r hr
        unfold pyFires tsFires
        rw [hresult] at hrule ⊢
        generalize tsSays receipt aggregates r = y at hrule
        cases hrule with
        | agrees a b hfired => exact ⟨succeeds_ok b, hfired⟩
        | unprintable a e hprints => exact absurd (hrules r hr).1 hprints
        | prefixesPart a b hfired hprefixes => exact absurd (hrules r hr).2 hprefixes
      obtain ⟨D, hD, hdecision, hids⟩ := py_evaluate_ok hbudget at_ clock hpol hpyRules hok
      obtain ⟨D', hD', hdecision', hids'⟩ := ts_evaluate_ok hbudget' at' clock' hpol' hbare
        fun r hr => (hsame r hr).1
      rw [← List.filter_congr fun r hr => (hsame r hr).2] at hdecision' hids'
      rw [hD, hD']
      exact alike_ok ⟨by rw [hdecision', hdecision], _, hids, hids'⟩
    · push Not at hok
      obtain ⟨r, hr, hraises⟩ := hok
      exact hboth pol' hpol' hbare r hr hraises
  · intro hnodup hagree
    have hversion : VersionPrints policy := by
      by_contra hversion
      obtain ⟨hnone, e, he⟩ := hfails hversion
      obtain ⟨D, hD, -⟩ := @py_evaluate_ok _ receipt aggregates policy T _ _ _ _ budget
        pol hbudget at_ clock hpol hpyRules (by rw [hnone]; exact nofun)
      rw [hD, Ts.evaluate, if_neg hbudget', Ts.evaluateWithContext, he] at hagree
      exact hagree
    obtain ⟨pol', hpol', hbare⟩ := hreads hversion
    refine ⟨hversion, ?_⟩
    by_cases hok : ∀ r ∈ rulesOf policy, Succeeds (pySays receipt aggregates r)
    · refine Or.inr fun r hr => ?_
      have hokTs : ∀ r ∈ rulesOf policy, Succeeds (tsSays receipt aggregates r) := by
        by_contra hall
        push Not at hall
        obtain ⟨r, hr, hraises⟩ := hall
        obtain ⟨D, hD, -⟩ := py_evaluate_ok hbudget at_ clock hpol hpyRules hok
        obtain ⟨e, he⟩ := ts_evaluate_error hbudget' at' clock' hpol' hbare hr hraises
        rw [hD, he] at hagree
        exact hagree
      obtain ⟨D, hD, -, hids⟩ := py_evaluate_ok hbudget at_ clock hpol hpyRules hok
      obtain ⟨D', hD', -, hids'⟩ := ts_evaluate_ok hbudget' at' clock' hpol' hbare hokTs
      rw [hD, hD'] at hagree
      obtain ⟨-, ids, hpyIds, htsIds⟩ := hagree
      have hpyEq := List.map_injective_iff.mpr decode_injective (hids.symm.trans hpyIds)
      have htsEq := List.map_injective_iff.mpr (fun _ _ => Json.str.inj) (hids'.symm.trans htsIds)
      have hfires := filter_ids_inj hnodup (hpyEq.trans htsEq.symm) r hr
      obtain ⟨a, ha⟩ := hok r hr
      obtain ⟨b, hb⟩ := hokTs r hr
      have hrule := hparity r hr
      unfold pyFires tsFires at hfires
      rw [ha, hb] at hrule hfires
      cases hrule with
      | agrees _ _ _ hprints hprefixes => exact ⟨hprints, hprefixes⟩
      | prefixesPart _ _ hfired _ => exact absurd hfires hfired
    · push Not at hok
      obtain ⟨r, hr, hraises⟩ := hok
      rw [pySays_iff (h.rules r hr)] at hraises
      exact Or.inl ⟨r, hr, hraises⟩

end

end

section Sample

attribute [local instance] Ucd.allPrintable

/-- The parameters of a rule that allows one action type. -/
def listedParameters : Members := [(lit "allowed", .arr [.str (lit "llm.inference")])]

/-- A policy of one rule. -/
def listedPolicy : Members :=
  [(lit "version", .str (lit "v1")),
    (lit "rules", .arr [.obj [(lit "id", .str (lit "types")),
      (lit "type", .str (lit "action_type_allowlist")), (lit "outcome", .str (lit "deny")),
      (lit "parameters", .obj listedParameters)]])]

def listedRule : RuleDoc :=
  ⟨lit "types", .actionTypeAllowlist, .deny, listedParameters⟩

theorem rulesOf_listedPolicy : rulesOf listedPolicy = [listedRule] := by
  have hstates : States (.obj [(lit "id", .str (lit "types")),
      (lit "type", .str (lit "action_type_allowlist")), (lit "outcome", .str (lit "deny")),
      (lit "parameters", .obj listedParameters)]) listedRule :=
    ⟨_, rfl, rfl, rfl, rfl, rfl⟩
  exact read_of_states (.cons hstates .nil)

/-- The sample policy is in the domain, with any receipt of safe numbers. -/
theorem policyDomain_sample {receipt : Members} (hreceipt : ∀ m ∈ receipt, SafeDoc m.2) :
    PolicyDomain receipt [] listedPolicy where
  accepted := ⟨_, rfl⟩
  stringIds := by
    intro d hd ms hms
    obtain rfl := List.mem_singleton.mp hd
    obtain rfl := Json.obj.inj hms
    exact ⟨_, rfl⟩
  rules := by
    rw [rulesOf_listedPolicy, List.forall_mem_singleton]
    refine ⟨by decide, (by rintro ⟨⟩), ?_, hreceipt, (by simp)⟩
    rw [listedRule, listedParameters, List.forall_mem_singleton]
    simp [SafeDoc]
  helpers := by
    rw [rulesOf_listedPolicy, List.forall_mem_singleton]
    exact ⟨(by intro _ h; cases h), (by intro _ h; cases h)⟩

theorem engines_agree_sample :
    Alike SameDecision
      (Py.evaluate (Py.ofMembers [(lit "action_type", .str (lit "shell"))])
        (.dict (Py.ofMembers listedPolicy)) (some (Py.ofMembers [])) (0 : ℕ) none (Stream'.const 0))
      (Ts.evaluate (Ts.ofMembers [(lit "action_type", .str (lit "shell"))])
        (Ts.ofMembers listedPolicy) (some (Ts.ofMembers [])) (0 : ℕ) none (Stream'.const 0)) := by
  have hdomain : PolicyDomain [(lit "action_type", .str (lit "shell"))] [] listedPolicy :=
    policyDomain_sample (by rw [List.forall_mem_singleton]; simp [SafeDoc])
  refine (engines_agree_iff hdomain (by decide) (by decide) none none _ _).1 ⟨(by rintro ⟨⟩), Or.inr ?_⟩
  rw [rulesOf_listedPolicy, List.forall_mem_singleton]
  exact ⟨⟨lit "'shell'", by decide⟩, trivial⟩

/-- An action type that is an object with a member `toString`. -/
def unprintableReceipt : Members :=
  [(lit "action_type", .obj [(lit "toString", .num (.int 1))])]

/-- **The engines do not agree**: Python denies, and TypeScript throws on
the reason it is about to give. -/
theorem engines_agree_fails :
    PolicyDomain unprintableReceipt [] listedPolicy
      ∧ ¬ Alike SameDecision
        (Py.evaluate (Py.ofMembers unprintableReceipt) (.dict (Py.ofMembers listedPolicy))
          (some (Py.ofMembers [])) (0 : ℕ) none (Stream'.const 0))
        (Ts.evaluate (Ts.ofMembers unprintableReceipt) (Ts.ofMembers listedPolicy)
          (some (Ts.ofMembers [])) (0 : ℕ) none (Stream'.const 0)) := by
  refine ⟨policyDomain_sample ?_, ?_⟩
  · rw [unprintableReceipt, List.forall_mem_singleton]
    simp only [SafeDoc, every_obj, List.mem_cons, List.not_mem_nil, or_false, true_and, forall_eq,
      every_num]
    exact ⟨1, rfl, by decide⟩
  · have hts : Ts.evaluate (Ts.ofMembers unprintableReceipt) (Ts.ofMembers listedPolicy)
        (some (Ts.ofMembers [])) (0 : ℕ) none (Stream'.const 0) = .error .typeError := by
      decide
    rw [hts]
    exact id

end Sample

end Parity

end OpenTerms
