import OpenTerms.Common.Alike
import OpenTerms.Py.Policy.Spec

/-!
# Looser policies

A policy is loosened by deleting rules and by changing what rules ask for
in the direction that lets more through. Whatever a looser rule fires on,
the rule it was made from fires on too (`fires_of_loosened`); so of a
looser policy fewer rules fire, in the same order, and the decision is no
stricter.
-/

namespace OpenTerms

namespace Py

open Json

/-! ## Looser rules -/

/-- The parameters agree, but for one. -/
def AgreeBut (key : PyStr) (ps ps' : PyDict) : Prop := ∀ k ≠ key, get? k ps' = get? k ps

/-- A threshold is raised. -/
def Raised (ps ps' : PyDict) : Prop :=
  AgreeBut (lit "threshold") ps ps'
    ∧ ∃ z z' : ℤ, get? (lit "threshold") ps = some (.num (.int z))
      ∧ get? (lit "threshold") ps' = some (.num (.int z')) ∧ z ≤ z'

/-- A list is extended, in any order. -/
def Extended (key : PyStr) (ps ps' : PyDict) : Prop :=
  AgreeBut key ps ps'
    ∧ ∃ xs xs' : List PyVal, get? key ps = some (.arr xs) ∧ get? key ps' = some (.arr xs') ∧ xs ⊆ xs'

/-- The parameters of a rule of this type are loosened. -/
def Loosened (ps ps' : PyDict) : RuleType → Prop
  | .maxAmount | .dailyLimit | .escalationThreshold => Raised ps ps'
  | .actionTypeAllowlist | .urlPrefixAllowlist | .toolIdAllowlist => Extended (lit "allowed") ps ps'
  | .actionTypeDenylist | .urlPrefixDenylist => Extended (lit "denied") ps' ps
  | .argsPatternMatch =>
    let mode := (get? (lit "mode") ps).getD (.str (lit "any"))
    mode = .str (lit "any") ∧ Extended (lit "patterns") ps' ps
      ∨ mode = .str (lit "all") ∧ Extended (lit "patterns") ps ps'
  | .postStateAssertion => False

/-- One rule is another, as it is or with looser parameters. -/
def LoosenedRule (rule rule' : Rule) : Prop :=
  rule' = rule
    ∨ rule'.id = rule.id ∧ rule'.type = rule.type ∧ rule'.outcome = rule.outcome
      ∧ Loosened rule.parameters rule'.parameters rule.type

/-- A policy is another with rules deleted and rules loosened. -/
def LoosenedPolicy (pol pol' : Policy) : Prop :=
  ∃ kept, kept.Sublist pol.rules ∧ List.Forall₂ LoosenedRule kept pol'.rules

section

variable [Ucd] {rule rule' : Rule} {receipt aggregates : PyDict} {result result' : RuleResult}

/-! ## What the parameters come to -/

omit [Ucd] in
/-- A list is read where it is one of strings. -/
theorem mapM_asStr_eq_some {xs : List PyVal} {ss : List PyStr} (h : xs.mapM asStr = some ss) :
    xs = ss.map .str := by
  induction xs generalizing ss with
  | nil =>
    cases h
    rfl
  | cons x xs ih =>
    rw [List.mapM_cons] at h
    obtain ⟨s, hs, h⟩ := Option.bind_eq_some_iff.mp h
    obtain ⟨ss', hss', h⟩ := Option.bind_eq_some_iff.mp h
    cases h
    rw [ih hss', List.map_cons]
    cases x with
    | str s' =>
      cases hs
      rfl
    | _ => cases hs

theorem requireInt_eq_ok {ps : PyDict} {key id : PyStr} {z n : ℤ}
    (hget : get? key ps = some (.num (.int z))) (h : requireInt ps key id = .ok n) : n = z := by
  rw [requireInt, requireParam, hget] at h
  exact (Except.ok.inj h).symm

theorem requireList_eq_ok {ps : PyDict} {key id : PyStr} {xs : List PyVal} {ss : List PyStr}
    (hget : get? key ps = some (.arr xs)) (h : requireList ps key id = .ok ss) :
    xs = ss.map .str := by
  rw [requireList, requireParam, hget, ok_bind] at h
  split at h
  · rename_i ss' hss
    cases h
    exact mapM_asStr_eq_some hss
  · cases h

/-- Extending a list of strings. -/
theorem subset_of_extended {ps ps' : PyDict} {key id id' : PyStr} {ss ss' : List PyStr}
    (h : Extended key ps ps') (hss : requireList ps key id = .ok ss)
    (hss' : requireList ps' key id' = .ok ss') : ss ⊆ ss' := by
  obtain ⟨-, xs, xs', hxs, hxs', hsub⟩ := h
  rw [requireList_eq_ok hxs hss, requireList_eq_ok hxs' hss'] at hsub
  intro s hs
  obtain ⟨s', hs', heq⟩ := List.mem_map.mp (hsub (List.mem_map_of_mem hs))
  cases heq
  exact hs'

/-! ## What fires -/

omit [Ucd] in
theorem fired_ite {p : Prop} [Decidable p] {reason : PyStr}
    (h : (if p then .ok (fires reason) else .ok notFired : Except PyErr RuleResult) = .ok result) :
    result.fired = true ↔ p := by
  split_ifs at h with hp
  · cases h
    exact iff_of_true rfl hp
  · cases h
    exact iff_of_false Bool.false_ne_true hp

omit [Ucd] in
theorem isIn_mono {v : PyVal} {ss ss' : List PyStr} (hsub : ss ⊆ ss') (h : isIn v ss = true) :
    isIn v ss' = true := by
  obtain ⟨s, hs, heq⟩ := List.any_eq_true.mp h
  exact List.any_eq_true.mpr ⟨s, hsub hs, heq⟩

theorem evalMaxAmount_fired (h : evalMaxAmount rule receipt = .ok result) :
    ∃ threshold charged, requireInt rule.parameters (lit "threshold") rule.id = .ok threshold
      ∧ amount receipt rule.id = .ok charged ∧ (result.fired = true ↔ threshold < charged) := by
  obtain ⟨threshold, hthreshold, h⟩ := bind_eq_ok_iff.mp h
  obtain ⟨charged, hcharged, h⟩ := bind_eq_ok_iff.mp h
  exact ⟨threshold, charged, hthreshold, hcharged, fired_ite h⟩

theorem evalDailyLimit_fired (h : evalDailyLimit rule receipt aggregates = .ok result) :
    ∃ threshold prior charged,
      requireInt rule.parameters (lit "threshold") rule.id = .ok threshold
      ∧ asInt ((get? rule.id aggregates).getD (.num (.int 0))) = some prior
      ∧ amount receipt rule.id = .ok charged ∧ (result.fired = true ↔ threshold < prior + charged) := by
  obtain ⟨threshold, hthreshold, h⟩ := bind_eq_ok_iff.mp h
  obtain ⟨-, -, h⟩ := bind_eq_ok_iff.mp h
  split at h
  · cases h
  · rename_i prior hprior
    obtain ⟨charged, hcharged, h⟩ := bind_eq_ok_iff.mp h
    exact ⟨threshold, prior, charged, hthreshold, hprior, hcharged, fired_ite h⟩

theorem evalEscalationThreshold_fired (h : evalEscalationThreshold rule receipt = .ok result) :
    ∃ threshold charged, requireInt rule.parameters (lit "threshold") rule.id = .ok threshold
      ∧ amount receipt rule.id = .ok charged ∧ (result.fired = true ↔ threshold ≤ charged) := by
  obtain ⟨threshold, hthreshold, h⟩ := bind_eq_ok_iff.mp h
  obtain ⟨charged, hcharged, h⟩ := bind_eq_ok_iff.mp h
  exact ⟨threshold, charged, hthreshold, hcharged, fired_ite h⟩

theorem evalActionTypeAllowlist_fired (h : evalActionTypeAllowlist rule receipt = .ok result) :
    ∃ allowed, requireList rule.parameters (lit "allowed") rule.id = .ok allowed
      ∧ (result.fired = true ↔ (!isIn (getD (lit "action_type") receipt) allowed) = true) := by
  obtain ⟨allowed, hallowed, h⟩ := bind_eq_ok_iff.mp h
  exact ⟨allowed, hallowed, fired_ite h⟩

theorem evalActionTypeDenylist_fired (h : evalActionTypeDenylist rule receipt = .ok result) :
    ∃ denied, requireList rule.parameters (lit "denied") rule.id = .ok denied
      ∧ (result.fired = true ↔ isIn (getD (lit "action_type") receipt) denied = true) := by
  obtain ⟨denied, hdenied, h⟩ := bind_eq_ok_iff.mp h
  exact ⟨denied, hdenied, fired_ite h⟩

theorem evalUrlPrefixAllowlist_fired (h : evalUrlPrefixAllowlist rule receipt = .ok result) :
    ∃ allowed source, requireList rule.parameters (lit "allowed") rule.id = .ok allowed
      ∧ urlSource rule receipt = .ok source
      ∧ (result.fired = true ↔ (!allowed.any (·.isPrefixOf ((asStr source.2).getD []))) = true) := by
  obtain ⟨allowed, hallowed, h⟩ := bind_eq_ok_iff.mp h
  obtain ⟨source, hsource, h⟩ := bind_eq_ok_iff.mp h
  exact ⟨allowed, source, hallowed, hsource, fired_ite h⟩

theorem evalUrlPrefixDenylist_fired (h : evalUrlPrefixDenylist rule receipt = .ok result) :
    ∃ denied source, requireList rule.parameters (lit "denied") rule.id = .ok denied
      ∧ urlSource rule receipt = .ok source
      ∧ (result.fired = true ↔ ∃ p ∈ denied, p.isPrefixOf ((asStr source.2).getD []) = true) := by
  obtain ⟨denied, hdenied, h⟩ := bind_eq_ok_iff.mp h
  obtain ⟨source, hsource, h⟩ := bind_eq_ok_iff.mp h
  refine ⟨denied, source, hdenied, hsource, ?_⟩
  dsimp only at h
  split at h
  · rename_i p hfind
    cases h
    have hmatch := @List.find?_some _ (fun q => List.isPrefixOf q ((asStr source.2).getD [])) _ _ hfind
    exact iff_of_true rfl ⟨p, List.mem_of_find?_eq_some hfind, hmatch⟩
  · rename_i hfind
    cases h
    refine iff_of_false Bool.false_ne_true ?_
    rintro ⟨p, hp, hmatch⟩
    exact List.find?_eq_none.mp hfind p hp hmatch

theorem evalToolIdAllowlist_fired (h : evalToolIdAllowlist rule receipt = .ok result) :
    ∃ allowed, requireList rule.parameters (lit "allowed") rule.id = .ok allowed
      ∧ (result.fired = true ↔ resolvePath receipt toolIdPath = .null
        ∨ (!isIn (resolvePath receipt toolIdPath) allowed) = true) := by
  obtain ⟨allowed, hallowed, h⟩ := bind_eq_ok_iff.mp h
  refine ⟨allowed, hallowed, ?_⟩
  dsimp only at h
  by_cases hnull : resolvePath receipt toolIdPath = .null
  · rw [if_pos hnull] at h
    cases h
    exact iff_of_true rfl (.inl hnull)
  · rw [if_neg hnull] at h
    rw [fired_ite h, or_iff_right hnull]

/-! ### Patterns -/

/-- The pattern matches. -/
def Hits (rule : Rule) (receipt : PyDict) (pat : PyVal) : Prop :=
  ∃ hit, matchPattern rule receipt pat = .ok (some hit)

theorem hits_iff {pats : List PyVal} {hits : List (PyStr × PyStr)}
    (h : matchingPatterns rule receipt pats = .ok hits) :
    hits.length ≤ pats.length ∧ (hits ≠ [] ↔ ∃ pat ∈ pats, Hits rule receipt pat)
      ∧ (hits.length = pats.length ↔ ∀ pat ∈ pats, Hits rule receipt pat) := by
  induction pats generalizing hits with
  | nil =>
    cases h
    simp
  | cons pat pats ih =>
    obtain ⟨hit, hhit, h⟩ := bind_eq_ok_iff.mp h
    obtain ⟨rest, hrest, h⟩ := bind_eq_ok_iff.mp h
    cases h
    obtain ⟨hle, hany, hall⟩ := ih hrest
    cases hit with
    | none =>
      have hno : ¬ Hits rule receipt pat := by
        rintro ⟨hit, hsome⟩
        cases hhit.symm.trans hsome
      have hlt : rest.length ≠ (pat :: pats).length := by
        rw [List.length_cons]
        omega
      refine ⟨hle.trans (Nat.le_succ _), ?_, iff_of_false hlt fun hall => ?_⟩
      · rw [Option.toList_none, List.nil_append, hany, List.exists_mem_cons_iff, or_iff_right hno]
      · exact hno (hall pat List.mem_cons_self)
    | some p =>
      have hyes : Hits rule receipt pat := ⟨p, hhit⟩
      refine ⟨Nat.succ_le_succ hle, iff_of_true (List.cons_ne_nil _ _) ⟨pat, List.mem_cons_self, hyes⟩,
        ?_⟩
      rw [List.forall_mem_cons, and_iff_right hyes, ← hall, Option.toList_some,
        List.singleton_append, List.length_cons, List.length_cons, Nat.add_right_cancel_iff]

theorem patternResult_fired {pats : List PyVal} (hpats : pats ≠ []) (mode : MatchMode)
    {hits : List (PyStr × PyStr)} (h : matchingPatterns rule receipt pats = .ok hits) :
    (patternResult pats mode hits).fired = true ↔ match mode with
      | .any => ∃ pat ∈ pats, Hits rule receipt pat
      | .all => ∀ pat ∈ pats, Hits rule receipt pat := by
  obtain ⟨-, hany, hall⟩ := hits_iff h
  have hlength : pats.length ≠ 0 := fun h0 => hpats (List.eq_nil_of_length_eq_zero h0)
  unfold patternResult
  cases hits with
  | nil =>
    cases mode with
    | any => exact iff_of_false Bool.false_ne_true fun hex => hany.mpr hex rfl
    | all =>
      refine iff_of_false (fun hfired => ?_) fun hex => hlength (hall.mpr hex).symm
      split at hfired <;> simp_all [notFired]
  | cons hit hits =>
    cases mode with
    | any => exact iff_of_true rfl (hany.mp (List.cons_ne_nil _ _))
    | all =>
      dsimp only
      rw [← hall]
      by_cases hlen : (hit :: hits).length = pats.length
      · rw [decide_eq_true hlen]
        exact iff_of_true rfl hlen
      · rw [decide_eq_false hlen]
        exact iff_of_false Bool.false_ne_true hlen

theorem patternParams_eq_ok {pats : List PyVal} {mode : MatchMode}
    (h : patternParams rule = .ok (pats, mode)) :
    get? (lit "patterns") rule.parameters = some (.arr pats) ∧ pats ≠ []
      ∧ oneOf MatchMode.text [.any, .all]
        ((get? (lit "mode") rule.parameters).getD (.str (lit "any"))) = some mode := by
  unfold patternParams at h
  split at h
  · rename_i pat pats' hget
    dsimp only at h
    split at h
    · rename_i m hmode
      cases h
      refine ⟨?_, List.cons_ne_nil _ _, hmode⟩
      unfold getD at hget
      cases hsome : get? (lit "patterns") rule.parameters with
      | none =>
        rw [hsome] at hget
        cases hget
      | some v =>
        rw [hsome] at hget
        exact congrArg some hget
    · cases h
  · cases h

theorem argsPatternMatch_fired (h : argsPatternMatch rule receipt = .ok result) :
    ∃ pats mode, patternParams rule = .ok (pats, mode)
      ∧ (result.fired = true ↔ match mode with
        | .any => ∃ pat ∈ pats, Hits rule receipt pat
        | .all => ∀ pat ∈ pats, Hits rule receipt pat) := by
  obtain ⟨⟨pats, mode⟩, hparams, h⟩ := bind_eq_ok_iff.mp h
  obtain ⟨hits, hhits, h⟩ := bind_eq_ok_iff.mp h
  cases h
  exact ⟨pats, mode, hparams, patternResult_fired (patternParams_eq_ok hparams).2.1 mode hhits⟩

/-! ## Firing less -/

/-- A looser rule of patterns fires on less. -/
theorem patterns_fires_of_loosened (hid : rule'.id = rule.id)
    (hloose : Loosened rule.parameters rule'.parameters .argsPatternMatch)
    (h : argsPatternMatch rule receipt = .ok result)
    (h' : argsPatternMatch rule' receipt = .ok result') (hfired : result'.fired = true) :
    result.fired = true := by
  have hhits (pat : PyVal) : Hits rule' receipt pat ↔ Hits rule receipt pat := by
    unfold Hits matchPattern
    rw [hid]
  obtain ⟨pats, mode, hparams, hiff⟩ := argsPatternMatch_fired h
  obtain ⟨pats', mode', hparams', hiff'⟩ := argsPatternMatch_fired h'
  obtain ⟨hget, -, hmode⟩ := patternParams_eq_ok hparams
  obtain ⟨hget', -, hmode'⟩ := patternParams_eq_ok hparams'
  rw [hiff'] at hfired
  rw [hiff]
  have hne : (lit "mode" : PyStr) ≠ lit "patterns" := by decide
  -- the mode is the same, and what is asked of more or fewer patterns
  rcases hloose with ⟨hval, hagree, xs', xs, hxs', hxs, hsub⟩ | ⟨hval, hagree, xs, xs', hxs, hxs', hsub⟩
  · rw [hval] at hmode
    rw [← hagree _ hne, hval] at hmode'
    have hany : oneOf MatchMode.text [.any, .all] (.str (lit "any")) = some .any := by decide
    cases hany.symm.trans hmode
    cases hany.symm.trans hmode'
    cases hget.symm.trans hxs
    cases hget'.symm.trans hxs'
    obtain ⟨pat, hpat, hit⟩ := hfired
    exact ⟨pat, hsub hpat, (hhits pat).mp hit⟩
  · rw [hval] at hmode
    rw [hagree _ hne, hval] at hmode'
    have hall : oneOf MatchMode.text [.any, .all] (.str (lit "all")) = some .all := by decide
    cases hall.symm.trans hmode
    cases hall.symm.trans hmode'
    cases hget.symm.trans hxs
    cases hget'.symm.trans hxs'
    exact fun pat hpat => (hhits pat).mp (hfired pat (hsub hpat))

/-- A source field that is not what is changed. -/
theorem urlSource_of_agree {key : PyStr} (hid : rule'.id = rule.id)
    (h : AgreeBut key rule.parameters rule'.parameters) (hkey : lit "source_field" ≠ key) :
    urlSource rule' receipt = urlSource rule receipt := by
  unfold urlSource
  rw [h _ hkey, hid]

/-- **A looser rule fires on less.** -/
theorem fires_of_loosened (hid : rule'.id = rule.id) (htype : rule'.type = rule.type)
    (hloose : Loosened rule.parameters rule'.parameters rule.type)
    (h : ruleSays rule receipt aggregates = .ok result)
    (h' : ruleSays rule' receipt aggregates = .ok result') (hfired : result'.fired = true) :
    result.fired = true := by
  unfold ruleSays at h h'
  rw [htype] at h'
  revert hloose h h'
  cases rule.type with
  | maxAmount =>
    rintro ⟨-, z, z', hz, hz', hle⟩ h h'
    obtain ⟨t, charged, ht, hcharged, hiff⟩ := evalMaxAmount_fired h
    obtain ⟨t', charged', ht', hcharged', hiff'⟩ := evalMaxAmount_fired h'
    rw [hid] at hcharged'
    cases hcharged.symm.trans hcharged'
    rw [requireInt_eq_ok hz ht] at hiff
    rw [requireInt_eq_ok hz' ht'] at hiff'
    have hlt := hiff'.mp hfired
    exact hiff.mpr (by omega)
  | dailyLimit =>
    rintro ⟨-, z, z', hz, hz', hle⟩ h h'
    obtain ⟨t, prior, charged, ht, hprior, hcharged, hiff⟩ := evalDailyLimit_fired h
    obtain ⟨t', prior', charged', ht', hprior', hcharged', hiff'⟩ := evalDailyLimit_fired h'
    rw [hid] at hcharged'
    cases hcharged.symm.trans hcharged'
    rw [hid] at hprior'
    cases hprior.symm.trans hprior'
    rw [requireInt_eq_ok hz ht] at hiff
    rw [requireInt_eq_ok hz' ht'] at hiff'
    have hlt := hiff'.mp hfired
    exact hiff.mpr (by omega)
  | escalationThreshold =>
    rintro ⟨-, z, z', hz, hz', hle⟩ h h'
    obtain ⟨t, charged, ht, hcharged, hiff⟩ := evalEscalationThreshold_fired h
    obtain ⟨t', charged', ht', hcharged', hiff'⟩ := evalEscalationThreshold_fired h'
    rw [hid] at hcharged'
    cases hcharged.symm.trans hcharged'
    rw [requireInt_eq_ok hz ht] at hiff
    rw [requireInt_eq_ok hz' ht'] at hiff'
    have hle' := hiff'.mp hfired
    exact hiff.mpr (by omega)
  | actionTypeAllowlist =>
    intro hloose h h'
    obtain ⟨allowed, hallowed, hiff⟩ := evalActionTypeAllowlist_fired h
    obtain ⟨allowed', hallowed', hiff'⟩ := evalActionTypeAllowlist_fired h'
    rw [Bool.not_eq_true'] at hiff hiff'
    have hsub := subset_of_extended hloose hallowed hallowed'
    refine hiff.mpr (Bool.eq_false_iff.mpr fun hin => ?_)
    rw [isIn_mono hsub hin] at hiff'
    cases hiff'.mp hfired
  | toolIdAllowlist =>
    intro hloose h h'
    obtain ⟨allowed, hallowed, hiff⟩ := evalToolIdAllowlist_fired h
    obtain ⟨allowed', hallowed', hiff'⟩ := evalToolIdAllowlist_fired h'
    rw [Bool.not_eq_true'] at hiff hiff'
    have hsub := subset_of_extended hloose hallowed hallowed'
    refine hiff.mpr ((hiff'.mp hfired).imp_right fun hout => Bool.eq_false_iff.mpr fun hin => ?_)
    rw [isIn_mono hsub hin] at hout
    cases hout
  | actionTypeDenylist =>
    intro hloose h h'
    obtain ⟨denied, hdenied, hiff⟩ := evalActionTypeDenylist_fired h
    obtain ⟨denied', hdenied', hiff'⟩ := evalActionTypeDenylist_fired h'
    exact hiff.mpr (isIn_mono (subset_of_extended hloose hdenied' hdenied) (hiff'.mp hfired))
  | urlPrefixAllowlist =>
    intro hloose h h'
    obtain ⟨allowed, source, hallowed, hsource, hiff⟩ := evalUrlPrefixAllowlist_fired h
    obtain ⟨allowed', source', hallowed', hsource', hiff'⟩ := evalUrlPrefixAllowlist_fired h'
    have hsame := (urlSource_of_agree hid hloose.1 (by decide)).symm.trans hsource'
    cases hsource.symm.trans hsame
    rw [Bool.not_eq_true', List.any_eq_false] at hiff hiff'
    have hsub := subset_of_extended hloose hallowed hallowed'
    exact hiff.mpr fun p hp => hiff'.mp hfired p (hsub hp)
  | urlPrefixDenylist =>
    intro hloose h h'
    obtain ⟨denied, source, hdenied, hsource, hiff⟩ := evalUrlPrefixDenylist_fired h
    obtain ⟨denied', source', hdenied', hsource', hiff'⟩ := evalUrlPrefixDenylist_fired h'
    have hagree : AgreeBut (lit "denied") rule.parameters rule'.parameters := fun k hk => (hloose.1 k hk).symm
    have hsame := (urlSource_of_agree hid hagree (by decide)).symm.trans hsource'
    cases hsource.symm.trans hsame
    obtain ⟨p, hp, hmatch⟩ := hiff'.mp hfired
    exact hiff.mpr ⟨p, subset_of_extended hloose hdenied' hdenied hp, hmatch⟩
  | argsPatternMatch => exact fun hloose h h' => patterns_fires_of_loosened hid hloose h h' hfired
  | postStateAssertion => exact fun hloose => hloose.elim

/-! ## The policy -/

/-- Who fires, to what effect. -/
def effect (e : Entry PyStr PyStr DecisionOutcome) : PyStr × DecisionOutcome := (e.id, e.outcome)

/-- What a looser rule records, the rule it was made from does too. -/
theorem effect_of_loosened (hloose : LoosenedRule rule rule')
    (hreturns : Trail.Returns (firing receipt aggregates) rule) (y : PyStr × DecisionOutcome)
    (h : (Trail.recorded (firing receipt aggregates) rule').map effect = some y) :
    (Trail.recorded (firing receipt aggregates) rule).map effect = some y := by
  rcases hloose with rfl | ⟨hid, htype, houtcome, hloose⟩
  · exact h
  · obtain ⟨entry, hentry⟩ := hreturns
    obtain ⟨result, hsays, hrecord⟩ := bind_eq_ok_iff.mp hentry
    obtain ⟨entry', hentry', rfl⟩ := Option.map_eq_some_iff.mp h
    unfold Trail.recorded at hentry'
    split at hentry'
    · rename_i e' he'
      obtain ⟨result', hsays', hrecord'⟩ := bind_eq_ok_iff.mp he'
      cases hrecord'
      unfold record at hentry'
      split_ifs at hentry' with hfired
      cases hentry'
      have hfires := fires_of_loosened hid htype hloose hsays hsays' hfired
      have hrecorded : Trail.recorded (firing receipt aggregates) rule
          = some ⟨rule.id, result.reason, rule.outcome⟩ := by
        rw [Trail.recorded, firing, hsays, ok_bind, record, if_pos hfires]
      rw [hrecorded, Option.map_some, effect, effect, hid, houtcome]
    · cases hentry'

/-- So do the rules of a looser policy. -/
theorem effects_sublist {pol pol' : Policy} (hloose : LoosenedPolicy pol pol')
    (hreturns : ∀ rule ∈ pol.rules, Trail.Returns (firing receipt aggregates) rule) :
    ((Trail.entries (firing receipt aggregates) pol'.rules).map effect).Sublist
      ((Trail.entries (firing receipt aggregates) pol.rules).map effect) := by
  obtain ⟨kept, hkept, hrules⟩ := hloose
  have hkeptReturns : ∀ rule ∈ kept, Trail.Returns (firing receipt aggregates) rule :=
    fun rule hrule => hreturns rule (hkept.subset hrule)
  unfold Trail.entries
  rw [List.map_filterMap, List.map_filterMap]
  refine List.Sublist.trans (filterMap_sublist_of_forall₂ ?_) (hkept.filterMap _)
  rw [List.forall₂_iff_get] at hrules ⊢
  obtain ⟨hlength, hget⟩ := hrules
  refine ⟨hlength, fun i hi hi' => ?_⟩
  exact effect_of_loosened (hget i hi hi') (hkeptReturns _ (List.get_mem _ _))

end

section

variable [Ucd] {T : Type} [LT T] [DecidableLT T] {receipt : PyDict} {ctx : EvalContext T}
variable {policy policy' : PolicyInput} {pol pol' : Policy} {clock clock' : Stream' T}
variable {D D' : Decision}

/-- **A looser policy is never stricter.** -/
theorem loosening (hpol : coercePolicy policy = .ok pol) (hpol' : coercePolicy policy' = .ok pol')
    (hloose : LoosenedPolicy pol pol') (hctx : ctx.deadlineMonotonic = none)
    (h : evaluateWithContext receipt policy ctx clock = .ok D)
    (h' : evaluateWithContext receipt policy' ctx clock' = .ok D') :
    D'.triggeredRules.Sublist D.triggeredRules ∧ D'.decision ≤ D.decision := by
  have hreturns := returns_of_evaluate hpol hctx h
  have hreturns' := returns_of_evaluate hpol' hctx h'
  cases h.symm.trans (evaluateWithContext_ok hpol hctx hreturns clock)
  cases h'.symm.trans (evaluateWithContext_ok hpol' hctx hreturns' clock')
  have hsub := effects_sublist hloose hreturns
  refine ⟨?_, strictest_mono fun o ho => ?_⟩
  · have hids := hsub.map Prod.fst
    rwa [List.map_map, List.map_map] at hids
  · have houtcomes := (hsub.map Prod.snd).subset
    rw [List.map_map, List.map_map] at houtcomes
    exact houtcomes ho

end

section Sample

attribute [local instance] Ucd.allPrintable

/-- The sample policy without its first rule, and with the last threshold
raised. -/
def loosenedSample : Policy :=
  { version := lit "v2",
    rules := [sampleRule (lit "small") .maxAmount .deny 900,
      sampleRule (lit "cap") .maxAmount .deny 600] }

theorem loosenedPolicy_sample : LoosenedPolicy samplePolicy loosenedSample := by
  refine ⟨_, List.Sublist.cons _ (List.Sublist.refl _), .cons (.inl rfl) (.cons (.inr ?_) .nil)⟩
  refine ⟨rfl, rfl, rfl, fun k hk => ?_, 200, 600, rfl, rfl, by omega⟩
  rw [sampleRule, sampleRule, get?_cons, get?_cons, if_neg (Ne.symm hk), if_neg (Ne.symm hk)]

theorem loosening_sample :
    ∃ D D', evaluateWithContext [(lit "amount_charged", .num (.int 500))] (.policy samplePolicy)
        (⟨[], none, none⟩ : EvalContext ℕ) (Stream'.const 0) = .ok D
      ∧ evaluateWithContext [(lit "amount_charged", .num (.int 500))] (.policy loosenedSample)
        (⟨[], none, none⟩ : EvalContext ℕ) (Stream'.const 0) = .ok D'
      ∧ D'.triggeredRules.Sublist D.triggeredRules ∧ D'.decision ≤ D.decision
      ∧ D.decision = .deny ∧ D'.decision = .allow := by
  have h : ∃ D, evaluateWithContext [(lit "amount_charged", .num (.int 500))] (.policy samplePolicy)
      (⟨[], none, none⟩ : EvalContext ℕ) (Stream'.const 0) = .ok D ∧ D.decision = .deny :=
    ⟨_, rfl, by decide⟩
  have h' : ∃ D, evaluateWithContext [(lit "amount_charged", .num (.int 500))]
      (.policy loosenedSample) (⟨[], none, none⟩ : EvalContext ℕ) (Stream'.const 0) = .ok D
      ∧ D.decision = .allow := ⟨_, rfl, by decide⟩
  obtain ⟨D, hD, hdeny⟩ := h
  obtain ⟨D', hD', hallow⟩ := h'
  obtain ⟨hsub, hle⟩ := loosening rfl rfl loosenedPolicy_sample rfl hD hD'
  exact ⟨D, D', hD, hD', hsub, hle, hdeny, hallow⟩

end Sample

end Py

end OpenTerms
