import OpenTerms.Common.Lockstep
import OpenTerms.Parity.PolicyEngine

/-!
# The two engines under one deadline

Both loops check the deadline before each rule and before each pattern of
a rule, and nowhere else. So under one clock and one budget the engines
are in lockstep: where they agree without a deadline they agree with one,
whatever the clock shows, and a run that is cut short is cut short at the
same rule in both (`engines_lockstep`). What a run cut at a rule comes to
and what one cut nowhere does is said of each engine, in
`Py.evaluate_of_cutAt` and `Py.evaluate_of_not_cut` and under the same
names for TypeScript.
-/

namespace OpenTerms

namespace Parity

open Json Utf16

section

variable [Ucd] {T : Type} [LT T] [DecidableLT T] {receipt aggregates : Members} {r : RuleDoc}
  {t : Ts.Rule} {pctx : Py.EvalContext T} {tctx : Ts.EvalContext T}

/-- The two contexts of one evaluation. -/
structure SameContext (aggregates : Members) (pctx : Py.EvalContext T) (tctx : Ts.EvalContext T) :
    Prop where
  deadline : tctx.deadlineMonotonic = pctx.deadlineMonotonic
  py : pctx.aggregates = Py.ofMembers aggregates
  ts : tctx.aggregates = Ts.ofMembers aggregates

/-- The relation of two results of a rule. -/
def SameFired (a : Py.RuleResult) (b : Ts.RuleResult) : Prop := a.fired = b.fired

omit [Ucd] in
theorem RuleParity.alike {prints prefixes : Prop} {x : Except Py.PyErr Py.RuleResult}
    {y : Except Ts.TsErr Ts.RuleResult} (h : RuleParity prints prefixes x y) (hprints : prints)
    (hprefixes : prefixes) : Alike SameFired x y := by
  cases h with
  | raises e e' => exact alike_error e e'
  | agrees a b hfired => exact alike_ok hfired
  | unprintable a e h => exact absurd hprints h
  | prefixesPart a b hfired h => exact absurd hprefixes h

/-- An error that names its rule is no timeout. -/
theorem notTimeout_of_namesRule {id : PyStr} (e : Py.PyErr) (h : Py.NamesRule id e) :
    e ≠ .policyTimeout := by
  obtain ⟨text, rfl⟩ := h
  intro heq
  cases heq

/-- The loops over the patterns. -/
theorem lockstep_matchPatterns (hctx : SameContext aggregates pctx tctx) (hbare : bare t = r.toTs)
    (hagree : HelpersAgree receipt r) {ps : List Doc} (hps : ∀ d ∈ ps, d ∈ r.patterns) :
    Timed.Lockstep .policyTimeout .policyTimeoutError (fun as bs => as.length = bs.length)
      (Py.matchPatterns r.toPy (Py.ofMembers receipt) pctx (ps.map Py.ofDoc))
      (Ts.matchPatterns t (Ts.ofMembers receipt) tctx (ps.map Ts.ofDoc)) := by
  induction ps with
  | nil => exact Timed.lockstep_pure rfl
  | cons d ps ih =>
    rw [List.forall_mem_cons] at hps
    have hpattern : Ts.matchPattern t (Ts.ofMembers receipt) (Ts.ofDoc d)
        = Ts.matchPattern r.toTs (Ts.ofMembers receipt) (Ts.ofDoc d) := by
      rw [← hbare]
      cases Ts.ofDoc d <;> rfl
    rw [List.map_cons, List.map_cons, Py.matchPatterns, Ts.matchPatterns, hctx.deadline, hpattern]
    refine (Timed.lockstep_check _ _ _).bind fun _ _ _ => ?_
    refine (Timed.lockstep_lift (alike_matchPattern hagree hps.1) ?_ ?_).bind fun a b hab => ?_
    · exact (Py.raises_matchPattern _ _ _).imp notTimeout_of_namesRule
    · exact Ts.raises_matchPattern _ _ _
    · refine (ih hps.2).bind fun as bs hlen => Timed.lockstep_pure ?_
      rw [List.length_append, List.length_append, hlen]
      cases a <;> cases b <;> first | rfl | cases hab

/-- **One rule in both engines, under one clock.** -/
theorem lockstep_applyRule (hctx : SameContext aggregates pctx tctx) (hbare : bare t = r.toTs)
    (h : InDomain receipt aggregates r) (hagree : HelpersAgree receipt r)
    (hprints : Prints receipt r) (hprefixes : PrefixesAgree receipt r) :
    Timed.Lockstep .policyTimeout .policyTimeoutError SameFired
      (Py.applyRule r.toPy (Py.ofMembers receipt) pctx)
      (Ts.applyRule t (Ts.ofMembers receipt) tctx) := by
  have htype : t.type = .str (lit r.type.text) := congrArg Ts.Rule.type hbare
  have hkey : Ts.toStr (.str (lit r.type.text)) = .ok (lit r.type.text) := by rw [Ts.toStr]
  have happly : Ts.applyRule t (Ts.ofMembers receipt) tctx
      = Ts.evaluator r.type t (Ts.ofMembers receipt) tctx := by
    unfold Ts.applyRule
    rw [htype, hkey]
    funext clock
    have hbind (f : JsStr → Timed T Ts.TsErr Ts.RuleResult) :
        ((liftM (.ok (lit r.type.text) : Except Ts.TsErr JsStr) : Timed T Ts.TsErr JsStr) >>= f)
          = f (lit r.type.text) := rfl
    rw [hbind, find?_ruleType]
  rw [happly]
  -- only the patterns look at the clock again
  by_cases hargs : r.type = .argsPatternMatch
  · have hpy : Py.applyRule r.toPy (Py.ofMembers receipt) pctx
        = Py.evalArgsPatternMatch r.toPy (Py.ofMembers receipt) pctx := by
      unfold Py.applyRule
      have htoPy : r.toPy.type = r.type := rfl
      rw [htoPy, hargs]
    have hparams : Ts.patternParams t = Ts.patternParams r.toTs := by
      rw [← hbare]
      rfl
    rw [hpy, hargs, Ts.evaluator, Ts.evalArgsPatternMatch, Py.evalArgsPatternMatch, hparams]
    refine (Timed.lockstep_lift (alike_patternParams h hargs) ?_ ?_).bind fun a b hab => ?_
    · exact (Py.raises_patternParams _).imp notTimeout_of_namesRule
    · exact Ts.raises_patternParams _
    · obtain ⟨ps, m, hpatterns, rfl, rfl⟩ := hab
      have hmem : ∀ d ∈ ps, d ∈ r.patterns := fun d hd => by rwa [hpatterns]
      refine (lockstep_matchPatterns hctx hbare hagree hmem).bind fun as bs hlen => ?_
      refine Timed.lockstep_pure ?_
      unfold SameFired
      rw [py_patternResult, ts_patternResult, hlen, List.length_map, List.length_map]
  · have hpy : Py.applyRule r.toPy (Py.ofMembers receipt) pctx
        = liftM (Py.ruleSays r.toPy (Py.ofMembers receipt) pctx.aggregates) := by
      unfold Py.applyRule Py.ruleSays
      have htoPy : r.toPy.type = r.type := rfl
      rw [htoPy]
      cases hcase : r.type
      case argsPatternMatch => exact absurd hcase hargs
      all_goals rfl
    have hts : Ts.evaluator r.type t (Ts.ofMembers receipt) tctx
        = liftM (Ts.typeSays r.type r.toTs (Ts.ofMembers receipt) tctx.aggregates) := by
      rw [← hbare, typeSays_bare]
      unfold Ts.evaluator Ts.typeSays
      cases hcase : r.type
      case argsPatternMatch => exact absurd hcase hargs
      all_goals rfl
    rw [hpy, hts, hctx.py, hctx.ts]
    refine Timed.lockstep_lift ((rule_parity h hagree).alike hprints hprefixes) ?_ ?_
    · exact (Py.raises_ruleSays _ _ _).imp notTimeout_of_namesRule
    · exact Ts.raises_typeSays _ _ _ _

/-- One record in both engines. -/
structure SameEntry (e : Entry PyStr PyStr DecisionOutcome) (f : Entry Ts.JsVal Ts.JsAny Ts.JsVal) :
    Prop where
  id : ∃ us : JsStr, e.id = decode us ∧ f.id = .str us
  outcome : f.outcome = .str (lit e.outcome.text)

theorem lockstep_visit (hctx : SameContext aggregates pctx tctx) (hbare : bare t = r.toTs)
    (h : InDomain receipt aggregates r) (hagree : HelpersAgree receipt r)
    (hprints : Prints receipt r) (hprefixes : PrefixesAgree receipt r) :
    Timed.Lockstep .policyTimeout .policyTimeoutError (Option.Rel SameEntry)
      (Py.visit (Py.ofMembers receipt) pctx r.toPy) (Ts.visit (Ts.ofMembers receipt) tctx t) := by
  unfold Py.visit Ts.visit
  rw [hctx.deadline]
  refine (Timed.lockstep_check _ _ _).bind fun _ _ _ => ?_
  refine (lockstep_applyRule hctx hbare h hagree hprints hprefixes).bind fun a b hab => ?_
  refine Timed.lockstep_pure ?_
  have hid : t.id = .str r.id := congrArg Ts.Rule.id hbare
  have houtcome : t.outcome = .str (lit r.outcome.text) := congrArg Ts.Rule.outcome hbare
  unfold SameFired at hab
  unfold Py.record Ts.record
  rw [hab]
  by_cases hfired : b.fired
  · rw [if_pos hfired, if_pos hfired]
    exact .some ⟨⟨r.id, rfl, hid⟩, houtcome⟩
  · rw [if_neg hfired, if_neg hfired]
    exact .none

/-! ## The engines -/

/-- One run in both engines: the same decision on the same rules, and the
same number of reasons. -/
structure SameRun (D : Py.Decision) (D' : Ts.Decision) : Prop where
  decision : SameDecision D D'
  reasons : D.reasons.length = D'.reasons.length

omit [Ucd] in
theorem ids_of_entries {es : List (Entry PyStr PyStr DecisionOutcome)}
    {fs : List (Entry Ts.JsVal Ts.JsAny Ts.JsVal)} (h : List.Forall₂ SameEntry es fs) :
    ∃ ids : List JsStr, es.map Entry.id = ids.map decode ∧ fs.map Entry.id = ids.map .str := by
  induction h with
  | nil => exact ⟨[], rfl, rfl⟩
  | cons hef _ ih =>
    obtain ⟨us, he, hf⟩ := hef.id
    obtain ⟨ids, hes, hfs⟩ := ih
    exact ⟨us :: ids, by rw [List.map_cons, List.map_cons, he, hes],
      by rw [List.map_cons, List.map_cons, hf, hfs]⟩

omit [Ucd] in
theorem outcomes_of_entries {es : List (Entry PyStr PyStr DecisionOutcome)}
    {fs : List (Entry Ts.JsVal Ts.JsAny Ts.JsVal)} (h : List.Forall₂ SameEntry es fs) :
    fs.map Entry.outcome = (es.map Entry.outcome).map fun o => .str (lit o.text) := by
  induction h with
  | nil => rfl
  | cons hef _ ih => rw [List.map_cons, List.map_cons, List.map_cons, hef.outcome, ih]

omit [Ucd] in
/-- What the engines make of two loops that ended the same way. -/
theorem alike_conclude {es : List (Entry PyStr PyStr DecisionOutcome)}
    {fs : List (Entry Ts.JsVal Ts.JsAny Ts.JsVal)} (h : List.Forall₂ SameEntry es fs)
    {x : Except Py.PyErr Unit} {y : Except Ts.TsErr Unit}
    (hends : Trail.Ends .policyTimeout .policyTimeoutError x y) (R : Py.PyDict) (R' : Ts.JsObject)
    (pol : Py.Policy) (pol' : Ts.Policy) (at_ : Option PyStr) (at' : Option JsStr) :
    Alike SameRun (Py.conclude R pol at_ (Trail.ofEntries es, x))
      (Ts.conclude R' pol' at' (Trail.ofEntries fs, y)) := by
  have hids := ids_of_entries h
  have hlen : es.length = fs.length := h.length_eq
  cases hends with
  | through =>
    have hts : Ts.conclude R' pol' at' (Trail.ofEntries fs, .ok ())
        = Ts.decisionOf R' pol' at' fs := rfl
    rw [Py.conclude_ok, hts, Ts.decisionOf, outcomes_of_entries h, finalDecision_text, ok_bind]
    refine alike_ok ⟨⟨rfl, hids⟩, ?_⟩
    simp [Py.decisionOf, hlen]
  | timesOut =>
    refine alike_ok ⟨⟨rfl, hids⟩, ?_⟩
    simp [Trail.ofEntries, hlen]
  | raises e e' he he' =>
    rw [Py.conclude_error he, Ts.conclude_error he']
    exact alike_error e e'

end

section

variable [Ucd] {T : Type} [LT T] [DecidableLT T] [Zero T] [Add T] {receipt aggregates policy : Members}

/-- **The engines run in lockstep.** On a policy in the domain, where
TypeScript prints what it has to and the prefixes agree, the same clock
and the same budget, whatever they are, lead both to the same decision on
the same rules, or make both raise; and where the deadline cuts one of
them short it cuts both, at the same rule. -/
theorem engines_lockstep (h : PolicyDomain receipt aggregates policy) (hversion : VersionPrints policy)
    (hrules : ∀ r ∈ rulesOf policy, Prints receipt r ∧ PrefixesAgree receipt r) (budget : T)
    (at_ : Option PyStr) (at' : Option JsStr) (clock : Stream' T) :
    Alike SameRun
        (Py.evaluate (Py.ofMembers receipt) (.dict (Py.ofMembers policy))
          (some (Py.ofMembers aggregates)) budget at_ clock)
        (Ts.evaluate (Ts.ofMembers receipt) (Ts.ofMembers policy)
          (some (Ts.ofMembers aggregates)) budget at' clock)
      ∧ Py.cutAt (Py.ofMembers receipt) (.dict (Py.ofMembers policy))
          (some (Py.ofMembers aggregates)) budget at_ clock
        = Ts.cutAt (Ts.ofMembers receipt) (Ts.ofMembers policy)
          (some (Ts.ofMembers aggregates)) budget at' clock := by
  obtain ⟨pol, hpol⟩ := h.accepted
  obtain ⟨hpyRules, hreads, -⟩ := reads_alike hpol h.stringIds
  obtain ⟨pol', hpol', hbare⟩ := hreads hversion
  have hcoerce : Py.coercePolicy (.dict (Py.ofMembers policy)) = .ok pol := hpol
  obtain ⟨⟨deadline, rest⟩, hstarted⟩ : ∃ p, Timed.started budget clock = p := ⟨_, rfl⟩
  have hctx : SameContext aggregates (⟨Py.ofMembers aggregates, deadline, at_⟩ : Py.EvalContext T)
      ⟨Ts.ofMembers aggregates, deadline, at'⟩ := ⟨rfl, rfl, rfl⟩
  -- one deadline for both, and the rules in pairs: their visits are in lockstep
  have hvisits : List.Forall₂ (fun R t => Timed.Lockstep .policyTimeout .policyTimeoutError
      (Option.Rel SameEntry)
      (Py.visit (Py.ofMembers receipt) ⟨Py.ofMembers aggregates, deadline, at_⟩ R)
      (Ts.visit (Ts.ofMembers receipt) ⟨Ts.ofMembers aggregates, deadline, at'⟩ t))
      pol.rules pol'.rules := by
    rw [hpyRules, List.forall₂_map_left_iff]
    refine ((List.forall₂_and_left _ _).mpr ⟨fun r hr => hr, hbare.flip⟩).imp ?_
    rintro r t ⟨hr, htr⟩
    exact lockstep_visit hctx htr (h.rules r hr) (h.helpers r hr) (hrules r hr).1 (hrules r hr).2
  constructor
  · rw [Py.evaluate_eq, Ts.evaluate_eq, hstarted, Py.evaluateWithContext, Ts.evaluateWithContext,
      hcoerce, hpol', ok_bind, ok_bind]
    -- the loops end the same way, so what is made of them is alike
    obtain ⟨es, fs, x, y, hes, hends, hpy, hts⟩ :=
      Trail.walk_lockstep hvisits rest (List.Forall₂.nil (R := SameEntry))
    have hempty : (Trail.empty : Trail PyStr PyStr DecisionOutcome) = Trail.ofEntries [] := rfl
    have hempty' : (Trail.empty : Trail Ts.JsVal Ts.JsAny Ts.JsVal) = Trail.ofEntries [] := rfl
    rw [hempty, hempty', Option.getD_some, Option.getD_some, hpy, hts]
    exact alike_conclude hes hends _ _ pol pol' at_ at'
  · unfold Py.cutAt Ts.cutAt
    rw [hcoerce, hpol', hstarted]
    exact Trail.cutAt_lockstep hvisits rest

end

section Sample

attribute [local instance] Ucd.allPrintable

/-- The sample rule, under two ids. -/
def twicePolicy : Members :=
  let rule (id : String) : Doc :=
    .obj [(lit "id", .str (lit id)), (lit "type", .str (lit "action_type_allowlist")),
      (lit "outcome", .str (lit "deny")), (lit "parameters", .obj listedParameters)]
  [(lit "version", .str (lit "v1")), (lit "rules", .arr [rule "types", rule "again"])]

theorem rulesOf_twicePolicy :
    rulesOf twicePolicy = [listedRule, { listedRule with id := lit "again" }] :=
  read_of_states (.cons ⟨_, rfl, rfl, rfl, rfl, rfl⟩ (.cons ⟨_, rfl, rfl, rfl, rfl, rfl⟩ .nil))

/-- After a budget of two both are cut at the second rule, the first one not
having fired. -/
theorem engines_lockstep_sample :
    Alike SameRun
        (Py.evaluate (Py.ofMembers [(lit "action_type", .str (lit "llm.inference"))])
          (.dict (Py.ofMembers twicePolicy)) (some (Py.ofMembers [])) (2 : ℕ) none
          (Stream'.nats.map (2 * ·)))
        (Ts.evaluate (Ts.ofMembers [(lit "action_type", .str (lit "llm.inference"))])
          (Ts.ofMembers twicePolicy) (some (Ts.ofMembers [])) (2 : ℕ) none
          (Stream'.nats.map (2 * ·)))
      ∧ Ts.cutAt (Ts.ofMembers [(lit "action_type", .str (lit "llm.inference"))])
          (Ts.ofMembers twicePolicy) (some (Ts.ofMembers [])) (2 : ℕ) none
          (Stream'.nats.map (2 * ·)) = some 1 := by
  have hsafe : ∀ m ∈ listedParameters, SafeDoc m.2 := by
    rw [listedParameters, List.forall_mem_singleton]
    simp [SafeDoc]
  have hreceipt : ∀ m ∈ ([(lit "action_type", .str (lit "llm.inference"))] : Members), SafeDoc m.2 := by
    rw [List.forall_mem_singleton]
    simp [SafeDoc]
  have hdomain : PolicyDomain [(lit "action_type", .str (lit "llm.inference"))] [] twicePolicy := by
    refine ⟨⟨_, rfl⟩, ?_, ?_, ?_⟩
    · intro d hd ms hms
      rcases List.mem_cons.mp hd with rfl | hd
      · obtain rfl := Json.obj.inj hms
        exact ⟨_, rfl⟩
      · obtain rfl := List.mem_singleton.mp hd
        obtain rfl := Json.obj.inj hms
        exact ⟨_, rfl⟩
    · rw [rulesOf_twicePolicy, List.forall_mem_cons, List.forall_mem_singleton]
      exact ⟨⟨by decide, (by rintro ⟨⟩), hsafe, hreceipt, (by simp)⟩,
        by decide, (by rintro ⟨⟩), hsafe, hreceipt, (by simp)⟩
    · rw [rulesOf_twicePolicy, List.forall_mem_cons, List.forall_mem_singleton]
      exact ⟨⟨(by intro _ h; cases h), (by intro _ h; cases h)⟩,
        (by intro _ h; cases h), (by intro _ h; cases h)⟩
  have hversion : VersionPrints twicePolicy := by rintro ⟨⟩
  have hprints : ∀ r ∈ rulesOf twicePolicy,
      Prints [(lit "action_type", .str (lit "llm.inference"))] r
        ∧ PrefixesAgree [(lit "action_type", .str (lit "llm.inference"))] r := by
    rw [rulesOf_twicePolicy, List.forall_mem_cons, List.forall_mem_singleton]
    exact ⟨⟨⟨lit "'llm.inference'", by decide⟩, trivial⟩, ⟨lit "'llm.inference'", by decide⟩, trivial⟩
  obtain ⟨halike, hcut⟩ := engines_lockstep hdomain hversion hprints (2 : ℕ) none none
    (Stream'.nats.map (2 * ·))
  exact ⟨halike, hcut.symm.trans rfl⟩

end Sample

end Parity

end OpenTerms
