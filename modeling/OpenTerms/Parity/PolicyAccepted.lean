import OpenTerms.Parity.RawRules
import OpenTerms.Parity.PolicyTaken
import OpenTerms.Parity.PolicyEngine
import OpenTerms.Py.Policy.Spec
import OpenTerms.Ts.Reduction

/-!
# Policies the engines evaluate

Without a deadline an engine raises or throws on what it cannot read and
on what a rule refuses, and on nothing else: Python evaluates the
policies that are `Sound` (`py_evaluate_iff`), TypeScript those that are
`Taken` (`ts_evaluate_iff`). A policy with a version and a list of rules
goes to TypeScript's loop as it is, so there the outcomes that fire have
to have a text as well, once there are two to compare.
-/

namespace OpenTerms

namespace Parity

open Json Utf16

/-- The rules a policy lists, where they are a list. -/
def listed (nulls : Nulls) (policy : Members) : Option (List Doc) :=
  match nulls.orDefault (get? (lit "rules") policy) (.arr []) with
  | .arr ds => some ds
  | _ => none

/-! ## In Python -/

/-- A rule Python reads, and does not refuse. -/
def PyTakes [Ucd] (receipt aggregates : Members) (d : Doc) : Prop :=
  ∃ raw ∈ RawRule.read d, ∃ r ∈ raw.checked (pyId raw.id),
    WellFormed .strict receipt r.parameters (get? r.id aggregates) r.type

/-- A policy Python evaluates. -/
def Sound [Ucd] (receipt aggregates policy : Members) : Prop :=
  ∃ ds ∈ listed .strict policy, ∀ d ∈ ds, PyTakes receipt aggregates d

/-- The parameters of a rule on the list have safe numbers. -/
theorem safe_parameters {ds : List Doc} (hds : ∀ d ∈ ds, SafeDoc d) {d : Doc} (hd : d ∈ ds)
    {raw : RawRule} (hraw : raw ∈ RawRule.read d) : SafeDoc raw.parameters := by
  obtain ⟨ms, rfl⟩ := RawRule.eq_obj_of_read hraw
  obtain ⟨-, -, -, hparameters⟩ := RawRule.read_obj hraw
  exact (every_obj.mp (hds _ hd) _ (mem_of_get? hparameters)).2

theorem safe_listed {policy : Members} (hpolicy : SafeDoc (.obj policy)) {nulls : Nulls}
    {ds : List Doc} (hds : ds ∈ listed nulls policy) : ∀ d ∈ ds, SafeDoc d := by
  unfold listed at hds
  cases hrules : get? (lit "rules") policy with
  | none =>
    rw [hrules] at hds
    obtain rfl : [] = ds := by cases nulls <;> exact Option.some.inj hds
    simp
  | some v =>
    have hv : SafeDoc v := (every_obj.mp hpolicy _ (mem_of_get? hrules)).2
    rw [hrules] at hds
    cases v with
    | arr xs =>
      obtain rfl : xs = ds := by cases nulls <;> exact Option.some.inj hds
      exact every_arr.mp hv
    | null =>
      cases nulls with
      | strict => cases hds
      | lenient =>
        obtain rfl : [] = ds := Option.some.inj hds
        simp
    | bool | num | str | obj => cases nulls <;> cases hds

section

variable [Ucd] {receipt aggregates policy : Members}

/-- The rules Python reads are those it reads one by one. -/
theorem py_readRules {P : Py.Rule → Prop} :
    (∃ pol, Py.Policy.fromDict (Py.ofMembers policy) = .ok pol ∧ ∀ R ∈ pol.rules, P R)
      ↔ ∃ ds ∈ listed .strict policy, ∀ d ∈ ds, ∃ R, Py.Rule.fromDict (Py.ofDoc d) = .ok R ∧ P R := by
  have hdflt : (.arr [] : Py.PyVal) = Py.ofDoc (.arr []) := (py_ofDoc_arr []).symm
  unfold Py.Policy.fromDict listed
  rw [hdflt, py_optional (by decide)]
  cases Nulls.strict.orDefault (get? (lit "rules") policy) (.arr []) with
  | arr ds =>
    have hmap : (∀ d ∈ ds, ∃ R, Py.Rule.fromDict (Py.ofDoc d) = .ok R ∧ P R)
        ↔ ∃ Rs, (ds.map Py.ofDoc).mapM Py.Rule.fromDict = .ok Rs ∧ ∀ R ∈ Rs, P R := by
      rw [exists_mapM_forall, List.forall_mem_map]
    rw [py_ofDoc_arr]
    simp only [Option.mem_def, Option.some.injEq, exists_eq_left']
    rw [hmap]
    constructor
    · rintro ⟨pol, hpol, hall⟩
      obtain ⟨Rs, hRs, hpol⟩ := bind_eq_ok_iff.mp hpol
      obtain rfl := Except.ok.inj hpol
      exact ⟨Rs, hRs, hall⟩
    · rintro ⟨Rs, hRs, hall⟩
      exact ⟨_, bind_eq_ok_iff.mpr ⟨Rs, hRs, rfl⟩, hall⟩
  | null | bool | num | str | obj => exact iff_of_false (by simp [Py.ofDoc]) (by simp)

/-- A rule Python reads and does not refuse is one it takes. -/
theorem pyTakes_iff (hreceipt : SafeDoc (.obj receipt)) (haggregates : SafeDoc (.obj aggregates))
    {d : Doc} (hd : SafeDoc d) :
    (∃ R, Py.Rule.fromDict (Py.ofDoc d) = .ok R
        ∧ Succeeds (Py.ruleSays R (Py.ofMembers receipt) (Py.ofMembers aggregates)))
      ↔ PyTakes receipt aggregates d := by
  have hrule {raw : RawRule} (hraw : raw ∈ RawRule.read d) {r : RuleDoc}
      (hr : r ∈ raw.checked (pyId raw.id)) :
      Succeeds (Py.ruleSays r.toPy (Py.ofMembers receipt) (Py.ofMembers aggregates))
        ↔ WellFormed .strict receipt r.parameters (get? r.id aggregates) r.type := by
    obtain ⟨-, -, hobj, -⟩ := RawRule.checked_eq_some.mp hr
    have hparameters := safe_parameters (List.forall_mem_singleton.mpr hd) (List.mem_singleton_self d)
      hraw
    rw [hobj] at hparameters
    have hps : r.toPy.parameters = Py.ofMembers r.parameters := rfl
    refine py_ruleSays hps (fun m hm => (every_obj.mp hparameters m hm).2)
      (fun m hm => (every_obj.mp hreceipt m hm).2) (Py.get?_ofMembers r.id aggregates) ?_
    exact fun _ h => (every_obj.mp haggregates _ (mem_of_get? h)).2
  constructor
  · rintro ⟨R, hR, hsays⟩
    obtain ⟨raw, hraw, r, hr, rfl⟩ := py_fromDict.mp hR
    exact ⟨raw, hraw, r, hr, (hrule hraw hr).mp hsays⟩
  · rintro ⟨raw, hraw, r, hr, hwell⟩
    exact ⟨r.toPy, py_fromDict.mpr ⟨raw, hraw, r, hr, rfl⟩, (hrule hraw hr).mpr hwell⟩

/-- **Where Python does not raise.** -/
theorem py_evaluate_iff {T : Type} [LT T] [DecidableLT T] [Zero T] [Add T] {budget : T}
    (hpolicy : SafeDoc (.obj policy)) (hreceipt : SafeDoc (.obj receipt))
    (haggregates : SafeDoc (.obj aggregates)) (hbudget : ¬ 0 < budget) (at_ : Option PyStr)
    (clock : Stream' T) :
    Succeeds (Py.evaluate (Py.ofMembers receipt) (.dict (Py.ofMembers policy))
        (some (Py.ofMembers aggregates)) budget at_ clock)
      ↔ Sound receipt aggregates policy := by
  have hread : Succeeds (Py.evaluate (Py.ofMembers receipt) (.dict (Py.ofMembers policy))
        (some (Py.ofMembers aggregates)) budget at_ clock)
      ↔ ∃ pol, Py.Policy.fromDict (Py.ofMembers policy) = .ok pol ∧ ∀ R ∈ pol.rules,
        Succeeds (Py.ruleSays R (Py.ofMembers receipt) (Py.ofMembers aggregates)) := by
    have hcoerce : Py.coercePolicy (.dict (Py.ofMembers policy))
        = Py.Policy.fromDict (Py.ofMembers policy) := rfl
    rw [← hcoerce]
    constructor
    · rintro ⟨D, hD⟩
      cases hpol : Py.coercePolicy (.dict (Py.ofMembers policy)) with
      | error e =>
        rw [Py.evaluate, if_neg hbudget, Py.evaluateWithContext, hpol] at hD
        cases hD
      | ok pol => exact ⟨pol, rfl, ((Py.evaluate_eq_ok_iff hpol hbudget).mp hD).1⟩
    · rintro ⟨pol, hpol, hall⟩
      exact ⟨_, (Py.evaluate_eq_ok_iff hpol hbudget).mpr ⟨hall, rfl⟩⟩
  rw [hread, py_readRules]
  refine exists_congr fun ds => and_congr_right fun hds => ?_
  exact forall₂_congr fun d hd => pyTakes_iff hreceipt haggregates (safe_listed hpolicy hds d hd)

end

/-! ## In TypeScript -/

/-- The rules of a policy that goes through unchecked. -/
def shortcut (policy : Members) : Option (List RawRule) :=
  match get? (lit "version") policy, get? (lit "rules") policy with
  | some _, some (.arr ds) => ds.mapM RawRule.read
  | _, _ => none

/-- What is found under a type that is none returns. -/
def BuiltinRuns (others : Members) : Ts.JsAny → Prop
  | .builtin .constructor | .builtin .toString | .builtin .toLocaleString | .builtin .valueOf
  | .builtin .isPrototypeOf => True
  | .builtin .hasOwnProperty | .builtin .propertyIsEnumerable => lit "toString" ∉ names others
  | _ => False

/-- A rule nobody checked, on which the evaluator under its type returns. -/
def Runs (receipt aggregates : Members) (raw : RawRule) : Prop :=
  ∃ key ∈ docText raw.type,
    match validRuleTypes.find? fun t => lit t.text = key with
    | some type => Takes receipt aggregates (docText raw.id) raw.parameters type
    | none => BuiltinRuns raw.others (Ts.inherited key)

/-- The rule fires as it stands. -/
def rawFires (receipt aggregates : Members) (raw : RawRule) : Bool :=
  match Ts.ruleSays raw.toTs (Ts.ofMembers receipt) (Ts.ofMembers aggregates) with
  | .ok result => result.fired
  | .error _ => false

/-- The outcomes that fire. -/
def rawOutcomes (receipt aggregates : Members) (raws : List RawRule) : List Doc :=
  (raws.filter (rawFires receipt aggregates)).map RawRule.outcome

/-- A rule TypeScript reads, and does not refuse. -/
def TsTakes (receipt aggregates : Members) (d : Doc) : Prop :=
  ∃ raw ∈ RawRule.read d, ∃ id ∈ docText raw.id, ∃ r ∈ raw.checked id,
    Takes receipt aggregates (some id) (.obj r.parameters) r.type

/-- A policy TypeScript evaluates. -/
def Taken (receipt aggregates policy : Members) : Prop :=
  match shortcut policy with
  | some raws =>
    (∀ raw ∈ raws, Runs receipt aggregates raw)
      ∧ ((rawOutcomes receipt aggregates raws).length ≤ 1
        ∨ ∀ o ∈ rawOutcomes receipt aggregates raws, (docText o).isSome)
  | none =>
    (∀ v ∈ get? (lit "version") policy, (docText v).isSome)
      ∧ ∃ ds ∈ listed .lenient policy, ∀ d ∈ ds, TsTakes receipt aggregates d

theorem isSome_docText (d : Doc) : (docText d).isSome ↔ Succeeds (Ts.toStr (Ts.ofDoc d)) := by
  unfold docText
  cases Ts.toStr (Ts.ofDoc d) with
  | error e => exact iff_of_false (by simp [Except.toOption]) (not_succeeds_error e)
  | ok text => exact iff_of_true rfl (succeeds_ok text)

theorem ts_applyBuiltin (raw : RawRule) (v : Ts.JsAny) :
    Succeeds (Ts.applyBuiltin raw.toTs v) ↔ BuiltinRuns raw.others v := by
  have hnames : names raw.toTs.others = names raw.others :=
    (names_map_mapMember _ _ raw.others).trans (List.map_id _)
  unfold Ts.applyBuiltin BuiltinRuns
  rw [hnames]
  cases v with
  | builtin f =>
    cases f
    case hasOwnProperty | propertyIsEnumerable =>
      dsimp only
      split
      · next h => exact iff_of_false (not_succeeds_error _) (not_not.mpr h)
      · next h => exact iff_of_true (succeeds_ok _) h
    all_goals first | exact iff_of_true (succeeds_ok _) trivial | exact iff_of_false (not_succeeds_error _) id
  | undefined | json | objectPrototype => exact iff_of_false (not_succeeds_error _) id

section

variable [Ucd] {receipt aggregates policy : Members}

/-- **What a rule nobody checked throws on.** -/
theorem ts_ruleSays_raw (hreceipt : SafeDoc (.obj receipt)) (haggregates : SafeDoc (.obj aggregates))
    {raw : RawRule} (hparameters : SafeDoc raw.parameters) :
    Succeeds (Ts.ruleSays raw.toTs (Ts.ofMembers receipt) (Ts.ofMembers aggregates))
      ↔ Runs receipt aggregates raw := by
  unfold Ts.ruleSays Runs docText
  have htype : raw.toTs.type = Ts.ofDoc raw.type := rfl
  rw [htype]
  cases Ts.toStr (Ts.ofDoc raw.type) with
  | error e => exact iff_of_false (not_succeeds_error e) (by simp [Except.toOption])
  | ok key =>
    simp only [ok_bind, Except.toOption, Option.mem_def, Option.some.injEq, exists_eq_left']
    cases validRuleTypes.find? fun t => decide (lit t.text = key) with
    | some type =>
      exact ts_typeSays rfl hparameters (fun m hm => (every_obj.mp hreceipt m hm).2)
        (fun m hm => (every_obj.mp haggregates m hm).2) type
    | none => exact ts_applyBuiltin raw _

/-- A rule TypeScript reads and does not refuse is one it takes. -/
theorem tsTakes_iff (hreceipt : SafeDoc (.obj receipt)) (haggregates : SafeDoc (.obj aggregates))
    {d : Doc} (hd : SafeDoc d) :
    (∃ t, Ts.ruleFromDict (Ts.ofDoc d) = .ok t
        ∧ Succeeds (Ts.ruleSays t (Ts.ofMembers receipt) (Ts.ofMembers aggregates)))
      ↔ TsTakes receipt aggregates d := by
  have hrule {raw : RawRule} (hraw : raw ∈ RawRule.read d) {id : JsStr} {r : RuleDoc}
      (hr : r ∈ raw.checked id) :
      Succeeds (Ts.ruleSays r.toTs (Ts.ofMembers receipt) (Ts.ofMembers aggregates))
        ↔ Takes receipt aggregates (some id) (.obj r.parameters) r.type := by
    obtain ⟨-, -, hobj, hid⟩ := RawRule.checked_eq_some.mp hr
    have hparameters := safe_parameters (List.forall_mem_singleton.mpr hd) (List.mem_singleton_self d)
      hraw
    rw [hobj] at hparameters
    have hkey : (Ts.toStr r.toTs.id).toOption = some id := by
      rw [← hid, RuleDoc.toTs, Ts.toStr]
      rfl
    have hbare : bare r.toTs = r.toTs := rfl
    rw [ts_ruleSays hbare, tsSays, ← hkey]
    exact ts_typeSays (Ts.ofDoc_obj _).symm hparameters (fun m hm => (every_obj.mp hreceipt m hm).2)
      (fun m hm => (every_obj.mp haggregates m hm).2) r.type
  constructor
  · rintro ⟨t, ht, hsays⟩
    obtain ⟨raw, hraw, id, hid, r, hr, rfl⟩ := ts_ruleFromDict.mp ht
    exact ⟨raw, hraw, id, hid, r, hr, (hrule hraw hr).mp hsays⟩
  · rintro ⟨raw, hraw, id, hid, r, hr, htakes⟩
    exact ⟨r.toTs, ts_ruleFromDict.mpr ⟨raw, hraw, id, hid, r, hr, rfl⟩, (hrule hraw hr).mpr htakes⟩

omit [Ucd] in
/-- The rules `policyFromDict` reads are those it reads one by one. -/
theorem ts_readRules {P : Ts.Rule → Prop} :
    (∃ pol, Ts.policyFromDict (Ts.ofMembers policy) = .ok pol ∧ ∀ t ∈ pol.rules, P t)
      ↔ (∀ v ∈ get? (lit "version") policy, (docText v).isSome)
        ∧ ∃ ds ∈ listed .lenient policy, ∀ d ∈ ds, ∃ t, Ts.ruleFromDict (Ts.ofDoc d) = .ok t ∧ P t := by
  have hversion := succeeds_versionText policy
  simp only [← isSome_docText] at hversion
  have hdflt : (.arr [] : Ts.JsVal) = Ts.ofDoc (.arr []) := (ts_ofDoc_arr []).symm
  rw [← hversion]
  unfold Ts.policyFromDict versionText listed
  rw [hdflt, ts_orDefault (by decide) policy (.arr [])]
  cases Ts.anyToStr (Ts.orElse (Ts.getProp (Ts.ofMembers policy) (lit "version"))
      (.str (lit "inline"))) with
  | error e => exact iff_of_false (by simp [Bind.bind, Except.bind]) fun h => not_succeeds_error e h.1
  | ok text =>
    simp only [ok_bind, succeeds_ok, true_and]
    cases Nulls.lenient.orDefault (get? (lit "rules") policy) (.arr []) with
    | arr ds =>
      have hmap : (∀ d ∈ ds, ∃ t, Ts.ruleFromDict (Ts.ofDoc d) = .ok t ∧ P t)
          ↔ ∃ ts, (ds.map Ts.ofDoc).mapM Ts.ruleFromDict = .ok ts ∧ ∀ t ∈ ts, P t := by
        rw [exists_mapM_forall, List.forall_mem_map]
      rw [ts_ofDoc_arr]
      simp only [Option.mem_def, Option.some.injEq, exists_eq_left']
      rw [hmap]
      constructor
      · rintro ⟨pol, hpol, hall⟩
        obtain ⟨ts, hts, hpol⟩ := bind_eq_ok_iff.mp hpol
        obtain rfl := Except.ok.inj hpol
        exact ⟨ts, hts, hall⟩
      · rintro ⟨ts, hts, hall⟩
        exact ⟨_, bind_eq_ok_iff.mpr ⟨ts, hts, rfl⟩, hall⟩
    | null | bool | num | str | obj => exact iff_of_false (by simp [Ts.ofDoc]) (by simp)

omit [Ucd] in
/-- What goes through unchecked. -/
theorem ts_candidate (policy : Members) :
    (Ts.candidate (Ts.ofMembers policy)).map Ts.Policy.rules
      = (shortcut policy).map (List.map RawRule.toTs) := by
  have hprobes (ds : List Doc) : (ds.map Ts.ofDoc).mapM Ts.Rule.probe
      = (ds.mapM RawRule.read).map (List.map RawRule.toTs) := by
    induction ds with
    | nil => rfl
    | cons d ds ih =>
      rw [List.map_cons, List.mapM_cons, List.mapM_cons, ih, ts_probe]
      cases RawRule.read d with
      | none => rfl
      | some raw => cases ds.mapM RawRule.read <;> rfl
  unfold Ts.candidate shortcut
  rw [Ts.get?_ofMembers, Ts.get?_ofMembers]
  cases get? (lit "version") policy with
  | none => rfl
  | some v =>
    cases get? (lit "rules") policy with
    | none => rfl
    | some d =>
      cases d with
      | arr ds =>
        rw [Option.map_some, Option.map_some, ts_ofDoc_arr]
        simp only [Option.bind_eq_bind, Option.bind_some, hprobes]
        cases ds.mapM RawRule.read <;> rfl
      | null | bool | num | str | obj => rfl

omit [Ucd] in
theorem ts_rawOutcomes {T : Type} [LT T] [DecidableLT T] {ctx : Ts.EvalContext T}
    (hctx : ctx.deadlineMonotonic = none) (haggregates : ctx.aggregates = Ts.ofMembers aggregates)
    (clock : Stream' T) (raws : List RawRule) :
    Ts.firedOutcomes (Ts.ofMembers receipt) ctx clock (raws.map RawRule.toTs)
      = (rawOutcomes receipt aggregates raws).map Ts.ofDoc := by
  unfold Ts.firedOutcomes rawOutcomes
  induction raws with
  | nil => rfl
  | cons raw raws ih =>
    have hresult := (@Ts.untimed_applyRule _ _ _ raw.toTs (Ts.ofMembers receipt) _ hctx).result_eq
      clock
    rw [haggregates] at hresult
    rw [List.map_cons, List.filterMap_cons, List.filter_cons, hresult, ih, rawFires]
    cases Ts.ruleSays raw.toTs (Ts.ofMembers receipt) (Ts.ofMembers aggregates) with
    | error e => rfl
    | ok result => by_cases hfired : result.fired <;> simp only [hfired] <;> rfl

omit [Ucd] in
/-- The outcomes of a policy that was read are strings. -/
theorem outcome_of_policyFromDict {pol : Ts.Policy}
    (hpol : Ts.policyFromDict (Ts.ofMembers policy) = .ok pol) :
    ∀ t ∈ pol.rules, ∃ us, t.outcome = .str us := by
  obtain ⟨hversion, ds, hds, hall⟩ :=
    (ts_readRules (P := fun _ => True)).mp ⟨pol, hpol, fun _ _ => trivial⟩
  have houtcomes : ∀ d ∈ ds, ∃ t, Ts.ruleFromDict (Ts.ofDoc d) = .ok t
      ∧ ∃ us, t.outcome = .str us := by
    intro d hd
    obtain ⟨t, ht, -⟩ := hall d hd
    obtain ⟨raw, -, id, -, r, -, rfl⟩ := ts_ruleFromDict.mp ht
    exact ⟨_, ht, _, rfl⟩
  obtain ⟨pol', hpol', hstr⟩ := ts_readRules.mpr ⟨hversion, ds, hds, houtcomes⟩
  obtain rfl := Except.ok.inj (hpol.symm.trans hpol')
  exact hstr

omit [Ucd] in
theorem shortcut_eq_some {raws : List RawRule} :
    shortcut policy = some raws
      ↔ (get? (lit "version") policy).isSome ∧ ∃ ds, get? (lit "rules") policy = some (.arr ds)
        ∧ List.Forall₂ (fun d raw => RawRule.read d = some raw) ds raws := by
  unfold shortcut
  cases get? (lit "version") policy with
  | none => simp
  | some v =>
    cases get? (lit "rules") policy with
    | none => simp
    | some d =>
      cases d with
      | arr ds => simp [mapM_eq_some_iff]
      | null | bool | num | str | obj => simp

theorem ts_evaluateWithContext_iff {T : Type} [LT T] [DecidableLT T] {ctx : Ts.EvalContext T}
    (hpolicy : SafeDoc (.obj policy)) (hreceipt : SafeDoc (.obj receipt))
    (haggregates : SafeDoc (.obj aggregates)) (hctx : ctx.deadlineMonotonic = none)
    (hagg : ctx.aggregates = Ts.ofMembers aggregates) (clock : Stream' T) :
    Succeeds (Ts.evaluateWithContext (Ts.ofMembers receipt) (Ts.ofMembers policy) ctx clock)
      ↔ Taken receipt aggregates policy := by
  have hcandidate := ts_candidate policy
  unfold Taken
  cases hshort : shortcut policy with
  | some raws =>
    rw [hshort, Option.map_some, Option.map_eq_some_iff] at hcandidate
    obtain ⟨pol, hpol, hrules⟩ := hcandidate
    have hcoerce : Ts.coercePolicy (Ts.ofMembers policy) = .ok pol := by rw [Ts.coercePolicy, hpol]
    have hsafe : ∀ raw ∈ raws, SafeDoc raw.parameters := by
      obtain ⟨-, ds, hds, hread⟩ := shortcut_eq_some.mp hshort
      have hlist : SafeDoc (.arr ds) := (every_obj.mp hpolicy _ (mem_of_get? hds)).2
      exact forall_mem_of_forall₂ hread.flip fun raw d hd hraw =>
        safe_parameters (every_arr.mp hlist) hd hraw
    rw [Ts.succeeds_evaluateWithContext hcoerce hctx, hagg, hrules, List.forall_mem_map,
      ts_rawOutcomes hctx hagg, Ts.succeeds_finalDecision, List.length_map, List.forall_mem_map]
    refine and_congr (forall₂_congr fun raw hraw => ?_) ?_
    · exact ts_ruleSays_raw hreceipt haggregates (hsafe raw hraw)
    · simp only [isSome_docText]
  | none =>
    rw [hshort, Option.map_none, Option.map_eq_none_iff] at hcandidate
    have hcoerce : Ts.coercePolicy (Ts.ofMembers policy)
        = Ts.policyFromDict (Ts.ofMembers policy) := by
      rw [Ts.coercePolicy, hcandidate]
    have htakes : ((∀ v ∈ get? (lit "version") policy, (docText v).isSome)
          ∧ ∃ ds ∈ listed .lenient policy, ∀ d ∈ ds, TsTakes receipt aggregates d)
        ↔ ∃ pol, Ts.policyFromDict (Ts.ofMembers policy) = .ok pol ∧ ∀ t ∈ pol.rules,
          Succeeds (Ts.ruleSays t (Ts.ofMembers receipt) (Ts.ofMembers aggregates)) := by
      rw [ts_readRules]
      refine and_congr_right fun _ => exists_congr fun ds => and_congr_right fun hds => ?_
      exact forall₂_congr fun d hd =>
        (tsTakes_iff hreceipt haggregates (safe_listed hpolicy hds d hd)).symm
    dsimp only
    rw [htakes, ← hcoerce, ← hagg]
    constructor
    · intro h
      cases hpol : Ts.coercePolicy (Ts.ofMembers policy) with
      | error e =>
        rw [Ts.evaluateWithContext, hpol] at h
        exact absurd h (not_succeeds_error e)
      | ok pol => exact ⟨pol, rfl, ((Ts.succeeds_evaluateWithContext hpol hctx).mp h).1⟩
    · rintro ⟨pol, hpol, hall⟩
      rw [Ts.succeeds_evaluateWithContext hpol hctx, Ts.succeeds_finalDecision]
      refine ⟨hall, Or.inr fun o ho => ?_⟩
      obtain ⟨t, ht, -, rfl⟩ := Ts.mem_firedOutcomes.mp ho
      obtain ⟨us, hus⟩ := outcome_of_policyFromDict (hcoerce.symm.trans hpol) t ht
      rw [hus, Ts.toStr]
      exact succeeds_ok us

/-- **Where TypeScript does not throw.** -/
theorem ts_evaluate_iff {T : Type} [LT T] [DecidableLT T] [Zero T] [Add T] {budget : T}
    (hpolicy : SafeDoc (.obj policy)) (hreceipt : SafeDoc (.obj receipt))
    (haggregates : SafeDoc (.obj aggregates)) (hbudget : ¬ 0 < budget) (at' : Option JsStr)
    (clock : Stream' T) :
    Succeeds (Ts.evaluate (Ts.ofMembers receipt) (Ts.ofMembers policy)
        (some (Ts.ofMembers aggregates)) budget at' clock)
      ↔ Taken receipt aggregates policy := by
  rw [Ts.evaluate, if_neg hbudget]
  exact ts_evaluateWithContext_iff hpolicy hreceipt haggregates rfl rfl clock

end

end Parity

end OpenTerms
