import OpenTerms.Parity.PolicyAccepted

/-!
# Policies one engine refuses

Python evaluates the policies that are `Sound` (`py_evaluate_iff`) and
TypeScript those that are `Taken` (`ts_evaluate_iff`); this module compares
the two. On a policy Python evaluates, TypeScript throws only for want of
a text or of an aggregate of its own (`taken_iff_texts`). The other way
round nothing is left to texts: TypeScript reads a `null` as no value,
takes a rule it never checked where the policy has a version, and looks
for an aggregate under `String` of an id where Python looks under `str` of
it. So a policy Python refuses can be evaluated, and then it allows
(`refusals_agree_fails`).
-/

namespace OpenTerms

namespace Parity

open Json Utf16

/-- The aggregate TypeScript finds for a rule is one it can count on. -/
def Counts (aggregates : Members) (type : RuleType) (key : Option JsStr) : Prop :=
  type = .dailyLimit → ∃ k ∈ key, ((get? k aggregates).isSome ∨ Ts.OwnName k)
    ∧ (docInt (Nulls.lenient.orDefault (get? k aggregates) (.num (.int 0)))).isSome

/-- What TypeScript makes a text of has one. -/
structure Texts [Ucd] (receipt aggregates policy : Members) : Prop where
  version : VersionPrints policy
  rules : ∀ d ∈ policyRules policy, ∀ raw ∈ RawRule.read d, ∀ r ∈ raw.checked (pyId raw.id),
    (get? (lit "version") policy = none → (docText raw.id).isSome)
      ∧ Shows receipt r.parameters r.type ∧ Counts aggregates r.type (docText raw.id)

/-- Both engines refuse the policy, or neither does: one Python evaluates
has its texts, and one Python refuses is not taken by TypeScript. -/
structure RefusedAlike [Ucd] (receipt aggregates policy : Members) : Prop where
  sound : Sound receipt aggregates policy → Texts receipt aggregates policy
  unsound : ¬ Sound receipt aggregates policy → ¬ Taken receipt aggregates policy

/-- What Python takes for the value of an optional parameter, TypeScript
does, unless it is a `null`. -/
theorem orDefault_lenient {d : Option Doc} {dflt : Doc}
    (h : Nulls.strict.orDefault d dflt ≠ .null) :
    Nulls.lenient.orDefault d dflt = Nulls.strict.orDefault d dflt := by
  cases d with
  | none => rfl
  | some v =>
    cases v with
    | null => exact absurd rfl h
    | bool | num | str | arr | obj => rfl

/-- One of the valid names is the text of that name. -/
theorem eq_text_of_docOneOf {α : Type} {text : α → String} {valid : List α} {d : Doc} {a : α}
    (h : docOneOf text valid d = some a) : d = .str (lit (text a)) := by
  unfold docOneOf at h
  have htext : docStr d = some (lit (text a)) := by simpa using List.find?_some h
  cases d with
  | str us => rw [Option.some.inj htext]
  | null | bool | num | arr | obj => cases htext

/-- Parameters Python finds well formed are so for TypeScript, whose
aggregate is another. -/
theorem wellFormed_lenient {receipt ps : Members} {prior prior' : Option Doc} {type : RuleType}
    (h : WellFormed .strict receipt ps prior type) :
    WellFormed .lenient receipt ps prior' type
      ↔ (type = .dailyLimit → (docInt (Nulls.lenient.orDefault prior' (.num (.int 0)))).isSome) := by
  have hstr {k : String} {dflt : Doc}
      (h : (docStr (Nulls.strict.orDefault (get? (lit k) ps) dflt)).isSome) :
      Nulls.lenient.orDefault (get? (lit k) ps) dflt
        = Nulls.strict.orDefault (get? (lit k) ps) dflt := by
    refine orDefault_lenient fun hnull => ?_
    rw [hnull] at h
    cases h
  have hone {α : Type} {text : α → String} {valid : List α} {k : String} {dflt : Doc}
      (h : (docOneOf text valid (Nulls.strict.orDefault (get? (lit k) ps) dflt)).isSome) :
      Nulls.lenient.orDefault (get? (lit k) ps) dflt
        = Nulls.strict.orDefault (get? (lit k) ps) dflt := by
    refine orDefault_lenient fun hnull => ?_
    obtain ⟨a, ha⟩ := Option.isSome_iff_exists.mp h
    have htext := eq_text_of_docOneOf ha
    rw [hnull] at htext
    cases htext
  unfold WellFormed at h ⊢
  cases type
  case dailyLimit =>
    dsimp only at h ⊢
    obtain ⟨hthreshold, hwindow, -, hamount⟩ := h
    rw [hone hwindow]
    simp [hthreshold, hwindow, hamount]
  all_goals simp only [reduceCtorEq, false_imp_iff, iff_true]
  case maxAmount | escalationThreshold | actionTypeAllowlist | actionTypeDenylist
      | toolIdAllowlist => exact h
  case urlPrefixAllowlist | urlPrefixDenylist =>
    dsimp only at h ⊢
    rw [hstr h.2]
    exact h
  case argsPatternMatch =>
    dsimp only at h ⊢
    rw [hone h.2.1]
    exact h
  case postStateAssertion =>
    dsimp only at h ⊢
    rw [hone h.1, hstr h.2.2]
    exact h

theorem docText_str (us : JsStr) : docText (.str us) = some us := by
  rw [docText, ts_ofDoc_str, Ts.toStr]
  rfl

/-- A rule Python does not refuse, in TypeScript under any key. -/
theorem takes_iff {receipt aggregates ps : Members} {prior : Option Doc} {type : RuleType}
    (h : WellFormed .strict receipt ps prior type) (key : Option JsStr) :
    Takes receipt aggregates key (.obj ps) type
      ↔ Shows receipt ps type ∧ Counts aggregates type key := by
  unfold Takes Counts Keyed
  dsimp only
  rw [wellFormed_lenient h]
  constructor
  · rintro ⟨hint, hshows, hkeyed⟩
    refine ⟨hshows, fun hdaily => ?_⟩
    obtain ⟨k, rfl, hfound⟩ := hkeyed hdaily
    exact ⟨k, rfl, hfound, hint hdaily⟩
  · rintro ⟨hshows, hcounts⟩
    refine ⟨fun hdaily => ?_, hshows, fun hdaily => ?_⟩
    · obtain ⟨k, rfl, -, hint⟩ := hcounts hdaily
      exact hint
    · obtain ⟨k, rfl, hfound, -⟩ := hcounts hdaily
      exact ⟨k, rfl, hfound⟩

/-- Such a rule, where nobody checked it. -/
theorem runs_iff {receipt aggregates : Members} {raw : RawRule} {id : JsStr} {r : RuleDoc}
    (hr : r ∈ raw.checked id) {prior : Option Doc}
    (h : WellFormed .strict receipt r.parameters prior r.type) :
    Runs receipt aggregates raw
      ↔ Shows receipt r.parameters r.type ∧ Counts aggregates r.type (docText raw.id) := by
  obtain ⟨htype, -, hparameters, -⟩ := RawRule.checked_eq_some.mp hr
  unfold Runs
  rw [eq_text_of_docOneOf htype, docText_str, hparameters]
  simp only [Option.mem_def, Option.some.injEq, exists_eq_left', find?_ruleType]
  exact takes_iff h _

section

variable [Ucd] {receipt aggregates policy : Members}

theorem listed_of_sound (h : Sound receipt aggregates policy) :
    listed .strict policy = some (policyRules policy)
      ∧ listed .lenient policy = some (policyRules policy)
      ∧ ∀ d ∈ policyRules policy, PyTakes receipt aggregates d := by
  obtain ⟨ds, hds, hall⟩ := h
  unfold listed policyRules at *
  cases hrules : get? (lit "rules") policy with
  | none =>
    rw [hrules] at hds
    exact ⟨rfl, rfl, by simp⟩
  | some v =>
    rw [hrules] at hds
    cases v with
    | arr xs =>
      obtain rfl : xs = ds := Option.some.inj hds
      exact ⟨rfl, rfl, hall⟩
    | null | bool | num | str | obj => cases hds

/-- A rule Python takes, in TypeScript: it needs a text for an id that is
read, and for what it shows. -/
theorem rule_texts {d : Doc} (h : PyTakes receipt aggregates d) {raw : RawRule}
    (hraw : raw ∈ RawRule.read d) (named : Prop) :
    (∀ r ∈ raw.checked (pyId raw.id), (named → (docText raw.id).isSome)
        ∧ Shows receipt r.parameters r.type ∧ Counts aggregates r.type (docText raw.id))
      ↔ (named → (docText raw.id).isSome) ∧ Runs receipt aggregates raw := by
  obtain ⟨raw', hraw', r, hr, hwell⟩ := h
  obtain rfl : raw = raw' := Option.mem_unique hraw hraw'
  rw [runs_iff hr hwell]
  constructor
  · exact fun hall => hall r hr
  · rintro hone r' hr'
    rwa [Option.mem_unique hr' hr]

theorem tsTakes_texts {d : Doc} (h : PyTakes receipt aggregates d) {raw : RawRule}
    (hraw : raw ∈ RawRule.read d) :
    TsTakes receipt aggregates d ↔ (docText raw.id).isSome ∧ Runs receipt aggregates raw := by
  obtain ⟨raw', hraw', r, hr, hwell⟩ := h
  obtain rfl : raw = raw' := Option.mem_unique hraw hraw'
  rw [runs_iff hr hwell]
  obtain ⟨htype, houtcome, hparameters, -⟩ := RawRule.checked_eq_some.mp hr
  constructor
  · rintro ⟨raw'', hraw'', id, hid, r', hr', htakes⟩
    obtain rfl : raw = raw'' := Option.mem_unique hraw hraw''
    obtain ⟨htype', -, hparameters', -⟩ := RawRule.checked_eq_some.mp hr'
    have hsameType : r'.type = r.type := Option.some.inj (htype'.symm.trans htype)
    have hsame : r'.parameters = r.parameters := Json.obj.inj (hparameters'.symm.trans hparameters)
    rw [hsameType, hsame, ← Option.mem_def.mp hid] at htakes
    exact ⟨Option.isSome_iff_exists.mpr ⟨id, hid⟩, (takes_iff hwell _).mp htakes⟩
  · rintro ⟨hsome, htakes⟩
    obtain ⟨id, hid⟩ := Option.isSome_iff_exists.mp hsome
    refine ⟨raw, hraw, id, hid, { r with id := id },
      RawRule.checked_eq_some.mpr ⟨htype, houtcome, hparameters, rfl⟩, ?_⟩
    rw [hid] at htakes
    exact (takes_iff hwell _).mpr htakes

/-- **Where TypeScript evaluates what Python does.** -/
theorem taken_iff_texts (hsound : Sound receipt aggregates policy) :
    Taken receipt aggregates policy ↔ Texts receipt aggregates policy := by
  obtain ⟨-, hlenient, hall⟩ := listed_of_sound hsound
  have htexts : Texts receipt aggregates policy ↔ VersionPrints policy
      ∧ ∀ d ∈ policyRules policy, ∀ raw ∈ RawRule.read d,
        (get? (lit "version") policy = none → (docText raw.id).isSome)
          ∧ Runs receipt aggregates raw := by
    constructor
    · rintro ⟨hversion, hrules⟩
      exact ⟨hversion, fun d hd raw hraw => (rule_texts (hall d hd) hraw _).mp (hrules d hd raw hraw)⟩
    · rintro ⟨hversion, hrules⟩
      exact ⟨hversion, fun d hd raw hraw => (rule_texts (hall d hd) hraw _).mpr (hrules d hd raw hraw)⟩
  rw [htexts]
  unfold Taken
  cases hshort : shortcut policy with
  | some raws =>
    obtain ⟨hsome, ds, hds, hread⟩ := shortcut_eq_some.mp hshort
    have hrules : policyRules policy = ds := by rw [policyRules, hds]
    have hversion : VersionPrints policy := by
      intro hnone
      rw [hnone] at hds
      cases hds
    have hunnamed : get? (lit "version") policy ≠ none := Option.isSome_iff_ne_none.mp hsome
    -- an outcome that was checked is a text
    have houtcomes : ∀ o ∈ rawOutcomes receipt aggregates raws, (docText o).isSome := by
      have houtcome : ∀ raw ∈ raws, (docText raw.outcome).isSome := by
        refine forall_mem_of_forall₂ hread.flip fun raw d hd hraw => ?_
        rw [← hrules] at hd
        obtain ⟨raw', hraw', r, hr, -⟩ := hall d hd
        obtain rfl : raw = raw' := Option.mem_unique hraw hraw'
        rw [eq_text_of_docOneOf (RawRule.checked_eq_some.mp hr).2.1, docText_str]
        rfl
      intro o ho
      obtain ⟨raw, hraw, rfl⟩ := List.mem_map.mp ho
      exact houtcome raw (List.mem_filter.mp hraw).1
    rw [hrules]
    constructor
    · rintro ⟨hruns, -⟩
      refine ⟨hversion, forall_mem_of_forall₂ hread fun d raw hraw hd raw' hraw' => ?_⟩
      obtain rfl : raw = raw' := Option.mem_unique hd hraw'
      exact ⟨fun hnone => absurd hnone hunnamed, hruns raw hraw⟩
    · rintro ⟨-, hruns⟩
      refine ⟨forall_mem_of_forall₂ hread.flip fun raw d hd hraw => ?_, Or.inr houtcomes⟩
      exact (hruns d hd raw hraw).2
  | none =>
    dsimp only
    rw [hlenient]
    simp only [Option.mem_def, Option.some.injEq, exists_eq_left']
    by_cases hrules : get? (lit "rules") policy = none
    · have hempty : policyRules policy = [] := by rw [policyRules, hrules]
      rw [hempty]
      simp [VersionPrints, hrules, isSome_docText]
    · -- rules that are all read would have gone through unchecked
      have hlist : get? (lit "rules") policy = some (.arr (policyRules policy)) := by
        obtain ⟨hstrict, -⟩ := listed_of_sound hsound
        unfold listed policyRules at *
        cases hv : get? (lit "rules") policy with
        | none => exact absurd hv hrules
        | some v =>
          rw [hv] at hstrict
          cases v with
          | arr xs => rfl
          | null | bool | num | str | obj => cases hstrict
      have hunnamed : get? (lit "version") policy = none := by
        by_contra hsome
        obtain ⟨raws, hraws⟩ := exists_mapM_some fun d hd =>
          (hall d hd).imp fun raw hraw => Option.mem_def.mp hraw.1
        have hshort' := shortcut_eq_some.mpr
          ⟨Option.isSome_iff_ne_none.mpr hsome, policyRules policy, hlist, hraws⟩
        rw [hshort] at hshort'
        cases hshort'
      have hversion : VersionPrints policy := fun hnone => absurd hnone hrules
      have hprints : ∀ v, get? (lit "version") policy = some v → (docText v).isSome = true := by
        rw [hunnamed]
        simp
      refine (and_iff_right hprints).trans (Iff.trans ?_ (and_iff_right hversion).symm)
      refine forall₂_congr fun d hd => ?_
      obtain ⟨raw, hraw, -⟩ := hall d hd
      rw [tsTakes_texts (hall d hd) hraw]
      constructor
      · rintro h raw' hraw'
        obtain rfl : raw = raw' := Option.mem_unique hraw hraw'
        exact ⟨fun _ => h.1, h.2⟩
      · intro h
        exact ⟨(h raw hraw).1 hunnamed, (h raw hraw).2⟩

/-- **Both engines refuse the same policies** exactly where the policy has
its texts, if Python evaluates it, and is not taken, if Python does not. -/
theorem refusals_agree_iff {T T' : Type} [LT T] [DecidableLT T] [Zero T] [Add T] [LT T']
    [DecidableLT T'] [Zero T'] [Add T'] {budget : T} {budget' : T'}
    (hpolicy : SafeDoc (.obj policy)) (hreceipt : SafeDoc (.obj receipt))
    (haggregates : SafeDoc (.obj aggregates)) (hbudget : ¬ 0 < budget) (hbudget' : ¬ 0 < budget')
    (at_ : Option PyStr) (at' : Option JsStr) (clock : Stream' T) (clock' : Stream' T') :
    ((∃ e, Py.evaluate (Py.ofMembers receipt) (.dict (Py.ofMembers policy))
          (some (Py.ofMembers aggregates)) budget at_ clock = .error e)
        ↔ ∃ e, Ts.evaluate (Ts.ofMembers receipt) (Ts.ofMembers policy)
          (some (Ts.ofMembers aggregates)) budget' at' clock' = .error e)
      ↔ RefusedAlike receipt aggregates policy := by
  rw [← not_succeeds_iff, ← not_succeeds_iff, not_iff_not,
    py_evaluate_iff hpolicy hreceipt haggregates hbudget at_ clock,
    ts_evaluate_iff hpolicy hreceipt haggregates hbudget' at' clock']
  constructor
  · intro h
    exact ⟨fun hsound => (taken_iff_texts hsound).mp (h.mp hsound), fun hunsound => mt h.mpr hunsound⟩
  · rintro ⟨hsound, hunsound⟩
    constructor
    · exact fun h => (taken_iff_texts h).mpr (hsound h)
    · exact fun h => not_not.mp fun hpy => hunsound hpy h

end

section Sample

attribute [local instance] Ucd.allPrintable

/-- A policy of one rule, of this type. -/
def onePolicy (type : String) : Members :=
  [(lit "rules", .arr [.obj [(lit "id", .str (lit "types")), (lit "type", .str (lit type)),
    (lit "outcome", .str (lit "deny")), (lit "parameters", .obj listedParameters)]])]

def inferenceReceipt : Members := [(lit "action_type", .str (lit "llm.inference"))]

/-- A policy both engines evaluate, and one of an unknown type that neither
does. -/
theorem refusals_agree_sample :
    ((∃ e, Py.evaluate (Py.ofMembers inferenceReceipt)
          (.dict (Py.ofMembers (onePolicy "action_type_allowlist"))) (some (Py.ofMembers [])) (0 : ℕ)
          none (Stream'.const 0) = .error e)
        ↔ ∃ e, Ts.evaluate (Ts.ofMembers inferenceReceipt)
          (Ts.ofMembers (onePolicy "action_type_allowlist")) (some (Ts.ofMembers [])) (0 : ℕ) none
          (Stream'.const 0) = .error e)
      ∧ ((∃ e, Py.evaluate (Py.ofMembers inferenceReceipt)
          (.dict (Py.ofMembers (onePolicy "bogus"))) (some (Py.ofMembers [])) (0 : ℕ) none
          (Stream'.const 0) = .error e)
        ↔ ∃ e, Ts.evaluate (Ts.ofMembers inferenceReceipt) (Ts.ofMembers (onePolicy "bogus"))
          (some (Ts.ofMembers [])) (0 : ℕ) none (Stream'.const 0) = .error e) := by
  have hpolicy (type : String) : SafeDoc (.obj (onePolicy type)) := by
    simp [SafeDoc, onePolicy, listedParameters, every_obj, every_arr]
  have hreceipt : SafeDoc (.obj inferenceReceipt) := by simp [SafeDoc, inferenceReceipt, every_obj]
  have hempty : SafeDoc (.obj []) := by simp [SafeDoc, every_obj]
  have hbudget : ¬ 0 < (0 : ℕ) := lt_irrefl 0
  have hpy (type : String) := py_evaluate_iff (hpolicy type) hreceipt hempty hbudget none (Stream'.const 0)
  have hts (type : String) := ts_evaluate_iff (hpolicy type) hreceipt hempty hbudget none (Stream'.const 0)
  constructor
  · have hsound := (hpy "action_type_allowlist").mp ⟨_, rfl⟩
    have htaken := (hts "action_type_allowlist").mp ⟨_, rfl⟩
    exact (refusals_agree_iff (hpolicy _) hreceipt hempty hbudget hbudget none none (Stream'.const 0)
      (Stream'.const 0)).mpr ⟨fun _ => (taken_iff_texts hsound).mp htaken, fun h => absurd hsound h⟩
  · have hunsound : ¬ Sound inferenceReceipt [] (onePolicy "bogus") :=
      mt (hpy "bogus").mpr (not_succeeds_iff.mpr ⟨_, rfl⟩)
    -- and TypeScript throws on the type as well
    have hrefused : ¬ Taken inferenceReceipt [] (onePolicy "bogus") :=
      mt (hts "bogus").mpr (not_succeeds_iff.mpr ⟨_, rfl⟩)
    exact (refusals_agree_iff (hpolicy _) hreceipt hempty hbudget hbudget none none (Stream'.const 0)
      (Stream'.const 0)).mpr ⟨fun h => absurd h hunsound, fun _ => hrefused⟩

/-- A policy whose rules are a `null`. -/
def nullRulesPolicy : Members := [(lit "rules", .null)]

/-- **A policy Python refuses is evaluated**: Python asks for a list of
rules, TypeScript takes the `null` for none of them and allows. -/
theorem refusals_agree_fails :
    (∃ e, Py.evaluate (Py.ofMembers []) (.dict (Py.ofMembers nullRulesPolicy))
        (some (Py.ofMembers [])) (0 : ℕ) none (Stream'.const 0) = .error e)
      ∧ (∃ D, Ts.evaluate (Ts.ofMembers []) (Ts.ofMembers nullRulesPolicy)
        (some (Ts.ofMembers [])) (0 : ℕ) none (Stream'.const 0) = .ok D
          ∧ D.decision = .str (lit "allow"))
      ∧ ¬ RefusedAlike [] [] nullRulesPolicy := by
  have hpolicy : SafeDoc (.obj nullRulesPolicy) := by simp [SafeDoc, nullRulesPolicy, every_obj]
  have hempty : SafeDoc (.obj []) := by simp [SafeDoc, every_obj]
  have hbudget : ¬ 0 < (0 : ℕ) := lt_irrefl 0
  have hunsound : ¬ Sound [] [] nullRulesPolicy :=
    mt (py_evaluate_iff hpolicy hempty hempty hbudget none (Stream'.const 0)).mpr
      (not_succeeds_iff.mpr ⟨_, rfl⟩)
  have htaken : Taken [] [] nullRulesPolicy :=
    (ts_evaluate_iff hpolicy hempty hempty hbudget none (Stream'.const 0)).mp ⟨_, rfl⟩
  exact ⟨⟨_, rfl⟩, ⟨_, rfl, rfl⟩, fun h => h.unsound hunsound htaken⟩

end Sample

end Parity

end OpenTerms
