import OpenTerms.Parity.PolicyDispatch
import OpenTerms.Parity.PolicyWellFormed
import OpenTerms.Py.Policy.Engine
import OpenTerms.Ts.Policy

/-!
# One policy in both engines

The rules of a policy document Python accepts (`rulesOf`) are the rules
both engines run: Python reads them one by one, and TypeScript either
does the same or takes the document as it is (`reads_alike`).
-/

namespace OpenTerms

namespace Parity

open Json Utf16

/-! ## Reading the rules -/

/-- The rules a policy lists: none where the member is absent. -/
def policyRules (policy : Members) : List Doc :=
  match get? (lit "rules") policy with
  | some (.arr ds) => ds
  | _ => []

/-- A document with a rule's four members. -/
def RuleDoc.read : Doc → Option RuleDoc
  | .obj ms => do
    let id ← (get? (lit "id") ms).bind docStr
    let typeText ← (get? (lit "type") ms).bind docStr
    let type ← validRuleTypes.find? fun t => lit t.text = typeText
    let outcomeText ← (get? (lit "outcome") ms).bind docStr
    let outcome ← validOutcomes.find? fun o => lit o.text = outcomeText
    match get? (lit "parameters") ms with
    | some (.obj parameters) => some ⟨id, type, outcome, parameters⟩
    | _ => none
  | _ => none

/-- The rules of a policy. -/
def rulesOf (policy : Members) : List RuleDoc := (policyRules policy).filterMap RuleDoc.read

/-- The id of every rule is a string. -/
def StringIds (policy : Members) : Prop :=
  ∀ d ∈ policyRules policy, ∀ ms, d = .obj ms → ∃ us, get? (lit "id") ms = some (.str us)

/-- A document that states a rule. -/
structure States (d : Doc) (r : RuleDoc) : Prop where
  members : ∃ ms, d = .obj ms ∧ get? (lit "id") ms = some (.str r.id)
    ∧ get? (lit "type") ms = some (.str (lit r.type.text))
    ∧ get? (lit "outcome") ms = some (.str (lit r.outcome.text))
    ∧ get? (lit "parameters") ms = some (.obj r.parameters)

theorem find?_ruleType (type : RuleType) :
    (validRuleTypes.find? fun t => decide ((lit t.text : JsStr) = lit type.text)) = some type := by
  cases type <;> decide

theorem find?_outcome (outcome : DecisionOutcome) :
    (validOutcomes.find? fun o => decide ((lit o.text : JsStr) = lit outcome.text))
      = some outcome := by
  cases outcome <;> decide

theorem States.read {d : Doc} {r : RuleDoc} (h : States d r) : RuleDoc.read d = some r := by
  obtain ⟨ms, rfl, hid, htype, houtcome, hparameters⟩ := h.members
  rw [RuleDoc.read, hid, htype, houtcome, hparameters]
  simp only [Option.bind_eq_bind, Option.bind_some, docStr, find?_ruleType, find?_outcome]

/-- What is one of a few texts, in Python, is that text. -/
theorem docStr_of_oneOf {α : Type} {text : α → String} {valid : List α}
    (htext : ∀ a ∈ valid, Ascii (text a)) {d : Doc} {a : α}
    (h : Py.oneOf text valid (Py.ofDoc d) = some a) : d = .str (lit (text a)) := by
  rw [oneOf_alike htext] at h
  have hjson := Ts.JsAny.json.inj (eq_of_oneOf h)
  cases d with
  | str us =>
    rw [ts_ofDoc_str] at hjson
    rw [Json.str.inj hjson]
  | null | bool | num | arr | obj => cases hjson

section

variable [Ucd]

/-- What Python takes for a rule, with a string for an id, states one. -/
theorem states_of_fromDict {d : Doc} {rule : Py.Rule}
    (hid : ∀ ms, d = .obj ms → ∃ us, get? (lit "id") ms = some (.str us))
    (h : Py.Rule.fromDict (Py.ofDoc d) = .ok rule) : ∃ r, States d r ∧ rule = r.toPy := by
  obtain ⟨_, -, h⟩ := bind_eq_ok_iff.mp h
  obtain ⟨type, htype, h⟩ := bind_eq_ok_iff.mp h
  cases d with
  | obj ms =>
    obtain ⟨us, hus⟩ := hid ms rfl
    rw [Py.ofDoc_obj] at h htype
    have hsub {k : String} (hk : Ascii k) {v : Py.PyVal}
        (hv : Py.subscript (lit k) (.obj (Py.ofMembers ms)) = .ok v) :
        ∃ d, get? (lit k) ms = some d ∧ v = Py.ofDoc d := by
      rw [Py.subscript, py_get? hk] at hv
      cases hget : get? (lit k) ms with
      | none =>
        rw [hget] at hv
        cases hv
      | some d =>
        rw [hget] at hv
        exact ⟨d, rfl, (Except.ok.inj hv).symm⟩
    obtain ⟨dt, hdt, rfl⟩ := hsub (by decide) htype
    cases hone : Py.oneOf RuleType.text validRuleTypes (Py.ofDoc dt) with
    | none =>
      rw [hone] at h
      cases h
    | some ruleType =>
      rw [hone] at h
      obtain ⟨outcome, houtcome, h⟩ := bind_eq_ok_iff.mp h
      obtain ⟨dout, hdout, rfl⟩ := hsub (by decide) houtcome
      cases honeOut : Py.oneOf DecisionOutcome.text validOutcomes (Py.ofDoc dout) with
      | none =>
        rw [honeOut] at h
        cases h
      | some decisionOutcome =>
        rw [honeOut] at h
        obtain ⟨parameters, hparameters, h⟩ := bind_eq_ok_iff.mp h
        obtain ⟨dp, hdp, rfl⟩ := hsub (by decide) hparameters
        cases dp with
        | obj ps =>
          rw [Py.ofDoc_obj] at h
          obtain ⟨id, hidval, h⟩ := bind_eq_ok_iff.mp h
          obtain ⟨di, hdi, rfl⟩ := hsub (by decide) hidval
          obtain rfl : di = .str us := Option.some.inj (hdi.symm.trans hus)
          refine ⟨⟨us, ruleType, decisionOutcome, ps⟩, ⟨ms, rfl, hus, ?_, ?_, hdp⟩, ?_⟩
          · rw [hdt, docStr_of_oneOf (by decide) hone]
          · rw [hdout, docStr_of_oneOf (by decide) honeOut]
          · exact (Except.ok.inj h).symm
        | null | bool | num | str | arr => cases h
  | null | bool | num | str | arr => cases htype

/-- Python's rules are the rules the document states. -/
theorem states_of_mapM {ds : List Doc} {rules : List Py.Rule}
    (hids : ∀ d ∈ ds, ∀ ms, d = .obj ms → ∃ us, get? (lit "id") ms = some (.str us))
    (h : (ds.map Py.ofDoc).mapM Py.Rule.fromDict = .ok rules) :
    ∃ rs, List.Forall₂ States ds rs ∧ rules = rs.map RuleDoc.toPy := by
  induction ds generalizing rules with
  | nil =>
    obtain rfl := Except.ok.inj h
    exact ⟨[], .nil, rfl⟩
  | cons d ds ih =>
    rw [List.forall_mem_cons] at hids
    rw [List.map_cons, List.mapM_cons] at h
    obtain ⟨rule, hrule, h⟩ := bind_eq_ok_iff.mp h
    obtain ⟨rest, hrest, h⟩ := bind_eq_ok_iff.mp h
    obtain rfl := Except.ok.inj h
    obtain ⟨r, hr, rfl⟩ := states_of_fromDict hids.1 hrule
    obtain ⟨rs, hrs, rfl⟩ := ih hids.2 hrest
    exact ⟨r :: rs, .cons hr hrs, rfl⟩

end

theorem read_of_states {ds : List Doc} {rs : List RuleDoc} (h : List.Forall₂ States ds rs) :
    ds.filterMap RuleDoc.read = rs := by
  induction h with
  | nil => rfl
  | cons hr _ ih => rw [List.filterMap_cons, hr.read, ih]

/-! ### In TypeScript -/

/-- A rule without its other members. -/
def bare (t : Ts.Rule) : Ts.Rule := { t with others := [] }

theorem States.probe {d : Doc} {r : RuleDoc} (h : States d r) :
    ∃ t, Ts.Rule.probe (Ts.ofDoc d) = some t ∧ bare t = r.toTs := by
  obtain ⟨ms, rfl, hid, htype, houtcome, hparameters⟩ := h.members
  rw [Ts.ofDoc_obj, Ts.Rule.probe, Ts.get?_ofMembers, Ts.get?_ofMembers, Ts.get?_ofMembers,
    Ts.get?_ofMembers, hid, htype, houtcome, hparameters]
  exact ⟨_, rfl, by simp only [bare, RuleDoc.toTs, Ts.ofDoc_obj, ts_ofDoc_str]⟩

theorem probe_of_states {ds : List Doc} {rs : List RuleDoc} (h : List.Forall₂ States ds rs) :
    ∃ ts, (ds.map Ts.ofDoc).mapM Ts.Rule.probe = some ts
      ∧ List.Forall₂ (fun t r => bare t = r.toTs) ts rs := by
  induction h with
  | nil => exact ⟨[], rfl, .nil⟩
  | cons hr _ ih =>
    obtain ⟨t, ht, hbare⟩ := hr.probe
    obtain ⟨ts, hts, hbares⟩ := ih
    refine ⟨t :: ts, ?_, .cons hbare hbares⟩
    rw [List.map_cons, List.mapM_cons, ht, hts]
    rfl

theorem States.ruleFromDict {d : Doc} {r : RuleDoc} (h : States d r) :
    Ts.ruleFromDict (Ts.ofDoc d) = .ok r.toTs := by
  obtain ⟨ms, rfl, hid, htype, houtcome, hparameters⟩ := h.members
  have hread {k : String} (hown : Ts.OwnName (lit k)) {d : Doc} (hd : get? (lit k) ms = some d) :
      Ts.readProp (.obj (Ts.ofMembers ms)) (lit k) = .ok (.json (Ts.ofDoc d)) := by
    rw [Ts.readProp, ts_getProp hown, hd]
  have hkey {k : String} (hown : Ts.OwnName (lit k)) {d : Doc} (hd : get? (lit k) ms = some d) :
      Ts.hasKey (.obj (Ts.ofMembers ms)) (lit k) = .ok true := by
    rw [ts_hasKey hown, hd]
    rfl
  have hfields : Ts.requireFields (.obj (Ts.ofMembers ms)) Ts.ruleFields = .ok () := by
    rw [Ts.ruleFields, Ts.requireFields, Ts.requireFields, Ts.requireFields, Ts.requireFields,
      Ts.requireFields, hkey (by decide) hid, hkey (by decide) htype,
      hkey (by decide) houtcome, hkey (by decide) hparameters]
    rfl
  have htypeOf : Ts.oneOf RuleType.text validRuleTypes (.json (.str (lit r.type.text)))
      = some r.type := by
    cases r.type <;> decide
  have houtcomeOf : Ts.oneOf DecisionOutcome.text validOutcomes (.json (.str (lit r.outcome.text)))
      = some r.outcome := by
    cases r.outcome <;> decide
  rw [Ts.ofDoc_obj, Ts.ruleFromDict, hfields, ok_bind, hread (by decide) htype, ok_bind,
    ts_ofDoc_str, htypeOf]
  dsimp only
  rw [hread (by decide) houtcome, ok_bind, ts_ofDoc_str, houtcomeOf]
  dsimp only
  rw [hread (by decide) hparameters, ok_bind, Ts.ofDoc_obj]
  dsimp only
  rw [hread (by decide) hid, ok_bind]
  rfl

theorem ruleFromDict_of_states {ds : List Doc} {rs : List RuleDoc}
    (h : List.Forall₂ States ds rs) :
    (ds.map Ts.ofDoc).mapM Ts.ruleFromDict = .ok (rs.map RuleDoc.toTs) := by
  induction h with
  | nil => rfl
  | cons hr _ ih =>
    rw [List.map_cons, List.mapM_cons, hr.ruleFromDict, ok_bind, ih]
    rfl

/-- A policy without rules still has its version printed. -/
def VersionPrints (policy : Members) : Prop :=
  get? (lit "rules") policy = none →
    ∀ v ∈ get? (lit "version") policy, Succeeds (Ts.toStr (Ts.ofDoc v))

/-- The version `policyFromDict` prints. -/
def versionText (policy : Members) : Except Ts.TsErr JsStr :=
  Ts.anyToStr (Ts.orElse (Ts.getProp (Ts.ofMembers policy) (lit "version")) (.str (lit "inline")))

theorem succeeds_versionText (policy : Members) :
    Succeeds (versionText policy)
      ↔ ∀ v ∈ get? (lit "version") policy, Succeeds (Ts.toStr (Ts.ofDoc v)) := by
  unfold versionText
  rw [ts_getProp (by decide)]
  cases get? (lit "version") policy with
  | none => exact iff_of_true (succeeds_ok _) nofun
  | some v =>
    cases v with
    | null =>
      refine iff_of_true (succeeds_ok _) ?_
      rintro v ⟨⟩
      exact succeeds_ok _
    | bool | num | str | arr | obj => exact ⟨fun h v hv => Option.some.inj hv ▸ h, fun h => h _ rfl⟩

/-- `policyFromDict`, on the rules a policy lists. -/
theorem policyFromDict_eq {policy : Members} {ds : List Doc}
    (hds : get? (lit "rules") policy = some (.arr ds) ∨ get? (lit "rules") policy = none ∧ ds = []) :
    Ts.policyFromDict (Ts.ofMembers policy) = (do
      let version ← versionText policy
      let rules ← (ds.map Ts.ofDoc).mapM Ts.ruleFromDict
      .ok { version := .str version, rules := rules }) := by
  unfold Ts.policyFromDict versionText
  rcases hds with hrules | ⟨hrules, rfl⟩
  · rw [ts_getProp (k := "rules") (by decide), hrules]
    dsimp only
    rw [ts_ofDoc_arr]
    rfl
  · rw [ts_getProp (k := "rules") (by decide), hrules]
    rfl

variable [Ucd] {receipt aggregates policy : Members}

/-- What Python takes for a policy lists its rules, or has none. -/
theorem rules_of_fromDict {pol : Py.Policy}
    (hpol : Py.Policy.fromDict (Py.ofMembers policy) = .ok pol) :
    (get? (lit "rules") policy = some (.arr (policyRules policy))
        ∨ get? (lit "rules") policy = none ∧ policyRules policy = [])
      ∧ ((policyRules policy).map Py.ofDoc).mapM Py.Rule.fromDict = .ok pol.rules := by
  unfold Py.Policy.fromDict at hpol
  rw [py_get? (by decide), py_get? (by decide)] at hpol
  unfold policyRules
  cases hrules : get? (lit "rules") policy with
  | none =>
    rw [hrules] at hpol
    obtain rfl := Except.ok.inj hpol
    exact ⟨Or.inr ⟨rfl, rfl⟩, rfl⟩
  | some d =>
    rw [hrules] at hpol
    cases d with
    | arr ds =>
      rw [Option.map_some, Option.getD_some, py_ofDoc_arr] at hpol
      obtain ⟨rules, hmapM, hpol⟩ := bind_eq_ok_iff.mp hpol
      obtain rfl := Except.ok.inj hpol
      exact ⟨Or.inl rfl, hmapM⟩
    | null | bool | num | str | obj => cases hpol

omit [Ucd] in
/-- With a version and a list of rules the policy goes through as it is. -/
theorem candidate_cases {rs : List RuleDoc}
    (hrules : get? (lit "rules") policy = some (.arr (policyRules policy))
      ∨ get? (lit "rules") policy = none ∧ policyRules policy = [])
    (hrs : List.Forall₂ States (policyRules policy) rs) :
    (∃ pol', Ts.candidate (Ts.ofMembers policy) = some pol'
        ∧ List.Forall₂ (fun t r => bare t = r.toTs) pol'.rules rs)
      ∨ Ts.candidate (Ts.ofMembers policy) = none
        ∧ (get? (lit "rules") policy = none ∨ get? (lit "version") policy = none) := by
  unfold Ts.candidate
  rw [Ts.get?_ofMembers, Ts.get?_ofMembers]
  cases hv : get? (lit "version") policy with
  | none => exact Or.inr ⟨rfl, Or.inr rfl⟩
  | some v =>
    rcases hrules with hrules | ⟨hrules, -⟩
    · obtain ⟨ts, hts, hbare⟩ := probe_of_states hrs
      rw [hrules, Option.map_some, Option.map_some, ts_ofDoc_arr]
      refine Or.inl ⟨⟨Ts.ofDoc v, ts⟩, ?_, hbare⟩
      simp only [Option.bind_eq_bind, Option.bind_some, hts]
    · rw [hrules]
      exact Or.inr ⟨rfl, Or.inl rfl⟩

/-- **Both engines run the rules the document states**, where TypeScript
gets to them. -/
theorem reads_alike {pol : Py.Policy} (hpol : Py.Policy.fromDict (Py.ofMembers policy) = .ok pol)
    (hids : StringIds policy) :
    pol.rules = (rulesOf policy).map RuleDoc.toPy
      ∧ (VersionPrints policy → ∃ pol', Ts.coercePolicy (Ts.ofMembers policy) = .ok pol'
        ∧ List.Forall₂ (fun t r => bare t = r.toTs) pol'.rules (rulesOf policy))
      ∧ (¬ VersionPrints policy → rulesOf policy = []
        ∧ ∃ e, Ts.coercePolicy (Ts.ofMembers policy) = .error e) := by
  obtain ⟨hrules, hmapM⟩ := rules_of_fromDict hpol
  obtain ⟨rs, hrs, hpolRules⟩ := states_of_mapM hids hmapM
  have hrulesOf : rulesOf policy = rs := read_of_states hrs
  have hdict := policyFromDict_eq hrules
  rw [ruleFromDict_of_states hrs] at hdict
  have hbare : List.Forall₂ (fun t r => bare t = r.toTs) (rs.map RuleDoc.toTs) rs := by
    rw [List.forall₂_map_left_iff]
    exact List.forall₂_same.mpr fun r _ => rfl
  rw [hrulesOf]
  refine ⟨hpolRules, fun hprints => ?_, fun hprints => ?_⟩
  · unfold Ts.coercePolicy
    rcases candidate_cases hrules hrs with ⟨pol', hcandidate, hbare'⟩ | ⟨hcandidate, hnone⟩
    · rw [hcandidate]
      exact ⟨pol', rfl, hbare'⟩
    · have hversion : Succeeds (versionText policy) := by
        rw [succeeds_versionText]
        rcases hnone with hnone | hnone
        · exact hprints hnone
        · rw [hnone]
          exact nofun
      obtain ⟨text, htext⟩ := hversion
      rw [hcandidate]
      dsimp only
      rw [hdict, htext]
      exact ⟨_, rfl, hbare⟩
  · unfold VersionPrints at hprints
    rw [Classical.not_imp, ← succeeds_versionText, not_succeeds_iff] at hprints
    obtain ⟨hnone, e, he⟩ := hprints
    have hds : policyRules policy = [] := by rw [policyRules, hnone]
    have hcandidate : Ts.candidate (Ts.ofMembers policy) = none := by
      rw [Ts.candidate, Ts.get?_ofMembers, Ts.get?_ofMembers, hnone]
      cases get? (lit "version") policy <;> rfl
    rw [hds] at hrs
    cases hrs
    refine ⟨rfl, e, ?_⟩
    rw [Ts.coercePolicy, hcandidate]
    dsimp only
    rw [hdict, he]
    rfl

end Parity

end OpenTerms
