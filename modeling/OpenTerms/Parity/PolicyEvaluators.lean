import OpenTerms.Parity.PolicyRules

/-!
# The ten evaluators, one by one

Each evaluator of the one language against its port in the other, on one
rule and one receipt; `rule_parity` puts them together. The checks come
first on both sides and are alike, so what is left to compare is the last
line of each.
-/

namespace OpenTerms

namespace Parity

open Json Utf16

/-- The parameters with a default. -/
def optionalParams : List String := ["window", "source_field", "mode", "field", "applies_to"]

/-- What a rule and its inputs are taken to be: safe integers for
numbers, no optional parameter `null`, and an integer aggregate for a
daily limit. -/
structure InDomain (receipt aggregates : Members) (r : RuleDoc) : Prop where
  optional : ∀ k ∈ optionalParams, get? (lit k) r.parameters ≠ some .null
  supplied : r.type = .dailyLimit → ∃ z, get? r.id aggregates = some (.num (.int z))
  parameters : ∀ m ∈ r.parameters, SafeDoc m.2
  receipt : ∀ m ∈ receipt, SafeDoc m.2
  aggregates : ∀ m ∈ aggregates, SafeDoc m.2

section

variable {receipt aggregates : Members} {r : RuleDoc} {prints prefixes : Prop}

/-- Both raise on a check that fails. -/
theorem RuleParity.ruleError (e : Py.PyErr) (id : Ts.JsVal) (text : Except Ts.TsErr JsStr) :
    RuleParity prints prefixes (.error e) (Ts.ruleError id text) := by
  unfold Ts.ruleError
  cases Ts.toStr id with
  | error e' => exact .raises e e'
  | ok ruleText =>
    cases text with
    | error e' => exact .raises e e'
    | ok t => exact .raises e _

/-- A parameter with a text for a default, in Python. -/
theorem py_param {k dflt : String} (hk : Ascii k) (hdflt : Ascii dflt) (r : RuleDoc) :
    (get? (lit k) r.toPy.parameters).getD (.str (lit dflt))
      = Py.ofDoc (r.param k (.str (lit dflt))) := by
  have hstr : (.str (lit dflt) : Py.PyVal) = Py.ofDoc (.str (lit dflt)) := by
    rw [py_ofDoc_str, decode_lit hdflt]
  rw [hstr]
  exact py_getD hk r.parameters (.str (lit dflt))

/-- A parameter of a rule, in TypeScript. -/
theorem ts_readParam (r : RuleDoc) (k : JsStr) :
    Ts.readProp r.toTs.parameters k = .ok (Ts.getProp (Ts.ofMembers r.parameters) k) := rfl

/-- A parameter with a text for a default, in TypeScript. -/
theorem ts_param {k : String} (hk : k ∈ optionalParams) (hown : Ts.OwnName (lit k))
    (h : InDomain receipt aggregates r) (dflt : JsStr) :
    Ts.orElse (Ts.getProp (Ts.ofMembers r.parameters) (lit k)) (.str dflt)
      = .json (Ts.ofDoc (r.param k (.str dflt))) :=
  ts_orElse hown (h.optional k hk) (.str dflt)

/-! ## Amounts -/

section

variable [Ucd]

theorem parity_maxAmount (h : InDomain receipt aggregates r) :
    RuleParity True True (Py.evalMaxAmount r.toPy (Py.ofMembers receipt))
      (Ts.evalMaxAmount r.toTs (Ts.ofMembers receipt)) := by
  refine RuleParity.bind (alike_requireInt (by decide) (by decide) h.parameters)
    fun t t' ht => ?_
  refine RuleParity.bind (alike_amount h.receipt) fun a a' ha => ?_
  obtain ⟨-, rfl⟩ := ht
  obtain ⟨-, rfl⟩ := ha
  refine RuleParity.ite ?_ trivial trivial
  rw [Double.lt_fin, decide_eq_true_iff, Int.cast_lt]

theorem parity_escalationThreshold (h : InDomain receipt aggregates r) :
    RuleParity True True (Py.evalEscalationThreshold r.toPy (Py.ofMembers receipt))
      (Ts.evalEscalationThreshold r.toTs (Ts.ofMembers receipt)) := by
  refine RuleParity.bind (alike_requireInt (by decide) (by decide) h.parameters)
    fun t t' ht => ?_
  refine RuleParity.bind (alike_amount h.receipt) fun a a' ha => ?_
  obtain ⟨-, rfl⟩ := ht
  obtain ⟨-, rfl⟩ := ha
  refine RuleParity.ite ?_ trivial trivial
  rw [Double.lt_fin, Bool.not_eq_true', decide_eq_false_iff_not, Int.cast_lt, not_lt]

omit [Ucd] in
/-- A rounded sum of safe integers exceeds a safe threshold when the sum
does. -/
theorem lt_add_iff {p a t : ℤ} (ht : t.natAbs ≤ 2 ^ 53 - 1) :
    (Double.fin (t : ℚ)).lt ((Double.fin (p : ℚ)).add (.fin (a : ℚ))) = true ↔ t < p + a := by
  have hadd : (Double.fin (p : ℚ)).add (.fin (a : ℚ)) = Double.ofInt (p + a) := by
    rw [← Double.ofRat_intCast, Int.cast_add]
    rfl
  rw [hadd, Double.lt_ofInt ht, decide_eq_true_iff]

omit [Ucd] in
/-- The aggregate supplied for a rule. -/
theorem alike_prior (h : InDomain receipt aggregates r) (htype : r.type = .dailyLimit) :
    ∃ z : ℤ, Py.asInt ((get? r.toPy.id (Py.ofMembers aggregates)).getD (.num (.int 0))) = some z
      ∧ Ts.asInt (Ts.orElse (Ts.getProp (Ts.ofMembers aggregates) r.id) (.num (.fin 0)))
        = some (.fin (z : ℚ)) := by
  obtain ⟨z, hz⟩ := h.supplied htype
  have hsafe : SafeDoc (.num (.int z)) := h.aggregates _ (mem_of_get? hz)
  refine ⟨z, ?_, ?_⟩
  · have hget : get? r.toPy.id (Py.ofMembers aggregates) = some (Py.ofDoc (.num (.int z))) := by
      rw [RuleDoc.toPy, Py.get?_ofMembers, hz]
      rfl
    rw [hget, Option.getD_some, py_asInt hsafe]
    rfl
  · have hget : Ts.getProp (Ts.ofMembers aggregates) r.id = .json (Ts.ofDoc (.num (.int z))) := by
      rw [Ts.getProp, Ts.get?_ofMembers, hz]
      rfl
    rw [hget]
    exact ts_asInt hsafe

theorem parity_dailyLimit (h : InDomain receipt aggregates r) (htype : r.type = .dailyLimit) :
    RuleParity True True
      (Py.evalDailyLimit r.toPy (Py.ofMembers receipt) (Py.ofMembers aggregates))
      (Ts.evalDailyLimit r.toTs (Ts.ofMembers receipt) (Ts.ofMembers aggregates)) := by
  refine RuleParity.bind (alike_requireInt (by decide) (by decide) h.parameters)
    fun t t' ht => ?_
  obtain ⟨hsafe, rfl⟩ := ht
  rw [ts_readParam, ok_bind]
  dsimp only
  rw [py_param (by decide) (by decide), oneOf_alike (by decide),
    ts_param (by simp [optionalParams]) (by decide) h]
  have hvalid : Py.validDailyWindows = Ts.validDailyWindows := rfl
  rw [hvalid]
  cases Ts.oneOf id Ts.validDailyWindows
    (.json (Ts.ofDoc (r.param "window" (.str (lit "utc_day"))))) with
  | none => exact RuleParity.ruleError _ _ _
  | some w =>
    obtain ⟨z, hpy, hts⟩ := alike_prior h htype
    have hkey : Ts.toStr r.toTs.id = .ok r.id := rfl
    rw [raiseWhen_neg (by simp), ok_bind, hpy]
    dsimp only
    rw [hkey, ok_bind, hts]
    refine RuleParity.bind (alike_amount h.receipt) fun a a' ha => ?_
    obtain ⟨-, rfl⟩ := ha
    exact RuleParity.ite (lt_add_iff hsafe).symm trivial trivial

/-! ## Allow and deny lists -/

omit [Ucd] in
/-- A member of the receipt against a list of strings. -/
theorem isIn_receipt (us : List JsStr) :
    Py.isIn (Py.getD (lit "action_type") (Py.ofMembers receipt)) (us.map decode)
      = Ts.isIn (Ts.getProp (Ts.ofMembers receipt) (lit "action_type")) us := by
  unfold Py.getD
  rw [py_get? (by decide), ts_getProp (by decide)]
  cases get? (lit "action_type") receipt with
  | none => exact isIn_alike .null us
  | some d => exact isIn_alike d us

omit [Ucd] in
/-- What is on a list of strings is a string, and a string prints. -/
theorem printable_of_isIn {v : Ts.JsAny} {us : List JsStr} (h : Ts.isIn v us = true) :
    Printable v := by
  unfold Ts.isIn at h
  cases hstr : Ts.asStr v with
  | none =>
    rw [hstr] at h
    cases h
  | some s =>
    unfold Ts.asStr at hstr
    split at hstr
    · exact ⟨_, rfl⟩
    · cases hstr

theorem parity_actionTypeAllowlist :
    RuleParity (Printable (Ts.getProp (Ts.ofMembers receipt) (lit "action_type"))) True
      (Py.evalActionTypeAllowlist r.toPy (Py.ofMembers receipt))
      (Ts.evalActionTypeAllowlist r.toTs (Ts.ofMembers receipt)) := by
  refine RuleParity.bind (alike_requireList (by decide) (by decide))
    fun ss us hus => ?_
  obtain ⟨-, rfl⟩ := hus
  dsimp only
  rw [isIn_receipt]
  refine RuleParity.ite_print Iff.rfl Iff.rfl (fun hin => @printable_of_isIn _ us ?_) trivial
  simpa using hin

theorem parity_actionTypeDenylist :
    RuleParity True True
      (Py.evalActionTypeDenylist r.toPy (Py.ofMembers receipt))
      (Ts.evalActionTypeDenylist r.toTs (Ts.ofMembers receipt)) := by
  refine RuleParity.bind (alike_requireList (by decide) (by decide))
    fun ss us hus => ?_
  obtain ⟨-, rfl⟩ := hus
  dsimp only
  rw [isIn_receipt]
  by_cases hin : Ts.isIn (Ts.getProp (Ts.ofMembers receipt) (lit "action_type")) us = true
  · obtain ⟨text, htext⟩ := printable_of_isIn hin
    rw [if_pos hin, if_pos hin, htext]
    exact .agrees _ _ rfl trivial trivial
  · rw [if_neg hin, if_neg hin]
    exact RuleParity.notFired trivial trivial

omit [Ucd] in
/-- `None` is always printed. -/
theorem printable_nullish {v : Ts.JsAny} (h : Ts.nullish v = true) : Printable v := by
  cases v with
  | undefined => exact ⟨_, rfl⟩
  | json v =>
    cases v with
    | null => exact ⟨_, rfl⟩
    | bool | num | str | arr | obj => cases h
  | builtin f => cases h
  | objectPrototype => cases h

omit [Ucd] in
theorem ofDoc_ne_null {d : Doc} (hd : d ≠ .null) : Py.ofDoc d ≠ .null := by
  cases d with
  | null => exact absurd rfl hd
  | bool | num | str | arr | obj => exact nofun

theorem parity_toolIdAllowlist :
    RuleParity (Printable (Ts.resolvePath (Ts.ofMembers receipt) Ts.toolIdPath)) True
      (Py.evalToolIdAllowlist r.toPy (Py.ofMembers receipt))
      (Ts.evalToolIdAllowlist r.toTs (Ts.ofMembers receipt)) := by
  refine RuleParity.bind (alike_requireList (by decide) (by decide))
    fun ss us hus => ?_
  obtain ⟨-, rfl⟩ := hus
  have hpath : decode Ts.toolIdPath = Py.toolIdPath := decode_lit (by decide)
  have hsame := samePath_toolId receipt
  unfold SamePath at hsame
  rw [hpath] at hsame
  dsimp only
  rcases hsame.cases with ⟨hpy, hts⟩ | ⟨d, hd, hpy, hts, hnull⟩
  · rw [if_pos hpy, if_pos hts]
    exact .agrees _ _ rfl (printable_nullish hts) trivial
  · rw [hpy, hts]
    rw [hts] at hnull
    rw [if_neg (ofDoc_ne_null hd), hnull, if_neg (show ¬ (false = true) by decide), isIn_alike]
    refine RuleParity.ite_print Iff.rfl Iff.rfl (fun hin => @printable_of_isIn _ us ?_) trivial
    simpa using hin

/-! ## URL prefixes -/

omit [Ucd] in
/-- The field a URL rule names resolves alike. -/
theorem samePath_sourceField [Ucd] (hagree : HelpersAgree receipt r)
    (htype : r.type = .urlPrefixAllowlist ∨ r.type = .urlPrefixDenylist) {p : JsStr}
    (hp : r.sourceField = some p) : SamePath receipt p := by
  unfold RuleDoc.sourceField RuleDoc.param at hp
  cases hget : get? (lit "source_field") r.parameters with
  | none =>
    rw [hget, Option.getD_none] at hp
    obtain rfl := Option.some.inj hp
    exact samePath_termsUrl receipt
  | some d =>
    rw [hget, Option.getD_some] at hp
    refine hagree.paths p ?_
    unfold RuleDoc.path?
    rcases htype with htype | htype
    · rw [htype, hget]
      exact hp
    · rw [htype, hget]
      exact hp

omit [Ucd] in
/-- The text of what a path leads to. -/
theorem asStr_alike {v : Py.PyVal} {w : Ts.JsAny} (h : SameValue v w) :
    (Py.asStr v).getD [] = decode ((Ts.asStr w).getD []) := by
  rcases h.cases with ⟨rfl, hw⟩ | ⟨d, -, rfl, rfl, -⟩
  · have hnone : Ts.asStr w = none := by
      cases w with
      | undefined => rfl
      | json w =>
        cases w with
        | null => rfl
        | bool | num | str | arr | obj => cases hw
      | builtin f => cases hw
      | objectPrototype => cases hw
    rw [hnone]
    rfl
  · rw [py_asStr, ts_asStr]
    cases docStr d <;> rfl

/-- The text a URL rule tests. -/
theorem alike_urlSource (h : InDomain receipt aggregates r) (hagree : HelpersAgree receipt r)
    (htype : r.type = .urlPrefixAllowlist ∨ r.type = .urlPrefixDenylist) :
    Alike (fun s t => (Py.asStr s.2).getD [] = decode (urlText receipt r)
        ∧ (Ts.asStr t.2).getD [] = urlText receipt r)
      (Py.urlSource r.toPy (Py.ofMembers receipt))
      (Ts.urlSource r.toTs (Ts.ofMembers receipt)) := by
  unfold Py.urlSource Ts.urlSource
  rw [ts_readParam, ok_bind, py_param (by decide) (by decide),
    ts_param (by simp [optionalParams]) (by decide) h, py_asStr, ts_asStr]
  have hsource : docStr (r.param "source_field" (.str (lit "terms_url"))) = r.sourceField := rfl
  rw [hsource]
  cases hp : r.sourceField with
  | none => exact alike_ruleError _ _
  | some p =>
    have htext : urlText receipt r
        = (Ts.asStr (Ts.resolvePath (Ts.ofMembers receipt) p)).getD [] := by
      unfold urlText
      rw [hp]
    rw [htext]
    exact alike_ok ⟨asStr_alike (samePath_sourceField hagree htype hp), rfl⟩

omit [Ucd] in
/-- A list of prefixes in the rule's terms. -/
theorem prefixes_iff {k : String} {us : List JsStr} {P : List JsStr → Prop}
    (hus : listParam k r.parameters = some us) :
    (∀ us', listParam k r.parameters = some us' → P us') ↔ P us := by
  rw [hus]
  exact ⟨fun h => h us rfl, fun h us' hus' => Option.some.inj hus' ▸ h⟩

omit [Ucd] in
/-- A prefix by code points is one by code units. -/
theorem prefix_of_any {us : List JsStr} {text : JsStr}
    (h : ∃ p ∈ us, decode p <+: decode text) : ∃ p ∈ us, p <+: text := by
  obtain ⟨p, hp, hpre⟩ := h
  exact ⟨p, hp, prefix_of_decode hpre⟩

omit [Ucd] in
/-- Some prefix of a list fits, by code points. -/
theorem any_prefix_iff {C : Type} [DecidableEq C] {ps : List (List C)} {text : List C} :
    (ps.any (·.isPrefixOf text)) = true ↔ ∃ p ∈ ps, p <+: text := by
  rw [List.any_eq_true]
  simp only [List.isPrefixOf_iff_prefix]

theorem parity_urlPrefixAllowlist (h : InDomain receipt aggregates r)
    (hagree : HelpersAgree receipt r) (htype : r.type = .urlPrefixAllowlist) :
    RuleParity True (PrefixesAgree receipt r)
      (Py.evalUrlPrefixAllowlist r.toPy (Py.ofMembers receipt))
      (Ts.evalUrlPrefixAllowlist r.toTs (Ts.ofMembers receipt)) := by
  refine RuleParity.bind (alike_requireList (by decide) (by decide))
    fun ss us hus => ?_
  obtain ⟨hus, rfl⟩ := hus
  refine RuleParity.bind (alike_urlSource h hagree (Or.inl htype)) fun s t hst => ?_
  obtain ⟨hs, ht⟩ := hst
  have hprefixes : PrefixesAgree receipt r ↔ ((∃ p ∈ us, p <+: urlText receipt r)
      → ∃ p ∈ us, decode p <+: decode (urlText receipt r)) := by
    unfold PrefixesAgree
    rw [htype]
    exact prefixes_iff hus
  dsimp only
  rw [hs, ht]
  simp only [Bool.not_eq_true', Bool.eq_false_iff, ne_eq, any_prefix_iff, List.mem_map,
    exists_exists_and_eq_and]
  by_cases hts : ∃ p ∈ us, p <+: urlText receipt r
  · by_cases hpy : ∃ p ∈ us, decode p <+: decode (urlText receipt r)
    · rw [if_neg (not_not.mpr hpy), if_neg (not_not.mpr hts)]
      exact .agrees _ _ rfl trivial (hprefixes.mpr fun _ => hpy)
    · rw [if_pos hpy, if_neg (not_not.mpr hts)]
      exact .prefixesPart _ _ (by rintro ⟨⟩) fun hp => hpy (hprefixes.mp hp hts)
  · rw [if_pos (mt prefix_of_any hts), if_pos hts]
    exact .agrees _ _ rfl trivial (hprefixes.mpr fun hp => absurd hp hts)

theorem parity_urlPrefixDenylist (h : InDomain receipt aggregates r)
    (hagree : HelpersAgree receipt r) (htype : r.type = .urlPrefixDenylist) :
    RuleParity True (PrefixesAgree receipt r)
      (Py.evalUrlPrefixDenylist r.toPy (Py.ofMembers receipt))
      (Ts.evalUrlPrefixDenylist r.toTs (Ts.ofMembers receipt)) := by
  refine RuleParity.bind (alike_requireList (by decide) (by decide))
    fun ss us hus => ?_
  obtain ⟨hus, rfl⟩ := hus
  refine RuleParity.bind (alike_urlSource h hagree (Or.inr htype)) fun s t hst => ?_
  obtain ⟨hs, ht⟩ := hst
  have hprefixes : PrefixesAgree receipt r ↔ ((∃ p ∈ us, p <+: urlText receipt r)
      → ∃ p ∈ us, decode p <+: decode (urlText receipt r)) := by
    unfold PrefixesAgree
    rw [htype]
    exact prefixes_iff hus
  dsimp only
  rw [hs, ht]
  cases hpy : (us.map decode).find? (·.isPrefixOf (decode (urlText receipt r))) with
  | some q =>
    have hq := List.find?_some hpy
    obtain ⟨p, hp, rfl⟩ := List.mem_map.mp (List.mem_of_find?_eq_some hpy)
    have hpre : decode p <+: decode (urlText receipt r) := List.isPrefixOf_iff_prefix.mp hq
    cases hts : us.find? (·.isPrefixOf (urlText receipt r)) with
    | some q' => exact .agrees _ _ rfl trivial (hprefixes.mpr fun _ => ⟨p, hp, hpre⟩)
    | none =>
      exact absurd (List.isPrefixOf_iff_prefix.mpr (prefix_of_decode hpre))
        (List.find?_eq_none.mp hts p hp)
  | none =>
    have hnone : ¬ ∃ p ∈ us, decode p <+: decode (urlText receipt r) := by
      rintro ⟨p, hp, hpre⟩
      exact List.find?_eq_none.mp hpy (decode p) (List.mem_map_of_mem hp)
        (List.isPrefixOf_iff_prefix.mpr hpre)
    cases hts : us.find? (·.isPrefixOf (urlText receipt r)) with
    | some q =>
      have hq := List.find?_some hts
      exact .prefixesPart _ _ nofun fun hp => hnone (hprefixes.mp hp
        ⟨q, List.mem_of_find?_eq_some hts, List.isPrefixOf_iff_prefix.mp hq⟩)
    | none =>
      refine .agrees _ _ rfl trivial (hprefixes.mpr ?_)
      rintro ⟨p, hp, hpre⟩
      exact absurd (List.isPrefixOf_iff_prefix.mpr hpre) (List.find?_eq_none.mp hts p hp)

end

end

end Parity

end OpenTerms
