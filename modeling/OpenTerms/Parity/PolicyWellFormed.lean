import OpenTerms.Parity.PolicyParams

/-!
# Rules that are well formed

What an evaluator checks before it decides anything, in the terms of the
document: `WellFormed` holds of the parameters, the receipt and the
aggregate that a rule does not refuse. The two engines differ in one
respect, a `null` for an optional parameter or an aggregate: Python takes
it for a value (`strict`), TypeScript for no value.
-/

namespace OpenTerms

namespace Parity

open Json Utf16

/-- Whether a `null` is a value, or the same as none. -/
inductive Nulls where
  | strict
  | lenient
  deriving DecidableEq

/-- An optional value, or the default. -/
def Nulls.orDefault (nulls : Nulls) (d : Option Doc) (dflt : Doc) : Doc :=
  match nulls, d with
  | .lenient, some .null => dflt
  | _, some d => d
  | _, none => dflt

/-- The one of the valid names that a document is. -/
def docOneOf {α : Type} (text : α → String) (valid : List α) (d : Doc) : Option α :=
  valid.find? fun a => docStr d = some (lit (text a))

/-- An integer among the members. -/
def intMember (k : String) (ms : Members) : Option ℤ := (get? (lit k) ms).bind docInt

/-- A string among the members. -/
def strMember (k : String) (ms : Members) : Option JsStr := (get? (lit k) ms).bind docStr

/-- A pattern the loop does not refuse. -/
def patternOk : Doc → Bool
  | .obj p =>
    (strMember "path" p).isSome && (strMember "value" p).isSome
      && ((get? (lit "op") p).bind (docOneOf PatternOp.text validOps)).isSome
  | _ => false

/-- The patterns of a rule: a list that is not empty. -/
def patternList (ps : Members) : Option (List Doc) :=
  match get? (lit "patterns") ps with
  | some (.arr (d :: ds)) => some (d :: ds)
  | _ => none

/-- The checks of an evaluator on the parameters of a rule, the receipt,
and the aggregate under the rule's id. -/
def WellFormed (nulls : Nulls) (receipt ps : Members) (prior : Option Doc) (type : RuleType) :
    Prop :=
  let optional (k : String) (dflt : Doc) := nulls.orDefault (get? (lit k) ps) dflt
  let urlSource := (docStr (optional "source_field" (.str (lit "terms_url")))).isSome
  match type with
  | .maxAmount | .escalationThreshold =>
    (intMember "threshold" ps).isSome ∧ (intMember "amount_charged" receipt).isSome
  | .dailyLimit =>
    (intMember "threshold" ps).isSome
      ∧ (docOneOf id ["utc_day", "rolling_24h"] (optional "window" (.str (lit "utc_day")))).isSome
      ∧ (docInt (nulls.orDefault prior (.num (.int 0)))).isSome
      ∧ (intMember "amount_charged" receipt).isSome
  | .actionTypeAllowlist | .toolIdAllowlist => (listParam "allowed" ps).isSome
  | .actionTypeDenylist => (listParam "denied" ps).isSome
  | .urlPrefixAllowlist => (listParam "allowed" ps).isSome ∧ urlSource
  | .urlPrefixDenylist => (listParam "denied" ps).isSome ∧ urlSource
  | .argsPatternMatch =>
    (patternList ps).isSome
      ∧ (docOneOf MatchMode.text [.any, .all] (optional "mode" (.str (lit "any")))).isSome
      ∧ ∀ d ∈ (patternList ps).getD [], patternOk d
  | .postStateAssertion =>
    (docOneOf AppliesTo.text [.postActionOnly, .always]
        (optional "applies_to" (.str (lit "post_action_only")))).isSome
      ∧ (get? (lit "expected_hash") ps = none ∨ get? (lit "expected_hash") ps = some .null
        ∨ (strMember "expected_hash" ps).isSome)
      ∧ (docStr (optional "field" (.str Ts.postStateHashPath))).isSome

/-! ## In Python -/

section

variable {receipt ps : Members}

theorem ts_oneOf {α : Type} (text : α → String) (valid : List α) (d : Doc) :
    Ts.oneOf text valid (.json (Ts.ofDoc d)) = docOneOf text valid d := by
  refine List.find?_congr fun a _ => ?_
  cases d with
  | str us => simp [docStr]
  | null | bool | num | arr | obj =>
    exact (decide_eq_false (by rintro ⟨⟩)).trans (decide_eq_false (by rintro ⟨⟩)).symm

theorem py_oneOf {α : Type} {text : α → String} {valid : List α}
    (htext : ∀ a ∈ valid, Ascii (text a)) (d : Doc) :
    Py.oneOf text valid (Py.ofDoc d) = docOneOf text valid d :=
  (oneOf_alike htext d).trans (ts_oneOf text valid d)

/-- `d.get(k, default)`. -/
theorem py_optional {k : String} (hk : Ascii k) (dflt : Doc) :
    (get? (lit k) (Py.ofMembers ps)).getD (Py.ofDoc dflt)
      = Py.ofDoc (Nulls.strict.orDefault (get? (lit k) ps) dflt) := by
  rw [py_getD hk]
  cases get? (lit k) ps <;> rfl

variable [Ucd]

theorem py_requireParam {k : String} (hk : Ascii k) (ruleId : PyStr) {v : Py.PyVal} :
    Py.requireParam (Py.ofMembers ps) (lit k) ruleId = .ok v
      ↔ ∃ d, get? (lit k) ps = some d ∧ v = Py.ofDoc d := by
  unfold Py.requireParam
  rw [py_get? hk]
  cases get? (lit k) ps with
  | none => exact ⟨nofun, fun ⟨_, h, _⟩ => nomatch h⟩
  | some d =>
    exact ⟨fun h => ⟨d, rfl, (Except.ok.inj h).symm⟩,
      fun ⟨d', hd, hv⟩ => by rw [hv, ← Option.some.inj hd]; rfl⟩

theorem py_requireInt {k : String} (hk : Ascii k) (hsafe : ∀ m ∈ ps, SafeDoc m.2)
    (ruleId : PyStr) :
    Succeeds (Py.requireInt (Py.ofMembers ps) (lit k) ruleId) ↔ (intMember k ps).isSome := by
  unfold Py.requireInt intMember
  rw [succeeds_bind_iff]
  simp only [py_requireParam hk]
  cases hget : get? (lit k) ps with
  | none => simp
  | some d =>
    have hd : SafeDoc d := hsafe _ (mem_of_get? hget)
    simp only [Option.some.injEq, Option.bind_some, exists_eq_left', ↓existsAndEq, and_true]
    rw [py_asInt hd]
    cases docInt d with
    | none => simp [not_succeeds_error]
    | some z => simp [succeeds_ok]

theorem py_requireList {k : String} (hk : Ascii k) (ruleId : PyStr) :
    Succeeds (Py.requireList (Py.ofMembers ps) (lit k) ruleId) ↔ (listParam k ps).isSome := by
  unfold Py.requireList listParam
  rw [succeeds_bind_iff]
  simp only [py_requireParam hk]
  cases get? (lit k) ps with
  | none => simp
  | some d =>
    simp only [Option.some.injEq, Option.bind_some, exists_eq_left', ↓existsAndEq, and_true]
    rw [py_asStrList]
    cases docStrs d with
    | none => simp [not_succeeds_error]
    | some us => simp [succeeds_ok]

theorem py_amount (hsafe : ∀ m ∈ receipt, SafeDoc m.2) (ruleId : PyStr) :
    Succeeds (Py.amount (Py.ofMembers receipt) ruleId)
      ↔ (intMember "amount_charged" receipt).isSome := by
  unfold Py.amount intMember Py.getD
  rw [py_get? (by decide)]
  cases hget : get? (lit "amount_charged") receipt with
  | none => simp [Py.asInt, not_succeeds_error]
  | some d =>
    have hd : SafeDoc d := hsafe _ (mem_of_get? hget)
    rw [Option.map_some, Option.getD_some, Option.bind_some, py_asInt hd]
    cases docInt d with
    | none => simp [not_succeeds_error]
    | some z => simp [succeeds_ok]

variable {rule : Py.Rule}

theorem py_urlSource (hps : rule.parameters = Py.ofMembers ps) (r : Py.PyDict) :
    Succeeds (Py.urlSource rule r)
      ↔ (docStr (Nulls.strict.orDefault (get? (lit "source_field") ps)
          (.str (lit "terms_url")))).isSome := by
  have hdflt : (.str (lit "terms_url") : Py.PyVal) = Py.ofDoc (.str (lit "terms_url")) := by
    rw [py_ofDoc_str, decode_lit (by decide)]
  unfold Py.urlSource
  rw [hps, hdflt, py_optional (by decide), py_asStr]
  cases docStr (Nulls.strict.orDefault (get? (lit "source_field") ps) (.str (lit "terms_url"))) with
  | none => simp [not_succeeds_error]
  | some us => simp [succeeds_ok]

/-- A pattern is refused for what it is, never for what it meets. -/
theorem py_matchPattern (r : Py.PyDict) (d : Doc) :
    Succeeds (Py.matchPattern rule r (Py.ofDoc d)) ↔ patternOk d := by
  cases d with
  | obj p =>
    have hop : Py.oneOf PatternOp.text validOps (Py.getD (lit "op") (Py.ofMembers p))
        = (get? (lit "op") p).bind (docOneOf PatternOp.text validOps) := by
      unfold Py.getD
      rw [py_get? (by decide)]
      cases get? (lit "op") p with
      | none => rfl
      | some d => exact py_oneOf (by decide) d
    have hstr {k : String} (hk : Ascii k) :
        Py.asStr (Py.getD (lit k) (Py.ofMembers p)) = (strMember k p).map decode := by
      unfold Py.getD strMember
      rw [py_get? hk]
      cases get? (lit k) p with
      | none => rfl
      | some d => exact py_asStr d
    rw [Py.ofDoc_obj, Py.matchPattern, patternOk, hstr (by decide),
      hstr (by decide), hop]
    cases strMember "path" p with
    | none => simp [not_succeeds_error]
    | some path =>
      cases strMember "value" p with
      | none => simp [not_succeeds_error]
      | some value =>
        cases (get? (lit "op") p).bind (docOneOf PatternOp.text validOps) with
        | none => simp [not_succeeds_error]
        | some op =>
          obtain ⟨hit, hhit⟩ := Py.matchOne_text op (decode value)
            (Py.resolvePath r (decode path))
          simp only [Option.map_some, hhit, ok_bind, Option.isSome_some, Bool.and_self, iff_true]
          exact succeeds_ok _
  | null | bool | num | str | arr => exact iff_of_false (not_succeeds_error _) (by rintro ⟨⟩)

theorem py_matchingPatterns (r : Py.PyDict) (ds : List Doc) :
    Succeeds (Py.matchingPatterns rule r (ds.map Py.ofDoc)) ↔ ∀ d ∈ ds, patternOk d := by
  induction ds with
  | nil => exact iff_of_true (succeeds_ok _) nofun
  | cons d ds ih =>
    rw [List.map_cons, Py.matchingPatterns, List.forall_mem_cons, ← py_matchPattern r d, ← ih]
    refine succeeds_bind_const fun hit _ => ?_
    exact (succeeds_bind_const fun rest _ => iff_true_intro (succeeds_ok _)).trans
      (and_iff_left trivial)

/-- The parameters of an `args_pattern_match` rule. -/
theorem py_patternParams (hps : rule.parameters = Py.ofMembers ps)
    {a : List Py.PyVal × MatchMode} :
    Py.patternParams rule = .ok a
      ↔ ∃ ds, patternList ps = some ds ∧ a.1 = ds.map Py.ofDoc
        ∧ docOneOf MatchMode.text [.any, .all]
            (Nulls.strict.orDefault (get? (lit "mode") ps) (.str (lit "any"))) = some a.2 := by
  have hdflt : (.str (lit "any") : Py.PyVal) = Py.ofDoc (.str (lit "any")) := by
    rw [py_ofDoc_str, decode_lit (by decide)]
  unfold Py.patternParams patternList Py.getD
  rw [hps, py_get? (by decide)]
  cases get? (lit "patterns") ps with
  | none => exact iff_of_false nofun fun ⟨_, h, _⟩ => nomatch h
  | some d =>
    cases d with
    | arr ds =>
      cases ds with
      | nil => exact iff_of_false nofun fun ⟨_, h, _⟩ => nomatch h
      | cons d ds =>
        rw [Option.map_some, Option.getD_some, py_ofDoc_arr, List.map_cons]
        dsimp only
        rw [hdflt, py_optional (by decide), py_oneOf (by decide)]
        cases docOneOf MatchMode.text [.any, .all]
            (Nulls.strict.orDefault (get? (lit "mode") ps) (.str (lit "any"))) with
        | none => exact iff_of_false nofun fun ⟨_, _, _, h⟩ => nomatch h
        | some m =>
          constructor
          · intro h
            obtain rfl := Except.ok.inj h
            exact ⟨_, rfl, rfl, rfl⟩
          · rintro ⟨ds', hds, ha, hm⟩
            obtain rfl := Option.some.inj hds
            obtain ⟨a₁, a₂⟩ := a
            obtain rfl := ha
            obtain rfl := Option.some.inj hm
            rfl
    | null | bool | num | str | obj => exact iff_of_false nofun fun ⟨_, h, _⟩ => nomatch h

theorem py_postStateParams (hps : rule.parameters = Py.ofMembers ps) :
    Succeeds (Py.postStateParams rule)
      ↔ WellFormed .strict receipt ps none .postStateAssertion := by
  have hdflt : (.str (lit "post_action_only") : Py.PyVal)
      = Py.ofDoc (.str (lit "post_action_only")) := by
    rw [py_ofDoc_str, decode_lit (by decide)]
  have hfield : (.str Py.postStateHashPath : Py.PyVal) = Py.ofDoc (.str Ts.postStateHashPath) := by
    rw [py_ofDoc_str]
    exact congrArg _ (decode_lit (by decide)).symm
  unfold Py.postStateParams WellFormed Py.getD strMember
  rw [hps, hdflt, py_optional (by decide), hfield, py_optional (by decide),
    py_get? (by decide)]
  dsimp only
  rw [py_oneOf (by decide), py_asStr]
  cases docOneOf AppliesTo.text [.postActionOnly, .always]
      (Nulls.strict.orDefault (get? (lit "applies_to") ps) (.str (lit "post_action_only"))) with
  | none => exact iff_of_false (not_succeeds_error _) (by simp)
  | some m =>
    dsimp only
    cases docStr (Nulls.strict.orDefault (get? (lit "field") ps) (.str Ts.postStateHashPath)) with
    | none =>
      refine iff_of_false ?_ (by simp)
      rw [succeeds_bind_iff]
      rintro ⟨_, -, h⟩
      exact not_succeeds_error _ h
    | some field =>
      refine (succeeds_bind_const fun _ _ => iff_true_intro (succeeds_ok _)).trans ?_
      rw [succeeds_raiseWhen]
      cases get? (lit "expected_hash") ps with
      | none => simp
      | some d =>
        cases d with
        | null => simp [Py.ofDoc]
        | str us => simp [Py.asStr, docStr]
        | bool | num | arr | obj => simp [Py.ofDoc, Py.asStr, docStr]

omit [Ucd] in
/-- A last step that decides whether the rule fires. -/
theorem succeeds_ite {p : Prop} [Decidable p] {a : Py.RuleResult} :
    Succeeds (if p then .ok a else .ok Py.notFired : Except Py.PyErr Py.RuleResult) ↔ True := by
  split <;> exact iff_true_intro (succeeds_ok _)

/-- **What Python refuses.** -/
theorem py_ruleSays (hps : rule.parameters = Py.ofMembers ps) (hsafe : ∀ m ∈ ps, SafeDoc m.2)
    (hreceipt : ∀ m ∈ receipt, SafeDoc m.2) {aggregates : Py.PyDict} {prior : Option Doc}
    (hprior : get? rule.id aggregates = prior.map Py.ofDoc) (hpriorSafe : ∀ d ∈ prior, SafeDoc d) :
    Succeeds (Py.ruleSays rule (Py.ofMembers receipt) aggregates)
      ↔ WellFormed .strict receipt ps prior rule.type := by
  have hthreshold := py_requireInt (k := "threshold") (by decide) hsafe rule.id
  have hamount := py_amount hreceipt rule.id
  have hlist {k : String} (hk : Ascii k) :
      Succeeds (Py.requireList rule.parameters (lit k) rule.id) ↔ (listParam k ps).isSome := by
    rw [hps]
    exact py_requireList hk rule.id
  have hallowed := hlist (k := "allowed") (by decide)
  have hdenied := hlist (k := "denied") (by decide)
  rw [← hps] at hthreshold
  have hsource := py_urlSource hps (Py.ofMembers receipt)
  unfold Py.ruleSays
  cases htype : rule.type <;> dsimp only [WellFormed]
  case maxAmount =>
    rw [← hthreshold, ← hamount]
    refine succeeds_bind_const fun t _ => ?_
    exact (succeeds_bind_const fun a _ => succeeds_ite).trans (and_iff_left trivial)
  case dailyLimit =>
    have hdflt : (.str (lit "utc_day") : Py.PyVal) = Py.ofDoc (.str (lit "utc_day")) := by
      rw [py_ofDoc_str, decode_lit (by decide)]
    have hzero : (.num (.int 0) : Py.PyVal) = Py.ofDoc (.num (.int 0)) := rfl
    have hvalid : Py.validDailyWindows = ["utc_day", "rolling_24h"] := rfl
    rw [← hthreshold, ← hamount]
    refine succeeds_bind_const fun t _ => ?_
    dsimp only
    rw [hps, hdflt, py_optional (by decide), hvalid, py_oneOf (by decide)]
    refine (succeeds_bind_const fun _ _ => ?_).trans
      (and_congr_left' (succeeds_raiseWhen.trans (by rw [Option.isNone_iff_eq_none, ← ne_eq,
        Option.isSome_iff_ne_none])))
    rw [hprior, hzero]
    have hget : (Option.map Py.ofDoc prior).getD (Py.ofDoc (.num (.int 0)))
        = Py.ofDoc (Nulls.strict.orDefault prior (.num (.int 0))) := by
      cases prior <;> rfl
    have hd : SafeDoc (Nulls.strict.orDefault prior (.num (.int 0))) := by
      cases prior with
      | none => exact ⟨0, rfl, by decide⟩
      | some d => exact hpriorSafe d rfl
    rw [hget, py_asInt hd]
    cases docInt (Nulls.strict.orDefault prior (.num (.int 0))) with
    | none => exact iff_of_false (not_succeeds_error _) fun h => nomatch h.1
    | some z =>
      refine (succeeds_bind_const fun a _ => succeeds_ite).trans ?_
      simp
  case actionTypeAllowlist =>
    rw [← hallowed]
    exact (succeeds_bind_const fun _ _ => succeeds_ite).trans (and_iff_left trivial)
  case actionTypeDenylist =>
    rw [← hdenied]
    exact (succeeds_bind_const fun _ _ => succeeds_ite).trans (and_iff_left trivial)
  case urlPrefixAllowlist =>
    rw [← hallowed, ← hsource]
    refine succeeds_bind_const fun _ _ => ?_
    exact (succeeds_bind_const fun _ _ => succeeds_ite).trans (and_iff_left trivial)
  case urlPrefixDenylist =>
    rw [← hdenied, ← hsource]
    refine succeeds_bind_const fun _ _ => ?_
    refine (succeeds_bind_const fun _ _ => ?_).trans (and_iff_left trivial)
    dsimp only
    split <;> exact iff_true_intro (succeeds_ok _)
  case escalationThreshold =>
    rw [← hthreshold, ← hamount]
    refine succeeds_bind_const fun t _ => ?_
    exact (succeeds_bind_const fun a _ => succeeds_ite).trans (and_iff_left trivial)
  case toolIdAllowlist =>
    rw [← hallowed]
    refine (succeeds_bind_const fun _ _ => ?_).trans (and_iff_left trivial)
    dsimp only
    split
    · exact iff_true_intro (succeeds_ok _)
    · exact succeeds_ite
  case argsPatternMatch =>
    unfold Py.argsPatternMatch
    rw [succeeds_bind_iff]
    constructor
    · rintro ⟨a, ha, h⟩
      obtain ⟨ds, hds, ha₁, hm⟩ := (py_patternParams hps).mp ha
      rw [hds, hm]
      obtain ⟨hits, hhits, -⟩ := succeeds_bind_iff.mp h
      rw [ha₁] at hhits
      exact ⟨rfl, rfl, (py_matchingPatterns (Py.ofMembers receipt) ds).mp ⟨hits, hhits⟩⟩
    · rintro ⟨hsome, hmode, hall⟩
      obtain ⟨ds, hds⟩ := Option.isSome_iff_exists.mp hsome
      obtain ⟨m, hm⟩ := Option.isSome_iff_exists.mp hmode
      rw [hds] at hall
      refine ⟨(ds.map Py.ofDoc, m), (py_patternParams hps).mpr ⟨ds, hds, rfl, hm⟩, ?_⟩
      obtain ⟨hits, hhits⟩ := (py_matchingPatterns (Py.ofMembers receipt) ds).mpr hall
      exact succeeds_bind_iff.mpr ⟨hits, hhits, succeeds_ok _⟩
  case postStateAssertion =>
    refine Iff.trans ?_ (@py_postStateParams receipt ps _ rule hps)
    refine (succeeds_bind_const fun _ _ => ?_).trans (and_iff_left trivial)
    dsimp only
    split
    · split <;> exact iff_true_intro (succeeds_ok _)
    · split
      · exact iff_true_intro (succeeds_ok _)
      · exact succeeds_ite

end

end Parity

end OpenTerms
