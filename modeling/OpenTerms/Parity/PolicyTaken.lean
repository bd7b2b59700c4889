import OpenTerms.Parity.PolicyDispatch
import OpenTerms.Parity.PolicyWellFormed

/-!
# Rules TypeScript does not refuse

`coercePolicy` lets rules through whose parameters nobody looked at, and
an evaluator meets them as they are. `Takes` says in the terms of the
document where the evaluator of a rule type returns: the parameters are
well formed, a `null` counting as none, whatever a reason or a pattern
makes a text of has one, and a daily limit finds its aggregate under the
text of the id. Only `post_state_assertion` asks for no parameter, so it
alone returns on parameters that are no object.
-/

namespace OpenTerms

namespace Parity

open Json Utf16

/-- The path of a pattern. -/
def patternPath : Doc → Option JsStr
  | .obj p => strMember "path" p
  | _ => none

/-- The values an evaluator makes a text of are ones it can print. -/
def Shows (receipt ps : Members) (type : RuleType) : Prop :=
  match type with
  | .actionTypeAllowlist => Printable (Ts.getProp (Ts.ofMembers receipt) (lit "action_type"))
  | .toolIdAllowlist => Printable (Ts.resolvePath (Ts.ofMembers receipt) Ts.toolIdPath)
  | .argsPatternMatch =>
    ∀ d ∈ (patternList ps).getD [], ∀ p, patternPath d = some p →
      Printable (Ts.resolvePath (Ts.ofMembers receipt) p)
  | .postStateAssertion =>
    (strMember "expected_hash" ps).isSome → ∀ p,
      docStr (Nulls.lenient.orDefault (get? (lit "field") ps) (.str Ts.postStateHashPath)) = some p →
        Printable (Ts.resolvePath (Ts.ofMembers receipt) p)
  | _ => True

/-- The text of an id leads to an aggregate of its own, or to none: not to
a name of `Object.prototype`. -/
def Keyed (aggregates : Members) (key : Option JsStr) : Prop :=
  ∃ k, key = some k ∧ ((get? k aggregates).isSome ∨ Ts.OwnName k)

/-- The rule is one the evaluator of the type returns on. -/
def Takes (receipt aggregates : Members) (key : Option JsStr) (params : Doc) (type : RuleType) :
    Prop :=
  match params with
  | .obj ps =>
    WellFormed .lenient receipt ps (key.bind fun k => get? k aggregates) type
      ∧ Shows receipt ps type ∧ (type = .dailyLimit → Keyed aggregates key)
  | .null => False
  | _ => type = .postStateAssertion

/-! ## The checks -/

theorem not_succeeds_ruleError {α : Type} (id : Ts.JsVal) (text : Except Ts.TsErr JsStr) :
    ¬ Succeeds (Ts.ruleError id text : Except Ts.TsErr α) := by
  unfold Ts.ruleError
  rw [succeeds_bind_iff]
  rintro ⟨ruleText, -, h⟩
  obtain ⟨rest, -, h⟩ := succeeds_bind_iff.mp h
  exact not_succeeds_error _ h

/-- `v ?? d`. -/
theorem ts_orDefault {k : String} (hown : Ts.OwnName (lit k)) (ps : Members) (dflt : Doc) :
    Ts.orElse (Ts.getProp (Ts.ofMembers ps) (lit k)) (Ts.ofDoc dflt)
      = .json (Ts.ofDoc (Nulls.lenient.orDefault (get? (lit k) ps) dflt)) := by
  rw [ts_getProp hown]
  cases get? (lit k) ps with
  | none => rfl
  | some d => cases d <;> rfl

/-- What prints is what `String` does not throw on. -/
theorem printable_iff {v : Ts.JsAny} (hv : Ts.nullish v = false) :
    Printable v ↔ Succeeds (Ts.anyToStr v) := by
  cases v with
  | undefined => cases hv
  | json w =>
    cases w with
    | null => cases hv
    | str us => exact iff_of_true ⟨_, rfl⟩ ⟨us, by rw [Ts.anyToStr, Ts.toStr]⟩
    | bool | num | arr | obj => exact Iff.rfl
  | builtin | objectPrototype => exact Iff.rfl

theorem succeeds_matchOne (op : PatternOp) (value : JsStr) (v : Ts.JsAny) :
    Succeeds (Ts.matchOne (lit op.text) value v) ↔ Printable v := by
  have hop : (validOps.find? fun o => decide ((lit o.text : JsStr) = lit op.text)) = some op := by
    cases op <;> decide
  unfold Ts.matchOne
  rw [hop]
  dsimp only
  cases hv : Ts.nullish v with
  | true => exact iff_of_true (succeeds_ok _) (printable_nullish hv)
  | false =>
    rw [if_neg (by simp), printable_iff hv]
    exact (succeeds_bind_const fun _ _ => iff_true_intro (succeeds_ok _)).trans (and_iff_left trivial)

section

variable {receipt ps : Members} {rule : Ts.Rule}

theorem ts_urlSource (hps : rule.parameters = .obj (Ts.ofMembers ps)) (r : Ts.JsObject) :
    Succeeds (Ts.urlSource rule r)
      ↔ (docStr (Nulls.lenient.orDefault (get? (lit "source_field") ps)
          (.str (lit "terms_url")))).isSome := by
  unfold Ts.urlSource
  rw [hps, Ts.readProp, ok_bind, ← ts_ofDoc_str, ts_orDefault (by decide), ts_asStr]
  cases docStr (Nulls.lenient.orDefault (get? (lit "source_field") ps) (.str (lit "terms_url"))) with
  | none => exact iff_of_false (not_succeeds_ruleError _ _) (by simp)
  | some us => exact iff_of_true (succeeds_ok _) rfl

theorem ts_opMember (p : Members) :
    Ts.oneOf PatternOp.text validOps (Ts.getProp (Ts.ofMembers p) (lit "op"))
      = (get? (lit "op") p).bind (docOneOf PatternOp.text validOps) := by
  rw [ts_getProp (by decide)]
  cases get? (lit "op") p with
  | none => rfl
  | some d => exact ts_oneOf _ _ d

/-- A pattern is refused for what it is, or for what its path leads to. -/
theorem ts_matchPattern (d : Doc) :
    Succeeds (Ts.matchPattern rule (Ts.ofMembers receipt) (Ts.ofDoc d))
      ↔ patternOk d ∧ ∀ p, patternPath d = some p →
        Printable (Ts.resolvePath (Ts.ofMembers receipt) p) := by
  cases d with
  | obj p =>
    rw [Ts.ofDoc_obj, Ts.matchPattern, ts_memberStr (by decide), ts_memberStr (by decide),
      ts_opMember, patternOk, patternPath, strMember, strMember]
    cases (get? (lit "path") p).bind docStr with
    | none => exact iff_of_false (not_succeeds_ruleError _ _) (by simp)
    | some path =>
      cases (get? (lit "value") p).bind docStr with
      | none => exact iff_of_false (not_succeeds_ruleError _ _) (by simp)
      | some value =>
        cases (get? (lit "op") p).bind (docOneOf PatternOp.text validOps) with
        | none => exact iff_of_false (not_succeeds_ruleError _ _) (by simp)
        | some op =>
          dsimp only
          refine (succeeds_bind_const fun _ _ => iff_true_intro (succeeds_ok _)).trans ?_
          rw [succeeds_matchOne]
          simp
  | null | bool | num | str | arr => exact iff_of_false (not_succeeds_ruleError _ _) (by simp [patternOk])

theorem ts_matchingPatterns (ds : List Doc) :
    Succeeds (Ts.matchingPatterns rule (Ts.ofMembers receipt) (ds.map Ts.ofDoc))
      ↔ (∀ d ∈ ds, patternOk d) ∧ ∀ d ∈ ds, ∀ p, patternPath d = some p →
        Printable (Ts.resolvePath (Ts.ofMembers receipt) p) := by
  rw [← forall₂_and]
  induction ds with
  | nil => exact iff_of_true (succeeds_ok _) (by simp)
  | cons d ds ih =>
    rw [List.map_cons, Ts.matchingPatterns, List.forall_mem_cons, ← ts_matchPattern, ← ih]
    refine succeeds_bind_const fun hit _ => ?_
    exact (succeeds_bind_const fun rest _ => iff_true_intro (succeeds_ok _)).trans
      (and_iff_left trivial)

/-- The parameters of an `args_pattern_match` rule. -/
theorem ts_patternParams (hps : rule.parameters = .obj (Ts.ofMembers ps))
    {a : List Ts.JsVal × MatchMode} :
    Ts.patternParams rule = .ok a
      ↔ ∃ ds, patternList ps = some ds ∧ a.1 = ds.map Ts.ofDoc
        ∧ docOneOf MatchMode.text [.any, .all]
            (Nulls.lenient.orDefault (get? (lit "mode") ps) (.str (lit "any"))) = some a.2 := by
  have hrefused {text : Except Ts.TsErr JsStr} : Ts.ruleError rule.id text ≠ .ok a :=
    fun h => not_succeeds_ruleError _ _ ⟨a, h⟩
  unfold Ts.patternParams patternList
  rw [hps, Ts.readProp, ok_bind, ts_getProp (by decide)]
  cases get? (lit "patterns") ps with
  | none => exact iff_of_false hrefused (by simp)
  | some d =>
    cases d with
    | arr ds =>
      cases ds with
      | nil => exact iff_of_false hrefused (by simp)
      | cons d ds =>
        dsimp only
        rw [ts_ofDoc_arr, List.map_cons]
        dsimp only
        rw [Ts.readProp, ok_bind, ← ts_ofDoc_str, ts_orDefault (by decide), ts_oneOf]
        cases docOneOf MatchMode.text [.any, .all]
            (Nulls.lenient.orDefault (get? (lit "mode") ps) (.str (lit "any"))) with
        | none => exact iff_of_false hrefused (by simp)
        | some m =>
          constructor
          · intro h
            obtain rfl := Except.ok.inj h
            exact ⟨_, rfl, rfl, rfl⟩
          · rintro ⟨ds', hds, ha, hm⟩
            obtain rfl := Option.some.inj hds
            obtain ⟨a₁, a₂⟩ := a
            obtain rfl := ha
            obtain rfl := Option.some.inj hm
            rfl
    | null | bool | num | str | obj => exact iff_of_false hrefused (by simp)

theorem ts_argsPatternMatch (hps : rule.parameters = .obj (Ts.ofMembers ps)) (prior : Option Doc) :
    Succeeds (Ts.argsPatternMatch rule (Ts.ofMembers receipt))
      ↔ WellFormed .lenient receipt ps prior .argsPatternMatch
        ∧ Shows receipt ps .argsPatternMatch := by
  unfold Ts.argsPatternMatch
  rw [succeeds_bind_iff]
  dsimp only [WellFormed, Shows]
  constructor
  · rintro ⟨a, ha, h⟩
    obtain ⟨ds, hds, ha₁, hm⟩ := (ts_patternParams hps).mp ha
    obtain ⟨hits, hhits, -⟩ := succeeds_bind_iff.mp h
    rw [ha₁] at hhits
    obtain ⟨hall, hshows⟩ := (ts_matchingPatterns ds).mp ⟨hits, hhits⟩
    rw [hds, hm]
    exact ⟨⟨rfl, rfl, hall⟩, hshows⟩
  · rintro ⟨⟨hsome, hmode, hall⟩, hshows⟩
    obtain ⟨ds, hds⟩ := Option.isSome_iff_exists.mp hsome
    obtain ⟨m, hm⟩ := Option.isSome_iff_exists.mp hmode
    rw [hds] at hall hshows
    refine ⟨(ds.map Ts.ofDoc, m), (ts_patternParams hps).mpr ⟨ds, hds, rfl, hm⟩, ?_⟩
    obtain ⟨hits, hhits⟩ := (@ts_matchingPatterns receipt rule ds).mpr ⟨hall, hshows⟩
    exact succeeds_bind_iff.mpr ⟨hits, hhits, succeeds_ok _⟩

/-- A last step that decides whether the rule fires. -/
theorem succeeds_fired {p : Prop} [Decidable p] (reason : JsStr) :
    Succeeds (if p then .ok (Ts.fires reason) else .ok Ts.notFired : Except Ts.TsErr Ts.RuleResult) := by
  split <;> exact succeeds_ok _

/-- A last step that quotes a value where the rule fires. -/
theorem succeeds_quoted {p : Prop} [Decidable p] {v : Ts.JsAny} (hquiet : ¬ p → Printable v)
    (reason : JsStr → JsStr) :
    Succeeds (if p then Ts.pyRepr v >>= fun text => .ok (Ts.fires (reason text))
      else .ok Ts.notFired : Except Ts.TsErr Ts.RuleResult) ↔ Printable v := by
  by_cases hp : p
  · rw [if_pos hp]
    exact (succeeds_bind_const fun _ _ => iff_true_intro (succeeds_ok _)).trans (and_iff_left trivial)
  · rw [if_neg hp]
    exact iff_of_true (succeeds_ok _) (hquiet hp)

/-- The parameters of a `post_state_assertion` rule. -/
theorem ts_postStateParams (hps : rule.parameters = .obj (Ts.ofMembers ps))
    {a : JsStr × Option JsStr × AppliesTo} :
    Ts.postStateParams rule = .ok a
      ↔ docOneOf AppliesTo.text [.postActionOnly, .always]
            (Nulls.lenient.orDefault (get? (lit "applies_to") ps) (.str (lit "post_action_only")))
          = some a.2.2
        ∧ (get? (lit "expected_hash") ps = none ∨ get? (lit "expected_hash") ps = some .null
          ∨ (strMember "expected_hash" ps).isSome)
        ∧ docStr (Nulls.lenient.orDefault (get? (lit "field") ps) (.str Ts.postStateHashPath))
          = some a.1
        ∧ strMember "expected_hash" ps = a.2.1 := by
  have hrefused {text : Except Ts.TsErr JsStr} : Ts.ruleError rule.id text ≠ .ok a :=
    fun h => not_succeeds_ruleError _ _ ⟨a, h⟩
  have hstr : Ts.asStr (Ts.getProp (Ts.ofMembers ps) (lit "expected_hash"))
      = strMember "expected_hash" ps := ts_memberStr (by decide) ps
  have hguard : (!Ts.nullish (Ts.getProp (Ts.ofMembers ps) (lit "expected_hash"))
        && (strMember "expected_hash" ps).isNone) = true
      ↔ ¬ (get? (lit "expected_hash") ps = none ∨ get? (lit "expected_hash") ps = some .null
        ∨ (strMember "expected_hash" ps).isSome) := by
    rw [ts_getProp (by decide), strMember]
    cases get? (lit "expected_hash") ps with
    | none => simp [Ts.nullish]
    | some d => cases d <;> simp [Ts.nullish, docStr, Ts.ofDoc]
  obtain ⟨field, expected, mode⟩ := a
  unfold Ts.postStateParams
  rw [hps]
  simp only [Ts.readProp, ok_bind]
  rw [← ts_ofDoc_str, ts_orDefault (by decide), ts_oneOf, ← ts_ofDoc_str, ts_orDefault (by decide),
    ts_asStr, hstr]
  cases docOneOf AppliesTo.text [.postActionOnly, .always]
      (Nulls.lenient.orDefault (get? (lit "applies_to") ps) (.str (lit "post_action_only"))) with
  | none => exact iff_of_false hrefused (by simp)
  | some m =>
    dsimp only
    by_cases hexpected : get? (lit "expected_hash") ps = none
        ∨ get? (lit "expected_hash") ps = some .null ∨ (strMember "expected_hash" ps).isSome
    · rw [if_neg (mt hguard.mp (not_not.mpr hexpected))]
      cases docStr (Nulls.lenient.orDefault (get? (lit "field") ps) (.str Ts.postStateHashPath)) with
      | none => exact iff_of_false hrefused (by simp)
      | some p =>
        simp only [Except.ok.injEq, Prod.mk.injEq, Option.some.injEq, hexpected, true_and]
        exact and_rotate.symm
    · rw [if_pos (hguard.mpr hexpected)]
      exact iff_of_false hrefused fun h => hexpected h.2.1

theorem ts_postStateAssertion (hps : rule.parameters = .obj (Ts.ofMembers ps)) (prior : Option Doc) :
    Succeeds (Ts.evalPostStateAssertion rule (Ts.ofMembers receipt))
      ↔ WellFormed .lenient receipt ps prior .postStateAssertion
        ∧ Shows receipt ps .postStateAssertion := by
  -- what follows the checks quotes the value where there is a hash to compare with
  have hrest (field : JsStr) (expected : Option JsStr) (mode : AppliesTo)
      (ha : Ts.postStateParams rule = .ok (field, expected, mode)) :
      Succeeds (Ts.evalPostStateAssertion rule (Ts.ofMembers receipt))
        ↔ (expected.isSome → Printable (Ts.resolvePath (Ts.ofMembers receipt) field)) := by
    rw [Ts.evalPostStateAssertion, ha, ok_bind]
    dsimp only
    cases hnull : Ts.nullish (Ts.resolvePath (Ts.ofMembers receipt) field) with
    | true =>
      rw [if_pos rfl]
      refine iff_of_true ?_ fun _ => printable_nullish hnull
      cases mode <;> exact succeeds_ok _
    | false =>
      rw [if_neg (by simp)]
      cases expected with
      | none => exact iff_of_true (succeeds_ok _) (by simp)
      | some expected =>
        refine Iff.trans (succeeds_quoted (fun heq => ?_) _) (by simp)
        rw [not_not.mp heq]
        exact ⟨_, rfl⟩
  dsimp only [WellFormed, Shows]
  constructor
  · intro h
    obtain ⟨⟨field, expected, mode⟩, ha, -⟩ := succeeds_bind_iff.mp h
    have hshows := (hrest field expected mode ha).mp h
    obtain ⟨hmode, hexpected, hfield, heq⟩ := (ts_postStateParams hps).mp ha
    rw [hmode, hfield, heq]
    rw [heq] at hexpected
    refine ⟨⟨rfl, hexpected, rfl⟩, fun hsome p hp => ?_⟩
    obtain rfl := Option.some.inj hp
    exact hshows hsome
  · rintro ⟨⟨hmode, hexpected, hfield⟩, hshows⟩
    obtain ⟨mode, hmode⟩ := Option.isSome_iff_exists.mp hmode
    obtain ⟨field, hfield⟩ := Option.isSome_iff_exists.mp hfield
    exact (hrest field _ mode ((ts_postStateParams hps).mpr ⟨hmode, hexpected, hfield, rfl⟩)).mpr
      fun hsome => hshows hsome field hfield

variable {aggregates : Members}

/-- The aggregate a daily limit finds. -/
theorem ts_prior (haggregates : ∀ m ∈ aggregates, SafeDoc m.2) (k : JsStr) :
    (Ts.asInt (Ts.orElse (Ts.getProp (Ts.ofMembers aggregates) k) (.num (.fin 0)))).isSome
      ↔ ((get? k aggregates).isSome ∨ Ts.OwnName k)
        ∧ (docInt (Nulls.lenient.orDefault (get? k aggregates) (.num (.int 0)))).isSome := by
  have hzero : (Ts.asInt (.json (.num (.fin 0)))).isSome := by decide
  rw [Ts.getProp, Ts.get?_ofMembers]
  cases hget : get? k aggregates with
  | none =>
    rw [Option.map_none]
    dsimp only
    by_cases hown : Ts.OwnName k
    · rw [hown]
      exact iff_of_true hzero ⟨Or.inr hown, rfl⟩
    · refine iff_of_false ?_ (by simp [hown])
      rcases (Ts.inherited_cases k).resolve_left hown with ⟨f, hf⟩ | hproto
      · rw [hf]
        simp [Ts.orElse, Ts.asInt]
      · rw [hproto]
        simp [Ts.orElse, Ts.asInt]
  | some d =>
    rw [Option.map_some]
    by_cases hnull : d = .null
    · subst hnull
      exact iff_of_true hzero ⟨Or.inl rfl, rfl⟩
    · have hd : SafeDoc d := haggregates _ (mem_of_get? hget)
      have hts : Ts.orElse (.json (Ts.ofDoc d)) (.num (.fin 0)) = .json (Ts.ofDoc d) := by
        cases d with
        | null => exact absurd rfl hnull
        | bool | num | str | arr | obj => rfl
      have hdflt : Nulls.lenient.orDefault (some d) (.num (.int 0)) = d := by
        cases d with
        | null => exact absurd rfl hnull
        | bool | num | str | arr | obj => rfl
      rw [hts, hdflt, ts_asInt hd, Option.isSome_map]
      simp

variable [Ucd]

theorem ts_requireInt {k : String} (hk : Ascii k) (hown : Ts.OwnName (lit k))
    (hsafe : ∀ m ∈ ps, SafeDoc m.2) (id : Ts.JsVal) :
    Succeeds (Ts.requireInt (.obj (Ts.ofMembers ps)) (lit k) id) ↔ (intMember k ps).isSome :=
  (alike_requireInt hk hown hsafe).succeeds_iff.symm.trans (py_requireInt hk hsafe [])

theorem ts_requireStringList {k : String} (hk : Ascii k) (hown : Ts.OwnName (lit k))
    (id : Ts.JsVal) :
    Succeeds (Ts.requireStringList (.obj (Ts.ofMembers ps)) (lit k) id)
      ↔ (listParam k ps).isSome :=
  (alike_requireList hk hown).succeeds_iff.symm.trans (py_requireList hk [])

theorem ts_receiptAmount (hreceipt : ∀ m ∈ receipt, SafeDoc m.2) (id : Ts.JsVal) :
    Succeeds (Ts.receiptAmount (Ts.ofMembers receipt) id)
      ↔ (intMember "amount_charged" receipt).isSome :=
  (alike_amount hreceipt).succeeds_iff.symm.trans (py_amount hreceipt [])

/-! ## The evaluators -/

theorem ts_dailyLimit (hps : rule.parameters = .obj (Ts.ofMembers ps))
    (hsafe : ∀ m ∈ ps, SafeDoc m.2) (hreceipt : ∀ m ∈ receipt, SafeDoc m.2)
    (haggregates : ∀ m ∈ aggregates, SafeDoc m.2) :
    Succeeds (Ts.evalDailyLimit rule (Ts.ofMembers receipt) (Ts.ofMembers aggregates))
      ↔ WellFormed .lenient receipt ps
          ((Ts.toStr rule.id).toOption.bind fun k => get? k aggregates) .dailyLimit
        ∧ Keyed aggregates (Ts.toStr rule.id).toOption := by
  unfold Ts.evalDailyLimit
  dsimp only [WellFormed, Keyed]
  have hvalid : Ts.validDailyWindows = ["utc_day", "rolling_24h"] := rfl
  rw [hps, ← ts_requireInt (by decide) (by decide) hsafe rule.id, and_assoc]
  refine succeeds_bind_const fun t _ => ?_
  rw [Ts.readProp, ok_bind, ← ts_ofDoc_str, ts_orDefault (by decide), hvalid, ts_oneOf]
  cases docOneOf id ["utc_day", "rolling_24h"]
      (Nulls.lenient.orDefault (get? (lit "window") ps) (.str (lit "utc_day"))) with
  | none => exact iff_of_false (not_succeeds_ruleError _ _) (by simp)
  | some window =>
    dsimp only
    cases hkey : Ts.toStr rule.id with
    | error e => exact iff_of_false (not_succeeds_error _) (by simp [Except.toOption])
    | ok k =>
      rw [ok_bind]
      have hprior := ts_prior haggregates k
      have hkeyed : (Except.ok k : Except Ts.TsErr JsStr).toOption = some k := rfl
      rw [hkeyed, Option.bind_some]
      cases hasInt : Ts.asInt (Ts.orElse (Ts.getProp (Ts.ofMembers aggregates) k) (.num (.fin 0))) with
      | none =>
        rw [hasInt] at hprior
        refine iff_of_false (not_succeeds_ruleError _ _) ?_
        rintro ⟨⟨-, hint, -⟩, k', hk', hfound⟩
        obtain rfl := Option.some.inj hk'
        simpa using hprior.mpr ⟨hfound, hint⟩
      | some prior =>
        rw [hasInt] at hprior
        obtain ⟨hfound, hint⟩ := hprior.mp rfl
        dsimp only
        rw [← ts_receiptAmount hreceipt rule.id]
        refine (succeeds_bind_const fun a _ => iff_true_intro (succeeds_fired _)).trans ?_
        exact ⟨fun h => ⟨⟨rfl, hint, h.1⟩, k, rfl, hfound⟩, fun h => ⟨h.1.2.2, trivial⟩⟩

/-- **What TypeScript refuses**, on parameters that are an object. -/
theorem ts_typeSays_obj (hps : rule.parameters = .obj (Ts.ofMembers ps))
    (hsafe : ∀ m ∈ ps, SafeDoc m.2) (hreceipt : ∀ m ∈ receipt, SafeDoc m.2)
    (haggregates : ∀ m ∈ aggregates, SafeDoc m.2) (type : RuleType) :
    Succeeds (Ts.typeSays type rule (Ts.ofMembers receipt) (Ts.ofMembers aggregates))
      ↔ Takes receipt aggregates (Ts.toStr rule.id).toOption (.obj ps) type := by
  have hthreshold := ts_requireInt (k := "threshold") (by decide) (by decide) hsafe rule.id
  have hamount := ts_receiptAmount hreceipt rule.id
  have hallowed := @ts_requireStringList ps _ "allowed" (by decide) (by decide) rule.id
  have hdenied := @ts_requireStringList ps _ "denied" (by decide) (by decide) rule.id
  rw [← hps] at hthreshold hallowed hdenied
  have hsource := ts_urlSource hps (Ts.ofMembers receipt)
  unfold Ts.typeSays Takes
  cases type
  case dailyLimit =>
    simp only [Shows, true_and, true_imp_iff]
    exact ts_dailyLimit hps hsafe hreceipt haggregates
  all_goals simp only [reduceCtorEq, false_imp_iff, and_true]
  case argsPatternMatch => exact ts_argsPatternMatch hps _
  case postStateAssertion => exact ts_postStateAssertion hps _
  all_goals dsimp only [WellFormed, Shows]
  case' maxAmount | actionTypeDenylist | urlPrefixAllowlist | urlPrefixDenylist
      | escalationThreshold =>
    rw [and_true]
  case maxAmount =>
    rw [← hthreshold, ← hamount]
    refine succeeds_bind_const fun t _ => ?_
    exact (succeeds_bind_const fun a _ => iff_true_intro (succeeds_fired _)).trans
      (and_iff_left trivial)
  case escalationThreshold =>
    rw [← hthreshold, ← hamount]
    refine succeeds_bind_const fun t _ => ?_
    exact (succeeds_bind_const fun a _ => iff_true_intro (succeeds_fired _)).trans
      (and_iff_left trivial)
  case actionTypeAllowlist =>
    rw [← hallowed]
    refine succeeds_bind_const fun us _ => ?_
    refine succeeds_quoted (fun hin => ?_) _
    exact printable_of_isIn (by simpa using hin)
  case actionTypeDenylist =>
    rw [← hdenied]
    refine (succeeds_bind_const fun us _ => iff_true_intro ?_).trans (and_iff_left trivial)
    dsimp only
    by_cases hin : Ts.isIn (Ts.getProp (Ts.ofMembers receipt) (lit "action_type")) us = true
    · obtain ⟨text, htext⟩ := printable_of_isIn hin
      rw [if_pos hin, htext]
      exact succeeds_ok _
    · rw [if_neg hin]
      exact succeeds_ok _
  case urlPrefixAllowlist =>
    rw [← hallowed, ← hsource]
    refine succeeds_bind_const fun _ _ => ?_
    exact (succeeds_bind_const fun _ _ => iff_true_intro (succeeds_fired _)).trans
      (and_iff_left trivial)
  case urlPrefixDenylist =>
    rw [← hdenied, ← hsource]
    refine succeeds_bind_const fun _ _ => ?_
    refine (succeeds_bind_const fun _ _ => ?_).trans (and_iff_left trivial)
    dsimp only
    split <;> exact iff_true_intro (succeeds_ok _)
  case toolIdAllowlist =>
    rw [← hallowed]
    refine succeeds_bind_const fun us _ => ?_
    dsimp only
    cases hnull : Ts.nullish (Ts.resolvePath (Ts.ofMembers receipt) Ts.toolIdPath) with
    | true => exact iff_of_true (succeeds_ok _) (printable_nullish hnull)
    | false =>
      rw [if_neg (by simp)]
      refine succeeds_quoted (fun hin => ?_) _
      exact printable_of_isIn (by simpa using hin)

omit [Ucd] in
theorem not_succeeds_requireParam {v : Ts.JsVal} (hv : ∀ ms, v ≠ .obj ms) (k : JsStr)
    (id : Ts.JsVal) : ¬ Succeeds (Ts.requireParam v k id) := by
  cases v with
  | obj ms => exact absurd rfl (hv ms)
  | arr xs => exact not_succeeds_ruleError _ _
  | null | bool | num | str => exact not_succeeds_error _

omit [Ucd] in
/-- On parameters that are no object only `post_state_assertion` returns,
since it finds none of its parameters there. -/
theorem ts_typeSays_other (hparams : ∀ ms, rule.parameters ≠ .obj ms) (type : RuleType)
    (receipt aggregates : Ts.JsObject) :
    Succeeds (Ts.typeSays type rule receipt aggregates)
      ↔ rule.parameters ≠ .null ∧ type = .postStateAssertion := by
  have hint {k : JsStr} : ¬ Succeeds (Ts.requireInt rule.parameters k rule.id) := by
    rintro ⟨x, h⟩
    obtain ⟨v, hv, -⟩ := bind_eq_ok_iff.mp h
    exact not_succeeds_requireParam hparams k rule.id ⟨v, hv⟩
  have hlist {k : JsStr} : ¬ Succeeds (Ts.requireStringList rule.parameters k rule.id) := by
    rintro ⟨us, h⟩
    obtain ⟨v, hv, -⟩ := bind_eq_ok_iff.mp h
    exact not_succeeds_requireParam hparams k rule.id ⟨v, hv⟩
  have hfirst {α : Type} {x : Except Ts.TsErr α} {f : α → Except Ts.TsErr Ts.RuleResult}
      (hx : ¬ Succeeds x) : ¬ Succeeds (x >>= f) := by
    rw [succeeds_bind_iff]
    rintro ⟨a, ha, -⟩
    exact hx ⟨a, ha⟩
  have hread (hnull : rule.parameters ≠ .null) (k : JsStr) :
      Ts.readProp rule.parameters k = .ok .undefined := by
    cases hv : rule.parameters with
    | null => exact absurd hv hnull
    | obj ms => exact absurd hv (hparams ms)
    | bool | num | str | arr => rfl
  have hreadNull (hnull : rule.parameters = .null) (k : JsStr) :
      Ts.readProp rule.parameters k = .error .typeError := by
    rw [hnull]
    rfl
  unfold Ts.typeSays
  cases type
  case maxAmount | dailyLimit | escalationThreshold => exact iff_of_false (hfirst hint) (by simp)
  case actionTypeAllowlist | actionTypeDenylist | urlPrefixAllowlist | urlPrefixDenylist
      | toolIdAllowlist => exact iff_of_false (hfirst hlist) (by simp)
  case argsPatternMatch =>
    refine iff_of_false (hfirst ?_) (by simp)
    unfold Ts.patternParams
    by_cases hnull : rule.parameters = .null
    · rw [hreadNull hnull]
      exact not_succeeds_error _
    · rw [hread hnull, ok_bind]
      exact not_succeeds_ruleError _ _
  case postStateAssertion =>
    by_cases hnull : rule.parameters = .null
    · refine iff_of_false (hfirst ?_) fun h => h.1 hnull
      unfold Ts.postStateParams
      rw [hreadNull hnull]
      exact not_succeeds_error _
    · refine iff_of_true ?_ ⟨hnull, rfl⟩
      have hone : Ts.oneOf AppliesTo.text [.postActionOnly, .always]
          (Ts.orElse .undefined (.str (lit "post_action_only"))) = some .postActionOnly := by
        decide
      have hdefaults : Ts.postStateParams rule
          = .ok (Ts.postStateHashPath, none, .postActionOnly) := by
        unfold Ts.postStateParams
        simp only [hread hnull, ok_bind, hone]
        rfl
      dsimp only
      rw [Ts.evalPostStateAssertion, hdefaults, ok_bind]
      dsimp only
      split <;> exact succeeds_ok _

/-- **What TypeScript refuses.** -/
theorem ts_typeSays {params : Doc} (hparams : rule.parameters = Ts.ofDoc params)
    (hsafe : SafeDoc params) (hreceipt : ∀ m ∈ receipt, SafeDoc m.2)
    (haggregates : ∀ m ∈ aggregates, SafeDoc m.2) (type : RuleType) :
    Succeeds (Ts.typeSays type rule (Ts.ofMembers receipt) (Ts.ofMembers aggregates))
      ↔ Takes receipt aggregates (Ts.toStr rule.id).toOption params type := by
  cases params with
  | obj ps =>
    rw [Ts.ofDoc_obj] at hparams
    have hsafe' : ∀ m ∈ ps, SafeDoc m.2 := fun m hm => (every_obj.mp hsafe m hm).2
    exact ts_typeSays_obj hparams hsafe' hreceipt haggregates type
  | null =>
    have hother : ∀ ms, rule.parameters ≠ .obj ms := by
      rw [hparams]
      intro ms h
      cases h
    refine (ts_typeSays_other hother type _ _).trans (iff_of_false ?_ id)
    exact fun h => h.1 hparams
  | bool | num | str | arr =>
    have hother : ∀ ms, rule.parameters ≠ .obj ms := by
      rw [hparams]
      intro ms h
      cases h
    refine (ts_typeSays_other hother type _ _).trans (and_iff_right ?_)
    rw [hparams]
    intro h
    cases h

end

end Parity

end OpenTerms
