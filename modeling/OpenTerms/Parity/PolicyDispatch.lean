import OpenTerms.Parity.PolicyEvaluators

/-!
# Patterns, post-state, and the table of evaluators

The two evaluators that read more than one parameter, and `rule_parity`:
the rule a document states comes out alike in both engines, on one
receipt, with the two exceptions of `RuleParity`.
-/

namespace OpenTerms

namespace Parity

open Json Utf16

variable {receipt aggregates : Members} {r : RuleDoc} {prints prefixes : Prop}

/-! ## Members of a pattern -/

theorem py_memberStr {k : String} (hk : Ascii k) (p : Members) :
    Py.asStr (Py.getD (lit k) (Py.ofMembers p))
      = ((get? (lit k) p).bind docStr).map decode := by
  unfold Py.getD
  rw [py_get? hk]
  cases get? (lit k) p with
  | none => rfl
  | some d => exact py_asStr d

theorem ts_memberStr {k : String} (hown : Ts.OwnName (lit k)) (p : Members) :
    Ts.asStr (Ts.getProp (Ts.ofMembers p) (lit k)) = (get? (lit k) p).bind docStr := by
  rw [ts_getProp hown]
  cases get? (lit k) p with
  | none => rfl
  | some d => exact ts_asStr d

/-- A member that has to be one of a few texts. -/
theorem oneOf_member {α : Type} {text : α → String} {valid : List α}
    (htext : ∀ a ∈ valid, Ascii (text a)) {k : String} (hk : Ascii k) (hown : Ts.OwnName (lit k))
    (p : Members) :
    Py.oneOf text valid (Py.getD (lit k) (Py.ofMembers p))
      = Ts.oneOf text valid (Ts.getProp (Ts.ofMembers p) (lit k)) := by
  unfold Py.getD
  rw [py_get? hk, ts_getProp hown]
  cases get? (lit k) p with
  | some d => exact oneOf_alike htext d
  | none =>
    refine (oneOf_alike htext .null).trans (List.find?_congr fun a _ => ?_)
    exact (decide_eq_false nofun).trans (decide_eq_false nofun).symm

/-- What is one of a few texts is that text. -/
theorem eq_of_oneOf {α : Type} {text : α → String} {valid : List α} {v : Ts.JsAny} {a : α}
    (h : Ts.oneOf text valid v = some a) : v = .json (.str (lit (text a))) := by
  have htext := List.find?_some h
  exact of_decide_eq_true htext

theorem ascii_op (op : PatternOp) : Ascii op.text := by
  cases op <;> decide

/-! ## The loop over the patterns -/

variable [Ucd]

/-- A pattern matches on both sides, or on neither. -/
theorem alike_matchPattern (hagree : HelpersAgree receipt r) {d : Doc} (hd : d ∈ r.patterns) :
    Alike (fun a b => a.isSome = b.isSome)
      (Py.matchPattern r.toPy (Py.ofMembers receipt) (Py.ofDoc d))
      (Ts.matchPattern r.toTs (Ts.ofMembers receipt) (Ts.ofDoc d)) := by
  cases d with
  | obj p =>
    rw [Py.ofDoc_obj, Ts.ofDoc_obj, Py.matchPattern, Ts.matchPattern,
      py_memberStr (by decide), py_memberStr (by decide),
      ts_memberStr (by decide), ts_memberStr (by decide),
      oneOf_member (fun op _ => ascii_op op) (by decide) (by decide)]
    cases hpath : (get? (lit "path") p).bind docStr with
    | none => exact alike_ruleError _ _
    | some path =>
      cases hvalue : (get? (lit "value") p).bind docStr with
      | none => exact alike_ruleError _ _
      | some value =>
        dsimp only [Option.map_some]
        cases hop : Ts.oneOf PatternOp.text validOps (Ts.getProp (Ts.ofMembers p) (lit "op")) with
        | none => exact alike_ruleError _ _
        | some op =>
          have hopText : (get? (lit "op") p).bind docStr = some (lit op.text) := by
            rw [← ts_memberStr (by decide), eq_of_oneOf hop]
            rfl
          have hread : PatternDoc.read (.obj p) = some ⟨path, lit op.text, value⟩ := by
            rw [PatternDoc.read, hpath, hopText, hvalue]
            rfl
          obtain ⟨hit, hhit⟩ := Py.matchOne_text op (decode value)
            (Py.resolvePath (Py.ofMembers receipt) (decode path))
          have hiff := hagree.patterns _ hd _ hread hit
          rw [decode_lit (ascii_op op)] at hiff
          dsimp only
          rw [hhit, hiff.mp hhit]
          cases hit <;> exact alike_ok rfl
  | null | bool | num | str | arr => exact alike_ruleError _ _

/-- As many patterns match on both sides. -/
theorem alike_matchingPatterns (hagree : HelpersAgree receipt r) {ps : List Doc}
    (hps : ∀ d ∈ ps, d ∈ r.patterns) :
    Alike (fun as bs => as.length = bs.length)
      (Py.matchingPatterns r.toPy (Py.ofMembers receipt) (ps.map Py.ofDoc))
      (Ts.matchingPatterns r.toTs (Ts.ofMembers receipt) (ps.map Ts.ofDoc)) := by
  induction ps with
  | nil => exact alike_ok rfl
  | cons d ps ih =>
    rw [List.forall_mem_cons] at hps
    refine (alike_matchPattern hagree hps.1).bind fun a b hab => ?_
    refine (ih hps.2).bind fun as bs hlen => alike_ok ?_
    rw [List.length_append, List.length_append, hlen]
    cases a <;> cases b <;> first | rfl | cases hab

/-- The patterns and the mode of a rule. -/
theorem alike_patternParams (h : InDomain receipt aggregates r)
    (htype : r.type = .argsPatternMatch) :
    Alike (fun a b => ∃ ps m, r.patterns = ps ∧ a = (ps.map Py.ofDoc, m) ∧ b = (ps.map Ts.ofDoc, m))
      (Py.patternParams r.toPy) (Ts.patternParams r.toTs) := by
  unfold Py.patternParams Ts.patternParams Py.getD
  have hpy : get? (lit "patterns") r.toPy.parameters
      = (get? (lit "patterns") r.parameters).map Py.ofDoc := py_get? (by decide) _
  rw [ts_readParam, ok_bind, hpy, ts_getProp (by decide)]
  cases hget : get? (lit "patterns") r.parameters with
  | none => exact alike_ruleError _ _
  | some d =>
    cases d with
    | arr ps =>
      cases ps with
      | nil => exact alike_ruleError _ _
      | cons d ps =>
        have hpatterns : r.patterns = d :: ps := by
          unfold RuleDoc.patterns
          rw [htype, hget]
        rw [Option.map_some, Option.getD_some, py_ofDoc_arr, List.map_cons]
        dsimp only
        rw [ts_ofDoc_arr, List.map_cons]
        dsimp only
        rw [ts_readParam, ok_bind, py_param (by decide) (by decide),
          oneOf_alike (by decide), ts_param (by simp [optionalParams]) (by decide) h]
        cases Ts.oneOf MatchMode.text [.any, .all]
            (.json (Ts.ofDoc (r.param "mode" (.str (lit "any"))))) with
        | none => exact alike_ruleError _ _
        | some m => exact alike_ok ⟨d :: ps, m, hpatterns, rfl, rfl⟩
    | null | bool | num | str | obj => exact alike_ruleError _ _

omit [Ucd] in
theorem py_patternResult [Ucd] (patterns : List Py.PyVal) (mode : MatchMode)
    (hits : List (PyStr × PyStr)) :
    (Py.patternResult patterns mode hits).fired
      = (match mode with
        | .any => decide (hits.length ≠ 0)
        | .all => decide (hits.length = patterns.length ∧ hits.length ≠ 0)) := by
  unfold Py.patternResult
  cases mode with
  | any => cases hits <;> rfl
  | all =>
    cases hits with
    | nil => cases patterns <;> rfl
    | cons hit hits =>
      have hne : (hit :: hits).length ≠ 0 := nofun
      simp only [and_iff_left hne]
      cases decide ((hit :: hits).length = patterns.length) <;> rfl

omit [Ucd] in
theorem ts_patternResult (patterns : List Ts.JsVal) (mode : MatchMode)
    (hits : List (JsStr × JsStr)) :
    (Ts.patternResult patterns mode hits).fired
      = (match mode with
        | .any => decide (hits.length ≠ 0)
        | .all => decide (hits.length = patterns.length ∧ hits.length ≠ 0)) := by
  unfold Ts.patternResult
  cases mode with
  | any => cases hits <;> rfl
  | all =>
    cases hits with
    | nil => cases patterns <;> rfl
    | cons hit hits =>
      have hne : (hit :: hits).length ≠ 0 := nofun
      simp only [and_iff_left hne]
      cases decide ((hit :: hits).length = patterns.length) <;> rfl

theorem parity_argsPatternMatch (h : InDomain receipt aggregates r)
    (hagree : HelpersAgree receipt r) (htype : r.type = .argsPatternMatch) :
    RuleParity True True (Py.argsPatternMatch r.toPy (Py.ofMembers receipt))
      (Ts.argsPatternMatch r.toTs (Ts.ofMembers receipt)) := by
  refine RuleParity.bind (alike_patternParams h htype) fun a b hab => ?_
  obtain ⟨ps, m, hpatterns, rfl, rfl⟩ := hab
  have hmem : ∀ d ∈ ps, d ∈ r.patterns := fun d hd => by rwa [hpatterns]
  refine RuleParity.bind (alike_matchingPatterns hagree hmem) fun as bs hlen => ?_
  refine .agrees _ _ ?_ trivial trivial
  rw [py_patternResult, ts_patternResult, hlen, List.length_map, List.length_map]

/-! ## Post-state -/

/-- The hash a post-state rule expects, in both languages. -/
def SameHash (v : Py.PyVal) (w : Option JsStr) : Prop :=
  v = match w with
    | some us => .str (decode us)
    | none => .null

/-- The last check, after the other two. -/
theorem alike_postStateField (h : InDomain receipt aggregates r) {v : Py.PyVal} {w : Option JsStr}
    (hsame : SameHash v w) (hw : w = r.expectedHash) (m : AppliesTo) :
    Alike (fun a b => r.field = some b.1 ∧ a.1 = decode b.1 ∧ SameHash a.2.1 b.2.1 ∧ b.2.1 = r.expectedHash
        ∧ a.2.2 = b.2.2)
      (match Py.asStr ((get? (lit "field") r.toPy.parameters).getD (.str Py.postStateHashPath)) with
        | some field => .ok (field, v, m)
        | none => .error (Py.ruleError r.toPy.id (lit ": field must be a string")))
      (match Ts.asStr (Ts.orElse (Ts.getProp (Ts.ofMembers r.parameters) (lit "field"))
            (.str Ts.postStateHashPath)) with
        | some field => .ok (field, w, m)
        | none => Ts.ruleError r.toTs.id (.ok (lit ": field must be a string"))) := by
  have hpy : (get? (lit "field") r.toPy.parameters).getD (.str Py.postStateHashPath)
      = Py.ofDoc (r.param "field" (.str Ts.postStateHashPath)) :=
    py_param (by decide) (by decide) r
  rw [hpy, ts_param (by simp [optionalParams]) (by decide) h, py_asStr, ts_asStr]
  change Alike _ (match Option.map decode r.field with | some _ => _ | none => _)
    (match r.field with | some _ => _ | none => _)
  cases r.field with
  | none => exact alike_ruleError _ _
  | some p => exact alike_ok ⟨rfl, rfl, hsame, hw, rfl⟩

/-- The parameters of a post-state rule. -/
theorem alike_postStateParams (h : InDomain receipt aggregates r) :
    Alike (fun a b => r.field = some b.1 ∧ a.1 = decode b.1 ∧ SameHash a.2.1 b.2.1 ∧ b.2.1 = r.expectedHash
        ∧ a.2.2 = b.2.2)
      (Py.postStateParams r.toPy) (Ts.postStateParams r.toTs) := by
  unfold Py.postStateParams Ts.postStateParams Py.getD
  have hpy : get? (lit "expected_hash") r.toPy.parameters
      = (get? (lit "expected_hash") r.parameters).map Py.ofDoc := py_get? (by decide) _
  rw [ts_readParam, ts_readParam, ts_readParam, ok_bind, ok_bind, ok_bind, hpy,
    py_param (by decide) (by decide),
    ts_param (k := "applies_to") (by simp [optionalParams]) (by decide) h,
    ts_getProp (k := "expected_hash") (by decide)]
  dsimp only
  rw [oneOf_alike (by decide)]
  cases Ts.oneOf AppliesTo.text [.postActionOnly, .always]
      (.json (Ts.ofDoc (r.param "applies_to" (.str (lit "post_action_only"))))) with
  | none => exact alike_ruleError _ _
  | some m =>
    have hhash : r.expectedHash = (get? (lit "expected_hash") r.parameters).bind docStr := rfl
    cases hget : get? (lit "expected_hash") r.parameters with
    | none =>
      rw [hget] at hhash
      exact alike_postStateField (v := .null) (w := none) h rfl hhash.symm m
    | some d =>
      rw [hget] at hhash
      cases d with
      | null => exact alike_postStateField (v := .null) (w := none) h rfl hhash.symm m
      | str us => exact alike_postStateField (v := .str (decode us)) (w := some us) h rfl hhash.symm m
      | bool | num | arr | obj => exact alike_ruleError _ _

theorem samePath_field (hagree : HelpersAgree receipt r) (htype : r.type = .postStateAssertion)
    {p : JsStr} (hp : r.field = some p) : SamePath receipt p := by
  unfold RuleDoc.field RuleDoc.param at hp
  cases hget : get? (lit "field") r.parameters with
  | none =>
    rw [hget, Option.getD_none] at hp
    obtain rfl := Option.some.inj hp
    exact samePath_postState receipt
  | some d =>
    rw [hget, Option.getD_some] at hp
    refine hagree.paths p ?_
    unfold RuleDoc.path?
    rw [htype, hget]
    exact hp

theorem parity_postStateAssertion (h : InDomain receipt aggregates r)
    (hagree : HelpersAgree receipt r) (htype : r.type = .postStateAssertion) :
    RuleParity (Prints receipt r) True
      (Py.evalPostStateAssertion r.toPy (Py.ofMembers receipt))
      (Ts.evalPostStateAssertion r.toTs (Ts.ofMembers receipt)) := by
  refine RuleParity.bind (alike_postStateParams h) fun a b hab => ?_
  obtain ⟨field, expected, mode⟩ := a
  obtain ⟨p, hash, mode'⟩ := b
  dsimp only at hab
  obtain ⟨hfield, rfl, hsame, hhash, rfl⟩ := hab
  have hprints : Prints receipt r
      ↔ (hash.isSome → Printable (Ts.resolvePath (Ts.ofMembers receipt) p)) := by
    unfold Prints
    rw [htype, hfield, ← hhash]
    exact ⟨fun hall hsome => hall hsome p rfl, fun hp hsome q hq => Option.some.inj hq ▸ hp hsome⟩
  dsimp only
  rcases (samePath_field hagree htype hfield).cases with ⟨hpy, hts⟩ | ⟨d, hd, hpy, hts, hnull⟩
  · have hprint : Prints receipt r := hprints.mpr fun _ => printable_nullish hts
    rw [if_pos hpy, if_pos hts]
    cases mode with
    | postActionOnly => exact RuleParity.notFired hprint trivial
    | always => exact .agrees _ _ rfl hprint trivial
  · rw [hts] at hnull hprints
    rw [hpy, hts, if_neg (ofDoc_ne_null hd), hnull, if_neg (show ¬ (false = true) by decide)]
    cases hash with
    | none =>
      obtain rfl : expected = .null := hsame
      exact RuleParity.notFired (hprints.mpr nofun) trivial
    | some us =>
      obtain rfl : expected = .str (decode us) := hsame
      rw [if_neg nofun, pyEq_decode]
      refine RuleParity.ite_print (by simp) (hprints.trans ⟨fun hp => hp rfl, fun hp _ => hp⟩)
        (fun heq => ?_) trivial
      rw [not_not.mp heq]
      exact ⟨_, rfl⟩

/-! ## The table -/

/-- **One rule in both engines.** -/
theorem rule_parity (h : InDomain receipt aggregates r) (hagree : HelpersAgree receipt r) :
    RuleParity (Prints receipt r) (PrefixesAgree receipt r)
      (Py.ruleSays r.toPy (Py.ofMembers receipt) (Py.ofMembers aggregates))
      (Ts.typeSays r.type r.toTs (Ts.ofMembers receipt) (Ts.ofMembers aggregates)) := by
  have htoPy : r.toPy.type = r.type := rfl
  have hprints (ht : r.type ≠ .actionTypeAllowlist ∧ r.type ≠ .toolIdAllowlist
      ∧ r.type ≠ .postStateAssertion) : Prints receipt r ↔ True := by
    obtain ⟨h₁, h₂, h₃⟩ := ht
    unfold Prints
    split <;> simp_all
  have hprefixes (ht : r.type ≠ .urlPrefixAllowlist ∧ r.type ≠ .urlPrefixDenylist) :
      PrefixesAgree receipt r ↔ True := by
    obtain ⟨h₁, h₂⟩ := ht
    unfold PrefixesAgree
    split <;> simp_all
  unfold Py.ruleSays Ts.typeSays
  rw [htoPy]
  cases htype : r.type
  case maxAmount =>
    rw [hprints (by simp [htype]), hprefixes (by simp [htype])]
    exact parity_maxAmount h
  case dailyLimit =>
    rw [hprints (by simp [htype]), hprefixes (by simp [htype])]
    exact parity_dailyLimit h htype
  case actionTypeAllowlist =>
    rw [hprefixes (by simp [htype]), Prints, htype]
    exact parity_actionTypeAllowlist
  case actionTypeDenylist =>
    rw [hprints (by simp [htype]), hprefixes (by simp [htype])]
    exact parity_actionTypeDenylist
  case urlPrefixAllowlist =>
    rw [hprints (by simp [htype])]
    exact parity_urlPrefixAllowlist h hagree htype
  case urlPrefixDenylist =>
    rw [hprints (by simp [htype])]
    exact parity_urlPrefixDenylist h hagree htype
  case escalationThreshold =>
    rw [hprints (by simp [htype]), hprefixes (by simp [htype])]
    exact parity_escalationThreshold h
  case toolIdAllowlist =>
    rw [hprefixes (by simp [htype]), Prints, htype]
    exact parity_toolIdAllowlist
  case argsPatternMatch =>
    rw [hprints (by simp [htype]), hprefixes (by simp [htype])]
    exact parity_argsPatternMatch h hagree htype
  case postStateAssertion =>
    rw [hprefixes (by simp [htype])]
    exact parity_postStateAssertion h hagree htype

end Parity

end OpenTerms
