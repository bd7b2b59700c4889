import OpenTerms.Parity.Reasons

/-!
# Reasons that quote a value

The lists, the URL rules, the patterns and the post-state quote a string
or print a value of the receipt. Python quotes with `repr`, TypeScript
with a port of it, and the texts after the value are compared with
`repr_append_iff` and `reprStr_append_iff`. With the amounts they make
`reasons_agree_iff`, for every type of rule.
-/

namespace OpenTerms

namespace Parity

open Json Utf16

/-! ## Inherited names -/

/-- The names of a walk that nothing is inherited under leave nothing
inherited. -/
theorem not_inherits_own {parts : List JsStr} (hparts : ∀ p ∈ parts, Ts.OwnName p) (d : Doc) :
    ¬ Inherits (unmet parts d) := by
  have hproto : ¬ Ts.OwnName Ts.protoName := by decide
  induction parts generalizing d with
  | nil => exact id
  | cons part parts ih =>
    obtain ⟨hpart, hrest⟩ := List.forall_mem_cons.mp hparts
    cases d with
    | obj ms =>
      rw [unmet]
      cases get? part ms with
      | some d => exact ih hrest d
      | none =>
        intro h
        rcases parts with _ | ⟨f, _ | ⟨g, parts⟩⟩
        · exact h hpart
        · have hname : part = Ts.protoName := h.1
          exact hproto (hname ▸ hpart)
        · exact h
    | null | bool | num | str | arr => exact id

/-- What a walk that ends on an inherited name comes to: a function, or
`Object.prototype`; the receipt holds nothing there. -/
theorem ts_walkPath_inherits {parts : List JsStr} {d : Doc} (h : Inherits (unmet parts d)) :
    valueAt parts d = .null ∧ ((∃ f, Ts.walkPath parts (.json (Ts.ofDoc d)) = .builtin f)
      ∨ Ts.walkPath parts (.json (Ts.ofDoc d)) = .objectPrototype) := by
  induction parts generalizing d with
  | nil => exact absurd h id
  | cons part parts ih =>
    cases d with
    | obj ms =>
      rw [unmet] at h
      rw [valueAt, Ts.ofDoc_obj, Ts.walkPath, Ts.hasProp, Ts.getProp, Ts.get?_ofMembers]
      cases hget : get? part ms with
      | some d =>
        have hmem : part ∈ names (Ts.ofMembers ms) := by
          by_contra hnone
          rw [← get?_eq_none_iff, Ts.get?_ofMembers, hget] at hnone
          cases hnone
        rw [hget] at h
        rw [if_pos (by simp [hmem])]
        exact ih h
      | none =>
        rw [hget] at h
        refine ⟨rfl, ?_⟩
        dsimp only [Option.map_none]
        have hne : Ts.inherited part ≠ .undefined := by
          rcases parts with _ | ⟨f, _ | ⟨g, parts⟩⟩
          · exact h
          · have hname : part = Ts.protoName := h.1
            rw [hname]
            decide
          · exact h.elim
        rw [if_pos (by simp [hne])]
        rcases parts with _ | ⟨f, _ | ⟨g, parts⟩⟩
        · exact (Ts.inherited_cases part).resolve_left hne
        · -- a function of `Object.prototype`
          obtain ⟨hname, hf⟩ := h
          obtain ⟨g, hg⟩ := Option.isSome_iff_exists.mp hf
          have hproto : f ≠ Ts.protoName := by
            rintro rfl
            have hnone : Ts.builtinAt Ts.protoName = none := by decide
            rw [hnone] at hg
            cases hg
          have hprototype : Ts.inherited part = .objectPrototype := by
            rw [hname]
            decide
          have hfound : Ts.inherited f = .builtin g := by
            unfold Ts.inherited
            rw [if_neg hproto, hg]
          rw [hprototype, Ts.walkPath, Ts.prototypeProp, if_neg hproto, hfound, if_pos (by simp)]
          exact Or.inl ⟨g, rfl⟩
        · exact h.elim
    | null | bool | num | str | arr => exact absurd h id

/-- **What TypeScript finds at a path**: the value of the receipt, or
something inherited where the receipt holds nothing. -/
theorem ts_resolvePath_cases (path : JsStr) (receipt : Members) :
    (¬ Inherits (leftOver path receipt)
        ∧ Ts.resolvePath (Ts.ofMembers receipt) path = .json (Ts.ofDoc (located path receipt)))
      ∨ (Inherits (leftOver path receipt) ∧ located path receipt = .null
        ∧ ((∃ f, Ts.resolvePath (Ts.ofMembers receipt) path = .builtin f)
          ∨ Ts.resolvePath (Ts.ofMembers receipt) path = .objectPrototype)) := by
  by_cases h : Inherits (leftOver path receipt)
  · right
    refine ⟨h, ?_⟩
    unfold leftOver at h
    unfold located Ts.resolvePath
    by_cases hpath : path = []
    · rw [if_pos hpath] at h
      exact absurd h id
    · rw [if_neg hpath] at h ⊢
      rw [if_neg hpath, ← Ts.ofDoc_obj]
      exact ts_walkPath_inherits h
  · exact Or.inl ⟨h, (ts_resolvePath path receipt).mpr h⟩

/-- The text both languages find at a path, whatever TypeScript finds. -/
theorem ts_textAt (path : JsStr) (receipt : Members) :
    (Ts.asStr (Ts.resolvePath (Ts.ofMembers receipt) path)).getD [] = textAt path receipt := by
  unfold textAt
  rcases ts_resolvePath_cases path receipt with ⟨-, hts⟩ | ⟨-, hnull, ⟨f, hts⟩ | hts⟩
  · rw [hts, ts_asStr]
  · rw [hts, hnull]
    rfl
  · rw [hts, hnull]
    rfl

theorem py_textAt (path : JsStr) (receipt : Members) :
    (Py.asStr (Py.resolvePath (Py.ofMembers receipt) (decode path))).getD []
      = decode (textAt path receipt) := by
  rw [py_resolvePath, py_asStr]
  unfold textAt
  cases docStr (located path receipt) <;> rfl

/-! ## Lists of action types -/

theorem decode_before_lit {t : String} (ht : Ascii t) (hne : t ≠ "") (us : JsStr) :
    decode (us ++ lit t) = decode us ++ lit t := by
  have h := decode_append_lit ht hne us []
  have hnil : decode [] = [] := rfl
  rwa [List.append_nil, hnil, List.append_nil] at h

theorem safeDoc_memberOf {receipt : Members} (hreceipt : ∀ m ∈ receipt, SafeDoc m.2) (k : String) :
    SafeDoc (memberOf k receipt) := by
  unfold memberOf
  cases hget : get? (lit k) receipt with
  | none => exact trivial
  | some d => exact hreceipt _ (mem_of_get? hget)

theorem py_memberOf {k : String} (hk : Ascii k) (receipt : Members) :
    Py.getD (lit k) (Py.ofMembers receipt) = Py.ofDoc (memberOf k receipt) := py_getD hk receipt .null

/-- A member that is not there is printed as one that is `null`. -/
theorem ts_memberOf {k : String} (hown : Ts.OwnName (lit k)) (receipt : Members) :
    Ts.pyRepr (Ts.getProp (Ts.ofMembers receipt) (lit k))
      = Ts.pyRepr (.json (Ts.ofDoc (memberOf k receipt))) := by
  rw [ts_getProp hown]
  unfold memberOf
  cases get? (lit k) receipt <;> rfl

section

variable [Ucd] {receipt aggregates : Members} {r : RuleDoc}

/-- The reasons of a rule that looks the action type up in a list. -/
theorem told_actionType {key before after : String} (hkey : Ascii key) (hown : Ts.OwnName (lit key))
    {p : List PyStr → Prop} [∀ ss, Decidable (p ss)] {q : List JsStr → Prop}
    [∀ us, Decidable (q us)] (hbefore : Ascii before) (hafter : Ascii after) (hne : after ≠ "")
    (hreceipt : ∀ m ∈ receipt, SafeDoc m.2) :
    Told (QuotesDoc (memberOf "action_type" receipt))
      (do
        let listed ← Py.requireList r.toPy.parameters (lit key) r.toPy.id
        if p listed then
          .ok (Py.fires (lit before ++ (Py.repr (Py.getD (lit "action_type") (Py.ofMembers receipt))
            ++ lit after)))
        else .ok Py.notFired)
      (do
        let listed ← Ts.requireStringList r.toTs.parameters (lit key) r.toTs.id
        if q listed then
          let text ← Ts.pyRepr (Ts.getProp (Ts.ofMembers receipt) (lit "action_type"))
          .ok (Ts.fires (lit before ++ (text ++ lit after)))
        else .ok Ts.notFired) := by
  refine (meet_of_alike (alike_requireList hkey hown)).bind fun ss us _ => ?_
  refine Told.print fun _ _ text htext => ?_
  rw [ts_memberOf (by decide)] at htext
  rw [py_memberOf (by decide), decode_lit_append hbefore, List.append_cancel_left_eq,
    decode_before_lit hafter hne]
  exact repr_append_same (safeDoc_memberOf hreceipt _) htext _

theorem told_actionTypeAllowlist (hreceipt : ∀ m ∈ receipt, SafeDoc m.2) :
    Told (QuotesDoc (memberOf "action_type" receipt))
      (Py.evalActionTypeAllowlist r.toPy (Py.ofMembers receipt))
      (Ts.evalActionTypeAllowlist r.toTs (Ts.ofMembers receipt)) :=
  told_actionType (by decide) (by decide) (by decide) (by decide) (by decide) hreceipt

theorem told_actionTypeDenylist (hreceipt : ∀ m ∈ receipt, SafeDoc m.2) :
    Told (QuotesDoc (memberOf "action_type" receipt))
      (Py.evalActionTypeDenylist r.toPy (Py.ofMembers receipt))
      (Ts.evalActionTypeDenylist r.toTs (Ts.ofMembers receipt)) :=
  told_actionType (by decide) (by decide) (by decide) (by decide) (by decide) hreceipt

/-! ## URL prefixes -/

omit [Ucd] in
/-- The field and the text of a URL rule. -/
theorem meet_urlSource [Ucd] : Meet (fun s t => r.sourceField = some t.1 ∧ s.1 = decode t.1
      ∧ (Py.asStr s.2).getD [] = decode (textAt t.1 receipt)
      ∧ (Ts.asStr t.2).getD [] = textAt t.1 receipt)
    (Py.urlSource r.toPy (Py.ofMembers receipt)) (Ts.urlSource r.toTs (Ts.ofMembers receipt)) := by
  unfold Py.urlSource Ts.urlSource
  rw [ts_readParam, ok_bind, py_param (by decide) (by decide), py_asStr]
  cases hp : docStr (r.param "source_field" (.str (lit "terms_url"))) with
  | none => exact meet_raises _ _
  | some p =>
    have hnull : r.param "source_field" (.str (lit "terms_url")) ≠ .null := by
      intro h
      rw [h] at hp
      cases hp
    rw [ts_optional (by decide) hnull, ts_asStr, hp]
    exact meet_ok ⟨hp, rfl, py_textAt p receipt, ts_textAt p receipt⟩

omit [Ucd] in
/-- A line that begins with a field. -/
theorem field_told {before : String} (hbefore : Ascii before) {p rest : JsStr} {A : PyStr} :
    lit before ++ (decode p ++ (lit " " ++ A)) = decode (lit before ++ (p ++ (lit " " ++ rest)))
      ↔ A = decode rest := by
  rw [decode_lit_append hbefore, List.append_cancel_left_eq,
    decode_append_lit (by decide) (by decide), List.append_cancel_left_eq,
    List.append_cancel_left_eq]

theorem reprStr_eq_quoted_iff {s t : PyStr} : Py.reprStr s = quoted t ↔ s = t ∧ QuotesPy s := by
  have h := @reprStr_append_iff _ s t [] []
  rwa [List.append_nil, List.append_nil, eq_self, and_true] at h

theorem told_urlPrefixAllowlist :
    Told (∀ p, r.sourceField = some p → QuotesPy (decode (textAt p receipt)))
      (Py.evalUrlPrefixAllowlist r.toPy (Py.ofMembers receipt))
      (Ts.evalUrlPrefixAllowlist r.toTs (Ts.ofMembers receipt)) := by
  refine (meet_of_alike (alike_requireList (by decide) (by decide))).bind
    fun ss us _ => ?_
  refine meet_urlSource.bind fun s t hst => ?_
  obtain ⟨p, v⟩ := t
  obtain ⟨s, w⟩ := s
  obtain ⟨hp, rfl, hs, ht⟩ := hst
  dsimp only at hp hs ht ⊢
  rw [hs, ht, hp]
  refine Told.ite fun _ _ => ?_
  rw [field_told (by decide), decode_before_lit (by decide) (by decide),
    decode_reprStr, reprStr_append_iff]
  simp

theorem told_urlPrefixDenylist :
    Told (∀ p, r.sourceField = some p → QuotesPy (decode (textAt p receipt))
        ∧ ∀ us, listParam "denied" r.parameters = some us → ∀ q q',
          us.find? (fun q => (decode q).isPrefixOf (decode (textAt p receipt))) = some q →
          us.find? (fun q => q.isPrefixOf (textAt p receipt)) = some q' →
          q = q' ∧ QuotesPy (decode q))
      (Py.evalUrlPrefixDenylist r.toPy (Py.ofMembers receipt))
      (Ts.evalUrlPrefixDenylist r.toTs (Ts.ofMembers receipt)) := by
  refine (meet_of_alike (alike_requireList (by decide) (by decide))).bind
    fun ss us hus => ?_
  obtain ⟨hus, rfl⟩ := hus
  refine meet_urlSource.bind fun s t hst => ?_
  obtain ⟨p, v⟩ := t
  obtain ⟨s, w⟩ := s
  obtain ⟨hp, rfl, hs, ht⟩ := hst
  dsimp only at hp hs ht ⊢
  rw [hs, ht, hp, List.find?_map]
  cases hpy : us.find? ((fun q => q.isPrefixOf (decode (textAt p receipt))) ∘ decode) with
  | none =>
    intro a b ha _ hfired
    obtain rfl := Except.ok.inj ha
    cases hfired
  | some q =>
    cases hts : us.find? (fun q => q.isPrefixOf (textAt p receipt)) with
    | none =>
      intro a b _ hb _ hfired
      obtain rfl := Except.ok.inj hb
      cases hfired
    | some q' =>
      refine meet_ok fun _ _ => sameReason_fires.trans ?_
      rw [field_told (by decide),
        decode_append_lit (by decide) (by decide), decode_reprStr, decode_reprStr,
        reprStr_append_iff, List.append_cancel_left_eq]
      rw [reprStr_eq_quoted_iff, eq_self, true_and, decode_injective.eq_iff]
      constructor
      · rintro ⟨htext, hq⟩ p' hp'
        obtain rfl := Option.some.inj hp'
        refine ⟨htext, fun us' hus' q₁ q₂ h₁ h₂ => ?_⟩
        rw [hus] at hus'
        obtain rfl := Option.some.inj hus'
        obtain rfl := Option.some.inj (hpy.symm.trans h₁)
        obtain rfl := Option.some.inj (hts.symm.trans h₂)
        exact hq
      · intro h
        obtain ⟨htext, hprefixes⟩ := h p rfl
        exact ⟨htext, hprefixes us hus q q' hpy hts⟩

/-! ## The tool -/

omit [Ucd] in
theorem safeDoc_valueAt (parts : List JsStr) {d : Doc} (hd : SafeDoc d) :
    SafeDoc (valueAt parts d) := by
  induction parts generalizing d with
  | nil => exact hd
  | cons part parts ih =>
    cases d with
    | obj ms =>
      rw [valueAt]
      cases hget : get? part ms with
      | none => exact trivial
      | some d => exact ih ((every_obj.mp hd) _ (mem_of_get? hget)).2
    | null | bool | num | str | arr => exact trivial

omit [Ucd] in
theorem safeDoc_located (hreceipt : ∀ m ∈ receipt, SafeDoc m.2) (path : JsStr) :
    SafeDoc (located path receipt) := by
  unfold located
  split
  · exact trivial
  · exact safeDoc_valueAt _ (every_obj.mpr fun m hm => ⟨trivial, hreceipt m hm⟩)

omit [Ucd] in
theorem nullish_ofDoc {d : Doc} (hd : d ≠ .null) : ¬ Ts.nullish (.json (Ts.ofDoc d)) = true := by
  cases d with
  | null => exact absurd rfl hd
  | bool | num | str | arr | obj => exact nofun

theorem told_toolIdAllowlist (hreceipt : ∀ m ∈ receipt, SafeDoc m.2) :
    Told (QuotesDoc (located Ts.toolIdPath receipt))
      (Py.evalToolIdAllowlist r.toPy (Py.ofMembers receipt))
      (Ts.evalToolIdAllowlist r.toTs (Ts.ofMembers receipt)) := by
  refine (meet_of_alike (alike_requireList (by decide) (by decide))).bind
    fun ss us _ => ?_
  have hpath : decode Ts.toolIdPath = Py.toolIdPath := decode_lit (by decide)
  have hown : ¬ Inherits (leftOver Ts.toolIdPath receipt) := by
    unfold leftOver
    rw [if_neg (by decide)]
    exact not_inherits_own (by decide) _
  have hpy := py_resolvePath Ts.toolIdPath receipt
  have hts := (ts_resolvePath Ts.toolIdPath receipt).mpr hown
  rw [hpath] at hpy
  dsimp only
  rw [hpy, hts]
  by_cases hnull : located Ts.toolIdPath receipt = .null
  · rw [hnull]
    refine meet_ok fun _ _ => sameReason_fires.trans (iff_of_true ?_ trivial)
    exact (decode_lit (by decide)).symm
  · rw [if_neg (ofDoc_ne_null hnull), if_neg (nullish_ofDoc hnull)]
    refine Told.print fun _ _ text htext => ?_
    rw [decode_lit_append (by decide), List.append_cancel_left_eq,
      decode_before_lit (by decide) (by decide)]
    exact repr_append_same (safeDoc_located hreceipt _) htext _

/-! ## Patterns -/

omit [Ucd] in
/-- After the last of a character, texts are read apart. -/
theorem append_sep_last_iff {c : CodePoint} {x y a b : PyStr} (ha : c ∉ a) (hb : c ∉ b) :
    x ++ c :: a = y ++ c :: b ↔ x = y ∧ a = b := by
  have h := append_sep_iff (a := x.reverse) (b := y.reverse) (mt List.mem_reverse.mp ha)
    (mt List.mem_reverse.mp hb)
  rw [List.reverse_inj, List.reverse_inj, and_comm] at h
  rw [← h, ← List.reverse_inj]
  simp

/-- A pattern that both languages read. -/
theorem meet_matchPattern (d : Doc) :
    Meet (fun a b => ∃ q, PatternDoc.read d = some q
        ∧ a = (if pyHit receipt q then some (decode q.path, decode q.value) else none)
        ∧ b = (if tsHit receipt q then some (q.path, q.value) else none))
      (Py.matchPattern r.toPy (Py.ofMembers receipt) (Py.ofDoc d))
      (Ts.matchPattern r.toTs (Ts.ofMembers receipt) (Ts.ofDoc d)) := by
  cases d with
  | obj p =>
    rw [Py.ofDoc_obj, Ts.ofDoc_obj, Py.matchPattern, Ts.matchPattern,
      py_memberStr (by decide), py_memberStr (by decide),
      ts_memberStr (by decide), ts_memberStr (by decide),
      oneOf_member (fun op _ => ascii_op op) (by decide) (by decide)]
    cases hpath : (get? (lit "path") p).bind docStr with
    | none => exact meet_raises _ _
    | some path =>
      cases hvalue : (get? (lit "value") p).bind docStr with
      | none => exact meet_raises _ _
      | some value =>
        dsimp only [Option.map_some]
        cases hop : Ts.oneOf PatternOp.text validOps (Ts.getProp (Ts.ofMembers p) (lit "op")) with
        | none => exact meet_raises _ _
        | some op =>
          have hopText : (get? (lit "op") p).bind docStr = some (lit op.text) := by
            rw [← ts_memberStr (by decide), eq_of_oneOf hop]
            rfl
          have hread : PatternDoc.read (.obj p) = some ⟨path, lit op.text, value⟩ := by
            rw [PatternDoc.read, hpath, hopText, hvalue]
            rfl
          intro a b ha hb
          obtain ⟨hit, hhit, ha⟩ := bind_eq_ok_iff.mp ha
          obtain ⟨hit', hhit', hb⟩ := bind_eq_ok_iff.mp hb
          refine ⟨_, hread, ?_, ?_⟩
          · have hpy : pyHit receipt ⟨path, lit op.text, value⟩ = hit := by
              unfold pyHit
              rw [decode_lit (ascii_op op), hhit]
              rfl
            rw [hpy]
            exact (Except.ok.inj ha).symm
          · have hts : tsHit receipt ⟨path, lit op.text, value⟩ = hit' := by
              unfold tsHit
              rw [hhit']
              rfl
            rw [hts]
            exact (Except.ok.inj hb).symm
  | null | bool | num | str | arr => exact meet_raises _ _

/-- What matched, in order, where both languages read every pattern. -/
theorem meet_matchingPatterns (ps : List Doc) :
    Meet (fun as bs =>
        as = (((ps.filterMap PatternDoc.read).filter (pyHit receipt)).map
          fun q => (decode q.path, decode q.value))
        ∧ bs = (((ps.filterMap PatternDoc.read).filter (tsHit receipt)).map
          fun q => (q.path, q.value)))
      (Py.matchingPatterns r.toPy (Py.ofMembers receipt) (ps.map Py.ofDoc))
      (Ts.matchingPatterns r.toTs (Ts.ofMembers receipt) (ps.map Ts.ofDoc)) := by
  induction ps with
  | nil => exact meet_ok ⟨rfl, rfl⟩
  | cons d ps ih =>
    refine (meet_matchPattern d).bind fun a b hab => ?_
    refine ih.bind fun as bs h => meet_ok ?_
    obtain ⟨q, hread, rfl, rfl⟩ := hab
    obtain ⟨rfl, rfl⟩ := h
    rw [List.filterMap_cons_some hread, List.filter_cons, List.filter_cons]
    refine ⟨?_, ?_⟩
    · split <;> rfl
    · split <;> rfl

/-- The patterns and the mode, where both languages accept them. -/
theorem meet_patternParams (htype : r.type = .argsPatternMatch) :
    Meet (fun a b => ∃ m, a = (r.patterns.map Py.ofDoc, m) ∧ b = (r.patterns.map Ts.ofDoc, m))
      (Py.patternParams r.toPy) (Ts.patternParams r.toTs) := by
  unfold Py.patternParams Ts.patternParams Py.getD
  have hpy : get? (lit "patterns") r.toPy.parameters
      = (get? (lit "patterns") r.parameters).map Py.ofDoc := py_get? (by decide) _
  rw [ts_readParam, ok_bind, hpy, ts_getProp (by decide)]
  cases hget : get? (lit "patterns") r.parameters with
  | none => exact meet_raises _ _
  | some d =>
    cases d with
    | arr ps =>
      cases ps with
      | nil => exact meet_raises _ _
      | cons d ps =>
        have hpatterns : r.patterns = d :: ps := by
          unfold RuleDoc.patterns
          rw [htype, hget]
        rw [Option.map_some, Option.getD_some, py_ofDoc_arr, List.map_cons]
        dsimp only
        rw [ts_ofDoc_arr, List.map_cons]
        dsimp only
        rw [ts_readParam, ok_bind, py_param (by decide) (by decide)]
        cases hmode : Py.oneOf MatchMode.text [.any, .all]
            (Py.ofDoc (r.param "mode" (.str (lit "any")))) with
        | none => exact meet_raises _ _
        | some m =>
          rw [ts_optional (by decide) (ne_null_of_oneOf hmode),
            ← oneOf_alike (by decide), hmode, hpatterns]
          exact meet_ok ⟨m, rfl, rfl⟩
    | null | bool | num | str | obj => exact meet_raises _ _

omit [Ucd] in
theorem decimal_nat_inj {m n : ℕ} : (decimal (m : ℤ) : PyStr) = decimal (n : ℤ) ↔ m = n := by
  refine ⟨fun h => ?_, fun h => h ▸ rfl⟩
  have hlt {k : ℕ} : ∀ c ∈ Nat.toDigits 10 k, c.toNat < 0x110000 := fun c hc => by
    have := isDigit_of_mem_toDigits hc
    omega
  have hchars : Nat.toDigits 10 m = Nat.toDigits 10 n := ofChars_inj hlt hlt h
  rw [← Nat.ofDigitChars_ten_toDigits (n := m), hchars, Nat.ofDigitChars_ten_toDigits]

omit [Ucd] in
/-- A count has no equals sign in it. -/
theorem equals_notMem_decimal (z : ℤ) : chr '=' ∉ (decimal z : PyStr) := by
  intro hmem
  obtain ⟨c, hc, heq⟩ := List.mem_map.mp hmem
  have hlt : c.toNat < 0x80 := decimalChars_lt hc
  have hequals : c = '=' := chr_inj (by omega) (by decide) heq
  rcases mem_decimalChars hc with h | rfl
  · rw [hequals] at h
    exact absurd h (by decide)
  · exact absurd hequals (by decide)

/-- **The reason of a pattern rule**, from the first match on either side
and the number of matches. -/
theorem pattern_told {p q v w : JsStr} {mode : String} (hmode : Ascii mode) {m n k : ℕ} :
    lit "ARGS_PATTERN_MATCH: pattern at " ++ (decode p ++ (lit " matched value "
        ++ (Py.reprStr (decode v) ++ (lit " (mode=" ++ (lit mode ++ (lit ", matched="
          ++ (decimal (m : ℤ) ++ (lit "/" ++ (decimal (k : ℤ) ++ lit ")")))))))))
      = decode (lit "ARGS_PATTERN_MATCH: pattern at " ++ (q ++ (lit " matched value "
        ++ (Ts.reprStr w ++ (lit " (mode=" ++ (lit mode ++ (lit ", matched="
          ++ (decimal (n : ℤ) ++ (lit "/" ++ (decimal (k : ℤ) ++ lit ")"))))))))))
      ↔ m = n ∧ p = q ∧ v = w ∧ QuotesPy (decode v) := by
  rw [decode_lit_append (by decide), List.append_cancel_left_eq,
    decode_append_lit (by decide) (by decide),
    decode_append_lit (by decide) (by decide), decode_reprStr,
    decode_lit_append hmode, decode_lit_append (by decide),
    decode_append_lit (by decide) (by decide), decode_decimal,
    decode_before_lit (by decide) (by decide), decode_decimal]
  have hequals : (lit ", matched=" : PyStr) = lit ", matched" ++ [chr '='] := by decide
  rw [hequals]
  -- the end of the line is one, and before it stand the two counts
  have hshape (x y : PyStr) (z : ℤ) : x ++ (lit " matched value " ++ (y ++ (lit " (mode="
        ++ (lit mode ++ ((lit ", matched" ++ [chr '=']) ++ (decimal z ++ (lit "/"
          ++ (decimal (k : ℤ) ++ lit ")"))))))))
      = ((x ++ (lit " matched value " ++ y)) ++ (lit " (mode=" ++ (lit mode ++ lit ", matched"))
        ++ chr '=' :: decimal z) ++ (lit "/" ++ (decimal (k : ℤ) ++ lit ")")) := by
    simp only [List.append_assoc, List.cons_append, List.nil_append]
  rw [hshape, hshape, List.append_cancel_right_eq,
    append_sep_last_iff (equals_notMem_decimal _) (equals_notMem_decimal _), decimal_nat_inj,
    List.append_cancel_right_eq]
  have hspace : (lit " matched value " : PyStr) = lit " matched value" ++ [chr ' '] := by
    decide
  rw [hspace, append_reprStr_iff, decode_injective.eq_iff, decode_injective.eq_iff, and_comm]

/-- The line of a pattern rule that fires. -/
theorem py_patternResult_fires {ps : List Py.PyVal} {m : MatchMode} {p v : PyStr}
    {hits : List (PyStr × PyStr)} (h : (Py.patternResult ps m ((p, v) :: hits)).fired = true) :
    Py.patternResult ps m ((p, v) :: hits)
      = Py.fires (lit "ARGS_PATTERN_MATCH: pattern at " ++ (p ++ (lit " matched value "
        ++ (Py.reprStr v ++ (lit " (mode=" ++ (lit m.text ++ (lit ", matched="
          ++ (decimal ((hits.length + 1 : ℕ) : ℤ) ++ (lit "/"
            ++ (decimal (ps.length : ℤ) ++ lit ")")))))))))) := by
  cases m with
  | any => rfl
  | all =>
    rw [py_patternResult] at h
    have hall := (of_decide_eq_true h).1
    unfold Py.patternResult
    dsimp only
    rw [decide_eq_true hall]
    rfl

omit [Ucd] in
theorem ts_patternResult_fires {ps : List Ts.JsVal} {m : MatchMode} {p v : JsStr}
    {hits : List (JsStr × JsStr)} (h : (Ts.patternResult ps m ((p, v) :: hits)).fired = true) :
    Ts.patternResult ps m ((p, v) :: hits)
      = Ts.fires (lit "ARGS_PATTERN_MATCH: pattern at " ++ (p ++ (lit " matched value "
        ++ (Ts.reprStr v ++ (lit " (mode=" ++ (lit m.text ++ (lit ", matched="
          ++ (decimal ((hits.length + 1 : ℕ) : ℤ) ++ (lit "/"
            ++ (decimal (ps.length : ℤ) ++ lit ")")))))))))) := by
  cases m with
  | any => rfl
  | all =>
    rw [ts_patternResult] at h
    have hall := (of_decide_eq_true h).1
    unfold Ts.patternResult
    dsimp only
    rw [decide_eq_true hall]
    rfl

theorem told_argsPatternMatch (htype : r.type = .argsPatternMatch) :
    Told ((pyHits receipt r).length = (tsHits receipt r).length
        ∧ ∀ q q', (pyHits receipt r).head? = some q → (tsHits receipt r).head? = some q' →
          q.path = q'.path ∧ q.value = q'.value ∧ QuotesPy (decode q.value))
      (Py.argsPatternMatch r.toPy (Py.ofMembers receipt))
      (Ts.argsPatternMatch r.toTs (Ts.ofMembers receipt)) := by
  refine (meet_patternParams htype).bind fun a b hab => ?_
  obtain ⟨m, rfl, rfl⟩ := hab
  have hhits : Meet (fun as bs =>
        as = ((pyHits receipt r).map fun q => (decode q.path, decode q.value))
        ∧ bs = ((tsHits receipt r).map fun q => (q.path, q.value)))
      (Py.matchingPatterns r.toPy (Py.ofMembers receipt) (r.patterns.map Py.ofDoc))
      (Ts.matchingPatterns r.toTs (Ts.ofMembers receipt) (r.patterns.map Ts.ofDoc)) :=
    meet_matchingPatterns r.patterns
  refine hhits.bind fun as bs h => meet_ok ?_
  obtain ⟨rfl, rfl⟩ := h
  cases hpy : pyHits receipt r with
  | nil =>
    intro hfired
    rw [py_patternResult] at hfired
    cases m with
    | any => exact absurd hfired Bool.false_ne_true
    | all => exact absurd rfl (of_decide_eq_true hfired).2
  | cons q qs =>
    cases hts : tsHits receipt r with
    | nil =>
      intro _ hfired
      rw [ts_patternResult] at hfired
      cases m with
      | any => exact absurd hfired Bool.false_ne_true
      | all => exact absurd rfl (of_decide_eq_true hfired).2
    | cons q' qs' =>
      intro hfired hfired'
      rw [List.map_cons] at hfired hfired' ⊢
      rw [py_patternResult_fires hfired, List.map_cons, ts_patternResult_fires hfired',
        sameReason_fires]
      simp only [List.length_map, List.length_cons, List.head?_cons, Option.some.injEq]
      rw [pattern_told (by cases m <;> decide)]
      refine and_congr Iff.rfl ⟨fun h q₁ q₂ h₁ h₂ => ?_, fun h => h q q' rfl rfl⟩
      rw [← h₁, ← h₂]
      exact h

/-! ## Post-state -/

omit [Ucd] in
/-- The last of them. -/
theorem meet_postStateField [Ucd] {v : Py.PyVal} {w : Option JsStr} (hsame : SameHash v w)
    (hw : w = r.expectedHash) (m : AppliesTo) :
    Meet (fun a b => r.field = some b.1 ∧ a.1 = decode b.1 ∧ SameHash a.2.1 b.2.1
        ∧ b.2.1 = r.expectedHash ∧ a.2.2 = b.2.2)
      (match (docStr (r.param "field" (.str Ts.postStateHashPath))).map decode with
        | some field => .ok (field, v, m)
        | none => .error (Py.ruleError r.toPy.id (lit ": field must be a string")))
      (match Ts.asStr (Ts.orElse (Ts.getProp (Ts.ofMembers r.parameters) (lit "field"))
            (.str Ts.postStateHashPath)) with
        | some field => .ok (field, w, m)
        | none => Ts.ruleError r.toTs.id (.ok (lit ": field must be a string"))) := by
  cases hp : docStr (r.param "field" (.str Ts.postStateHashPath)) with
  | none => exact meet_raises _ _
  | some p =>
    have hnull : r.param "field" (.str Ts.postStateHashPath) ≠ .null := by
      intro h
      rw [h] at hp
      cases hp
    rw [ts_optional (by decide) hnull, ts_asStr, hp]
    exact meet_ok ⟨hp, rfl, hsame, hw, rfl⟩

omit [Ucd] in
/-- The checks of a post-state rule, where both languages pass them. -/
theorem meet_postStateParams [Ucd] :
    Meet (fun a b => r.field = some b.1 ∧ a.1 = decode b.1 ∧ SameHash a.2.1 b.2.1
        ∧ b.2.1 = r.expectedHash ∧ a.2.2 = b.2.2)
      (Py.postStateParams r.toPy) (Ts.postStateParams r.toTs) := by
  unfold Py.postStateParams Ts.postStateParams Py.getD
  have hexpected : get? (lit "expected_hash") r.toPy.parameters
      = (get? (lit "expected_hash") r.parameters).map Py.ofDoc := py_get? (by decide) _
  have hfield : (get? (lit "field") r.toPy.parameters).getD (.str Py.postStateHashPath)
      = Py.ofDoc (r.param "field" (.str Ts.postStateHashPath)) :=
    py_param (by decide) (by decide) r
  rw [ts_readParam, ts_readParam, ts_readParam, ok_bind, ok_bind, ok_bind, hexpected, hfield,
    py_param (by decide) (by decide), py_asStr,
    ts_getProp (k := "expected_hash") (by decide)]
  dsimp only
  cases hmode : Py.oneOf AppliesTo.text [.postActionOnly, .always]
      (Py.ofDoc (r.param "applies_to" (.str (lit "post_action_only")))) with
  | none => exact meet_raises _ _
  | some m =>
    rw [ts_optional (k := "applies_to") (by decide) (ne_null_of_oneOf hmode),
      ← oneOf_alike (by decide), hmode]
    have hhash : r.expectedHash = (get? (lit "expected_hash") r.parameters).bind docStr := rfl
    cases hget : get? (lit "expected_hash") r.parameters with
    | none =>
      rw [hget] at hhash
      exact meet_postStateField (v := .null) (w := none) rfl hhash.symm m
    | some d =>
      rw [hget] at hhash
      cases d with
      | null => exact meet_postStateField (v := .null) (w := none) rfl hhash.symm m
      | str us => exact meet_postStateField (v := .str (decode us)) (w := some us) rfl hhash.symm m
      | bool | num | arr | obj => exact meet_raises _ _

omit [Ucd] in
/-- Where TypeScript finds something inherited, it says so, and Python that
there is nothing. -/
theorem absent_ne_printed {v : Ts.JsAny} (hv : (∃ f, v = .builtin f) ∨ v = .objectPrototype)
    {text : JsStr} (htext : Ts.pyRepr v = .ok text) {p rest : JsStr} :
    (lit "POST_STATE_ASSERTION: " ++ (decode p ++ lit " absent on receipt") : PyStr)
      ≠ decode (lit "POST_STATE_ASSERTION: " ++ (p ++ (lit " " ++ (text ++ rest)))) := by
  have habsent : (lit " absent on receipt" : PyStr) = lit " " ++ lit "absent on receipt" := by
    decide
  rw [habsent, ne_eq, field_told (by decide)]
  intro h
  rcases hv with ⟨f, rfl⟩ | rfl
  · obtain rfl := Except.ok.inj htext
    rw [List.append_assoc, decode_lit_append (by decide)] at h
    exact absurd (List.cons.inj h).1 (by decide)
  · obtain rfl := Except.ok.inj htext
    rw [decode_lit_append (by decide)] at h
    exact absurd (List.cons.inj h).1 (by decide)

theorem told_postStateAssertion (hreceipt : ∀ m ∈ receipt, SafeDoc m.2) :
    Told (∀ p, r.field = some p → ¬ Inherits (leftOver p receipt)
        ∧ (located p receipt = .null ∨ QuotesDoc (located p receipt)
          ∧ ∀ e, r.expectedHash = some e → QuotesPy (decode e)))
      (Py.evalPostStateAssertion r.toPy (Py.ofMembers receipt))
      (Ts.evalPostStateAssertion r.toTs (Ts.ofMembers receipt)) := by
  refine meet_postStateParams.bind fun a b hab => ?_
  obtain ⟨field, expected, mode⟩ := a
  obtain ⟨p, hash, mode'⟩ := b
  dsimp only at hab
  obtain ⟨hfield, rfl, hsame, hhash, rfl⟩ := hab
  have hcond : (∀ p, r.field = some p → ¬ Inherits (leftOver p receipt)
        ∧ (located p receipt = .null ∨ QuotesDoc (located p receipt)
          ∧ ∀ e, r.expectedHash = some e → QuotesPy (decode e)))
      ↔ ¬ Inherits (leftOver p receipt)
        ∧ (located p receipt = .null ∨ QuotesDoc (located p receipt)
          ∧ ∀ e, hash = some e → QuotesPy (decode e)) := by
    rw [hfield, hhash]
    simp only [Option.some.injEq, forall_eq']
  rw [hcond]
  dsimp only
  rw [py_resolvePath]
  rcases ts_resolvePath_cases p receipt with ⟨hown, hts⟩ | ⟨hinherits, hnull, hts⟩
  · rw [hts]
    by_cases hnull : located p receipt = .null
    · rw [hnull]
      cases mode with
      | postActionOnly => exact meet_ok fun h => nomatch h
      | always =>
        refine meet_ok fun _ _ => sameReason_fires.trans (iff_of_true ?_ ⟨hown, Or.inl rfl⟩)
        rw [decode_lit_append (by decide), decode_before_lit (by decide) (by decide)]
    · rw [if_neg (ofDoc_ne_null hnull), if_neg (nullish_ofDoc hnull)]
      cases hash with
      | none =>
        obtain rfl : expected = .null := hsame
        exact meet_ok fun h => nomatch h
      | some e =>
        obtain rfl : expected = .str (decode e) := hsame
        rw [if_neg nofun]
        refine Told.print fun _ _ text htext => ?_
        rw [field_told (by decide), decode_append_lit (by decide) (by decide),
          decode_reprStr]
        have hopen : openings (lit " does not equal expected " ++ quoted (decode e))
            ≤ openings (lit " does not equal expected " ++ Py.reprStr (decode e)) := by
          rw [openings_append, openings_append, openings_quoted]
          exact Nat.add_le_add_left (openings_reprStr _) _
        refine (repr_append_iff (safeDoc_located hreceipt p) htext hopen).trans ?_
        rw [List.append_cancel_left_eq, reprStr_eq_quoted_iff, decode_injective.eq_iff]
        simp only [hown, hnull, not_false_eq_true, true_and, false_or, Option.some.injEq,
          forall_eq']
  · rw [hnull]
    have hthere : ¬ Ts.nullish (Ts.resolvePath (Ts.ofMembers receipt) p) = true := by
      rcases hts with ⟨f, hts⟩ | hts
      · rw [hts]
        exact nofun
      · rw [hts]
        exact nofun
    have hne (e : JsStr) : Ts.resolvePath (Ts.ofMembers receipt) p ≠ .json (.str e) := by
      rcases hts with ⟨f, hts⟩ | hts
      · rw [hts]
        exact nofun
      · rw [hts]
        exact nofun
    rw [if_neg hthere]
    intro a b ha hb hfired hfired'
    cases mode with
    | postActionOnly =>
      obtain rfl := Except.ok.inj ha
      cases hfired
    | always =>
      obtain rfl := Except.ok.inj ha
      cases hash with
      | none =>
        obtain rfl := Except.ok.inj hb
        cases hfired'
      | some e =>
        dsimp only at hb
        rw [if_pos (hne e)] at hb
        obtain ⟨text, htext, hb⟩ := bind_eq_ok_iff.mp hb
        obtain rfl := Except.ok.inj hb
        refine sameReason_fires.trans (iff_of_false ?_ fun h => h.1 hinherits)
        exact absent_ne_printed hts htext

/-! ## Every type of rule -/

/-- **Where both evaluators of a rule fire, their reasons are the same
text** exactly when what the reasons print is printed alike. -/
theorem reasons_agree_iff (hreceipt : ∀ m ∈ receipt, SafeDoc m.2) {a : Py.RuleResult}
    {b : Ts.RuleResult}
    (hpy : Py.ruleSays r.toPy (Py.ofMembers receipt) (Py.ofMembers aggregates) = .ok a)
    (hts : Ts.typeSays r.type r.toTs (Ts.ofMembers receipt) (Ts.ofMembers aggregates) = .ok b)
    (ha : a.fired = true) (hb : b.fired = true) :
    SameReason a b ↔ ReasonsAgree receipt aggregates r := by
  suffices htold : Told (ReasonsAgree receipt aggregates r)
      (Py.ruleSays r.toPy (Py.ofMembers receipt) (Py.ofMembers aggregates))
      (Ts.typeSays r.type r.toTs (Ts.ofMembers receipt) (Ts.ofMembers aggregates)) from
    htold a b hpy hts ha hb
  have htoPy : r.toPy.type = r.type := rfl
  unfold Py.ruleSays Ts.typeSays ReasonsAgree
  rw [htoPy]
  cases htype : r.type with
  | maxAmount => exact told_maxAmount hreceipt
  | dailyLimit => exact told_dailyLimit hreceipt
  | actionTypeAllowlist => exact told_actionTypeAllowlist hreceipt
  | actionTypeDenylist => exact told_actionTypeDenylist hreceipt
  | urlPrefixAllowlist => exact told_urlPrefixAllowlist
  | urlPrefixDenylist => exact told_urlPrefixDenylist
  | escalationThreshold => exact told_escalationThreshold hreceipt
  | toolIdAllowlist => exact told_toolIdAllowlist hreceipt
  | argsPatternMatch => exact told_argsPatternMatch htype
  | postStateAssertion => exact told_postStateAssertion hreceipt

end

section Sample

attribute [local instance] Ucd.allPrintable

/-- A rule that allows no action. -/
def allowsNothing : RuleDoc :=
  { id := lit "R1", type := .actionTypeAllowlist, outcome := .deny,
    parameters := [(lit "allowed", .arr [])] }

/-- A receipt of one action. -/
def receiptOf (actionType : String) : Members := [(lit "action_type", .str (lit actionType))]

theorem reasons_agree_transfer :
    SameReason
      (Py.fires (lit "ACTION_TYPE_ALLOWLIST: action_type 'transfer' is not on the allow list"))
      (Ts.fires (lit "ACTION_TYPE_ALLOWLIST: action_type 'transfer' is not on the allow list")) := by
  have hmember : memberOf "action_type" (receiptOf "transfer") = .str (lit "transfer") := by
    decide
  have hagree : ReasonsAgree (receiptOf "transfer") [] allowsNothing := by
    change QuotesDoc (memberOf "action_type" (receiptOf "transfer"))
    rw [hmember]
    exact ⟨by decide, List.all_eq_true.mp (by decide)⟩
  have hsafe : ∀ m ∈ receiptOf "transfer", SafeDoc m.2 := List.forall_mem_singleton.mpr trivial
  have hpy : Py.ruleSays allowsNothing.toPy (Py.ofMembers (receiptOf "transfer")) (Py.ofMembers [])
      = .ok (Py.fires (lit "ACTION_TYPE_ALLOWLIST: action_type 'transfer' is not on the allow list")) := by
    decide
  exact (reasons_agree_iff hsafe hpy (by decide) rfl rfl).mpr hagree

/-- An apostrophe: Python then quotes with double quotes, TypeScript
escapes it. -/
theorem reasons_apostrophe :
    ∃ a b, Py.ruleSays allowsNothing.toPy (Py.ofMembers (receiptOf "it's")) [] = .ok a
      ∧ Ts.typeSays allowsNothing.type allowsNothing.toTs (Ts.ofMembers (receiptOf "it's")) [] = .ok b
      ∧ a.fired = true ∧ b.fired = true ∧ ¬ SameReason a b := by
  refine ⟨Py.fires (lit "ACTION_TYPE_ALLOWLIST: action_type \"it's\" is not on the allow list"),
    Ts.fires (lit "ACTION_TYPE_ALLOWLIST: action_type 'it\\'s' is not on the allow list"),
    by decide, by decide, rfl, rfl, ?_⟩
  rw [sameReason_fires]
  decide

end Sample

end Parity

end OpenTerms
