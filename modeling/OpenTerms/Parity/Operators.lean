import OpenTerms.Parity.Texts

/-!
# The pattern operators in both languages

An operator looks at the text of its target, by code points in Python and
by code units in TypeScript. Over all Unicode texts as values of a pattern,
it says the same of a target in both languages (`matchOne_agree_iff`) when
the target has one text in both, and for a glob no surrogate pair in it,
where a mark might match one half. The other operators find a Unicode text
at the same places in both.
-/

namespace OpenTerms

namespace Parity

open Json Utf16

section Compared

variable [Ucd]

/-- The two languages return the same Boolean. -/
def SameBoolean (op : PatternOp) (value : JsStr) (d : Doc) : Prop :=
  ∃ hit, Py.matchOne (lit op.text) (decode value) (Py.ofDoc d) = .ok hit
    ∧ Ts.matchOne (lit op.text) value (.json (Ts.ofDoc d)) = .ok hit

/-- What a target must be for an operator to say the same of it: nothing,
a string, which for a glob has no surrogate pairs, or a number both
languages write alike. -/
def Fits (op : PatternOp) : Doc → Prop
  | .null => True
  | .str us => op = .globOp → Pairless us
  | .num l => Py.reprNum (Py.loadNumber l) = decode (Ts.numberToString (Ts.parseNumber l))
  | .bool _ | .arr _ | .obj _ => False

/-! ## What is compared -/

theorem py_matchOne (op : PatternOp) (value : PyStr) {d : Doc} (hd : d ≠ .null) :
    Py.matchOne (lit op.text) value (Py.ofDoc d)
      = .ok (Py.applyOp op value (Py.str (Py.ofDoc d))) := by
  have hop : (validOps.find? fun o => decide ((lit o.text : PyStr) = lit op.text)) = some op := by
    cases op <;> decide
  unfold Py.matchOne
  rw [hop]
  cases d with
  | null => exact absurd rfl hd
  | bool | num | str | arr | obj => rfl

omit [Ucd] in
theorem ts_matchOne (op : PatternOp) (value : JsStr) {d : Doc} (hd : d ≠ .null) :
    Ts.matchOne (lit op.text) value (.json (Ts.ofDoc d))
      = (Ts.toStr (Ts.ofDoc d) >>= fun j => .ok (Ts.applyOp op value j)) := by
  have hop : (validOps.find? fun o => decide ((lit o.text : JsStr) = lit op.text)) = some op := by
    cases op <;> decide
  unfold Ts.matchOne
  rw [hop]
  cases d with
  | null => exact absurd rfl hd
  | bool | num | str | arr | obj => rfl

/-- Of a target that is there, the two texts are compared. -/
theorem sameBoolean_iff {op : PatternOp} {value : JsStr} {d : Doc} (hd : d ≠ .null) :
    SameBoolean op value d ↔ ∃ j, Ts.toStr (Ts.ofDoc d) = .ok j
      ∧ Py.applyOp op (decode value) (Py.str (Py.ofDoc d)) = Ts.applyOp op value j := by
  unfold SameBoolean
  rw [py_matchOne op _ hd, ts_matchOne op _ hd]
  constructor
  · rintro ⟨hit, hpy, hts⟩
    obtain ⟨j, hj, hok⟩ := bind_eq_ok_iff.mp hts
    exact ⟨j, hj, (Except.ok.inj hpy).trans (Except.ok.inj hok).symm⟩
  · rintro ⟨j, hj, heq⟩
    exact ⟨_, rfl, by rw [hj, ok_bind, heq]⟩

end Compared

/-! ## What every operator does -/

section Passing

variable {α : Type} [DecidableEq α] {any one : α} {op : PatternOp} {value target : List α}

/-- What an operator asks of a text, over any alphabet with the two marks of
a glob. -/
def Passes (any one : α) (op : PatternOp) (value target : List α) : Prop :=
  match op with
  | .equalsOp => target = value
  | .prefixOp => value <+: target
  | .suffixOp => value <:+ target
  | .containsOp => value <:+: target
  | .globOp => target ∈ Glob.language any one value

/-- A text passes every test of itself. -/
theorem passes_self (any one : α) (op : PatternOp) (s : List α) : Passes any one op s s := by
  cases op with
  | equalsOp => exact rfl
  | prefixOp => exact List.prefix_rfl
  | suffixOp => exact List.suffix_rfl
  | containsOp => exact List.infix_rfl
  | globOp => exact Glob.self_mem_language s

/-- All tests but the pattern look for the value itself. -/
theorem Passes.sublist (h : Passes any one op value target) (hop : op ≠ .globOp) :
    value.Sublist target := by
  cases op with
  | equalsOp =>
    have heq : target = value := h
    rw [heq]
  | prefixOp => exact List.IsPrefix.sublist h
  | suffixOp => exact List.IsSuffix.sublist h
  | containsOp => exact List.IsInfix.sublist h
  | globOp => exact absurd rfl hop

/-- **What passes has all the characters of the value**, those special to
a pattern apart. -/
theorem Passes.countP_le {q : α → Bool} (hany : q any = false) (hone : q one = false)
    (h : Passes any one op value target) : value.countP q ≤ target.countP q := by
  by_cases hop : op = .globOp
  · subst hop
    exact Glob.countP_le_of_mem_language hany hone h
  · exact (h.sublist hop).countP_le

end Passing

theorem py_applyOp_iff {op : PatternOp} {value target : PyStr} :
    Py.applyOp op value target = true ↔ Passes (chr '*') (chr '?') op value target := by
  cases op with
  | equalsOp => exact decide_eq_true_iff
  | prefixOp => exact List.isPrefixOf_iff_prefix
  | suffixOp => exact List.isSuffixOf_iff_suffix
  | containsOp => exact decide_eq_true_iff
  | globOp => exact Py.globMatch_iff value target

theorem ts_applyOp_iff {op : PatternOp} {value target : JsStr} :
    Ts.applyOp op value target = true ↔ Passes (chr '*') (chr '?') op value target := by
  cases op with
  | equalsOp => exact decide_eq_true_iff
  | prefixOp => exact List.isPrefixOf_iff_prefix
  | suffixOp => exact List.isSuffixOf_iff_suffix
  | containsOp => exact decide_eq_true_iff
  | globOp => exact Ts.globMatch_iff value target

/-! ## Strings -/

theorem widen_any : (chr '*' : CodePoint) = widen (chr '*') := by decide

theorem widen_one : (chr '?' : CodePoint) = widen (chr '?') := by decide

/-- By code points as by code units, if a glob meets no pairs. -/
theorem applyOp_eq {op : PatternOp} {value target : JsStr} (hv : WellPaired value)
    (h : op = .globOp → Pairless target) :
    Py.applyOp op (decode value) (decode target) = Ts.applyOp op value target := by
  rw [Bool.eq_iff_iff, py_applyOp_iff, ts_applyOp_iff]
  cases op with
  | equalsOp => exact decode_injective.eq_iff
  | prefixOp => exact decode_prefix_iff hv
  | suffixOp => exact decode_suffix_iff hv
  | containsOp => exact decode_infix_iff hv
  | globOp =>
    rw [widen_any, widen_one]
    exact decode_mem_language_iff (by decide) (by decide) (h rfl)

/-- **A glob tells a pair apart**, matching it unit by unit: with as many
marks as the target has units. -/
theorem exists_globMatch_ne {target : JsStr} (ht : ¬ Pairless target) :
    ∃ value, WellPaired value
      ∧ Py.applyOp .globOp (decode value) (decode target) ≠ Ts.applyOp .globOp value target := by
  have hpattern : decode (List.replicate target.length (chr '?'))
      = List.replicate target.length (chr '?') := by
    rw [decode_eq_map, List.map_replicate, ← widen_one]
    intro u hu
    rw [List.eq_of_mem_replicate hu]
    decide
  refine ⟨List.replicate target.length (chr '?'), ?_, fun heq => ?_⟩
  · intro c hc
    rw [hpattern] at hc
    rw [List.eq_of_mem_replicate hc]
    decide
  · have hts : Ts.globMatch (List.replicate target.length (chr '?')) target = true :=
      (Ts.globMatch_iff _ _).mpr ((Glob.mem_language_replicate (by decide)).mpr rfl)
    -- by code points there are more marks than characters
    have hpy := (Py.globMatch_iff _ _).mp (heq.trans hts)
    rw [hpattern, Glob.mem_language_replicate (by decide)] at hpy
    have := length_decode_lt ht
    omega

/-! ## Numbers -/

theorem decode_number (x : Double) :
    decode (Ts.numberToString x) = (Ts.numberToString x).map widen :=
  decode_eq_map fun u hu hhigh => by
    have := (ts_number_units x u hu).2.2.2
    omega

/-- **Where each of the two texts of a number passes by the other they are
one**: a numeral has no character special to a pattern, and neither text
is shorter. -/
theorem number_text_eq {op : PatternOp} {x : Double} {p : PyStr}
    (hpy : Py.applyOp op (decode (Ts.numberToString x)) p = true)
    (hts : Ts.applyOp op (encode p) (Ts.numberToString x) = true) :
    p = decode (Ts.numberToString x) := by
  rw [py_applyOp_iff] at hpy
  rw [ts_applyOp_iff] at hts
  by_cases hop : op = .globOp
  · subst hop
    have hplain : Glob.Plain (chr '*') (chr '?') (decode (Ts.numberToString x)) := by
      rw [decode_number, widen_any, widen_one]
      intro c hc
      obtain ⟨u, hu, rfl⟩ := List.mem_map.mp hc
      rw [widen_injective.ne_iff, widen_injective.ne_iff]
      exact ⟨(ts_number_units x u hu).1, (ts_number_units x u hu).2.1⟩
    exact (Glob.mem_language_plain hplain).mp hpy
  · have hshort := (hts.sublist hop).length_le
    have hlen : p.length ≤ (decode (Ts.numberToString x)).length := by
      rw [decode_number, List.length_map]
      exact (length_le_encode p).trans hshort
    exact ((hpy.sublist hop).eq_of_length_le hlen).symm

theorem wellPaired_number (x : Double) : WellPaired (Ts.numberToString x) := by
  intro c hc
  rw [decode_number] at hc
  obtain ⟨u, hu, rfl⟩ := List.mem_map.mp hc
  have := (ts_number_units x u hu).2.2.2
  rw [widen_val]
  omega

theorem pairless_number (x : Double) : Pairless (Ts.numberToString x) := by
  by_contra hpair
  have := length_decode_lt hpair
  rw [decode_number, List.length_map] at this
  omega

/-- All safe integers are written alike. -/
theorem fits_safe (op : PatternOp) {z : ℤ} (hz : z.natAbs ≤ 2 ^ 53 - 1) :
    Fits op (.num (.int z)) := by
  change decimal z = decode (Ts.numberToString (Ts.parseNumber (.int z)))
  rw [Ts.parseNumber_int hz, Ts.numberToString_intCast hz]
  exact (decode_ofChars fun _ => decimalChars_lt).symm

/-! ## Every target -/

section Targets

variable [Ucd] {op : PatternOp}

/-- A Unicode text that Python's text passes and JavaScript's does not. -/
theorem not_sameBoolean {d : Doc} (hd : d ≠ .null)
    (hts : ∀ j, Ts.toStr (Ts.ofDoc d) = .ok j →
      Ts.applyOp op (encode (Py.repr (Py.ofDoc d))) j = false)
    (hstr : Py.str (Py.ofDoc d) = Py.repr (Py.ofDoc d)) :
    ¬ ∀ value, WellPaired value → SameBoolean op value d := by
  intro h
  have hsame := h _ (wellPaired_encode (noSurrogate_repr d))
  rw [sameBoolean_iff hd] at hsame
  obtain ⟨j, hj, heq⟩ := hsame
  rw [hts j hj, decode_encode_repr, hstr, py_applyOp_iff.mpr (passes_self _ _ op _)] at heq
  cases heq

/-- **When an operator means the same in both languages**, over all
Unicode texts as values of a pattern: exactly on targets it fits. -/
theorem matchOne_agree_iff (op : PatternOp) (d : Doc) :
    (∀ value, WellPaired value → SameBoolean op value d) ↔ Fits op d := by
  cases d with
  | null =>
    refine iff_of_true (fun value _ => ⟨false, ?_, ?_⟩) trivial
    · cases op <;> rfl
    · cases op <;> rfl
  | str us =>
    have hone (value : JsStr) : SameBoolean op value (.str us)
        ↔ Py.applyOp op (decode value) (decode us) = Ts.applyOp op value us := by
      rw [sameBoolean_iff (d := .str us) nofun]
      constructor
      · rintro ⟨j, hj, heq⟩
        obtain rfl := Except.ok.inj hj
        exact heq
      · exact fun heq => ⟨us, rfl, heq⟩
    simp only [hone]
    constructor
    · rintro h rfl
      by_contra hpair
      obtain ⟨value, hvalue, hne⟩ := exists_globMatch_ne hpair
      exact hne (h value hvalue)
    · exact fun h value hvalue => applyOp_eq hvalue h
  | num l =>
    have hone (value : JsStr) : SameBoolean op value (.num l)
        ↔ Py.applyOp op (decode value) (Py.reprNum (Py.loadNumber l))
          = Ts.applyOp op value (Ts.numberToString (Ts.parseNumber l)) := by
      rw [sameBoolean_iff (d := .num l) nofun]
      constructor
      · rintro ⟨j, hj, heq⟩
        obtain rfl := Except.ok.inj hj
        exact heq
      · exact fun heq => ⟨_, rfl, heq⟩
    simp only [hone]
    constructor
    · intro h
      -- each text is a value, and passes on its own side
      have hrepr : decode (encode (Py.reprNum (Py.loadNumber l))) = Py.reprNum (Py.loadNumber l) :=
        decode_encode_repr (.num l)
      have hpy := h (encode (Py.reprNum (Py.loadNumber l)))
        (wellPaired_encode (noSurrogate_repr (.num l)))
      have hts := h (Ts.numberToString (Ts.parseNumber l)) (wellPaired_number _)
      rw [hrepr] at hpy
      exact number_text_eq (hts.trans (ts_applyOp_iff.mpr (passes_self _ _ op _)))
        (hpy.symm.trans (py_applyOp_iff.mpr (passes_self _ _ op _)))
    · intro hfits value hvalue
      rw [hfits]
      exact applyOp_eq hvalue fun _ => pairless_number _
  | bool b =>
    have hstr : Py.str (Py.ofDoc (.bool b)) = Py.repr (Py.ofDoc (.bool b)) := by cases b <;> rfl
    refine iff_of_false (not_sameBoolean (d := .bool b) nofun (fun j hj => ?_) hstr) id
    cases b with
    | true =>
      obtain rfl := Except.ok.inj hj
      change Ts.applyOp op (encode (lit "True")) (lit "true") = false
      cases op <;> decide
    | false =>
      obtain rfl := Except.ok.inj hj
      change Ts.applyOp op (encode (lit "False")) (lit "false") = false
      cases op <;> decide
  | arr xs =>
    refine iff_of_false (not_sameBoolean (d := .arr xs) nofun (fun j hj => ?_) rfl) id
    by_contra htrue
    -- Python's text has more opening brackets than JavaScript's
    have hle : openings (encode (Py.repr (Py.ofDoc (.arr xs)))) ≤ openings j :=
      (ts_applyOp_iff.mp (Bool.eq_true_of_not_eq_false htrue)).countP_le (by decide) (by decide)
    rw [← openings_decode, decode_encode_repr] at hle
    have := openings_lt hj
    omega
  | obj ms =>
    refine iff_of_false (not_sameBoolean (d := .obj ms) nofun (fun j hj => ?_) rfl) id
    rw [Ts.ofDoc_obj, Ts.toStr] at hj
    split_ifs at hj
    obtain rfl := Except.ok.inj hj
    by_contra htrue
    -- Python's text has a brace, JavaScript's has none
    let brace (u : CodeUnit) : Bool := u = chr '\x7b'
    have hle : (encode (Py.repr (Py.ofDoc (.obj ms)))).countP brace
        ≤ (lit "[object Object]" : JsStr).countP brace :=
      (ts_applyOp_iff.mp (Bool.eq_true_of_not_eq_false htrue)).countP_le (by decide) (by decide)
    have hnone : (lit "[object Object]" : JsStr).countP brace = 0 := by decide
    have hsome : 0 < (encode (Py.repr (Py.ofDoc (.obj ms)))).countP brace := by
      refine List.countP_pos_iff.mpr ⟨chr '\x7b', ?_, decide_eq_true rfl⟩
      rw [Py.ofDoc_obj, Py.repr, encode_cons, encodeChar_chr (by decide)]
      exact List.mem_cons_self
    omega

end Targets

section Sample

attribute [local instance] Ucd.allPrintable

/-- A supplementary character, which JSON text writes as two escapes. -/
def supplementary : Doc := .str [0xD83D, 0xDE00]

/-- One mark stands for the character in Python, for half of it in
TypeScript. -/
theorem matchOne_supplementary :
    Py.matchOne (lit "glob") (lit "?") (Py.ofDoc supplementary) = .ok true
      ∧ Ts.matchOne (lit "glob") (lit "?") (.json (Ts.ofDoc supplementary)) = .ok false := by
  decide

end Sample

end Parity

end OpenTerms
