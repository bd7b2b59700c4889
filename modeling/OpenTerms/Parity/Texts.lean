import OpenTerms.Common.Utf16Units
import OpenTerms.Parity.PolicyRules
import OpenTerms.Py.Objects

/-!
# One document as text

What is not a string is made one before it is matched or quoted, by
`str` in Python and by `String` in TypeScript. The two texts of an array
differ, and so do those of an object: Python writes the brackets, and a
count of opening brackets tells the texts apart (`openings_lt`). The text
Python writes has no surrogates (`noSurrogate_repr`), so JavaScript can
hold it as well.
-/

namespace OpenTerms

namespace Parity

open Json Utf16

/-! ## Opening brackets -/

section Openings

variable {n : ℕ} [NeZero n]

/-- An opening bracket or brace. -/
def Opens (c : Fin n) : Bool := c = chr '[' ∨ c = chr '\x7b'

/-- How many of them a text has. -/
def openings (s : List (Fin n)) : ℕ := s.countP Opens

@[simp] theorem openings_nil : openings ([] : List (Fin n)) = 0 := rfl

@[simp] theorem openings_append (s t : List (Fin n)) :
    openings (s ++ t) = openings s + openings t := List.countP_append

theorem openings_cons (c : Fin n) (s : List (Fin n)) :
    openings (c :: s) = openings s + if Opens c then 1 else 0 := List.countP_cons

theorem openings_eq_zero {s : List (Fin n)} (h : ∀ c ∈ s, Opens c = false) : openings s = 0 :=
  List.countP_eq_zero.mpr fun c hc => by rw [h c hc]; exact Bool.false_ne_true

theorem openings_joinWith {sep : List (Fin n)} (hsep : openings sep = 0) (xs : List (List (Fin n))) :
    openings (joinWith sep xs) = (xs.map openings).sum := by
  cases xs with
  | nil => rfl
  | cons x xs =>
    have hrest : openings (xs.flatMap (sep ++ ·)) = (xs.map openings).sum := by
      induction xs with
      | nil => rfl
      | cons y ys ih =>
        rw [List.flatMap_cons, openings_append, openings_append, hsep, ih, List.map_cons,
          List.sum_cons, Nat.zero_add]
    rw [joinWith, openings_append, hrest, List.map_cons, List.sum_cons]

end Openings

theorem opens_widen (u : CodeUnit) : Opens (widen u) = Opens u := by
  unfold Opens
  rw [Bool.eq_iff_iff, decide_eq_true_iff, decide_eq_true_iff, ← widen_chr (c := '[') (by decide),
    ← widen_chr (c := '\x7b') (by decide), widen_injective.eq_iff, widen_injective.eq_iff]

/-- A supplementary character is no bracket. -/
theorem opens_joinPair {h l : CodeUnit} (hh : IsHigh h.val) (hl : IsLow l.val) :
    Opens (joinPair h l) = false := by
  refine decide_eq_false ?_
  rw [← widen_chr (c := '[') (by decide), ← widen_chr (c := '\x7b') (by decide), not_or]
  exact ⟨joinPair_ne_widen hh hl, joinPair_ne_widen hh hl⟩

/-- A surrogate is none either. -/
theorem opens_surrogate {u : CodeUnit} (hu : IsSurrogate u.val) : Opens u = false := by
  refine decide_eq_false ?_
  rintro (rfl | rfl)
  · revert hu; decide
  · revert hu; decide

theorem openings_decode (us : JsStr) : openings (decode us) = openings us := by
  fun_induction decode us with
  | case1 => rfl
  | case2 u => rw [openings_cons, openings_cons, opens_widen]; rfl
  | case3 u v rest hpair ih =>
    rw [openings_cons, openings_cons, openings_cons, opens_joinPair hpair.1 hpair.2,
      opens_surrogate (u := u) (by omega), opens_surrogate (u := v) (by omega), ih]
    rfl
  | case4 u v rest hpair ih => rw [openings_cons, openings_cons, opens_widen, ih]

/-! ## Numbers -/

/-- A character a number is written with. -/
def Numeral (c : Char) : Prop := IsDigit c.toNat ∨ c ∈ "+-.eINafinty".toList

theorem Numeral.lt {c : Char} (h : Numeral c) : c.toNat < 0x80 := by
  rcases h with h | h
  · omega
  · have hword : ∀ c ∈ "+-.eINafinty".toList, c.toNat < 0x80 := by simp
    exact hword c h

theorem ts_number_numeral (x : Double) :
    ∃ cs : List Char, Ts.numberToString x = ofChars cs ∧ ∀ c ∈ cs, Numeral c := by
  have word {s : String} (hs : ∀ c ∈ s.toList, c ∈ "+-.eINafinty".toList) :
      ∃ cs : List Char, (lit s : JsStr) = ofChars cs ∧ ∀ c ∈ cs, Numeral c :=
    ⟨s.toList, lit_eq fun c hc => Numeral.lt (Or.inr (hs c hc)), fun c hc => Or.inr (hs c hc)⟩
  have digits {k : ℕ} {c : Char} (h : c ∈ Nat.toDigits 10 k) : Numeral c :=
    Or.inl (isDigit_of_mem_toDigits h)
  have sign {q : ℚ} {c : Char} (h : c ∈ if q < 0 then ['-'] else []) : Numeral c := by
    split_ifs at h
    · rw [List.mem_singleton.mp h]
      exact Or.inr (by decide)
    · cases h
  cases x with
  | nan => exact word (by simp)
  | inf neg => cases neg <;> exact word (by simp)
  | fin q =>
    rw [Ts.numberToString]
    split
    · refine ⟨_, rfl, fun c hc => ?_⟩
      rcases mem_decimalChars hc with h | rfl
      · exact Or.inl h
      · exact Or.inr (by decide)
    · dsimp only
      split
      · refine ⟨_, rfl, fun c hc => ?_⟩
        rcases List.mem_append.mp hc with hc | hc
        · exact sign hc
        rcases Double.mem_fixedChars hc with hc | rfl | rfl
        · exact digits hc
        · exact Or.inl (by decide)
        · exact Or.inr (by decide)
      · refine ⟨_, rfl, fun c hc => ?_⟩
        rcases List.mem_append.mp hc with hc | hc
        · exact sign hc
        rcases List.mem_append.mp hc with hc | hc
        · rcases Double.mem_mantissaChars hc with hc | rfl
          · exact digits hc
          · exact Or.inr (by decide)
        rcases List.mem_cons.mp hc with rfl | hc
        · exact Or.inr (by decide)
        rcases List.mem_cons.mp hc with rfl | hc
        · split <;> exact Or.inr (by decide)
        · exact digits hc

/-- What a number is written with, as code units: none of these
characters is special to a pattern, opens a bracket, or is a surrogate. -/
theorem ts_number_units (x : Double) : ∀ u ∈ Ts.numberToString x,
    u ≠ chr '*' ∧ u ≠ chr '?' ∧ Opens u = false ∧ u.val < 0x80 := by
  obtain ⟨cs, hcs, hnum⟩ := ts_number_numeral x
  rw [hcs]
  intro u hu
  obtain ⟨c, hc, rfl⟩ := List.mem_map.mp hu
  have hc := hnum c hc
  have hne {d : Char} (hd : d.toNat < 0x80) (hcd : ¬ Numeral d) : (chr c : CodeUnit) ≠ chr d := by
    intro h
    have := hc.lt
    exact hcd (chr_inj (by omega) (by omega) h ▸ hc)
  refine ⟨hne (by decide) (by unfold Numeral; decide), hne (by decide) (by unfold Numeral; decide),
    decide_eq_false ?_, ?_⟩
  · rw [not_or]
    exact ⟨hne (by decide) (by unfold Numeral; decide), hne (by decide) (by unfold Numeral; decide)⟩
  · have := hc.lt
    rw [chr_val (by omega)]
    exact this

/-! ## What Python writes -/

section Repr

variable [Ucd]

/-- A character is written as it is, if it is printed, or in ASCII. -/
theorem noSurrogate_reprChar {quote : CodePoint} (hquote : quote.val < 0x80) (c : CodePoint) :
    Py.NoSurrogate (Py.reprChar quote c) := by
  have hexes {k : ℕ} : (k % 16).digitChar.toNat < 0x80 := digitChar_lt _ (by omega)
  unfold Py.reprChar
  split
  · next h =>
    have hc : c.val < 0x80 := by
      rcases h with rfl | rfl
      · exact hquote
      · decide
    refine Py.noSurrogate_ascii ?_
    rw [List.forall_mem_cons, List.forall_mem_singleton]
    exact ⟨by decide, hc⟩
  split
  · exact Py.noSurrogate_ascii (lit_ascii (by decide))
  split
  · exact Py.noSurrogate_ascii (lit_ascii (by decide))
  split
  · exact Py.noSurrogate_ascii (lit_ascii (by decide))
  split
  · next hprint =>
    refine List.forall_mem_singleton.mpr fun hsurrogate => ?_
    unfold Py.isPrintable at hprint
    rw [if_neg (by omega), if_pos hsurrogate] at hprint
    cases hprint
  split
  · refine Py.noSurrogate_ascii (ofChars_ascii ?_)
    have hval : (Fin.ofNat 256 c.val).val < 256 := Fin.isLt _
    simp only [hexByteChars, List.forall_mem_cons, List.not_mem_nil, false_imp_iff, implies_true,
      and_true]
    exact ⟨by decide, by decide, digitChar_lt _ (by omega), digitChar_lt _ (by omega)⟩
  split
  · exact Py.noSurrogate_ascii (ofChars_ascii (unicodeEscape_ascii _))
  · refine Py.noSurrogate_ascii (ofChars_ascii ?_)
    simp only [hex4Chars, List.cons_append, List.nil_append, List.forall_mem_cons, List.not_mem_nil,
      false_imp_iff, implies_true, and_true]
    exact ⟨by decide, by decide, hexes, hexes, hexes, hexes, hexes, hexes, hexes, hexes⟩

/-- An opening bracket is written as it is. -/
theorem openings_reprChar (quote c : CodePoint) :
    openings [c] ≤ openings (Py.reprChar quote c) := by
  by_cases hc : Opens c = true
  · have hval : c.val < 0x80 ∧ 0x20 ≤ c.val ∧ c.val < 0x7F := by
      rcases of_decide_eq_true hc with rfl | rfl <;> decide
    have hprint : Py.isPrintable c = true := by
      unfold Py.isPrintable
      rw [if_pos hval.1, decide_eq_true hval.2.1, decide_eq_true hval.2.2]
      rfl
    have hctrl : c.val ≠ 0x09 ∧ c.val ≠ 0x0A ∧ c.val ≠ 0x0D := by
      rcases of_decide_eq_true hc with rfl | rfl <;> decide
    unfold Py.reprChar
    split
    · rw [openings_cons (chr '\\') [c]]
      exact Nat.le_add_right _ _
    · rw [if_neg hctrl.1, if_neg hctrl.2.1, if_neg hctrl.2.2]
  · rw [openings_cons, if_neg hc]
    exact Nat.zero_le _

theorem openings_reprStr (s : PyStr) : openings s ≤ openings (Py.reprStr s) := by
  unfold Py.reprStr
  dsimp only
  generalize (if chr '\'' ∈ s ∧ chr '"' ∉ s then chr '"' else chr '\'' : CodePoint) = quote
  have hbody : openings s ≤ openings (s.flatMap (Py.reprChar quote)) := by
    induction s with
    | nil => exact le_rfl
    | cons c s ih =>
      have hc := openings_reprChar quote c
      rw [List.flatMap_cons, openings_append, openings_cons]
      rw [openings_cons, openings_nil] at hc
      omega
  rw [openings_cons, openings_append]
  omega

/-! ## Texts of containers -/

/-- The items of an array, one after the other. -/
theorem openings_items {xs : List Doc} {items : List JsStr}
    (hxs : ∀ x ∈ xs, ∀ j, Ts.toStr (Ts.ofDoc x) = .ok j →
      openings j ≤ openings (Py.repr (Py.ofDoc x)))
    (h : Ts.itemTexts (xs.map Ts.ofDoc) = .ok items) :
    (items.map openings).sum ≤ ((Py.reprItems (xs.map Py.ofDoc)).map openings).sum := by
  induction xs generalizing items with
  | nil =>
    obtain rfl := Except.ok.inj h
    exact le_rfl
  | cons x xs ih =>
    rw [List.forall_mem_cons] at hxs
    rw [List.map_cons, Py.reprItems, List.map_cons, List.sum_cons]
    rw [List.map_cons] at h
    unfold Ts.itemTexts at h
    split at h
    · cases ‹_ :: _ = []›
    · -- `null`, which JavaScript leaves out
      next heq =>
      obtain ⟨-, rfl⟩ := List.cons.inj heq
      obtain ⟨rest, hrest, hok⟩ := bind_eq_ok_iff.mp h
      obtain rfl := Except.ok.inj hok
      have hsum := ih hxs.2 hrest
      rw [List.map_cons, List.sum_cons, openings_nil]
      omega
    · next heq =>
      obtain ⟨rfl, rfl⟩ := List.cons.inj heq
      obtain ⟨text, htext, h⟩ := bind_eq_ok_iff.mp h
      obtain ⟨rest, hrest, hok⟩ := bind_eq_ok_iff.mp h
      obtain rfl := Except.ok.inj hok
      have hfirst := hxs.1 text htext
      have hsum := ih hxs.2 hrest
      rw [List.map_cons, List.sum_cons]
      omega

/-- **No brackets are lost.** By induction on the document: Python writes
the brackets of arrays and objects and every bracket of a string, and
JavaScript writes one for an object. -/
theorem openings_le {d : Doc} {j : JsStr} (h : Ts.toStr (Ts.ofDoc d) = .ok j) :
    openings j ≤ openings (Py.repr (Py.ofDoc d))
      ∧ ∀ xs, d = .arr xs → openings j < openings (Py.repr (Py.ofDoc d)) := by
  induction d using treeInduct generalizing j with
  | null =>
    obtain rfl := Except.ok.inj h
    exact ⟨le_of_eq_of_le (by decide : openings (lit "null" : JsStr) = 0) (Nat.zero_le _),
      (by simp)⟩
  | bool b =>
    refine ⟨?_, (by simp)⟩
    cases b with
    | true =>
      obtain rfl := Except.ok.inj h
      exact le_of_eq_of_le (by decide : openings (lit "true" : JsStr) = 0) (Nat.zero_le _)
    | false =>
      obtain rfl := Except.ok.inj h
      exact le_of_eq_of_le (by decide : openings (lit "false" : JsStr) = 0) (Nat.zero_le _)
  | num l =>
    obtain rfl := Except.ok.inj h
    refine ⟨?_, (by simp)⟩
    rw [openings_eq_zero fun u hu => (ts_number_units _ u hu).2.2.1]
    exact Nat.zero_le _
  | str us =>
    obtain rfl := Except.ok.inj h
    refine ⟨?_, (by simp)⟩
    rw [← openings_decode]
    exact openings_reprStr _
  | arr xs ih =>
    rw [ts_ofDoc_arr, Ts.toStr] at h
    obtain ⟨items, hitems, h⟩ := bind_eq_ok_iff.mp h
    obtain rfl := Except.ok.inj h
    have hsum := openings_items (fun x hx _ hj => (ih x hx hj).1) hitems
    have hlt : openings (joinWith (lit ",") items) < openings (Py.repr (Py.ofDoc (.arr xs))) := by
      rw [py_ofDoc_arr, Py.repr, openings_cons, openings_append,
        openings_joinWith (by decide), openings_joinWith (by decide),
        if_pos (by decide)]
      omega
    exact ⟨hlt.le, fun _ _ => hlt⟩
  | obj ms =>
    refine ⟨?_, (by simp)⟩
    rw [Ts.ofDoc_obj, Ts.toStr] at h
    split_ifs at h
    obtain rfl := Except.ok.inj h
    rw [Py.ofDoc_obj, Py.repr, openings_cons, if_pos (by decide)]
    exact le_trans (by decide) (Nat.le_add_left 1 _)

/-- **The two texts of an array differ.** -/
theorem openings_lt {xs : List Doc} {j : JsStr} (h : Ts.toStr (Ts.ofDoc (.arr xs)) = .ok j) :
    openings j < openings (Py.repr (Py.ofDoc (.arr xs))) := (openings_le h).2 xs rfl

/-! ## Python's text in code units -/

theorem noSurrogate_reprStr (s : PyStr) : Py.NoSurrogate (Py.reprStr s) := by
  have hquote : ((if chr '\'' ∈ s ∧ chr '"' ∉ s then chr '"' else chr '\'' : CodePoint)).val < 0x80 := by
    split <;> decide
  unfold Py.reprStr
  dsimp only
  generalize (if chr '\'' ∈ s ∧ chr '"' ∉ s then chr '"' else chr '\'' : CodePoint) = quote at hquote ⊢
  have hframe : ¬ IsSurrogate quote.val := by omega
  refine List.forall_mem_cons.mpr ⟨hframe, List.forall_mem_append.mpr ⟨?_, ?_⟩⟩
  · intro d hd
    obtain ⟨c, -, hdc⟩ := List.mem_flatMap.mp hd
    exact noSurrogate_reprChar hquote c d hdc
  · exact List.forall_mem_singleton.mpr hframe

omit [Ucd] in
theorem noSurrogate_joinWith {sep : PyStr} (hsep : Py.NoSurrogate sep) {xs : List PyStr}
    (h : ∀ x ∈ xs, Py.NoSurrogate x) : Py.NoSurrogate (joinWith sep xs) := by
  cases xs with
  | nil => exact List.forall_mem_nil _
  | cons x xs =>
    rw [List.forall_mem_cons] at h
    rw [joinWith]
    refine List.forall_mem_append.mpr ⟨h.1, fun c hc => ?_⟩
    obtain ⟨y, hy, hc⟩ := List.mem_flatMap.mp hc
    rcases List.mem_append.mp hc with hc | hc
    · exact hsep c hc
    · exact h.2 y hy c hc

/-- **Python writes no surrogate.** By induction on the document: strings
escape theirs, everything else is ASCII. -/
theorem noSurrogate_repr (d : Doc) : Py.NoSurrogate (Py.repr (Py.ofDoc d)) := by
  have hword {t : String} (ht : Ascii t) : Py.NoSurrogate (lit t) := Py.noSurrogate_ascii (lit_ascii ht)
  have hmark {c : Char} (hc : c.toNat < 0x80) : ¬ IsSurrogate (chr c : CodePoint).val := by
    rw [chr_val (by omega)]
    omega
  induction d using treeInduct with
  | null => exact hword (by decide)
  | bool b => cases b <;> exact hword (by decide)
  | num l => exact Py.noSurrogate_ascii (Py.reprNum_ascii _)
  | str us => exact noSurrogate_reprStr _
  | arr xs ih =>
    have hitems : ∀ s ∈ Py.reprItems (xs.map Py.ofDoc), Py.NoSurrogate s := by
      induction xs with
      | nil => exact List.forall_mem_nil _
      | cons x xs ihs =>
        rw [List.forall_mem_cons] at ih
        rw [List.map_cons, Py.reprItems]
        exact List.forall_mem_cons.mpr ⟨ih.1, ihs ih.2⟩
    rw [py_ofDoc_arr, Py.repr]
    refine List.forall_mem_cons.mpr ⟨hmark (by decide), List.forall_mem_append.mpr ⟨?_, ?_⟩⟩
    · exact noSurrogate_joinWith (hword (by decide)) hitems
    · exact List.forall_mem_singleton.mpr (hmark (by decide))
  | obj ms ih =>
    have hmembers : ∀ s ∈ Py.reprMembers (Py.ofMembers ms), Py.NoSurrogate s := by
      induction ms with
      | nil => exact List.forall_mem_nil _
      | cons m ms ihs =>
        rw [List.forall_mem_cons] at ih
        refine List.forall_mem_cons.mpr ⟨?_, ihs ih.2⟩
        refine List.forall_mem_append.mpr ⟨noSurrogate_reprStr _, ?_⟩
        exact List.forall_mem_append.mpr ⟨hword (by decide), ih.1⟩
    rw [Py.ofDoc_obj, Py.repr]
    refine List.forall_mem_cons.mpr ⟨hmark (by decide), List.forall_mem_append.mpr ⟨?_, ?_⟩⟩
    · exact noSurrogate_joinWith (hword (by decide)) hmembers
    · exact List.forall_mem_singleton.mpr (hmark (by decide))

/-- **JavaScript can hold the text Python writes.** -/
theorem decode_encode_repr (d : Doc) :
    decode (encode (Py.repr (Py.ofDoc d))) = Py.repr (Py.ofDoc d) := decode_encode (noSurrogate_repr d)

end Repr

end Parity

end OpenTerms
