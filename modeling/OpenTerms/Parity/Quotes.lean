import OpenTerms.Parity.Texts

/-!
# Quoted values

A reason quotes values of the receipt: Python with `repr`, TypeScript
with a port of it that knows one kind of quotes and two escapes. A string
is quoted alike when Python picks single quotes for it and has nothing to
escape but them and the backslash (`Quotes`). Where the texts differ they
differ before either of them ends, so reasons that go on with the same
words differ as well (`reprStr_append_iff`, `repr_append_iff`).
-/

namespace OpenTerms

namespace Parity

open Json Utf16

/-! ## Literals around a text -/

theorem decode_lit_append {t : String} (ht : Ascii t) (us : JsStr) :
    decode (lit t ++ us) = lit t ++ decode us := by
  rw [decode_append, decode_lit ht]
  intro u hu v _ hpair
  have hmem := List.mem_of_mem_getLast? hu
  unfold lit at hmem
  obtain ⟨b, hb, rfl⟩ := List.mem_map.mp hmem
  have hlt := ht b hb
  have hval : (Fin.ofNat 0x10000 b.toNat).val = b.toNat := Nat.mod_eq_of_lt (by omega)
  omega

theorem decode_append_lit {t : String} (ht : Ascii t) (hne : t ≠ "") (us vs : JsStr) :
    decode (us ++ (lit t ++ vs)) = decode us ++ (lit t ++ decode vs) := by
  rw [decode_append, decode_lit_append ht]
  intro u _ v hv hpair
  have hmem : v ∈ (lit t : JsStr) := by
    cases hlit : (lit t : JsStr) with
    | nil =>
      unfold lit at hlit
      refine absurd ?_ hne
      have hbytes := List.map_eq_nil_iff.mp hlit
      exact String.toByteArray_inj.mp (by
        apply ByteArray.ext
        simpa using hbytes)
    | cons w ws =>
      rw [hlit] at hv
      obtain rfl := Option.some.inj hv
      exact List.mem_cons_self
  unfold lit at hmem
  obtain ⟨b, hb, rfl⟩ := List.mem_map.mp hmem
  have hlt := ht b hb
  have hval : (Fin.ofNat 0x10000 b.toNat).val = b.toNat := Nat.mod_eq_of_lt (by omega)
  omega

theorem decode_decimal (z : ℤ) : decode (decimal z) = decimal z :=
  decode_ofChars fun _ => decimalChars_lt

/-! ## TypeScript's quotes, by code points -/

section Escape

variable {n : ℕ} [NeZero n]

/-- What TypeScript writes for a character: a backslash and a single
quote are escaped. -/
def escapeChar (c : Fin n) : List (Fin n) :=
  if c = chr '\\' then [chr '\\', chr '\\'] else if c = chr '\'' then [chr '\\', chr '\''] else [c]

/-- A string in single quotes. -/
def quoted (s : List (Fin n)) : List (Fin n) := chr '\'' :: (s.flatMap escapeChar ++ [chr '\''])

theorem escapeChar_plain {c : Fin n} (hb : c ≠ chr '\\') (hq : c ≠ chr '\'') :
    escapeChar c = [c] := by
  unfold escapeChar
  rw [if_neg hb, if_neg hq]

end Escape

/-- The two replacements of `pyRepr`, one after the other. -/
theorem escapeQuoted_eq (us : JsStr) : Ts.escapeQuoted us = us.flatMap escapeChar := by
  unfold Ts.escapeQuoted
  rw [List.flatMap_assoc]
  refine List.flatMap_congr fun u _ => ?_
  unfold escapeChar
  split
  · decide
  · rw [List.flatMap_singleton]

theorem reprStr_eq (us : JsStr) : Ts.reprStr us = quoted us := by
  unfold Ts.reprStr
  rw [escapeQuoted_eq]
  rfl

theorem widen_eq_chr {u : CodeUnit} {c : Char} (hc : c.toNat < 0x80) :
    widen u = chr c ↔ u = chr c := by
  rw [← widen_chr hc, widen_injective.eq_iff]

theorem escapeChar_widen (u : CodeUnit) : escapeChar (widen u) = (escapeChar u).map widen := by
  unfold escapeChar
  rw [apply_ite (List.map widen), apply_ite (List.map widen)]
  simp only [widen_eq_chr (c := '\\') (by decide), widen_eq_chr (c := '\'') (by decide),
    List.map_cons, List.map_nil, widen_chr (c := '\\') (by decide), widen_chr (c := '\'') (by decide)]

theorem decode_escapeChar (u : CodeUnit) : decode (escapeChar u) = escapeChar (widen u) := by
  rw [escapeChar_widen]
  unfold escapeChar
  split_ifs
  · decide
  · decide
  · rfl

/-- The first and the last unit written for a character are the
character's own, where they are surrogates. -/
theorem escapeChar_ends {u : CodeUnit} :
    (∀ v ∈ (escapeChar u).head?, IsSurrogate v.val → v = u)
      ∧ ∀ v ∈ (escapeChar u).getLast?, IsSurrogate v.val → v = u := by
  have hback : ¬ IsSurrogate (chr '\\' : CodeUnit).val := by decide
  have hquote : ¬ IsSurrogate (chr '\'' : CodeUnit).val := by decide
  unfold escapeChar
  split_ifs
  · refine ⟨fun v hv h => ?_, fun v hv h => ?_⟩
    · obtain rfl : chr '\\' = v := Option.some.inj hv
      exact absurd h hback
    · obtain rfl : chr '\\' = v := Option.some.inj hv
      exact absurd h hback
  · refine ⟨fun v hv h => ?_, fun v hv h => ?_⟩
    · obtain rfl : chr '\\' = v := Option.some.inj hv
      exact absurd h hback
    · obtain rfl : chr '\'' = v := Option.some.inj hv
      exact absurd h hquote
  · exact ⟨fun v hv _ => (Option.some.inj hv).symm, fun v hv _ => (Option.some.inj hv).symm⟩

theorem escapeChar_ne_nil (u : CodeUnit) : escapeChar u ≠ [] := by
  unfold escapeChar
  split_ifs <;> exact List.cons_ne_nil _ _

/-- An escaped string read by code points. -/
theorem decode_escape (us : JsStr) :
    decode (us.flatMap escapeChar) = (decode us).flatMap escapeChar := by
  have hplain {u : CodeUnit} (hu : IsSurrogate u.val) : escapeChar u = [u] := by
    refine escapeChar_plain ?_ ?_ <;> rintro rfl <;> revert hu <;> decide
  fun_induction decode us with
  | case1 => rfl
  | case2 u =>
    rw [List.flatMap_singleton, List.flatMap_singleton, decode_escapeChar]
  | case3 u v rest hpair ih =>
    have hjoin : escapeChar (joinPair u v) = [joinPair u v] := by
      refine escapeChar_plain ?_ ?_ <;> rw [← widen_chr (by decide)] <;>
        exact joinPair_ne_widen hpair.1 hpair.2
    rw [List.flatMap_cons, List.flatMap_cons, List.flatMap_cons, hplain (u := u) (by omega),
      hplain (u := v) (by omega), hjoin, ← ih]
    change decode (u :: v :: _) = _
    rw [decode, if_pos hpair]
    rfl
  | case4 u v rest hpair ih =>
    rw [List.flatMap_cons, List.flatMap_cons (x := widen u), ← decode_escapeChar, ← ih,
      decode_append]
    -- no pair comes about at the seam
    intro x hx y hy hp
    obtain rfl := escapeChar_ends.2 x hx (by omega)
    obtain rfl : y = v := by
      refine escapeChar_ends.1 y ?_ (by omega)
      rw [List.flatMap_cons] at hy
      cases hv : escapeChar v with
      | nil => exact absurd hv (escapeChar_ne_nil v)
      | cons w ws =>
        rw [hv] at hy
        exact hy
    exact hpair hp

/-- **TypeScript's quoted string by code points.** -/
theorem decode_reprStr (us : JsStr) : decode (Ts.reprStr us) = quoted (decode us) := by
  have hquote : ∀ u v : CodeUnit, u = chr '\'' ∨ v = chr '\'' → ¬ (IsHigh u.val ∧ IsLow v.val) := by
    have hval : ¬ IsSurrogate (chr '\'' : CodeUnit).val := by decide
    rintro u v (rfl | rfl) hp <;> omega
  rw [reprStr_eq]
  unfold quoted
  rw [decode_cons (by decide), widen_chr (by decide), decode_append, decode_escape]
  · rfl
  · intro u _ v hv
    exact hquote u v (Or.inr (Option.some.inj hv).symm)

/-- The first character TypeScript writes tells which it is of. -/
theorem escapeChar_cases (c : CodePoint) :
    (escapeChar c = [chr '\\', c] ∧ (c = chr '\\' ∨ c = chr '\''))
      ∨ (escapeChar c = [c] ∧ c ≠ chr '\\' ∧ c ≠ chr '\'') := by
  unfold escapeChar
  by_cases hb : c = chr '\\'
  · rw [if_pos hb, hb]
    exact Or.inl ⟨rfl, Or.inl rfl⟩
  by_cases hq : c = chr '\''
  · rw [if_neg hb, if_pos hq, hq]
    exact Or.inl ⟨rfl, Or.inr rfl⟩
  · rw [if_neg hb, if_neg hq]
    exact Or.inr ⟨rfl, hb, hq⟩

/-! ## Strings -/

section Strings

variable [Ucd]

/-- A string both languages quote alike: Python takes single quotes, which
it does not where the string has some and no double quotes, and escapes
nothing else. -/
def QuotesPy (s : PyStr) : Prop :=
  (chr '\'' ∈ s → chr '"' ∈ s) ∧ ∀ c ∈ s, Py.isPrintable c = true

/-- What is printed is escaped in neither language, the quote and the
backslash apart. -/
theorem reprChar_printable {c : CodePoint} (hc : Py.isPrintable c = true) :
    Py.reprChar (chr '\'') c = escapeChar c := by
  have hctrl {k : ℕ} (hk : k < 0x20) : c.val ≠ k := by
    intro hval
    unfold Py.isPrintable at hc
    rw [if_pos (by omega), decide_eq_false (by omega)] at hc
    cases hc
  unfold Py.reprChar escapeChar
  by_cases hb : c = chr '\\'
  · rw [if_pos (Or.inr hb), if_pos hb, hb]
  by_cases hq : c = chr '\''
  · rw [if_pos (Or.inl hq), if_neg hb, if_pos hq, hq]
  rw [if_neg (by tauto), if_neg (hctrl (by omega)), if_neg (hctrl (by omega)),
    if_neg (hctrl (by omega)), if_pos hc, if_neg hb, if_neg hq]

omit [Ucd] in
/-- A hexadecimal digit is no quote. -/
theorem digit_ne_quote {k : ℕ} (hk : k < 16) : (chr '\'' : CodePoint) ≠ chr k.digitChar := by
  have hdigit : ∀ d < 16, '\'' ≠ d.digitChar := by decide
  have := digitChar_lt k hk
  exact fun h => hdigit k hk (chr_inj (by decide) (by omega) h)

/-- What is not printed is written as a backslash, a letter and digits. -/
theorem reprChar_escaped {c : CodePoint} (hc : Py.isPrintable c = false) :
    ∃ d rest, Py.reprChar (chr '\'') c = chr '\\' :: d :: rest ∧ d ≠ chr '\\' ∧ d ≠ chr '\''
      ∧ chr '\'' ∉ rest := by
  have hne : ¬ (c = chr '\'' ∨ c = chr '\\') := by
    have hprint {q : CodePoint} (hq : q.val < 0x80 ∧ 0x20 ≤ q.val ∧ q.val < 0x7F) :
        Py.isPrintable q = true := by
      unfold Py.isPrintable
      rw [if_pos hq.1, decide_eq_true hq.2.1, decide_eq_true hq.2.2]
      rfl
    rintro (rfl | rfl)
    · rw [hprint (by decide)] at hc
      cases hc
    · rw [hprint (by decide)] at hc
      cases hc
  have hfour (k : ℕ) : chr '\'' ∉ (ofChars (hex4Chars k) : PyStr) := by
    have hdigit (j : ℕ) : (chr '\'' : CodePoint) ≠ chr (j % 16).digitChar := digit_ne_quote (by omega)
    simp only [hex4Chars, ofChars_cons, ofChars_nil, List.mem_cons, List.not_mem_nil, hdigit,
      or_self, not_false_iff]
  unfold Py.reprChar
  rw [if_neg hne, hc, if_neg Bool.false_ne_true]
  split_ifs
  · exact ⟨chr 't', [], by decide, by decide, by decide, List.not_mem_nil⟩
  · exact ⟨chr 'n', [], by decide, by decide, by decide, List.not_mem_nil⟩
  · exact ⟨chr 'r', [], by decide, by decide, by decide, List.not_mem_nil⟩
  · refine ⟨chr 'x', _, rfl, by decide, by decide, ?_⟩
    have hval : (Fin.ofNat 256 c.val).val < 256 := Fin.isLt _
    have hhigh : (chr '\'' : CodePoint) ≠ chr ((Fin.ofNat 256 c.val).val / 16).digitChar :=
      digit_ne_quote (by omega)
    have hlow : (chr '\'' : CodePoint) ≠ chr ((Fin.ofNat 256 c.val).val % 16).digitChar :=
      digit_ne_quote (by omega)
    change chr '\'' ∉ (ofChars (hexByteChars (Fin.ofNat 256 c.val)) : PyStr)
    simp only [hexByteChars, ofChars_cons, ofChars_nil, List.mem_cons, List.not_mem_nil, hhigh,
      hlow, or_self, not_false_iff]
  · exact ⟨chr 'u', _, rfl, by decide, by decide, hfour _⟩
  · refine ⟨chr 'U', ofChars (hex4Chars (c.val / 0x10000) ++ hex4Chars (c.val % 0x10000)), rfl,
      by decide, by decide, ?_⟩
    rw [ofChars_append, List.mem_append, not_or]
    exact ⟨hfour _, hfour _⟩

/-- **The bodies of two quoted strings**, whatever comes after them. By
induction on the one string: character by character the texts are the
same, and what Python escapes shows in the second character written. -/
theorem body_append_iff {s t A B : PyStr} :
    s.flatMap (Py.reprChar (chr '\'')) ++ chr '\'' :: A = t.flatMap escapeChar ++ chr '\'' :: B
      ↔ s = t ∧ (∀ c ∈ s, Py.isPrintable c = true) ∧ A = B := by
  have hne : (chr '\'' : CodePoint) ≠ chr '\\' := by decide
  induction s generalizing t with
  | nil =>
    cases t with
    | nil => simp
    | cons d t =>
      refine iff_of_false (fun h => ?_) (by simp)
      rw [List.flatMap_cons, List.append_assoc] at h
      rcases escapeChar_cases d with ⟨hd, -⟩ | ⟨hd, -, hq⟩
      · rw [hd] at h
        exact hne (List.cons.inj h).1
      · rw [hd] at h
        exact hq (List.cons.inj h).1.symm
  | cons c s ih =>
    rw [List.flatMap_cons, List.append_assoc, List.forall_mem_cons]
    cases hc : Py.isPrintable c with
    | false =>
      refine iff_of_false (fun h => ?_) (by simp)
      obtain ⟨x, rest, hrepr, hx, hx', -⟩ := reprChar_escaped hc
      rw [hrepr] at h
      cases t with
      | nil => exact hne (List.cons.inj h).1.symm
      | cons d t =>
        rw [List.flatMap_cons, List.append_assoc] at h
        rcases escapeChar_cases d with ⟨hd, hcase⟩ | ⟨hd, hb, -⟩
        · rw [hd] at h
          obtain rfl := (List.cons.inj (List.cons.inj h).2).1
          exact hcase.elim hx hx'
        · rw [hd] at h
          exact hb (List.cons.inj h).1.symm
    | true =>
      rw [reprChar_printable hc]
      cases t with
      | nil =>
        refine iff_of_false (fun h => ?_) (by simp)
        rcases escapeChar_cases c with ⟨hd, -⟩ | ⟨hd, -, hq⟩
        · rw [hd] at h
          exact hne (List.cons.inj h).1.symm
        · rw [hd] at h
          exact hq (List.cons.inj h).1
      | cons d t =>
        rw [List.flatMap_cons, List.append_assoc, List.cons.injEq]
        by_cases hcd : c = d
        · subst hcd
          rw [List.append_cancel_left_eq]
          exact ih.trans (by simp)
        · refine iff_of_false (fun h => ?_) fun h => hcd h.1.1
          rcases escapeChar_cases c with ⟨hc', hcase⟩ | ⟨hc', hb, -⟩
          · rcases escapeChar_cases d with ⟨hd, -⟩ | ⟨hd, hb', -⟩
            · rw [hc', hd] at h
              exact hcd (List.cons.inj (List.cons.inj h).2).1
            · rw [hc', hd] at h
              exact hb' (List.cons.inj h).1.symm
          · rcases escapeChar_cases d with ⟨hd, -⟩ | ⟨hd, -, -⟩
            · rw [hc', hd] at h
              exact hb (List.cons.inj h).1
            · rw [hc', hd] at h
              exact hcd (List.cons.inj h).1

/-- **Two quoted strings with something after them.** -/
theorem reprStr_append_iff {s t A B : PyStr} :
    Py.reprStr s ++ A = quoted t ++ B ↔ s = t ∧ QuotesPy s ∧ A = B := by
  unfold Py.reprStr quoted QuotesPy
  dsimp only
  by_cases hq : chr '\'' ∈ s ∧ chr '"' ∉ s
  · -- double quotes
    rw [if_pos hq]
    refine iff_of_false (fun h => ?_) fun h => hq.2 (h.2.1.1 hq.1)
    have hne : (chr '"' : CodePoint) ≠ chr '\'' := by decide
    exact hne (List.cons.inj h).1
  · rw [if_neg hq, List.cons_append, List.cons_append, List.cons.injEq, eq_self, true_and,
      List.append_assoc, List.append_assoc, List.singleton_append, List.singleton_append,
      body_append_iff]
    have himp : chr '\'' ∈ s → chr '"' ∈ s := by simpa using hq
    tauto

/-! ### A quoted string after other text -/

omit [Ucd] in
/-- Text in which every single quote follows a backslash: it is made of
pieces without quotes and of escaped quotes. -/
theorem flatten_no_quote {pieces : List PyStr}
    (hpieces : ∀ x ∈ pieces, chr '\'' ∉ x ∨ x = [chr '\\', chr '\'']) :
    (∀ Y, pieces.flatten ≠ chr '\'' :: Y) ∧ ∀ X Y, pieces.flatten ≠ X ++ chr ' ' :: chr '\'' :: Y := by
  have hback : (chr '\\' : CodePoint) ≠ chr '\'' := by decide
  have hspace : (chr '\\' : CodePoint) ≠ chr ' ' := by decide
  have hquote : (chr '\'' : CodePoint) ≠ chr ' ' := by decide
  induction pieces with
  | nil => exact ⟨(by simp), fun X Y h => List.append_ne_nil_of_right_ne_nil _ (List.cons_ne_nil _ _) h.symm⟩
  | cons x pieces ih =>
    obtain ⟨hx, hpieces⟩ := List.forall_mem_cons.mp hpieces
    obtain ⟨hfirst, hinside⟩ := ih hpieces
    rw [List.flatten_cons]
    constructor
    · intro Y h
      cases x with
      | nil => exact hfirst Y h
      | cons c x =>
        obtain ⟨rfl, -⟩ := List.cons.inj h
        rcases hx with hx | hx
        · exact hx List.mem_cons_self
        · exact hback (List.cons.inj hx).1.symm
    · intro X Y h
      rcases List.append_eq_append_iff.mp h with ⟨r, -, hr⟩ | ⟨r, hx', hr⟩
      · exact hinside r Y hr
      · -- the space is in the first piece, or at its end
        rcases r with _ | ⟨c, _ | ⟨d, r⟩⟩
        · exact hinside [] Y hr.symm
        · obtain ⟨-, hr⟩ := List.cons.inj hr
          exact hfirst Y hr.symm
        · have hc := (List.cons.inj hr).1
          have hd := (List.cons.inj (List.cons.inj hr).2).1
          subst hc hd
          rcases hx with hx | hx
          · rw [hx'] at hx
            simp at hx
          · rw [hx] at hx'
            rcases X with _ | ⟨_, _ | ⟨_, X⟩⟩
            · exact hspace (List.cons.inj hx').1
            · exact hquote (List.cons.inj (List.cons.inj hx').2).1
            · have := congrArg List.length hx'
              simp at this

omit [Ucd] in
theorem escapeChar_pieces (c : CodePoint) :
    chr '\'' ∉ escapeChar c ∨ escapeChar c = [chr '\\', chr '\''] := by
  rcases escapeChar_cases c with ⟨hc, rfl | rfl⟩ | ⟨hc, -, hq⟩
  · left
    rw [hc]
    decide
  · exact Or.inr hc
  · left
    rw [hc, List.mem_singleton]
    exact fun h => hq h.symm

theorem reprChar_pieces (c : CodePoint) :
    chr '\'' ∉ Py.reprChar (chr '\'') c ∨ Py.reprChar (chr '\'') c = [chr '\\', chr '\''] := by
  have hback : (chr '\'' : CodePoint) ≠ chr '\\' := by decide
  cases hc : Py.isPrintable c with
  | true =>
    rw [reprChar_printable hc]
    exact escapeChar_pieces c
  | false =>
    obtain ⟨d, rest, hrepr, -, hd, hrest⟩ := reprChar_escaped hc
    left
    rw [hrepr, List.mem_cons, List.mem_cons, not_or, not_or]
    exact ⟨hback, hd.symm, hrest⟩

omit [Ucd] in
/-- The opening quote of a text does not come inside another one: there a
space before a quote is followed by a backslash. -/
theorem open_quote {before r W : PyStr} {pieces : List PyStr}
    (hpieces : ∀ x ∈ pieces, chr '\'' ∉ x ∨ x = [chr '\\', chr '\'']) {rest : PyStr}
    (h : before ++ chr '\'' :: pieces.flatten = r ++ (before ++ chr '\'' :: rest))
    (hbefore : before = W ++ [chr ' ']) : r = [] := by
  have hquote : (chr '\'' : CodePoint) ≠ chr ' ' := by decide
  by_contra hr
  rw [hbefore] at h
  have hshift : (W ++ [chr ' ']) ++ chr '\'' :: pieces.flatten
      = (r ++ W) ++ chr ' ' :: chr '\'' :: rest := by
    rw [h]
    simp
  rcases List.append_eq_append_iff.mp hshift with ⟨x, hx, hrest⟩ | ⟨x, hx, hrest⟩
  · cases x with
    | nil => exact hquote (List.cons.inj hrest).1
    | cons c x =>
      obtain ⟨-, hrest⟩ := List.cons.inj hrest
      exact (flatten_no_quote hpieces).2 x rest hrest
  · cases x with
    | nil => exact hquote (List.cons.inj hrest).1.symm
    | cons c x =>
      have hlen := congrArg List.length hx
      have := List.length_pos_iff.mpr hr
      simp only [List.length_append, List.length_cons, List.length_nil] at hlen
      omega

/-- **A quoted string after other text.** The opening quote of the one
language is the opening quote of the other, so the texts before them are
one. -/
theorem append_reprStr_iff {p q s t W : PyStr} :
    p ++ ((W ++ [chr ' ']) ++ Py.reprStr s) = q ++ ((W ++ [chr ' ']) ++ quoted t)
      ↔ p = q ∧ s = t ∧ QuotesPy s := by
  constructor
  · intro h
    have hlast : ¬ (chr '\'' ∈ s ∧ chr '"' ∉ s) := by
      intro hq
      have hend := congrArg List.getLast? h
      unfold Py.reprStr quoted at hend
      rw [if_pos hq] at hend
      simp only [← List.cons_append, ← List.append_assoc, List.getLast?_concat] at hend
      exact absurd (Option.some.inj hend) (by decide)
    have hs : Py.reprStr s = chr '\'' :: ((s.map (Py.reprChar (chr '\''))).flatten ++ [chr '\'']) := by
      unfold Py.reprStr
      rw [if_neg hlast, ← List.flatMap_def]
    have ht : quoted t = chr '\'' :: ((t.map escapeChar).flatten ++ [chr '\'']) := by
      unfold quoted
      rw [← List.flatMap_def]
    have hbody : p ++ ((W ++ [chr ' ']) ++ chr '\'' :: (s.map (Py.reprChar (chr '\''))).flatten)
        = q ++ ((W ++ [chr ' ']) ++ chr '\'' :: (t.map escapeChar).flatten) := by
      rw [hs, ht] at h
      exact List.append_cancel_right (by simpa using h)
    have hpq : p = q := by
      rcases List.append_eq_append_iff.mp hbody with ⟨r, hr, hrest⟩ | ⟨r, hr, hrest⟩
      · have hnil : r = [] := open_quote (fun x hx => ?_) hrest rfl
        · rw [hr, hnil, List.append_nil]
        · obtain ⟨c, -, rfl⟩ := List.mem_map.mp hx
          exact reprChar_pieces c
      · have hnil : r = [] := open_quote (fun x hx => ?_) hrest rfl
        · rw [hr, hnil, List.append_nil]
        · obtain ⟨c, -, rfl⟩ := List.mem_map.mp hx
          exact escapeChar_pieces c
    subst hpq
    rw [List.append_cancel_left_eq, List.append_cancel_left_eq] at h
    have := (reprStr_append_iff (A := []) (B := [])).mp (by simpa using h)
    exact ⟨rfl, this.1, this.2.1⟩
  · rintro ⟨rfl, rfl, hs⟩
    rw [List.append_cancel_left_eq, List.append_cancel_left_eq]
    have := (reprStr_append_iff (A := []) (B := [])).mpr ⟨rfl, hs, rfl⟩
    simpa using this

end Strings

/-! ## Documents -/

section Documents

variable [Ucd]

/-- A value of the receipt both languages print alike: `null`, a number
of the domain, or a string that is quoted alike. Python writes `True`
where TypeScript writes `true`, and the brackets of arrays and objects. -/
def QuotesDoc : Doc → Prop
  | .null | .num _ => True
  | .str us => QuotesPy (decode us)
  | .bool _ | .arr _ | .obj _ => False

/-- **A printed value with something after it** that has no more brackets
in TypeScript than in Python. -/
theorem repr_append_iff {d : Doc} (hd : SafeDoc d) {j : JsStr}
    (hj : Ts.pyRepr (.json (Ts.ofDoc d)) = .ok j) {A B : PyStr} (hAB : openings B ≤ openings A) :
    Py.repr (Py.ofDoc d) ++ A = decode j ++ B ↔ QuotesDoc d ∧ A = B := by
  cases d with
  | null =>
    obtain rfl := Except.ok.inj hj
    rw [decode_lit (by decide)]
    change lit "None" ++ A = lit "None" ++ B ↔ True ∧ A = B
    rw [List.append_cancel_left_eq, true_and]
  | num l =>
    obtain ⟨z, rfl, hz⟩ := hd
    obtain rfl := Except.ok.inj hj
    change decimal z ++ A = decode (Ts.numberToString (Ts.parseNumber (.int z))) ++ B ↔ True ∧ A = B
    rw [Ts.parseNumber_int hz, Ts.numberToString_intCast hz, decode_decimal,
      List.append_cancel_left_eq, true_and]
  | str us =>
    have hreason : j = Ts.reprStr us := (Except.ok.inj hj).symm
    rw [hreason, decode_reprStr]
    exact reprStr_append_iff.trans (and_iff_right rfl)
  | bool b =>
    refine iff_of_false (fun h => ?_) fun h => h.1
    cases b with
    | true =>
      obtain rfl := Except.ok.inj hj
      rw [decode_lit (by decide)] at h
      exact absurd (List.cons.inj h).1 (by decide)
    | false =>
      obtain rfl := Except.ok.inj hj
      rw [decode_lit (by decide)] at h
      exact absurd (List.cons.inj h).1 (by decide)
  | arr xs =>
    refine iff_of_false (fun h => ?_) fun h => h.1
    have hopen := congrArg openings h
    rw [openings_append, openings_append, openings_decode] at hopen
    have := openings_lt (show Ts.toStr (Ts.ofDoc (.arr xs)) = .ok j from hj)
    omega
  | obj ms =>
    refine iff_of_false (fun h => ?_) fun h => h.1
    have hobj : Ts.toStr (Ts.ofDoc (.obj ms)) = .ok j := hj
    rw [Ts.ofDoc_obj, Ts.toStr] at hobj
    split_ifs at hobj
    obtain rfl := Except.ok.inj hobj
    rw [Py.ofDoc_obj, Py.repr, decode_lit (by decide)] at h
    exact absurd (List.cons.inj h).1 (by decide)

/-- With the same words after it. -/
theorem repr_append_same {d : Doc} (hd : SafeDoc d) {j : JsStr}
    (hj : Ts.pyRepr (.json (Ts.ofDoc d)) = .ok j) (A : PyStr) :
    Py.repr (Py.ofDoc d) ++ A = decode j ++ A ↔ QuotesDoc d :=
  (repr_append_iff hd hj le_rfl).trans (and_iff_left rfl)

omit [Ucd] in
theorem openings_quoted (s : PyStr) : openings (quoted s) = openings s := by
  have hbody : openings (s.flatMap escapeChar) = openings s := by
    induction s with
    | nil => rfl
    | cons c s ih =>
      rw [List.flatMap_cons, openings_append, openings_cons, ih, Nat.add_comm]
      rcases escapeChar_cases c with ⟨hc, rfl | rfl⟩ | ⟨hc, -, -⟩
      · rw [hc]; rfl
      · rw [hc]; rfl
      · rw [hc, openings_cons, openings_nil, Nat.zero_add]
  unfold quoted
  rw [openings_cons, openings_append, hbody]
  rfl

end Documents

end Parity

end OpenTerms
