import OpenTerms.Common.GlobParts
import OpenTerms.Common.Utf16
import Mathlib.Data.List.Chain
import Mathlib.Data.List.Infix

/-!
# Text read by code units and by code points

What is looked for in a text need not be found at the same places in both
readings. Splitting at a character of the basic plane is the same in both
(`decode_splitOn`). Unicode text (`WellPaired`) is found at the same places
wherever it stands, as no pair lies across its ends. A string without
surrogate pairs (`Pairless`) is read unit by unit, so every pattern agrees
on it; one with a pair has fewer code points than code units
(`length_decode_lt`).
-/

namespace OpenTerms

namespace Utf16

/-! ## Splitting -/

/-- No pair starts at a unit that the next unit does not complete. -/
theorem decode_cons_of_head {u v : CodeUnit} {us vs : JsStr} (hpair : ¬ (IsHigh u.val ∧ IsLow v.val))
    (hus : us <+: v :: vs) : decode (u :: us) = widen u :: decode us := by
  cases us with
  | nil => rfl
  | cons w us =>
    obtain ⟨rfl, -⟩ := List.cons_prefix_cons.mp hus
    rw [decode, if_neg hpair]

theorem joinPair_ne_widen {h l u : CodeUnit} (hh : IsHigh h.val) (hl : IsLow l.val) :
    joinPair h l ≠ widen u := by
  intro heq
  have hval : (joinPair h l).val = u.val := by rw [heq, widen_val]
  rw [joinPair_val hh hl] at hval
  have := u.isLt
  omega

theorem widen_injective : Function.Injective widen := fun u v h => by
  have hval : (widen u).val = (widen v).val := congrArg Fin.val h
  exact Fin.ext hval

/-- The first piece is what comes before the separator. -/
theorem splitOn_eq_cons {α : Type} [BEq α] (a : α) (xs : List α) :
    ∃ first rest, xs.splitOn a = first :: rest ∧ first <+: xs := by
  induction xs with
  | nil => exact ⟨[], [], List.splitOn_nil a, List.nil_prefix⟩
  | cons x xs ih =>
    obtain ⟨first, rest, hsplit, hfirst⟩ := ih
    rw [List.splitOn_cons_eq_if_modifyHead, hsplit]
    split
    · exact ⟨[], first :: rest, rfl, List.nil_prefix⟩
    · exact ⟨x :: first, rest, rfl, List.cons_prefix_cons.mpr ⟨rfl, hfirst⟩⟩

/-- **Splitting is the same in both readings**, at a separator that is no
surrogate. -/
theorem decode_splitOn {a : CodeUnit} (ha : ¬ IsSurrogate a.val) (us : JsStr) :
    (decode us).splitOn (widen a) = (us.splitOn a).map decode := by
  have hwiden (u : CodeUnit) : (widen u == widen a) = (u == a) := by
    rw [Bool.eq_iff_iff, beq_iff_eq, beq_iff_eq, widen_injective.eq_iff]
  fun_induction decode us with
  | case1 => rw [List.splitOn_nil, List.splitOn_nil]; rfl
  | case2 u =>
    rw [List.splitOn_cons_eq_if_modifyHead, List.splitOn_cons_eq_if_modifyHead, hwiden,
      List.splitOn_nil, List.splitOn_nil]
    by_cases hu : (u == a) = true
    · rw [if_pos hu, if_pos hu]; rfl
    · rw [if_neg hu, if_neg hu]; rfl
  | case3 u v rest h ih =>
    -- neither half of a pair is the separator, and the pair is not either
    have hu : ¬ (u == a) = true := by
      rw [beq_iff_eq]; rintro rfl; omega
    have hv : ¬ (v == a) = true := by
      rw [beq_iff_eq]; rintro rfl; omega
    have hjoin : ¬ (joinPair u v == widen a) = true := by
      rw [beq_iff_eq]; exact joinPair_ne_widen h.1 h.2
    rw [List.splitOn_cons_eq_if_modifyHead, List.splitOn_cons_eq_if_modifyHead (x := u),
      List.splitOn_cons_eq_if_modifyHead (x := v), if_neg hu, if_neg hv, if_neg hjoin, ih]
    obtain ⟨first, pieces, hsplit, -⟩ := splitOn_eq_cons a rest
    rw [hsplit]
    change (joinPair u v :: decode first) :: _ = decode (u :: v :: first) :: _
    rw [decode, if_pos h]
  | case4 u v rest h ih =>
    rw [List.splitOn_cons_eq_if_modifyHead, List.splitOn_cons_eq_if_modifyHead (x := u), hwiden, ih]
    obtain ⟨first, pieces, hsplit, hfirst⟩ := splitOn_eq_cons a (v :: rest)
    rw [hsplit]
    by_cases hu : (u == a) = true
    · rw [if_pos hu, if_pos hu]; rfl
    · rw [if_neg hu, if_neg hu]
      change (widen u :: decode first) :: _ = decode (u :: first) :: _
      rw [decode_cons_of_head h hfirst]

/-! ## Strings without pairs -/

/-- No leading surrogate is followed by a trailing one. -/
def Pairless (us : JsStr) : Prop := us.IsChain fun u v => ¬ (IsHigh u.val ∧ IsLow v.val)

instance : DecidablePred Pairless := fun us => inferInstanceAs (Decidable (us.IsChain _))

/-- **Without pairs the two readings are one.** -/
theorem Pairless.decode_eq_map {us : JsStr} (h : Pairless us) : decode us = us.map widen := by
  fun_induction decode us with
  | case1 => rfl
  | case2 u => rfl
  | case3 u v rest hpair ih => exact absurd hpair (List.isChain_cons_cons.mp h).1
  | case4 u v rest hpair ih =>
    rw [ih (List.isChain_cons_cons.mp h).2]
    rfl

theorem length_decode_le (us : JsStr) : (decode us).length ≤ us.length := by
  fun_induction decode us with
  | case1 => exact le_rfl
  | case2 u => exact le_rfl
  | case3 u v rest hpair ih =>
    simp only [List.length_cons]
    omega
  | case4 u v rest hpair ih =>
    simp only [List.length_cons] at ih ⊢
    omega

/-- **A pair is one character.** -/
theorem length_decode_lt {us : JsStr} (h : ¬ Pairless us) : (decode us).length < us.length := by
  fun_induction decode us with
  | case1 => exact absurd List.isChain_nil h
  | case2 u => exact absurd (List.isChain_singleton u) h
  | case3 u v rest hpair ih =>
    have := length_decode_le rest
    simp only [List.length_cons]
    omega
  | case4 u v rest hpair ih =>
    have hrest : ¬ Pairless (v :: rest) := fun hrest =>
      h (List.isChain_cons_cons.mpr ⟨hpair, hrest⟩)
    have hlt := ih hrest
    simp only [List.length_cons] at hlt ⊢
    omega

/-- A pair is two units of the text, and one character of its reading. -/
theorem exists_pair {us : JsStr} (h : ¬ Pairless us) :
    ∃ u v, IsHigh u.val ∧ IsLow v.val ∧ [u, v] <:+: us ∧ joinPair u v ∈ decode us := by
  fun_induction decode us with
  | case1 => exact absurd List.isChain_nil h
  | case2 u => exact absurd (List.isChain_singleton u) h
  | case3 u v rest hpair ih =>
    exact ⟨u, v, hpair.1, hpair.2, ⟨[], rest, rfl⟩, List.mem_cons_self⟩
  | case4 u v rest hpair ih =>
    have hrest : ¬ Pairless (v :: rest) := fun hrest =>
      h (List.isChain_cons_cons.mpr ⟨hpair, hrest⟩)
    obtain ⟨x, y, hx, hy, hin, hmem⟩ := ih hrest
    exact ⟨x, y, hx, hy, List.infix_cons hin, List.mem_cons_of_mem _ hmem⟩

theorem Pairless.of_infix {us vs : JsStr} (hvs : Pairless vs) (h : us <:+: vs) : Pairless us :=
  List.IsChain.infix hvs h

/-! ## Unicode text -/

/-- Unicode text: every surrogate is half of a pair. -/
def WellPaired (us : JsStr) : Prop := ∀ c ∈ decode us, ¬ IsSurrogate c.val

theorem wellPaired_encode {s : PyStr} (h : ∀ c ∈ s, ¬ IsSurrogate c.val) :
    WellPaired (encode s) := by
  unfold WellPaired
  rwa [decode_encode h]

/-- A boundary that no pair lies across is one in both readings. -/
theorem decode_append {us vs : JsStr}
    (hcut : ∀ u ∈ us.getLast?, ∀ v ∈ vs.head?, ¬ (IsHigh u.val ∧ IsLow v.val)) :
    decode (us ++ vs) = decode us ++ decode vs := by
  fun_induction decode us with
  | case1 => rfl
  | case2 u =>
    cases vs with
    | nil => rfl
    | cons v vs =>
      change decode (u :: v :: vs) = _
      rw [decode, if_neg (hcut u rfl v rfl)]
      rfl
  | case3 u v rest hpair ih =>
    change decode (u :: v :: (rest ++ vs)) = _
    rw [decode, if_pos hpair, ih fun w hw x hx => hcut w ?_ x hx]
    · rfl
    · cases rest with
      | nil => cases hw
      | cons y rest => exact hw
  | case4 u v rest hpair ih =>
    change decode (u :: v :: (rest ++ vs)) = _
    rw [decode, if_neg hpair, ← List.cons_append, ih hcut]
    rfl

theorem exists_encode_cons (c : CodePoint) (s : PyStr) :
    ∃ u us, encode (c :: s) = u :: us ∧ (IsLow u.val → IsLow c.val) := by
  rw [encode_cons, encodeChar]
  by_cases hc : c.val < 0x10000
  · have hval : (Fin.ofNat 0x10000 c.val).val = c.val := Nat.mod_eq_of_lt hc
    rw [if_pos hc]
    exact ⟨_, _, rfl, fun hlow => by rw [hval] at hlow; exact hlow⟩
  · have := c.isLt
    have hval : (Fin.ofNat 0x10000 (0xD800 + (c.val - 0x10000) / 0x400)).val
        = 0xD800 + (c.val - 0x10000) / 0x400 := Nat.mod_eq_of_lt (by omega)
    rw [if_neg hc]
    exact ⟨_, _, rfl, fun hlow => by rw [hval] at hlow; omega⟩

/-- Unicode text starts with no second half of a pair. -/
theorem WellPaired.head {value : JsStr} (h : WellPaired value) :
    ∀ u ∈ value.head?, ¬ IsLow u.val := by
  intro u hu hlow
  rw [← encode_decode value] at hu
  cases hvalue : decode value with
  | nil =>
    rw [hvalue] at hu
    cases hu
  | cons c s =>
    obtain ⟨w, us, hus, hw⟩ := exists_encode_cons c s
    rw [hvalue, hus] at hu
    obtain rfl := Option.some.inj hu
    have hc := h c (by rw [hvalue]; exact List.mem_cons_self)
    have := hw hlow
    omega

theorem WellPaired.decode_append {value : JsStr} (h : WellPaired value) (us : JsStr) :
    decode (value ++ us) = decode value ++ decode us := by
  conv_lhs => rw [← encode_decode value]
  exact decode_encode_append h us

/-! ## The tests of a text -/

section Tests

variable {value target : JsStr}

/-- A prefix. -/
theorem decode_prefix_iff (hv : WellPaired value) :
    decode value <+: decode target ↔ value <+: target := by
  refine ⟨prefix_of_decode, ?_⟩
  rintro ⟨after, rfl⟩
  rw [hv.decode_append]
  exact List.prefix_append _ _

/-- A suffix. -/
theorem decode_suffix_iff (hv : WellPaired value) :
    decode value <:+ decode target ↔ value <:+ target := by
  constructor
  · rintro ⟨before, h⟩
    refine ⟨encode before, ?_⟩
    rw [← encode_decode target, ← h, encode_append, encode_decode]
  · rintro ⟨before, rfl⟩
    -- the value starts with no trailing half, so no pair lies across its front
    rw [decode_append fun u _ v hv' hp => hv.head v hv' hp.2]
    exact List.suffix_append _ _

/-- A part. -/
theorem decode_infix_iff (hv : WellPaired value) :
    decode value <:+: decode target ↔ value <:+: target := by
  constructor
  · rintro ⟨before, after, h⟩
    refine ⟨encode before, encode after, ?_⟩
    rw [← encode_decode target, ← h, encode_append, encode_append, encode_decode]
  · rintro ⟨before, after, rfl⟩
    cases value with
    | nil => exact List.nil_infix
    | cons w value =>
      -- no pair lies across the front of the value
      have hfront : ∀ u ∈ before.getLast?, ∀ v ∈ (w :: value ++ after).head?,
          ¬ (IsHigh u.val ∧ IsLow v.val) := fun _ _ v hv' hp => hv.head v hv' hp.2
      rw [List.append_assoc, decode_append hfront, hv.decode_append, ← List.append_assoc]
      exact List.infix_append _ _ _

/-- **A pattern.** One with a pair matches in neither reading: by code
units it wants the two halves side by side, by code points the character
they make. -/
theorem decode_mem_language_iff {any one : CodeUnit} (hany : ¬ IsSurrogate any.val)
    (hone : ¬ IsSurrogate one.val) (ht : Pairless target) :
    decode target ∈ Glob.language (widen any) (widen one) (decode value)
      ↔ target ∈ Glob.language any one value := by
  rw [ht.decode_eq_map]
  by_cases hv : Pairless value
  · rw [hv.decode_eq_map]
    exact Glob.mem_language_map widen_injective
  · obtain ⟨u, v, hu, hv, hin, hmem⟩ := exists_pair hv
    have hunits : Glob.Plain any one [u, v] := by
      simp only [Glob.Plain, List.mem_cons, List.not_mem_nil, or_false, forall_eq_or_imp, forall_eq]
      refine ⟨⟨?_, ?_⟩, ?_, ?_⟩ <;> rintro rfl <;> omega
    have hchar : Glob.Plain (widen any) (widen one) [joinPair u v] := by
      simp only [Glob.Plain, List.mem_singleton, forall_eq]
      exact ⟨joinPair_ne_widen hu hv, joinPair_ne_widen hu hv⟩
    -- a pair in the pattern: what matches has it too, as a character or as two units
    constructor
    · intro h
      have hin := Glob.infix_of_mem_language hchar ((List.singleton_infix_iff _ _).mpr hmem) h
      obtain ⟨w, -, hw⟩ := List.mem_map.mp ((List.singleton_infix_iff _ _).mp hin)
      exact absurd hw.symm (joinPair_ne_widen hu hv)
    · intro h
      have hpair := ht.of_infix (Glob.infix_of_mem_language hunits hin h)
      exact absurd ⟨hu, hv⟩ (List.isChain_cons_cons.mp hpair).1

end Tests

theorem length_le_encode (s : PyStr) : s.length ≤ (encode s).length := by
  induction s with
  | nil => exact le_rfl
  | cons c s ih =>
    have hchar : 1 ≤ (encodeChar c).length := by
      unfold encodeChar
      split <;> simp
    rw [encode_cons, List.length_append, List.length_cons]
    omega

end Utf16

end OpenTerms
