import OpenTerms.Common.Text
import Mathlib.Data.List.Lex
import Mathlib.Order.Fin.Basic

/-!
# UTF-16

A JavaScript string is a list of code units, a Python string a list of
code points, and a JSON string is read into either: `decode` joins each
surrogate pair and keeps a lone surrogate as the code point of its
number, which is what `json.loads` does with the same text. `encode` is
the way back, and it is a left inverse on everything (`encode_decode`);
`decode_encode` needs a string without surrogates.

The two languages sort by different orders, code units against code
points. They agree on strings free of surrogates, where decoding is
`widen` character by character (`decode_le_decode`).
-/

namespace OpenTerms

namespace Utf16

/-- A leading surrogate. -/
abbrev IsHigh (c : ℕ) : Prop := 0xD800 ≤ c ∧ c ≤ 0xDBFF

/-- A trailing surrogate. -/
abbrev IsLow (c : ℕ) : Prop := 0xDC00 ≤ c ∧ c ≤ 0xDFFF

/-- A surrogate of either kind. -/
abbrev IsSurrogate (c : ℕ) : Prop := 0xD800 ≤ c ∧ c ≤ 0xDFFF

/-- A code unit as the code point of the same number. -/
def widen (u : CodeUnit) : CodePoint := Fin.castLE (by decide) u

/-- The supplementary code point a surrogate pair stands for. -/
def joinPair (h l : CodeUnit) : CodePoint :=
  Fin.ofNat _ (0x10000 + (h.val - 0xD800) * 0x400 + (l.val - 0xDC00))

/-- Code units read as code points: pairs joined, lone surrogates kept. -/
def decode : JsStr → PyStr
  | [] => []
  | [u] => [widen u]
  | u :: v :: rest =>
    if IsHigh u.val ∧ IsLow v.val then joinPair u v :: decode rest
    else widen u :: decode (v :: rest)

/-- The code units of one code point. -/
def encodeChar (c : CodePoint) : JsStr :=
  if c.val < 0x10000 then [Fin.ofNat _ c.val]
  else [Fin.ofNat _ (0xD800 + (c.val - 0x10000) / 0x400),
    Fin.ofNat _ (0xDC00 + (c.val - 0x10000) % 0x400)]

/-- Code points written as code units. -/
def encode (s : PyStr) : JsStr := s.flatMap encodeChar

@[simp] theorem widen_val (u : CodeUnit) : (widen u).val = u.val := rfl

theorem joinPair_val {h l : CodeUnit} (hh : IsHigh h.val) (hl : IsLow l.val) :
    (joinPair h l).val = 0x10000 + (h.val - 0xD800) * 0x400 + (l.val - 0xDC00) :=
  Nat.mod_eq_of_lt (by omega)

@[simp] theorem encode_nil : encode [] = [] := rfl

@[simp] theorem encode_cons (c : CodePoint) (s : PyStr) :
    encode (c :: s) = encodeChar c ++ encode s := rfl

@[simp] theorem encode_append (s t : PyStr) : encode (s ++ t) = encode s ++ encode t := by
  simp [encode]

theorem encodeChar_widen (u : CodeUnit) : encodeChar (widen u) = [u] := by
  rw [encodeChar, widen_val, if_pos u.isLt]
  exact congrArg (· :: []) (Fin.ext (Nat.mod_eq_of_lt u.isLt))

theorem encodeChar_joinPair {h l : CodeUnit} (hh : IsHigh h.val) (hl : IsLow l.val) :
    encodeChar (joinPair h l) = [h, l] := by
  have hv := joinPair_val hh hl
  rw [encodeChar, if_neg (by omega), hv]
  simp only [List.cons.injEq, and_true]
  constructor
  · exact Fin.ext ((Nat.mod_eq_of_lt (by omega)).trans (by omega))
  · exact Fin.ext ((Nat.mod_eq_of_lt (by omega)).trans (by omega))

/-- **Decoding loses nothing**: the code units come back. -/
theorem encode_decode (us : JsStr) : encode (decode us) = us := by
  fun_induction decode us with
  | case1 => rfl
  | case2 u => rw [encode_cons, encodeChar_widen]; rfl
  | case3 u v rest h ih => rw [encode_cons, encodeChar_joinPair h.1 h.2, ih]; rfl
  | case4 u v rest h ih => rw [encode_cons, encodeChar_widen, ih]; rfl

theorem decode_injective : Function.Injective decode :=
  Function.LeftInverse.injective encode_decode

/-- A unit that opens no pair is read alone. -/
theorem decode_cons {u : CodeUnit} (h : ¬ IsHigh u.val) (us : JsStr) :
    decode (u :: us) = widen u :: decode us := by
  cases us with
  | nil => rfl
  | cons v rest => rw [decode, if_neg fun hp => h hp.1]

theorem decode_encodeChar {c : CodePoint} (h : ¬ IsSurrogate c.val) (us : JsStr) :
    decode (encodeChar c ++ us) = c :: decode us := by
  rw [encodeChar]
  split
  · next hlt =>
    have hv : (Fin.ofNat 0x10000 c.val).val = c.val := Nat.mod_eq_of_lt hlt
    rw [List.singleton_append, decode_cons (by rw [hv]; omega)]
    exact congrArg (· :: decode us) (Fin.ext hv)
  · next hlt =>
    have hh : (Fin.ofNat 0x10000 (0xD800 + (c.val - 0x10000) / 0x400)).val
        = 0xD800 + (c.val - 0x10000) / 0x400 := Nat.mod_eq_of_lt (by omega)
    have hl : (Fin.ofNat 0x10000 (0xDC00 + (c.val - 0x10000) % 0x400)).val
        = 0xDC00 + (c.val - 0x10000) % 0x400 := Nat.mod_eq_of_lt (by omega)
    have hhigh : IsHigh (Fin.ofNat 0x10000 (0xD800 + (c.val - 0x10000) / 0x400)).val := by
      rw [hh]; omega
    have hlow : IsLow (Fin.ofNat 0x10000 (0xDC00 + (c.val - 0x10000) % 0x400)).val := by
      rw [hl]; omega
    rw [List.cons_append, List.singleton_append, decode, if_pos ⟨hhigh, hlow⟩]
    refine congrArg (· :: decode us) (Fin.ext ?_)
    rw [joinPair_val hhigh hlow, hh, hl]
    omega

/-- Text without surrogates survives the round trip through code units. -/
theorem decode_encode_append {s : PyStr} (h : ∀ c ∈ s, ¬ IsSurrogate c.val) (us : JsStr) :
    decode (encode s ++ us) = s ++ decode us := by
  induction s with
  | nil => rfl
  | cons c s ih =>
    rw [encode_cons, List.append_assoc, decode_encodeChar (h c (by simp)),
      ih fun d hd => h d (by simp [hd])]
    rfl

theorem decode_encode {s : PyStr} (h : ∀ c ∈ s, ¬ IsSurrogate c.val) :
    decode (encode s) = s := by
  simpa [decode] using decode_encode_append h []

/-! ## What a decoded string shows of its code units -/

/-- Without a leading surrogate nothing is joined. -/
theorem decode_eq_map {us : JsStr} (h : ∀ u ∈ us, ¬ IsHigh u.val) :
    decode us = us.map widen := by
  induction us with
  | nil => rfl
  | cons u us ih =>
    rw [decode_cons (h u (by simp)), ih fun v hv => h v (by simp [hv])]
    rfl

/-- **A leading surrogate shows**, as a supplementary character where it
is paired and as itself where it is not. -/
theorem exists_isHigh_iff (us : JsStr) :
    (∃ u ∈ us, IsHigh u.val) ↔ ∃ c ∈ decode us, 0xFFFF < c.val ∨ IsHigh c.val := by
  fun_induction decode us with
  | case1 => simp
  | case2 u =>
    have := u.isLt
    simp only [List.mem_singleton, exists_eq_left, widen_val]
    omega
  | case3 u v rest h ih =>
    have hv := joinPair_val h.1 h.2
    constructor
    · intro _
      exact ⟨_, List.mem_cons_self, Or.inl (by omega)⟩
    · intro _
      exact ⟨u, List.mem_cons_self, h.1⟩
  | case4 u v rest h ih =>
    have := u.isLt
    rw [List.exists_mem_cons_iff _ u (v :: rest), ih,
      List.exists_mem_cons_iff _ (widen u) (decode (v :: rest)), widen_val]
    constructor
    · rintro (hu | h')
      · exact Or.inl (Or.inr hu)
      · exact Or.inr h'
    · rintro ((hu | hu) | h')
      · omega
      · exact Or.inl hu
      · exact Or.inr h'

/-- The strings both languages order alike: no surrogate, paired or not. -/
def Plain (us : JsStr) : Prop := ∀ u ∈ us, ¬ IsSurrogate u.val

/-- A string is plain when decoding shows neither a supplementary
character nor a surrogate. -/
theorem plain_of_decode {us : JsStr}
    (h : ∀ c ∈ decode us, c.val ≤ 0xFFFF ∧ ¬ IsSurrogate c.val) : Plain us := by
  have hhigh : ∀ u ∈ us, ¬ IsHigh u.val := by
    intro u hu hhigh
    obtain ⟨c, hc, hcase⟩ := (exists_isHigh_iff us).mp ⟨u, hu, hhigh⟩
    have := h c hc
    omega
  intro u hu
  have hmem : widen u ∈ decode us := by
    rw [decode_eq_map hhigh]; exact List.mem_map_of_mem hu
  exact (h _ hmem).2

theorem Plain.decode_eq_map {us : JsStr} (h : Plain us) : decode us = us.map widen :=
  Utf16.decode_eq_map fun u hu => by have := h u hu; omega

theorem map_widen_lt {us vs : JsStr} : us.map widen < vs.map widen ↔ us < vs := by
  induction us generalizing vs with
  | nil => cases vs <;> simp
  | cons u us ih =>
    cases vs with
    | nil => simp
    | cons v vs =>
      have heq : widen u = widen v ↔ u = v := by simp [Fin.ext_iff]
      rw [List.map_cons, List.map_cons, List.cons_lt_cons_iff, List.cons_lt_cons_iff, ih,
        heq, Fin.lt_def, Fin.lt_def, widen_val, widen_val]

/-- **The two key orders agree on plain strings**: code points on one
side, code units on the other. -/
theorem decode_le_decode {us vs : JsStr} (hu : Plain us) (hv : Plain vs) :
    decode us ≤ decode vs ↔ us ≤ vs := by
  rw [hu.decode_eq_map, hv.decode_eq_map, ← not_lt, ← not_lt, map_widen_lt]

/-! ## ASCII -/

theorem widen_chr {c : Char} (h : c.toNat < 0x80) : widen (chr c) = chr c := by
  refine Fin.ext ?_
  rw [widen_val, chr_val (by omega), chr_val (by omega)]

theorem encodeChar_chr {c : Char} (h : c.toNat < 0x80) : encodeChar (chr c) = [chr c] := by
  rw [← widen_chr h, encodeChar_widen]

/-- A literal is spelled alike in both alphabets. -/
theorem encode_ofChars {cs : List Char} (h : ∀ c ∈ cs, c.toNat < 0x80) :
    encode (ofChars cs) = ofChars cs := by
  induction cs with
  | nil => rfl
  | cons c cs ih =>
    rw [ofChars_cons, ofChars_cons, encode_cons, encodeChar_chr (h c (by simp)),
      ih fun d hd => h d (by simp [hd])]
    rfl

theorem decode_ofChars_append {cs : List Char} (h : ∀ c ∈ cs, c.toNat < 0x80) (us : JsStr) :
    decode (ofChars cs ++ us) = ofChars cs ++ decode us := by
  have hs : ∀ c ∈ (ofChars cs : PyStr), ¬ IsSurrogate c.val := by
    intro c hc
    obtain ⟨d, hd, rfl⟩ := List.mem_map.mp hc
    have := h d hd
    rw [chr_val (by omega)]
    omega
  rw [← encode_ofChars h, decode_encode_append hs]

theorem decode_ofChars {cs : List Char} (h : ∀ c ∈ cs, c.toNat < 0x80) :
    decode (ofChars cs) = ofChars cs := by
  simpa [decode] using decode_ofChars_append h []

/-- A literal of ASCII characters. -/
def Ascii (s : String) : Prop := ∀ b ∈ s.toByteArray.data.toList, b.toNat < 0x80

instance : DecidablePred Ascii := fun s =>
  List.decidableBAll (fun b : UInt8 => b.toNat < 0x80) s.toByteArray.data.toList

theorem lit_ascii {s : String} (h : Ascii s) : ∀ c ∈ (lit s : PyStr), c.val < 0x80 := by
  intro c hc
  obtain ⟨b, hb, rfl⟩ := List.mem_map.mp hc
  have hlt := h b hb
  rw [Fin.val_ofNat]
  omega

/-- **A literal is the same text in both alphabets.** -/
theorem decode_lit {s : String} (h : Ascii s) : decode (lit s) = lit s := by
  have hval {n : ℕ} [NeZero n] (hn : 0x80 ≤ n) {b : UInt8} (hb : b.toNat < 0x80) :
      (Fin.ofNat n b.toNat).val = b.toNat := Nat.mod_eq_of_lt (by omega)
  unfold lit
  rw [decode_eq_map, List.map_map]
  · refine List.map_congr_left fun b hb => Fin.ext ?_
    rw [Function.comp_apply, widen_val, hval (by omega) (h b hb), hval (by omega) (h b hb)]
  · intro u hu
    obtain ⟨b, hb, rfl⟩ := List.mem_map.mp hu
    have hlt := h b hb
    rw [hval (by omega) hlt]
    omega

/-- Decoding keeps prefixes apart: what is a prefix decoded was one. -/
theorem prefix_of_decode {us vs : JsStr} (h : decode us <+: decode vs) : us <+: vs := by
  obtain ⟨rest, hrest⟩ := h
  refine ⟨encode rest, ?_⟩
  rw [← encode_decode vs, ← hrest, encode_append, encode_decode]

end Utf16

end OpenTerms
