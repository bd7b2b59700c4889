import OpenTerms.Common.Utf16

/-!
# UTF-8

Encoding as `str.encode("utf-8")` does it, which refuses surrogates, and
the strict decoder. The decoder computes the code point the lead octet
announces and accepts it where its own encoding is the octets read, so
that overlong forms, surrogates and stray continuation octets are all
refused by one test.
-/

namespace OpenTerms

namespace Utf8

open Utf16 (IsSurrogate)

/-- The octets of one code point. -/
def charBytes (c : CodePoint) : Bytes :=
  if c.val < 0x80 then [Fin.ofNat _ c.val]
  else if c.val < 0x800 then [Fin.ofNat _ (0xC0 + c.val / 0x40), Fin.ofNat _ (0x80 + c.val % 0x40)]
  else if c.val < 0x10000 then
    [Fin.ofNat _ (0xE0 + c.val / 0x1000), Fin.ofNat _ (0x80 + c.val / 0x40 % 0x40),
      Fin.ofNat _ (0x80 + c.val % 0x40)]
  else
    [Fin.ofNat _ (0xF0 + c.val / 0x40000), Fin.ofNat _ (0x80 + c.val / 0x1000 % 0x40),
      Fin.ofNat _ (0x80 + c.val / 0x40 % 0x40), Fin.ofNat _ (0x80 + c.val % 0x40)]

/-- `str.encode("utf-8")`: a surrogate raises `UnicodeEncodeError`. -/
def encode (s : PyStr) : Option Bytes :=
  if s.any (fun c => IsSurrogate c.val) then none else some (s.flatMap charBytes)

/-- The octets read are those of the code point computed from them. -/
def accept (code : ℕ) (octets : Bytes) (rest : Option PyStr) : Option PyStr :=
  let c : CodePoint := Fin.ofNat _ code
  if charBytes c = octets ∧ ¬ IsSurrogate c.val then rest.map (c :: ·) else none

/-- The strict decoder. -/
def decode : Bytes → Option PyStr
  | [] => some []
  | a :: t =>
    if a.val < 0x80 then accept a.val [a] (decode t)
    else match t with
      | [] => none
      | b :: t =>
        if a.val < 0xE0 then
          accept ((a.val - 0xC0) * 0x40 + (b.val - 0x80)) [a, b] (decode t)
        else match t with
          | [] => none
          | c :: t =>
            if a.val < 0xF0 then
              accept ((a.val - 0xE0) * 0x1000 + (b.val - 0x80) * 0x40 + (c.val - 0x80))
                [a, b, c] (decode t)
            else match t with
              | [] => none
              | d :: t =>
                accept ((a.val - 0xF0) * 0x40000 + (b.val - 0x80) * 0x1000
                  + (c.val - 0x80) * 0x40 + (d.val - 0x80)) [a, b, c, d] (decode t)

theorem accept_eq {c : CodePoint} {code : ℕ} (hcode : code = c.val)
    (h : ¬ IsSurrogate c.val) (rest : Option PyStr) :
    accept code (charBytes c) rest = rest.map (c :: ·) := by
  have hc : (Fin.ofNat 0x110000 code) = c := by
    subst hcode
    exact Fin.ext (Nat.mod_eq_of_lt c.isLt)
  simp only [accept, hc, h, not_false_eq_true, and_self, if_true]

theorem decode_one {a : Byte} (t : Bytes) (ha : a.val < 0x80) :
    decode (a :: t) = accept a.val [a] (decode t) := by
  rw [decode.eq_def]
  exact if_pos ha

theorem decode_two {a : Byte} (b : Byte) (t : Bytes) (ha : ¬ a.val < 0x80) (ha' : a.val < 0xE0) :
    decode (a :: b :: t)
      = accept ((a.val - 0xC0) * 0x40 + (b.val - 0x80)) [a, b] (decode t) := by
  rw [decode.eq_def]
  exact (if_neg ha).trans (if_pos ha')

theorem decode_three {a : Byte} (b c : Byte) (t : Bytes) (ha : ¬ a.val < 0xE0)
    (ha' : a.val < 0xF0) :
    decode (a :: b :: c :: t)
      = accept ((a.val - 0xE0) * 0x1000 + (b.val - 0x80) * 0x40 + (c.val - 0x80)) [a, b, c]
          (decode t) := by
  rw [decode.eq_def]
  exact (if_neg (by omega)).trans ((if_neg ha).trans (if_pos ha'))

theorem decode_four {a : Byte} (b c d : Byte) (t : Bytes) (ha : ¬ a.val < 0xF0) :
    decode (a :: b :: c :: d :: t)
      = accept ((a.val - 0xF0) * 0x40000 + (b.val - 0x80) * 0x1000 + (c.val - 0x80) * 0x40
          + (d.val - 0x80)) [a, b, c, d] (decode t) := by
  rw [decode.eq_def]
  exact (if_neg (by omega)).trans ((if_neg (by omega)).trans (if_neg ha))

/-- An octet built from a number in range has that number. -/
theorem octet_val {k : ℕ} (h : k < 0x100) : (Fin.ofNat 0x100 k).val = k := Nat.mod_eq_of_lt h

/-- **One character decodes.** Four cases, one for each length. -/
theorem decode_charBytes {c : CodePoint} (h : ¬ IsSurrogate c.val) (bs : Bytes) :
    decode (charBytes c ++ bs) = (decode bs).map (c :: ·) := by
  have hc := c.isLt
  have tail {k : ℕ} : (Fin.ofNat 0x100 (0x80 + k % 0x40)).val = 0x80 + k % 0x40 :=
    octet_val (by omega)
  by_cases h1 : c.val < 0x80
  · have ha : (Fin.ofNat 0x100 c.val).val = c.val := octet_val (by omega)
    have hb : charBytes c = [Fin.ofNat _ c.val] := by rw [charBytes, if_pos h1]
    rw [hb, List.singleton_append, decode_one _ (by rw [ha]; exact h1), ← hb]
    exact accept_eq ha h _
  by_cases h2 : c.val < 0x800
  · have ha : (Fin.ofNat 0x100 (0xC0 + c.val / 0x40)).val = 0xC0 + c.val / 0x40 :=
      octet_val (by omega)
    have hb : charBytes c
        = [Fin.ofNat _ (0xC0 + c.val / 0x40), Fin.ofNat _ (0x80 + c.val % 0x40)] := by
      rw [charBytes, if_neg h1, if_pos h2]
    rw [hb, List.cons_append, List.singleton_append,
      decode_two _ _ (by omega) (by omega), ← hb]
    exact accept_eq (by rw [ha, tail]; omega) h _
  by_cases h3 : c.val < 0x10000
  · have ha : (Fin.ofNat 0x100 (0xE0 + c.val / 0x1000)).val = 0xE0 + c.val / 0x1000 :=
      octet_val (by omega)
    have hb : charBytes c = [Fin.ofNat _ (0xE0 + c.val / 0x1000),
        Fin.ofNat _ (0x80 + c.val / 0x40 % 0x40), Fin.ofNat _ (0x80 + c.val % 0x40)] := by
      rw [charBytes, if_neg h1, if_neg h2, if_pos h3]
    rw [hb, List.cons_append, List.cons_append, List.singleton_append,
      decode_three _ _ _ (by omega) (by omega), ← hb]
    exact accept_eq (by rw [ha, tail, tail]; omega) h _
  · have ha : (Fin.ofNat 0x100 (0xF0 + c.val / 0x40000)).val = 0xF0 + c.val / 0x40000 :=
      octet_val (by omega)
    have hb : charBytes c = [Fin.ofNat _ (0xF0 + c.val / 0x40000),
        Fin.ofNat _ (0x80 + c.val / 0x1000 % 0x40), Fin.ofNat _ (0x80 + c.val / 0x40 % 0x40),
        Fin.ofNat _ (0x80 + c.val % 0x40)] := by
      rw [charBytes, if_neg h1, if_neg h2, if_neg h3]
    rw [hb, List.cons_append, List.cons_append, List.cons_append, List.singleton_append,
      decode_four _ _ _ _ (by omega), ← hb]
    exact accept_eq (by rw [ha, tail, tail, tail]; omega) h _

theorem decode_flatMap_charBytes {s : PyStr} (h : ∀ c ∈ s, ¬ IsSurrogate c.val) :
    decode (s.flatMap charBytes) = some s := by
  induction s with
  | nil => rfl
  | cons c s ih =>
    rw [List.flatMap_cons, decode_charBytes (h c (by simp)), ih fun d hd => h d (by simp [hd])]
    rfl

theorem encode_eq_some_iff {s : PyStr} {bs : Bytes} :
    encode s = some bs ↔ (∀ c ∈ s, ¬ IsSurrogate c.val) ∧ bs = s.flatMap charBytes := by
  rw [encode]
  split
  · next h =>
    obtain ⟨c, hc, hsur⟩ := List.any_eq_true.mp h
    exact ⟨fun h => (by cases h), fun h => absurd (of_decide_eq_true hsur) (h.1 c hc)⟩
  · next h =>
    have hs : ∀ c ∈ s, ¬ IsSurrogate c.val := fun c hc hsur =>
      h (List.any_eq_true.mpr ⟨c, hc, decide_eq_true hsur⟩)
    rw [Option.some_inj]
    exact ⟨fun hb => ⟨hs, hb.symm⟩, fun hb => hb.2.symm⟩

/-- **Decoding undoes encoding.** -/
theorem decode_encode {s : PyStr} {bs : Bytes} (h : encode s = some bs) : decode bs = some s := by
  obtain ⟨hs, rfl⟩ := encode_eq_some_iff.mp h
  exact decode_flatMap_charBytes hs

end Utf8

end OpenTerms
