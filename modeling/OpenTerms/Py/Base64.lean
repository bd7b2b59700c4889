import OpenTerms.Common.Fallible
import OpenTerms.Py.Verification

/-!
# Decoding well-formed base64

`binascii` is lenient, but on alphabet characters and the right number of
pads it reads what any decoder reads (`a2bBase64_digits`), so
`b64url_decode` undoes `b64url_encode`.
-/

namespace OpenTerms

namespace Py

open Base64

/-- One alphabet character, by the place in its group. -/
theorem a2bBase64_digit {c : ℕ} {v : Sextet} (hc : sextet? c = some v) (cs : List ℕ)
    (quad left pads : ℕ) (out : Bytes) :
    a2bBase64 (c :: cs) quad left pads out
      = match quad with
        | 0 => a2bBase64 cs 1 v.val 0 out
        | 1 => a2bBase64 cs 2 (v.val % 16) 0 (out ++ [Fin.ofNat _ (left * 4 + v.val / 16)])
        | 2 => a2bBase64 cs 3 (v.val % 4) 0 (out ++ [Fin.ofNat _ (left * 16 + v.val / 4)])
        | _ => a2bBase64 cs 0 0 0 (out ++ [Fin.ofNat _ (left * 64 + v.val)]) := by
  have hne : c ≠ 0x3D := (sextet?_lt hc).2
  rw [a2bBase64]
  rcases quad with _ | _ | _ | quad <;> simp only [if_neg hne, hc]

/-- **Well-formed text is decoded by its digits.** Induction on the groups
of four; a last partial group ends at its pads. -/
theorem a2bBase64_digits {cs : List ℕ} {ds : List Sextet} (h : Digits cs ds)
    (hlen : ds.length % 4 ≠ 1) (pads : ℕ) (out : Bytes) :
    a2bBase64 (cs ++ List.replicate (padding ds.length) 0x3D) 0 0 pads out
      = .ok (out ++ unpack ds) := by
  fun_induction unpack ds generalizing cs pads out with
  | case1 a b c d rest ih =>
    obtain ⟨c₁, cs, rfl, h₁, h⟩ := h.cons
    obtain ⟨c₂, cs, rfl, h₂, h⟩ := h.cons
    obtain ⟨c₃, cs, rfl, h₃, h⟩ := h.cons
    obtain ⟨c₄, cs, rfl, h₄, h⟩ := h.cons
    have hpad : padding (a :: b :: c :: d :: rest).length = padding rest.length := by
      simp only [padding, List.length_cons]
      omega
    simp only [List.length_cons] at hlen
    rw [hpad]
    simp only [List.cons_append, a2bBase64_digit h₁, a2bBase64_digit h₂, a2bBase64_digit h₃,
      a2bBase64_digit h₄]
    rw [ih h (by omega)]
    simp only [List.append_assoc, List.cons_append, List.nil_append]
    rfl
  | case2 a b c =>
    obtain ⟨c₁, cs, rfl, h₁, h⟩ := h.cons
    obtain ⟨c₂, cs, rfl, h₂, h⟩ := h.cons
    obtain ⟨c₃, cs, rfl, h₃, h⟩ := h.cons
    obtain rfl := h.eq_nil
    simp only [List.cons_append, a2bBase64_digit h₁, a2bBase64_digit h₂, a2bBase64_digit h₃,
      List.append_assoc]
    rfl
  | case3 a b =>
    obtain ⟨c₁, cs, rfl, h₁, h⟩ := h.cons
    obtain ⟨c₂, cs, rfl, h₂, h⟩ := h.cons
    obtain rfl := h.eq_nil
    simp only [List.cons_append, a2bBase64_digit h₁, a2bBase64_digit h₂]
    rfl
  | case4 a => exact absurd rfl hlen
  | case5 =>
    obtain rfl := h.eq_nil
    rw [List.append_nil]
    rfl

/-- `b64url_decode` of ASCII text: its standard form, padded, decoded. -/
theorem b64urlDecodeStr_ascii {data : PyStr} (h : ∀ c ∈ data, c.val < 0x80) :
    b64urlDecodeStr data = a2bBase64
      ((data.map fun c => fromUrlSafe c.val) ++ List.replicate (padding data.length) 0x3D) 0 0 0
        [] := by
  have hany : (data.map Fin.val ++ List.replicate (padding data.length) 0x3D).any
      (fun c => 0x80 ≤ c) = false := by
    rw [List.any_eq_false]
    intro c hc hge
    have hge' : 0x80 ≤ c := of_decide_eq_true hge
    rcases List.mem_append.mp hc with hc | hc
    · obtain ⟨d, hd, rfl⟩ := List.mem_map.mp hc
      have := h d hd
      omega
    · have := List.eq_of_mem_replicate hc
      omega
  have hstd : (data.map Fin.val ++ List.replicate (padding data.length) 0x3D).map fromUrlSafe
      = (data.map fun c => fromUrlSafe c.val) ++ List.replicate (padding data.length) 0x3D := by
    rw [List.map_append, List.map_map, List.map_replicate]
    rfl
  unfold b64urlDecodeStr
  change (if (data.map Fin.val ++ List.replicate (padding data.length) 0x3D).any _ = true then _
    else a2bBase64 ((data.map Fin.val ++ List.replicate (padding data.length) 0x3D).map
      fromUrlSafe) 0 0 0 []) = _
  rw [hany, if_neg Bool.false_ne_true, hstd]

/-- A url-safe code below 0x80 is that of an ASCII character. -/
theorem lt_of_fromUrlSafe_lt {c : ℕ} (h : fromUrlSafe c < 0x80) : c < 0x80 := by
  unfold fromUrlSafe at h
  split_ifs at h <;> omega

/-- Everything the decoder raises is a `ValueError`. -/
theorem isValueError_of_decode {s : PyStr} {e : PyErr} (h : b64urlDecodeStr s = .error e) :
    e.isValueError = true := by
  have loop (cs : List ℕ) (quad left pads : ℕ) (out : Bytes)
      (h : a2bBase64 cs quad left pads out = .error e) : e = .binasciiError := by
    fun_induction a2bBase64 cs quad left pads out <;> simp_all
  unfold b64urlDecodeStr at h
  dsimp only at h
  split_ifs at h
  · obtain rfl := Except.error.inj h
    rfl
  · obtain rfl := loop _ _ _ _ _ h
    rfl

/-- **`b64url_decode` undoes `b64url_encode`.** -/
theorem b64urlDecode_encode (bs : Bytes) : b64urlDecode (.str (b64urlEncode bs)) = .ok bs := by
  change b64urlDecodeStr (encodeUrl bs) = .ok bs
  have hdigits := digits_encodeUrl (n := 0x110000) (by decide) bs
  have hascii : ∀ c ∈ (encodeUrl bs : PyStr), c.val < 0x80 := by
    intro c hc
    obtain ⟨v, hv⟩ := Option.isSome_iff_exists.mp (hdigits.isSome _
      (List.mem_map_of_mem (f := fun c : CodePoint => fromUrlSafe c.val) hc))
    exact lt_of_fromUrlSafe_lt (sextet?_lt hv).1
  rw [b64urlDecodeStr_ascii hascii, length_encodeUrl,
    a2bBase64_digits hdigits (length_pack_mod bs), unpack_pack, List.nil_append]

end Py

end OpenTerms
