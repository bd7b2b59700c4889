import OpenTerms.Ts.Sign
import OpenTerms.Ts.Verify

/-!
# What the pattern lets through

`b64urlDecode` decodes alphabet characters with the right number of pads
and nothing else: the padded length is a multiple of four, and the
pattern allows two pads (`isBase64_iff`). On those `Buffer` reads the
digits, so decoding undoes `b64url`.
-/

namespace OpenTerms

namespace Ts

open Base64

/-- The pads `b64urlDecode` adds. -/
theorem toStandard_eq (s : JsStr) :
    toStandard s = (s.map fun u => fromUrlSafe u.val) ++ List.replicate (padding s.length) 0x3D := by
  unfold toStandard padding
  by_cases h : s.length % 4 = 0
  · simp [h]
  · have hmod : (4 - s.length % 4) % 4 = 4 - s.length % 4 := by omega
    simp only [if_neg h, hmod]

theorem dropWhile_append_replicate {α : Type} {p : α → Bool} {cs : List α} {c : α} (k : ℕ)
    (hcs : ∀ d ∈ cs, p d = true) (hc : p c = false) :
    (cs ++ List.replicate k c).dropWhile p = List.replicate k c := by
  induction cs with
  | nil => cases k <;> simp [List.replicate_succ, hc]
  | cons d cs ih =>
    rw [List.forall_mem_cons] at hcs
    rw [List.cons_append, List.dropWhile_cons_of_pos hcs.1, ih hcs.2]

/-- **The pattern**, on any text: digits, then at most two pads. -/
theorem isBase64_iff {std : List ℕ} :
    isBase64 std = true
      ↔ ∃ cs ds k, std = cs ++ List.replicate k 0x3D ∧ Digits cs ds ∧ k ≤ 2 := by
  unfold isBase64
  constructor
  · intro h
    rw [Bool.and_eq_true, List.all_eq_true, decide_eq_true_eq] at h
    have hsome : ∀ c ∈ std.takeWhile fun c => (sextet? c).isSome, (sextet? c).isSome = true :=
      fun c hc => List.mem_takeWhile_imp (p := fun c => (sextet? c).isSome) hc
    refine ⟨_, _, _, ?_, digits_of_isSome hsome, h.2⟩
    rw [← List.eq_replicate_of_mem fun c hc => of_decide_eq_true (h.1 c hc),
      List.takeWhile_append_dropWhile]
  · rintro ⟨cs, ds, k, rfl, hdigits, hk⟩
    have hdrop := dropWhile_append_replicate k hdigits.isSome
      (show (sextet? 0x3D).isSome = false by decide)
    have hall : (List.replicate k 0x3D).all (· = 0x3D) = true :=
      List.all_eq_true.mpr fun c hc => decide_eq_true (List.eq_of_mem_replicate hc)
    simp only [hdrop, hall, List.length_replicate, hk, decide_true, Bool.and_true]

/-- The decoder reads the digits. -/
theorem bufferFromBase64_digits {cs : List ℕ} {ds : List Sextet} (h : Digits cs ds) (k : ℕ) :
    bufferFromBase64 (cs ++ List.replicate k 0x3D) = unpack ds := by
  have hne : ∀ c ∈ cs, decide (c ≠ 0x3D) = true := by
    intro c hc
    obtain ⟨v, hv⟩ := Option.isSome_iff_exists.mp (h.isSome c hc)
    exact decide_eq_true (sextet?_lt hv).2
  have htake : (cs ++ List.replicate k 0x3D).takeWhile (· ≠ 0x3D) = cs := by
    rw [List.takeWhile_append_of_pos hne]
    cases k <;> simp [List.replicate_succ]
  unfold bufferFromBase64
  rw [htake, h.filterMap]

/-- **What `b64urlDecode` accepts**: text whose padded standard form is
digits and their pads. -/
theorem b64urlDecode_eq_ok_iff {s : JsStr} {bs : Bytes} :
    b64urlDecode (.str s) = .ok bs
      ↔ ∃ cs ds, toStandard s = cs ++ List.replicate (padding ds.length) 0x3D ∧ Digits cs ds
        ∧ ds.length % 4 ≠ 1 ∧ bs = unpack ds := by
  have hlen : (toStandard s).length % 4 = 0 := by
    rw [toStandard_eq, List.length_append, List.length_map, List.length_replicate, padding]
    omega
  change (if isBase64 (toStandard s) = true then Except.ok (bufferFromBase64 (toStandard s))
    else .error _) = .ok bs ↔ _
  constructor
  · intro h
    by_cases hmatch : isBase64 (toStandard s) = true
    · rw [if_pos hmatch] at h
      obtain ⟨cs, ds, k, hstd, hdigits, hk⟩ := isBase64_iff.mp hmatch
      -- at most two pads, and a length divisible by four: as many pads as the digits ask for
      rw [hstd, List.length_append, List.length_replicate, hdigits.length_eq] at hlen
      have hk' : k = padding ds.length := by
        unfold padding
        omega
      rw [hstd, bufferFromBase64_digits hdigits] at h
      exact ⟨cs, ds, hk' ▸ hstd, hdigits, by omega, (Except.ok.inj h).symm⟩
    · rw [if_neg hmatch] at h
      cases h
  · rintro ⟨cs, ds, hstd, hdigits, hmod, rfl⟩
    have hmatch : isBase64 (toStandard s) = true :=
      isBase64_iff.mpr ⟨cs, ds, _, hstd, hdigits, by unfold padding; omega⟩
    rw [if_pos hmatch, hstd, bufferFromBase64_digits hdigits]

/-- **`b64urlDecode` undoes `b64url`.** -/
theorem b64urlDecode_b64url (bs : Bytes) : b64urlDecode (.str (b64url bs)) = .ok bs := by
  have hdigits := digits_encodeUrl (n := 0x10000) (by decide) bs
  refine b64urlDecode_eq_ok_iff.mpr ⟨_, pack bs, ?_, hdigits, length_pack_mod bs,
    (unpack_pack bs).symm⟩
  rw [b64url_eq, toStandard_eq, length_encodeUrl]

end Ts

end OpenTerms
