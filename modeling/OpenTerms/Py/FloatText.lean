import OpenTerms.Common.JsonRoundTrip
import OpenTerms.Py.Value

/-!
# The text of a float

`float.__repr__` writes a fraction or an exponent, whichever the number.
So what `json.loads` reads where `json.dumps` wrote a float is a literal
with one of the two (`isDec_reprFloat`), and never an integer.
-/

namespace OpenTerms

namespace Py

open Json Doc Double

/-- A text that is read as a literal with a fraction or an exponent, where
nothing continues it. -/
def IsDec (text : PyStr) : Prop :=
  ∃ neg m e, ∀ rest, Stops rest → scanNumber (text ++ rest) = some (.dec neg m e, rest)

/-- A sign, if there is one. -/
def IsSign (sign : List Char) : Prop := sign = [] ∨ sign = ['-']

theorem scanMinus_sign {sign : List Char} (hsign : IsSign sign) {ds : List Char}
    (hds : Numeral ds) : ∃ neg, ∀ cs,
      scanMinus (ofChars (sign ++ ds) ++ cs) = (neg, ofChars ds ++ cs) := by
  obtain ⟨hdigits, c, cs', rfl, -⟩ := hds
  rcases hsign with rfl | rfl
  · refine ⟨false, fun cs => ?_⟩
    rw [List.nil_append, ofChars_cons, List.cons_append,
      scanMinus_digit (hdigits c List.mem_cons_self)]
  · exact ⟨true, fun cs => scanMinus_minus _⟩

theorem noDigit_cons {c : CodePoint} (h : ¬ IsDigit c.val) (cs : PyStr) : NoDigit (c :: cs) := by
  intro d hd
  obtain rfl : c = d := by simpa using hd
  exact h

/-- An exponent with its sign is read. -/
theorem scanExp_signed {s : Char} (hs : s = '+' ∨ s = '-') {ds : List Char} (hne : ds ≠ [])
    (hds : ∀ c ∈ ds, IsDigit c.toNat) : ∃ e, ∀ cs, NoDigit cs →
      scanExp (chr 'e' :: chr s :: (ofChars ds ++ cs)) = some (some e, cs) := by
  obtain ⟨d, ds', rfl⟩ := List.exists_cons_of_ne_nil hne
  rcases hs with rfl | rfl
  · refine ⟨digitsVal ((d :: ds').map fun c => c.toNat - 0x30), fun cs hcs => ?_⟩
    have hspan := spanDigits_ofChars hds hcs
    rw [List.map_cons] at hspan ⊢
    rw [scanExp]
    simp only [true_or, if_true, hspan, Bool.false_eq_true, if_false]
  · refine ⟨-digitsVal ((d :: ds').map fun c => c.toNat - 0x30), fun cs hcs => ?_⟩
    have hspan := spanDigits_ofChars hds hcs
    rw [List.map_cons] at hspan ⊢
    rw [scanExp]
    simp only [true_or, if_true, if_neg (show (chr '-' : CodePoint) ≠ chr '+' by decide),
      scanMinus_minus, hspan]

/-- Digits, a point and digits. -/
theorem isDec_fixed {sign ds fs : List Char} (hsign : IsSign sign) (hds : Numeral ds)
    (hne : fs ≠ []) (hfs : ∀ c ∈ fs, IsDigit c.toNat) :
    IsDec (ofChars (sign ++ (ds ++ '.' :: fs))) := by
  obtain ⟨neg, hm⟩ := scanMinus_sign hsign hds
  obtain ⟨f, fs', rfl⟩ := List.exists_cons_of_ne_nil hne
  have hscan (rest : PyStr) (hrest : Stops rest) :
      scanNumber (ofChars (sign ++ (ds ++ '.' :: f :: fs')) ++ rest)
        = some (mkLit neg (ds.map fun c => c.toNat - 0x30)
          ((f :: fs').map fun c => c.toNat - 0x30) none, rest) := by
    have hsplit : ofChars (sign ++ (ds ++ '.' :: f :: fs')) ++ rest
        = ofChars (sign ++ ds) ++ (chr '.' :: (ofChars (f :: fs') ++ rest)) := by
      rw [← List.append_assoc, ofChars_append, ofChars_cons, List.append_assoc, List.cons_append]
    rw [hsplit]
    exact scanNumber_eq hds (hm _) (noDigit_cons (by decide) _)
      (scanFrac_point hne hfs hrest.noDigit) hrest.scanExp
  exact ⟨neg, _, _, hscan⟩

/-- Digits and an exponent, with a point between them or not. -/
theorem isDec_exp {sign ds es : List Char} {s : Char} (hsign : IsSign sign) (hds : Numeral ds)
    (hs : s = '+' ∨ s = '-') (hne : es ≠ []) (hes : ∀ c ∈ es, IsDigit c.toNat) :
    IsDec (ofChars (sign ++ (mantissaChars ds ++ 'e' :: s :: es))) := by
  obtain ⟨e, he⟩ := scanExp_signed hs hne hes
  obtain ⟨hdigits, c, cs, rfl, hz⟩ := hds
  have hc : Numeral [c] :=
    ⟨List.forall_mem_singleton.mpr (hdigits c List.mem_cons_self), c, [], rfl, fun _ => rfl⟩
  obtain ⟨neg, hm⟩ := scanMinus_sign hsign hc
  cases cs with
  | nil =>
    have hscan (rest : PyStr) (hrest : Stops rest) :
        scanNumber (ofChars (sign ++ ([c] ++ 'e' :: s :: es)) ++ rest)
          = some (mkLit neg ([c].map fun c => c.toNat - 0x30) [] (some e), rest) := by
      have hsplit : ofChars (sign ++ ([c] ++ 'e' :: s :: es)) ++ rest
          = ofChars (sign ++ [c]) ++ (chr 'e' :: chr s :: (ofChars es ++ rest)) := by
        rw [← List.append_assoc, ofChars_append, ofChars_cons, ofChars_cons, List.append_assoc,
          List.cons_append, List.cons_append]
      have hfrac (cs : PyStr) : scanFrac (chr 'e' :: cs) = some ([], chr 'e' :: cs) := by
        rw [scanFrac, if_neg (by decide)]
      rw [hsplit]
      exact scanNumber_eq hc (hm _) (noDigit_cons (by decide) _) (hfrac _)
        (he rest hrest.noDigit)
    exact ⟨neg, _, _, hscan⟩
  | cons d ds =>
    have hscan (rest : PyStr) (hrest : Stops rest) :
        scanNumber (ofChars (sign ++ ([c] ++ '.' :: ((d :: ds) ++ 'e' :: s :: es))) ++ rest)
          = some (mkLit neg ([c].map fun c => c.toNat - 0x30)
            ((d :: ds).map fun c => c.toNat - 0x30) (some e), rest) := by
      have hsplit : ofChars (sign ++ ([c] ++ '.' :: ((d :: ds) ++ 'e' :: s :: es))) ++ rest
          = ofChars (sign ++ [c]) ++ (chr '.' :: (ofChars (d :: ds)
            ++ (chr 'e' :: chr s :: (ofChars es ++ rest)))) := by
        rw [← List.append_assoc, ofChars_append, ofChars_cons, ofChars_append (d :: ds),
          ofChars_cons 'e', ofChars_cons s]
        simp only [List.append_assoc, List.cons_append]
      have hnd : NoDigit (chr 'e' :: chr s :: (ofChars es ++ rest)) :=
        noDigit_cons (by decide) _
      rw [hsplit]
      exact scanNumber_eq hc (hm _) (noDigit_cons (by decide) _)
        (scanFrac_point (List.cons_ne_nil d ds)
          (fun c' hc' => hdigits c' (List.mem_cons_of_mem _ hc')) hnd) (he rest hrest.noDigit)
    exact ⟨neg, _, _, hscan⟩

/-- A numeral of a number that is not zero has no zero in front. -/
theorem toDigits_lead {k : ℕ} (hk : k ≠ 0) :
    ∃ c cs, Nat.toDigits 10 k = c :: cs ∧ c.toNat ≠ 0x30 := by
  obtain ⟨c, cs, hcs, hd, hz⟩ := toDigits_eq_cons k
  refine ⟨c, cs, hcs, fun h0 => hk ?_⟩
  have hv := Nat.ofDigitChars_ten_toDigits (n := k)
  rw [hcs, hz h0, Nat.ofDigitChars_cons, Nat.ofDigitChars_nil] at hv
  have h48 : '0'.toNat = 0x30 := rfl
  omega

/-- **The point is among digits**: wherever it stands, there are some before
it, with no zero in front, and some after it. -/
theorem fixedChars_eq {ds : List Char} (hds : ∀ c ∈ ds, IsDigit c.toNat)
    (hlead : ∃ c cs, ds = c :: cs ∧ c.toNat ≠ 0x30) (n : ℤ) :
    ∃ is fs, Numeral is ∧ fs ≠ [] ∧ (∀ c ∈ fs, IsDigit c.toNat)
      ∧ fixedChars ds n ++ (if (ds.length : ℤ) ≤ n then ".0".toList else []) = is ++ '.' :: fs := by
  have hzero : IsDigit '0'.toNat := by decide
  obtain ⟨c, cs, rfl, hc⟩ := hlead
  unfold fixedChars
  by_cases hn : n ≤ 0
  · -- in front of them
    refine ⟨['0'], List.replicate (-n).toNat '0' ++ c :: cs, ⟨List.forall_mem_singleton.mpr hzero,
      '0', [], rfl, fun _ => rfl⟩, by simp, fun d hd => ?_, ?_⟩
    · rcases List.mem_append.mp hd with hd | hd
      · rw [List.eq_of_mem_replicate hd]
        exact hzero
      · exact hds d hd
    · have hlong : ¬ ((c :: cs).length : ℤ) ≤ n := by
        rw [List.length_cons]
        omega
      rw [if_pos hn, if_neg hlong, List.append_nil]
      rfl
  · rw [if_neg hn]
    by_cases hlong : ((c :: cs).length : ℤ) ≤ n
    · -- behind them
      rw [if_pos hlong, if_pos hlong]
      refine ⟨c :: cs ++ List.replicate (n - (c :: cs).length).toNat '0', ['0'],
        ⟨fun d hd => ?_, c, _, rfl, fun h => absurd h hc⟩, by simp,
        List.forall_mem_singleton.mpr hzero, rfl⟩
      rcases List.mem_append.mp hd with hd | hd
      · exact hds d hd
      · rw [List.eq_of_mem_replicate hd]
        exact hzero
    · -- between them
      rw [if_neg hlong, if_neg hlong, List.append_nil]
      obtain ⟨k, rfl⟩ : ∃ k : ℕ, n = k + 1 := ⟨(n - 1).toNat, by omega⟩
      have hk : ((k : ℤ) + 1).toNat = k + 1 := by omega
      rw [hk, List.take_succ_cons]
      refine ⟨_, _, ⟨fun d hd => hds d ?_, c, _, rfl, fun h => absurd h hc⟩, ?_,
        fun d hd => hds d (List.mem_of_mem_drop hd), rfl⟩
      · rw [← List.take_succ_cons] at hd
        exact List.mem_of_mem_take hd
      · intro hdrop
        rw [List.drop_eq_nil_iff] at hdrop
        omega

/-- **A finite float is written with a fraction or an exponent.** -/
theorem isDec_reprFloat (q : ℚ) : IsDec (reprFloat (.fin q)) := by
  have hzero : Numeral ['0'] :=
    ⟨List.forall_mem_singleton.mpr (by decide), '0', [], rfl, fun _ => rfl⟩
  unfold reprFloat
  dsimp only
  by_cases hq : q = 0
  · rw [if_pos hq]
    have hfrac : ∀ c ∈ ['0'], IsDigit c.toNat := by simp [IsDigit]
    exact isDec_fixed (.inl rfl) hzero (by decide) hfrac
  rw [if_neg hq]
  have hsign : IsSign (if q < 0 then ['-'] else []) := by
    unfold IsSign
    split_ifs <;> simp
  have hdigits : ∀ c ∈ Nat.toDigits 10 (shortest |q|).1, IsDigit c.toNat :=
    fun _ => isDigit_of_mem_toDigits
  by_cases hn : -4 < (shortest |q|).2 + (Nat.toDigits 10 (shortest |q|).1).length
      ∧ (shortest |q|).2 + (Nat.toDigits 10 (shortest |q|).1).length ≤ 16
  · rw [if_pos hn]
    -- digits there are, or the point would be out of the range
    have hne : (shortest |q|).1 ≠ 0 := by
      rcases shortest_ne_zero (abs_pos.mpr hq) with hne | heq
      · exact hne
      · rw [heq] at hn
        exact absurd hn (by decide)
    obtain ⟨is, fs, his, hfs, hfd, heq⟩ := fixedChars_eq hdigits (toDigits_lead hne)
      ((shortest |q|).2 + (Nat.toDigits 10 (shortest |q|).1).length)
    rw [heq]
    exact isDec_fixed hsign his hfs hfd
  · rw [if_neg hn]
    refine isDec_exp hsign (numeral_toDigits _) ?_ ?_ ?_
    · split_ifs
      · exact .inr rfl
      · exact .inl rfl
    · intro hnil
      exact absurd (List.append_eq_nil_iff.mp hnil).2 (Nat.toDigits_ne_nil)
    · intro c hc
      rcases List.mem_append.mp hc with hc | hc
      · split_ifs at hc
        · rw [List.mem_singleton.mp hc]
          decide
        · cases hc
      · exact isDigit_of_mem_toDigits hc

end Py

end OpenTerms
