import Mathlib.Algebra.Order.Field.Rat
import Mathlib.Data.Rat.Floor
import Mathlib.Order.WithBot
import Mathlib.Tactic.Positivity
import Mathlib.Tactic.Linarith

/-!
# Binary64 numbers

A JavaScript number, and a Python `float`: the number it is, exactly, as
a rational. The two zeros are one here, since `===`, `String` and the
integer tests do not tell them apart. `ofRatio` rounds a fraction to the
nearest double, ties to even, overflow giving an infinity.

Two facts are used of the rounding. Integers up to `2^53` are exact
(`ofInt_eq_fin`), and a larger one never rounds below `2^53`
(`le_value_ofInt`), so comparing a rounded sum with a safe integer is
comparing the sum.
-/

namespace OpenTerms

/-- A double: not a number, an infinity, or a finite number. -/
inductive Double where
  | nan
  | inf (neg : Bool)
  | fin (q : ℚ)
  deriving DecidableEq

namespace Double

/-! ## Rounding -/

/-- `a / b` to the nearest integer, ties to even. -/
def roundDiv (a b : ℕ) : ℕ :=
  let q := a / b
  let r := a % b
  if 2 * r < b then q else if b < 2 * r then q + 1 else q + q % 2

/-- The exponent of the leading bit of `n / d`. -/
def leadBit (n d : ℕ) : ℤ :=
  let e : ℤ := (Nat.log2 n : ℤ) - Nat.log2 d
  if (if 0 ≤ e then d * 2 ^ e.toNat ≤ n else d ≤ n * 2 ^ (-e).toNat) then e else e - 1

/-- The exponent of the last bit a double near `n / d` keeps. -/
def lastBit (n d : ℕ) : ℤ := max (leadBit n d - 52) (-1074)

/-- `m · 2^k`. -/
def scale (m : ℕ) (k : ℤ) : ℚ :=
  if 0 ≤ k then ((m * 2 ^ k.toNat : ℕ) : ℚ) else mkRat m (2 ^ (-k).toNat)

/-- A magnitude under a sign. -/
def signed (neg : Bool) (q : ℚ) : ℚ := if neg then -q else q

/-- The double nearest to `± n / d`. -/
def ofRatio (neg : Bool) (n d : ℕ) : Double :=
  let k := lastBit n d
  let m := if 0 ≤ k then roundDiv n (d * 2 ^ k.toNat) else roundDiv (n * 2 ^ (-k).toNat) d
  if 2 ^ 1024 ≤ scale m k then inf neg
  else fin (signed neg (scale m k))

/-- The double nearest to a rational. -/
def ofRat (q : ℚ) : Double := ofRatio (decide (q < 0)) q.num.natAbs q.den

/-- The double nearest to an integer. -/
def ofInt (z : ℤ) : Double := ofRatio (decide (z < 0)) z.natAbs 1

/-- The double nearest to `±m·10^e`. -/
def ofDecimal (neg : Bool) (m : ℕ) (e : ℤ) : Double :=
  if 0 ≤ e then ofRatio neg (m * 10 ^ e.toNat) 1 else ofRatio neg m (10 ^ (-e).toNat)

/-! ## Arithmetic and comparison -/

/-- The number a double is, among the extended rationals. -/
def value? : Double → Option (WithBot (WithTop ℚ))
  | nan => none
  | inf true => some ⊥
  | inf false => some ((⊤ : WithTop ℚ) : WithBot (WithTop ℚ))
  | fin q => some ((q : WithTop ℚ) : WithBot (WithTop ℚ))

/-- `x < y`, false where either is not a number. -/
def lt (x y : Double) : Bool :=
  match value? x, value? y with
  | some a, some b => decide (a < b)
  | _, _ => false

/-- `x === y`, false where either is not a number. -/
def eqNum (x y : Double) : Bool :=
  match value? x, value? y with
  | some a, some b => decide (a = b)
  | _, _ => false

/-- The rational a finite double is. -/
def rat? : Double → Option ℚ
  | fin q => some q
  | _ => none

/-- `x + y`. -/
def add : Double → Double → Double
  | nan, _ => nan
  | _, nan => nan
  | inf a, inf b => if a = b then inf a else nan
  | inf a, _ => inf a
  | _, inf b => inf b
  | fin p, fin q => ofRat (p + q)

/-- `Number.isInteger`. -/
def isInteger (x : Double) : Bool :=
  match rat? x with
  | some q => q.den == 1
  | none => false

/-- `Number.isSafeInteger`: an integer of magnitude at most `2^53 - 1`. -/
def isSafeInteger (x : Double) : Bool :=
  match rat? x with
  | some q => q.den == 1 && q.num.natAbs ≤ 2 ^ 53 - 1
  | none => false

/-! ## Shortest decimal -/

/-- The decimal exponent: the least `n ≥ t` with `x < 10^n`, searched
upwards for as long as there is fuel. -/
def pointFrom (x : ℚ) : ℕ → ℤ → ℤ
  | 0, t => t
  | fuel + 1, t => if x < 10 ^ t then t else pointFrom x fuel (t + 1)

/-- Digits without the zeros at their end. -/
def stripZeros : ℕ → ℕ → ℤ → ℕ × ℤ
  | 0, s, t => (s, t)
  | fuel + 1, s, t => if s ≠ 0 ∧ s % 10 = 0 then stripZeros fuel (s / 10) (t + 1) else (s, t)

/-- `s · 10^t` as a double. -/
def ofDigits (s : ℕ) (t : ℤ) : Double := ofDecimal false s t

/-- With digits down to `10^t`: the candidate nearest to `x` among those
that read back as `x`. -/
def candidate (x : ℚ) (t : ℤ) : Option (ℕ × ℤ) :=
  let s := (x / 10 ^ t).floor.toNat
  let low := ofDigits s t = fin x
  let high := ofDigits (s + 1) t = fin x
  if low ∧ (¬ high ∨ x - s * 10 ^ t ≤ (s + 1) * 10 ^ t - x) then some (s, t)
  else if high then some (s + 1, t)
  else none

/-- As few digits as identify `x`, at most seventeen. -/
def shortestFrom (x : ℚ) (n : ℤ) : ℕ → ℕ → ℕ × ℤ
  | 0, k => ((x / 10 ^ (n - k)).floor.toNat, n - k)
  | fuel + 1, k => (candidate x (n - k)).getD (shortestFrom x n fuel (k + 1))

/-- The shortest decimal `s · 10^t` that reads back as the positive
double `x`: what both languages print a double by. -/
def shortest (x : ℚ) : ℕ × ℤ :=
  let n := pointFrom x 640 (-324)
  let p := shortestFrom x n 16 1
  stripZeros 20 p.1 p.2

/-- Digits with the point after the first `n` of them, zeros filled in. -/
def fixedChars (ds : List Char) (n : ℤ) : List Char :=
  if n ≤ 0 then "0.".toList ++ (List.replicate (-n).toNat '0' ++ ds)
  else if (ds.length : ℤ) ≤ n then ds ++ List.replicate (n - ds.length).toNat '0'
  else ds.take n.toNat ++ '.' :: ds.drop n.toNat

/-- Digits with the point after the first, the form an exponent follows. -/
def mantissaChars : List Char → List Char
  | d :: e :: ds => d :: '.' :: e :: ds
  | ds => ds

theorem mem_fixedChars {ds : List Char} {n : ℤ} {c : Char} (h : c ∈ fixedChars ds n) :
    c ∈ ds ∨ c = '0' ∨ c = '.' := by
  unfold fixedChars at h
  split_ifs at h
  · rcases List.mem_append.mp h with h | h
    · have hpoint : ∀ d ∈ "0.".toList, d = '0' ∨ d = '.' := by simp
      exact .inr (hpoint c h)
    · rcases List.mem_append.mp h with h | h
      · exact .inr (.inl (List.eq_of_mem_replicate h))
      · exact .inl h
  · rcases List.mem_append.mp h with h | h
    · exact .inl h
    · exact .inr (.inl (List.eq_of_mem_replicate h))
  · rcases List.mem_append.mp h with h | h
    · exact .inl (List.mem_of_mem_take h)
    · rcases List.mem_cons.mp h with h | h
      · exact .inr (.inr h)
      · exact .inl (List.mem_of_mem_drop h)

theorem mem_mantissaChars {ds : List Char} {c : Char} (h : c ∈ mantissaChars ds) :
    c ∈ ds ∨ c = '.' := by
  unfold mantissaChars at h
  split at h
  · rcases List.mem_cons.mp h with rfl | h
    · exact .inl List.mem_cons_self
    · rcases List.mem_cons.mp h with h | h
      · exact .inr h
      · exact .inl (List.mem_cons_of_mem _ h)
  · exact .inl h

/-! ## The digits of a positive number -/

theorem le_pointFrom (x : ℚ) (fuel : ℕ) (t : ℤ) :
    pointFrom x fuel t = t ∨ 10 ^ (pointFrom x fuel t - 1) ≤ x := by
  induction fuel generalizing t with
  | zero => exact .inl rfl
  | succ fuel ih =>
    rw [pointFrom]
    split_ifs with hlt
    · exact .inl rfl
    · right
      rcases ih (t + 1) with heq | hle
      · rw [heq, add_sub_cancel_right]
        exact not_lt.mp hlt
      · exact hle

theorem stripZeros_ne_zero {s : ℕ} (hs : s ≠ 0) (fuel : ℕ) (t : ℤ) :
    (stripZeros fuel s t).1 ≠ 0 := by
  induction fuel generalizing s t with
  | zero => exact hs
  | succ fuel ih =>
    rw [stripZeros]
    split_ifs with h
    · exact ih (by omega) (t + 1)
    · exact hs

theorem stripZeros_zero (fuel : ℕ) (t : ℤ) : stripZeros fuel 0 t = (0, t) := by
  cases fuel with
  | zero => rfl
  | succ fuel => rw [stripZeros, if_neg (by simp)]

theorem scale_zero (k : ℤ) : scale 0 k = 0 := by
  unfold scale
  split_ifs <;> simp

/-- Zero digits are the double zero. -/
theorem ofDigits_zero (t : ℤ) : ofDigits 0 t = fin 0 := by
  have hround (b : ℕ) : roundDiv 0 b = 0 := by
    simp only [roundDiv, Nat.zero_div, Nat.zero_mod]
    split_ifs <;> omega
  have hratio (d : ℕ) : ofRatio false 0 d = fin 0 := by
    unfold ofRatio
    simp only [Nat.zero_mul, hround, ite_self, scale_zero, signed, Bool.false_eq_true, if_false]
    exact if_neg (not_le.mpr (by norm_num))
  unfold ofDigits ofDecimal
  rw [Nat.zero_mul, hratio, hratio, ite_self]

/-- A candidate for a number that is not zero has a digit. -/
theorem candidate_ne_zero {x : ℚ} (hx : x ≠ 0) {t : ℤ} {p : ℕ × ℤ} (h : candidate x t = some p) :
    p.1 ≠ 0 := by
  unfold candidate at h
  dsimp only at h
  split_ifs at h with hlow hhigh
  · obtain rfl := Option.some.inj h
    intro hzero
    have hdigits := hlow.1
    dsimp only at hzero
    rw [hzero, ofDigits_zero] at hdigits
    exact hx (Double.fin.inj hdigits).symm
  · obtain rfl := Option.some.inj h
    exact Nat.succ_ne_zero _

/-- So has what a search from the decimal exponent finds, except below every
double. -/
theorem shortestFrom_ne_zero {x : ℚ} (hx : 0 < x) {n : ℤ} (hn : n = -324 ∨ 10 ^ (n - 1) ≤ x)
    {fuel k : ℕ} (hk : k + fuel = 17) :
    (shortestFrom x n fuel k).1 ≠ 0 ∨ shortestFrom x n fuel k = (0, -341) := by
  induction fuel generalizing k with
  | zero =>
    rw [shortestFrom]
    rcases hn with rfl | hle
    · by_cases hs : (x / 10 ^ ((-324 : ℤ) - k)).floor.toNat = 0
      · have ht : (-324 : ℤ) - k = -341 := by omega
        rw [hs, ht]
        exact .inr rfl
      · exact .inl hs
    · -- seventeen digits of a number above `10^(n-1)` start with one
      left
      have hpow : (0 : ℚ) < 10 ^ (n - k) := zpow_pos (by norm_num) _
      have hone : 1 ≤ x / 10 ^ (n - k) := by
        rw [le_div_iff₀ hpow, one_mul]
        exact le_trans (zpow_le_zpow_right₀ (by norm_num) (by omega)) hle
      have hfloor : 1 ≤ (x / 10 ^ (n - k)).floor := Int.le_floor.mpr (by exact_mod_cast hone)
      dsimp only
      omega
  | succ fuel ih =>
    rw [shortestFrom]
    cases hc : candidate x (n - k) with
    | none => exact ih (by omega)
    | some p => exact .inl (candidate_ne_zero hx.ne' hc)

/-- **The digits of a positive number** are not all zero, unless it is below
every double. -/
theorem shortest_ne_zero {x : ℚ} (hx : 0 < x) : (shortest x).1 ≠ 0 ∨ shortest x = (0, -341) := by
  unfold shortest
  dsimp only
  rcases shortestFrom_ne_zero hx (le_pointFrom x 640 (-324)) (show 1 + 16 = 17 from rfl) with
    hne | heq
  · exact .inl (stripZeros_ne_zero hne 20 _)
  · right
    rw [heq, stripZeros_zero]

/-! ## Rounding integers -/

theorem roundDiv_mul (m : ℕ) {b : ℕ} (hb : 0 < b) : roundDiv (m * b) b = m := by
  have hdiv : m * b / b = m := Nat.mul_div_cancel m hb
  simp only [roundDiv, hdiv, Nat.mul_mod_left, mul_zero, if_pos hb]

theorem div_le_roundDiv (a b : ℕ) : a / b ≤ roundDiv a b := by
  simp only [roundDiv]
  split
  · exact le_rfl
  · split <;> omega

theorem leadBit_one {n : ℕ} (hn : n ≠ 0) : leadBit n 1 = Nat.log2 n := by
  have h1 : Nat.log2 1 = 0 := by decide
  have hself : 2 ^ Nat.log2 n ≤ n := Nat.log2_self_le hn
  simp only [leadBit, h1]
  rw [if_pos (by simpa using hself)]
  simp

theorem lastBit_one {n : ℕ} (hn : n ≠ 0) : lastBit n 1 = (Nat.log2 n : ℤ) - 52 := by
  rw [lastBit, leadBit_one hn]
  omega

theorem scale_cancel (m j : ℕ) (hj : 0 < j) : scale (m * 2 ^ j) (-(j : ℤ)) = m := by
  have hneg : ¬ (0 : ℤ) ≤ -(j : ℤ) := by omega
  have htoNat : (- -(j : ℤ)).toNat = j := by omega
  rw [scale, if_neg hneg, htoNat, Rat.mkRat_eq_div]
  push_cast
  field_simp

/-- **Integers up to `2^53` are exact.** -/
theorem ofRatio_eq_fin {n : ℕ} (neg : Bool) (h0 : n ≠ 0) (hn : n ≤ 2 ^ 53) :
    ofRatio neg n 1 = fin (signed neg n) := by
  have hlog : Nat.log2 n ≤ 53 := by
    rw [← Nat.lt_add_one_iff, Nat.log2_lt h0]
    omega
  have hbound : ¬ (2 : ℚ) ^ 1024 ≤ (n : ℚ) := by
    have hlt : ((n : ℕ) : ℚ) ≤ (2 : ℚ) ^ 53 := by exact_mod_cast hn
    exact not_le.mpr (hlt.trans_lt (pow_lt_pow_right₀ (by norm_num) (by omega)))
  -- the mantissa and its scale, in the two ranges of the leading bit
  have key : ∃ m, (if 0 ≤ lastBit n 1 then roundDiv n (1 * 2 ^ (lastBit n 1).toNat)
        else roundDiv (n * 2 ^ (-lastBit n 1).toNat) 1) = m
      ∧ scale m (lastBit n 1) = n := by
    rw [lastBit_one h0]
    rcases Nat.lt_or_ge (Nat.log2 n) 52 with hlt | hge
    · obtain ⟨j, hj⟩ : ∃ j : ℕ, Nat.log2 n + j = 52 := ⟨52 - Nat.log2 n, by omega⟩
      have hk : (Nat.log2 n : ℤ) - 52 = -(j : ℤ) := by omega
      have htoNat : (- -(j : ℤ)).toNat = j := by omega
      refine ⟨n * 2 ^ j, ?_, ?_⟩
      · rw [hk, if_neg (by omega), htoNat]
        simpa using roundDiv_mul (n * 2 ^ j) (b := 1) (by omega)
      · rw [hk]
        exact scale_cancel n j (by omega)
    · rcases Nat.lt_or_ge (Nat.log2 n) 53 with hlt | hge'
      · have hk : (Nat.log2 n : ℤ) - 52 = 0 := by omega
        refine ⟨n, ?_, ?_⟩
        · rw [hk, if_pos le_rfl]
          simpa using roundDiv_mul n (b := 1) (by omega)
        · rw [hk]
          simp [scale]
      · have hk : (Nat.log2 n : ℤ) - 52 = 1 := by omega
        have hself : 2 ^ Nat.log2 n ≤ n := Nat.log2_self_le h0
        have hlog53 : Nat.log2 n = 53 := by omega
        rw [hlog53] at hself
        have hn53 : n = 2 ^ 52 * 2 := by omega
        refine ⟨2 ^ 52, ?_, ?_⟩
        · rw [hk, if_pos (by omega), hn53]
          exact roundDiv_mul (2 ^ 52) (b := 2) (by omega)
        · rw [hk, hn53]
          norm_num [scale]
  obtain ⟨m, hm, hscale⟩ := key
  simp only [ofRatio, hm, hscale, if_neg hbound]

theorem ofInt_eq_fin {z : ℤ} (hz : z.natAbs ≤ 2 ^ 53) : ofInt z = fin z := by
  by_cases h0 : z = 0
  · subst h0
    decide +kernel
  · rw [ofInt, ofRatio_eq_fin _ (by omega) hz, signed]
    rcases lt_or_ge z 0 with hneg | hpos
    · have hcast : ((z.natAbs : ℕ) : ℚ) = -(z : ℚ) := by
        rw [Nat.cast_natAbs, abs_of_neg hneg]
        push_cast
        rfl
      rw [decide_eq_true hneg, if_pos rfl, hcast, neg_neg]
    · have hcast : ((z.natAbs : ℕ) : ℚ) = (z : ℚ) := by
        rw [Nat.cast_natAbs, abs_of_nonneg hpos]
      rw [decide_eq_false (by omega), hcast]
      rfl

/-- A larger integer rounds to `2^53` or more. -/
theorem ofRatio_large {n : ℕ} (neg : Bool) (hn : 2 ^ 53 ≤ n) :
    ofRatio neg n 1 = inf neg ∨ ∃ q : ℚ, 2 ^ 53 ≤ q ∧ ofRatio neg n 1 = fin (signed neg q) := by
  have h0 : n ≠ 0 := by positivity
  have hlog : 53 ≤ Nat.log2 n := by
    by_contra hlt
    have := (Nat.log2_lt h0 (k := 53)).mp (by omega)
    omega
  obtain ⟨j, hj⟩ : ∃ j : ℕ, Nat.log2 n = j + 52 := ⟨Nat.log2 n - 52, by omega⟩
  have hk : lastBit n 1 = (j : ℤ) := by rw [lastBit_one h0]; omega
  have hself : 2 ^ 52 * 2 ^ j ≤ n := by
    have := Nat.log2_self_le h0
    rwa [hj, pow_add, mul_comm] at this
  -- the mantissa has its full width, so its scale keeps it above 2^53
  have hm : 2 ^ 52 ≤ roundDiv n (1 * 2 ^ j) := by
    refine le_trans ?_ (div_le_roundDiv _ _)
    rw [one_mul]
    exact (Nat.le_div_iff_mul_le (by positivity)).mpr hself
  have hscale : (2 : ℚ) ^ 53 ≤ scale (roundDiv n (1 * 2 ^ j)) j := by
    rw [scale, if_pos (by omega), Int.toNat_natCast]
    have hj1 : 2 ^ 1 ≤ 2 ^ j := Nat.pow_le_pow_right (by omega) (by omega)
    have hmul : 2 ^ 52 * 2 ^ 1 ≤ roundDiv n (1 * 2 ^ j) * 2 ^ j := Nat.mul_le_mul hm hj1
    exact_mod_cast hmul
  simp only [ofRatio, hk, Int.natCast_nonneg, if_true, Int.toNat_natCast]
  split
  · exact Or.inl rfl
  · exact Or.inr ⟨_, hscale, rfl⟩

theorem ofRat_intCast (z : ℤ) : ofRat z = ofInt z := by
  rw [ofRat, ofInt, Rat.num_intCast, Rat.den_intCast]
  congr 1
  simp

@[simp] theorem value?_fin (q : ℚ) : value? (fin q) = some ((q : WithTop ℚ) : WithBot (WithTop ℚ)) :=
  rfl

theorem lt_fin (p q : ℚ) : lt (fin p) (fin q) = decide (p < q) := by
  simp only [lt, value?_fin, WithBot.coe_lt_coe, WithTop.coe_lt_coe]

/-- **A safe integer compares with a rounded integer as with the integer.**
Rounding moves only integers beyond `2^53`, and those stay beyond it. -/
theorem lt_ofInt {t : ℤ} (ht : t.natAbs ≤ 2 ^ 53 - 1) (z : ℤ) :
    lt (fin t) (ofInt z) = decide (t < z) := by
  by_cases hz : z.natAbs ≤ 2 ^ 53
  · rw [ofInt_eq_fin hz, lt_fin]
    exact decide_eq_decide.mpr Int.cast_lt
  have hlarge : 2 ^ 53 ≤ z.natAbs := by omega
  have ht' : (t : ℚ) < 2 ^ 53 ∧ -(2 ^ 53) < (t : ℚ) := by
    constructor <;> norm_cast <;> omega
  rcases lt_or_ge z 0 with hneg | hpos
  · have hdec : decide (t < z) = false := decide_eq_false (by omega)
    rw [hdec, ofInt, decide_eq_true hneg]
    rcases ofRatio_large true hlarge with h | ⟨q, hq, h⟩
    · rw [h]
      simp [lt, value?]
    · rw [h, lt_fin]
      refine decide_eq_false ?_
      rw [signed, if_pos rfl]
      linarith
  · have hdec : decide (t < z) = true := decide_eq_true (by omega)
    rw [hdec, ofInt, decide_eq_false (by omega)]
    rcases ofRatio_large false hlarge with h | ⟨q, hq, h⟩
    · rw [h]
      simp only [lt, value?, WithBot.coe_lt_coe]
      exact decide_eq_true (WithTop.coe_lt_top _)
    · rw [h, lt_fin]
      refine decide_eq_true ?_
      rw [signed, if_neg (by decide)]
      linarith

end Double

end OpenTerms
