import OpenTerms.Common.Text
import Mathlib.Algebra.BigOperators.Group.List.Basic
import Mathlib.Data.List.Lex
import Mathlib.Order.Fin.Basic

/-!
# Moments as text

A moment is a number of milliseconds from the first of January of year 1 on,
in the Gregorian calendar extended backwards, and its text is
`YYYY-MM-DDTHH:MM:SS.mmmZ`. A year, then a month, is found by passing over
the ones before (`locate`). Every field of the text has as many digits as it
ever needs, so in the first 9999 years texts are ordered as the moments are
(`isoText_lt`).
-/

namespace OpenTerms

namespace Calendar

/-! ## Finding a place -/

/-- Which of the spans, one after the other, a number falls in, the first one
being `i`, and how far. -/
def locate : List ℕ → ℕ → ℕ → ℕ × ℕ
  | [], i, n => (i, n)
  | l :: ls, i, n => if n < l then (i, n) else locate ls (i + 1) (n - l)

theorem le_locate (ls : List ℕ) (i n : ℕ) : i ≤ (locate ls i n).1 := by
  induction ls generalizing i n with
  | nil => exact Nat.le_refl i
  | cons l ls ih =>
    rw [locate]
    split
    · exact Nat.le_refl i
    · have := ih (i + 1) (n - l)
      omega

/-- A number in reach falls in one of the spans, and is less far than that
is long. -/
theorem locate_mem {ls : List ℕ} {i n : ℕ} (h : n < ls.sum) :
    ∃ k l, (locate ls i n).1 = i + k ∧ ls[k]? = some l ∧ (locate ls i n).2 < l := by
  induction ls generalizing i n with
  | nil => cases h
  | cons l ls ih =>
    rw [List.sum_cons] at h
    rw [locate]
    split
    · next hlt => exact ⟨0, l, rfl, rfl, hlt⟩
    · obtain ⟨k, l', hk, hl', hlt⟩ := @ih (i + 1) (n - l) (by omega)
      exact ⟨k + 1, l', by omega, hl', hlt⟩

/-- **Places are in order**: a greater number falls in a later span, or
farther in the same one. -/
theorem locate_lt (ls : List ℕ) (i : ℕ) {n n' : ℕ} (h : n < n') :
    (locate ls i n).1 < (locate ls i n').1
      ∨ (locate ls i n).1 = (locate ls i n').1 ∧ (locate ls i n).2 < (locate ls i n').2 := by
  induction ls generalizing i n n' with
  | nil => exact Or.inr ⟨rfl, h⟩
  | cons l ls ih =>
    rw [locate, locate]
    by_cases hn' : n' < l
    · rw [if_pos hn', if_pos (by omega)]
      exact Or.inr ⟨rfl, h⟩
    · rw [if_neg hn']
      by_cases hn : n < l
      · rw [if_pos hn]
        have := le_locate ls (i + 1) (n' - l)
        exact Or.inl (by show i < _; omega)
      · rw [if_neg hn]
        exact ih (i + 1) (by omega)

/-! ## Dates -/

/-- A year of 366 days. -/
def isLeap (y : ℕ) : Bool := y % 4 = 0 && (y % 100 ≠ 0 || y % 400 = 0)

def monthLengths (leap : Bool) : List ℕ :=
  [31, if leap then 29 else 28, 31, 30, 31, 30, 31, 31, 30, 31, 30, 31]

def yearLength (y : ℕ) : ℕ := (monthLengths (isLeap y)).sum

/-- The years a date can have. -/
def years : List ℕ := List.range' 1 9999

/-- The days they have. -/
def days : ℕ := (years.map yearLength).sum

/-- The year of a day, and the day of that year, both days from 0. -/
def yearDay (day : ℕ) : ℕ × ℕ := locate (years.map yearLength) 1 day

/-- The month, and the day of the month, from 0. -/
def monthDay (day : ℕ) : ℕ × ℕ := locate (monthLengths (isLeap (yearDay day).1)) 1 (yearDay day).2

/-- The year of a day, where there are enough. -/
theorem yearDay_mem {day : ℕ} (h : day < days) :
    (yearDay day).1 < 10000 ∧ (yearDay day).2 < yearLength (yearDay day).1 := by
  obtain ⟨k, l, hk, hl, hlt⟩ := @locate_mem _ 1 day h
  rw [List.getElem?_map, Option.map_eq_some_iff] at hl
  obtain ⟨y, hy, rfl⟩ := hl
  obtain ⟨hk', hy⟩ := List.getElem?_eq_some_iff.mp hy
  rw [years, List.length_range'] at hk'
  obtain rfl : 1 + k = y := by
    rw [← hy]
    simp [years]
  unfold yearDay
  rw [hk]
  exact ⟨by omega, hlt⟩

/-- The month of a day of the year. -/
theorem monthDay_mem {day : ℕ} (h : day < days) :
    (monthDay day).1 < 100 ∧ (monthDay day).2 < 31 := by
  obtain ⟨k, l, hk, hl, hlt⟩ := @locate_mem _ 1 _ (yearDay_mem h).2
  obtain ⟨hk', hl⟩ := List.getElem?_eq_some_iff.mp hl
  have hlengths : ∀ leap, ∀ l ∈ monthLengths leap, l ≤ 31 := by decide
  have hlength := hlengths _ l (hl ▸ List.getElem_mem hk')
  change k < 12 at hk'
  unfold monthDay
  rw [hk]
  exact ⟨by omega, by omega⟩

/-- **Dates are in order.** -/
theorem date_lt {day day' : ℕ} (h : day < day') :
    (yearDay day).1 < (yearDay day').1
      ∨ (yearDay day).1 = (yearDay day').1
        ∧ ((monthDay day).1 < (monthDay day').1
          ∨ (monthDay day).1 = (monthDay day').1 ∧ (monthDay day).2 < (monthDay day').2) := by
  refine (locate_lt (years.map yearLength) 1 h).imp_right fun hsame => ⟨hsame.1, ?_⟩
  unfold monthDay
  rw [show (yearDay day).1 = (yearDay day').1 from hsame.1]
  exact locate_lt _ 1 hsame.2

/-! ## Fields -/

/-- A decimal digit. -/
def digit (d : ℕ) : CodePoint := Fin.ofNat 0x110000 (0x30 + d % 10)

/-- A number in so many digits. -/
def pad : ℕ → ℕ → PyStr
  | 0, _ => []
  | w + 1, n => digit (n / 10 ^ w) :: pad w n

/-- A field: its digits, its number, and the character after it. -/
structure Field where
  width : ℕ
  value : ℕ
  after : Char

/-- The text of some fields. -/
def fieldsText (fs : List Field) : PyStr :=
  fs.flatMap fun f => pad f.width f.value ++ [chr f.after]

/-- The fields are laid out alike, and the first that differ are so ordered. -/
def Before : List Field → List Field → Prop
  | f :: fs, g :: gs => f.width = g.width ∧ f.after = g.after ∧ g.value < 10 ^ g.width
    ∧ (f.value < g.value ∨ f.value = g.value ∧ Before fs gs)
  | _, _ => False

theorem length_pad (w n : ℕ) : (pad w n).length = w := by
  induction w with
  | zero => rfl
  | succ w ih => rw [pad, List.length_cons, ih]

theorem digit_val (d : ℕ) : (digit d).val = 0x30 + d % 10 := by
  show (0x30 + d % 10) % 0x110000 = _
  omega

/-- Texts are ordered where texts of one length before them are. -/
theorem append_lt_append {xs ys : PyStr} (h : xs < ys) (hlength : xs.length = ys.length)
    (zs ws : PyStr) : xs ++ zs < ys ++ ws := by
  induction xs generalizing ys with
  | nil =>
    cases ys with
    | nil => exact absurd h (List.not_lt_nil _)
    | cons y ys => cases hlength
  | cons x xs ih =>
    cases ys with
    | nil => cases hlength
    | cons y ys =>
      rw [List.cons_lt_cons_iff] at h
      rw [List.cons_append, List.cons_append, List.cons_lt_cons_iff]
      rw [List.length_cons, List.length_cons] at hlength
      exact h.imp_right fun hsame => ⟨hsame.1, ih hsame.2 (by omega)⟩

/-- Digits are ordered as what they are the last of. -/
theorem pad_lt_of_mod {w n n' : ℕ} (h : n % 10 ^ w < n' % 10 ^ w) : pad w n < pad w n' := by
  induction w with
  | zero => simp [Nat.mod_one] at h
  | succ w ih =>
    rw [pad, pad, List.cons_lt_cons_iff, Fin.lt_def, Fin.ext_iff, digit_val, digit_val]
    rw [Nat.pow_succ, Nat.mod_mul, Nat.mod_mul] at h
    have hr : n' % 10 ^ w < 10 ^ w := Nat.mod_lt _ (by positivity)
    rcases Nat.lt_trichotomy (n / 10 ^ w % 10) (n' / 10 ^ w % 10) with hlt | heq | hgt
    · exact Or.inl (by omega)
    · rw [heq] at h ⊢
      exact Or.inr ⟨rfl, ih (by omega)⟩
    · have hmul := Nat.mul_le_mul_left (10 ^ w) (Nat.succ_le_of_lt hgt)
      rw [Nat.mul_succ] at hmul
      omega

/-- Numbers that fit are ordered as their digits are. -/
theorem pad_lt {w n n' : ℕ} (h : n < n') (hn' : n' < 10 ^ w) : pad w n < pad w n' := by
  apply pad_lt_of_mod
  rw [Nat.mod_eq_of_lt hn', Nat.mod_eq_of_lt (h.trans hn')]
  exact h

theorem fieldsText_lt {fs gs : List Field} (h : Before fs gs) : fieldsText fs < fieldsText gs := by
  induction fs generalizing gs with
  | nil => cases h
  | cons f fs ih =>
    cases gs with
    | nil => cases h
    | cons g gs =>
      obtain ⟨hwidth, hafter, hvalue, hlt⟩ := h
      unfold fieldsText
      rw [List.flatMap_cons, List.flatMap_cons, List.append_assoc, List.append_assoc, hwidth]
      rcases hlt with hlt | ⟨hsame, hlt⟩
      · exact append_lt_append (pad_lt hlt hvalue) (by rw [length_pad, length_pad]) _ _
      · rw [hsame, hafter]
        exact List.append_left_lt (List.append_left_lt (ih hlt))

/-! ## Moments -/

/-- The milliseconds that moments can have. -/
def millis : ℕ := days * 86400000

/-- The fields of a date. -/
def dateFields (day : ℕ) : List Field :=
  [⟨4, (yearDay day).1, '-'⟩, ⟨2, (monthDay day).1, '-'⟩, ⟨2, (monthDay day).2 + 1, 'T'⟩]

/-- The fields of a time of day. -/
def timeFields (ms : ℕ) : List Field :=
  [⟨2, ms / 3600000, ':'⟩, ⟨2, ms / 60000 % 60, ':'⟩, ⟨2, ms / 1000 % 60, '.'⟩, ⟨3, ms % 1000, 'Z'⟩]

/-- The text of a date. -/
def dateText (day : ℕ) : PyStr :=
  pad 4 (yearDay day).1 ++ chr '-' :: (pad 2 (monthDay day).1
    ++ chr '-' :: pad 2 ((monthDay day).2 + 1))

/-- The text of a moment. -/
def isoText (t : ℕ) : PyStr := fieldsText (dateFields (t / 86400000) ++ timeFields (t % 86400000))

/-- **Dates of days**, ordered as the days. -/
theorem dateFields_before {day day' : ℕ} (h : day < day') (hday' : day' < days)
    (fs gs : List Field) : Before (dateFields day ++ fs) (dateFields day' ++ gs) := by
  obtain ⟨hy, -⟩ := yearDay_mem hday'
  obtain ⟨hm, hd⟩ := monthDay_mem hday'
  refine ⟨rfl, rfl, hy, (date_lt h).imp_right fun hsame => ⟨hsame.1, rfl, rfl, hm, ?_⟩⟩
  refine hsame.2.imp_right fun hsame => ⟨hsame.1, rfl, rfl, ?_, Or.inl ?_⟩
  · show (monthDay day').2 + 1 < 100
    omega
  · show (monthDay day).2 + 1 < (monthDay day').2 + 1
    omega

/-- **Times of day**, likewise. -/
theorem timeFields_before {ms ms' : ℕ} (h : ms < ms') (hms' : ms' < 86400000) :
    Before (timeFields ms) (timeFields ms') := by
  simp only [timeFields, Before, true_and, and_false, or_false]
  omega

/-- Fields that begin alike. -/
theorem Before.append {fs gs hs : List Field} (hfs : ∀ f ∈ fs, f.value < 10 ^ f.width)
    (h : Before gs hs) : Before (fs ++ gs) (fs ++ hs) := by
  induction fs with
  | nil => exact h
  | cons f fs ih =>
    rw [List.forall_mem_cons] at hfs
    exact ⟨rfl, rfl, hfs.1, Or.inr ⟨rfl, ih hfs.2⟩⟩

theorem dateFields_fit {day : ℕ} (h : day < days) : ∀ f ∈ dateFields day, f.value < 10 ^ f.width := by
  obtain ⟨hy, -⟩ := yearDay_mem h
  obtain ⟨hm, hd⟩ := monthDay_mem h
  intro f hf
  simp only [dateFields, List.mem_cons, List.not_mem_nil, or_false] at hf
  rcases hf with rfl | rfl | rfl
  · exact hy
  · exact hm
  · show (monthDay day).2 + 1 < 100
    omega

/-- **Texts are ordered as moments are.** -/
theorem isoText_lt {t t' : ℕ} (h : t < t') (ht' : t' < millis) : isoText t < isoText t' := by
  have hday' : t' / 86400000 < days := (Nat.div_lt_iff_lt_mul (by decide)).mpr ht'
  refine fieldsText_lt ?_
  by_cases hsame : t / 86400000 = t' / 86400000
  · rw [hsame]
    refine Before.append (dateFields_fit hday') (timeFields_before ?_ (Nat.mod_lt _ (by decide)))
    omega
  · exact dateFields_before (by omega) hday' _ _

theorem length_dateText (day : ℕ) : (dateText day).length = 10 := by
  simp only [dateText, List.length_append, List.length_cons, length_pad]

/-- A moment's text is its date's, and its time of day's. -/
theorem isoText_eq (t : ℕ) : isoText t
    = dateText (t / 86400000) ++ chr 'T' :: fieldsText (timeFields (t % 86400000)) := by
  simp [isoText, fieldsText, dateFields, dateText]

theorem pad_ascii {w n : ℕ} : ∀ c ∈ pad w n, c.val < 0x80 := by
  induction w with
  | zero => simp [pad]
  | succ w ih =>
    rw [pad, List.forall_mem_cons]
    refine ⟨?_, ih⟩
    rw [digit_val]
    omega

theorem fieldsText_ascii {fs : List Field} (h : ∀ f ∈ fs, f.after.toNat < 0x80) :
    ∀ c ∈ fieldsText fs, c.val < 0x80 := by
  intro c hc
  obtain ⟨f, hf, hc⟩ := List.mem_flatMap.mp hc
  rcases List.mem_append.mp hc with hc | hc
  · exact pad_ascii c hc
  · obtain rfl := List.mem_singleton.mp hc
    have := h f hf
    rw [chr_val (by omega)]
    exact this

theorem isoText_ascii (t : ℕ) : ∀ c ∈ isoText t, c.val < 0x80 := by
  refine fieldsText_ascii fun f hf => ?_
  have hafter : ∀ c ∈ ['-', 'T', ':', '.', 'Z'], c.toNat < 0x80 := by simp
  refine hafter _ ?_
  simp only [dateFields, timeFields, List.cons_append, List.nil_append, List.mem_cons,
    List.not_mem_nil, or_false] at hf
  rcases hf with rfl | rfl | rfl | rfl | rfl | rfl | rfl <;> simp

example : isoText 63913484096789 = lit "2026-05-04T09:34:56.789Z" := by decide +kernel

end Calendar

end OpenTerms
