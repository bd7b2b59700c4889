import OpenTerms.Common.GlobSpec

/-!
# What the glob matcher costs

The turns of the loop, counted. Past a star the loop tries the rest of
the pattern at one place of the target after another, and what it had
matched at a place it gives up is read again. Those characters, with one
for each star reached, are the `setbacks`, and the loop takes the length
of the target and its setbacks (`takes_resumed`, `takes_start`). They are
not bounded by the two lengths: `setbacks_replicate` is a product.
-/

namespace OpenTerms

namespace Glob

variable {α : Type} [DecidableEq α] (any one : α)

section

variable (pattern target : List α)

/-- The loop, from a state, executes its body `k` times; the execution
that returns `False` counts. -/
inductive Takes : State → ℕ → Prop
  | done {s : State} (h : target.length ≤ s.tI) : Takes s 0
  | falls {s : State} (h : s.tI < target.length) (hturn : turn any one pattern target s = none) :
      Takes s 1
  | again {s s' : State} {k : ℕ} (h : s.tI < target.length)
      (hturn : turn any one pattern target s = some s') (hrest : Takes s' k) : Takes s (k + 1)

end

/-- How many characters of a target a pattern fits before its next star. -/
def fitting : List α → List α → ℕ
  | c :: w, x :: t => if c ≠ any ∧ (c = one ∨ c = x) then fitting w t + 1 else 0
  | _, _ => 0

/-- What is read again past a star, `w` the pattern from there on: a
place is given up when `w` fits neither to the end of the target nor to
the next star. -/
def setbacks (w t : List α) : ℕ :=
  if t.length ≤ fitting any one w t then 0
  else if w[fitting any one w t]? = some any then
    1 + setbacks (w.drop (fitting any one w t + 1)) (t.drop (fitting any one w t))
  else fitting any one w t + setbacks w t.tail
termination_by w.length + t.length
decreasing_by
  · next hstar =>
    obtain ⟨hlt, -⟩ := List.getElem?_eq_some_iff.mp hstar
    simp only [List.length_drop]
    omega
  · rw [List.length_tail]
    omega

/-- What is read again of a target, and the stars reached: nothing if the
first star is not. -/
def rework (pattern target : List α) : ℕ :=
  if fitting any one pattern target < target.length
      ∧ pattern[fitting any one pattern target]? = some any then
    1 + setbacks any one (pattern.drop (fitting any one pattern target + 1))
      (target.drop (fitting any one pattern target))
  else 0

variable {any one} {pattern target : List α} {s s' : State} {k : ℕ}

/-! ## Counting -/

/-- There is one count. -/
theorem Takes.unique {j : ℕ} (h : Takes any one pattern target s k)
    (h' : Takes any one pattern target s j) : k = j := by
  induction h generalizing j with
  | done hlast =>
    cases h' with
    | done => rfl
    | falls hlt => omega
    | again hlt => omega
  | falls hlt hturn =>
    cases h' with
    | done hlast => omega
    | falls => rfl
    | again _ hturn' => cases hturn.symm.trans hturn'
  | again hlt hturn _ ih =>
    cases h' with
    | done hlast => omega
    | falls _ hturn' => cases hturn.symm.trans hturn'
    | again _ hturn' hrest =>
      obtain rfl := Option.some.inj (hturn.symm.trans hturn')
      rw [ih hrest]

/-! ## Where a pattern stops fitting -/

theorem fitting_le (w t : List α) : fitting any one w t ≤ t.length := by
  fun_induction fitting any one w t with
  | case1 c w x t _ ih =>
    rw [List.length_cons]
    omega
  | case2 => exact Nat.zero_le _
  | case3 => exact Nat.zero_le _

/-- At a star, at an end, or at two characters that differ. -/
theorem fitting_stops {w t : List α} (hlt : fitting any one w t < t.length)
    (hstar : w[fitting any one w t]? ≠ some any) :
    ¬ (fitting any one w t < w.length
      ∧ (w[fitting any one w t]? = some one
        ∨ w[fitting any one w t]? = t[fitting any one w t]?)) := by
  fun_induction fitting any one w t with
  | case1 c w x t hfit ih =>
    simp only [List.length_cons, List.getElem?_cons_succ, Nat.add_lt_add_iff_right] at hlt hstar ⊢
    exact ih hlt hstar
  | case2 c w x t hfit =>
    simp only [List.getElem?_cons_zero, Option.some.injEq] at hstar ⊢
    exact fun h => hfit ⟨fun hc => hstar (congrArg some hc), h.2⟩
  | case3 w t hne =>
    rintro ⟨hpos, -⟩
    cases w with
    | nil => exact absurd hpos (Nat.lt_irrefl _)
    | cons c w =>
      cases t with
      | nil => exact absurd hlt (Nat.lt_irrefl _)
      | cons x t => exact hne c w x t rfl rfl

/-- The loop goes through what fits, a turn a character. -/
theorem takes_fitting (hrest : Takes any one pattern target
      { s with
        pI := s.pI + fitting any one (pattern.drop s.pI) (target.drop s.tI)
        tI := s.tI + fitting any one (pattern.drop s.pI) (target.drop s.tI) } k) :
    Takes any one pattern target s
      (fitting any one (pattern.drop s.pI) (target.drop s.tI) + k) := by
  generalize hw : pattern.drop s.pI = w at hrest ⊢
  generalize ht : target.drop s.tI = t at hrest ⊢
  fun_induction fitting any one w t generalizing s with
  | case1 c w x t hfit ih =>
    have hc : pattern[s.pI]? = some c := by
      rw [← Nat.add_zero s.pI, ← List.getElem?_drop, hw, List.getElem?_cons_zero]
    have hx : target[s.tI]? = some x := by
      rw [← Nat.add_zero s.tI, ← List.getElem?_drop, ht, List.getElem?_cons_zero]
    obtain ⟨hpI, -⟩ := List.getElem?_eq_some_iff.mp hc
    obtain ⟨htI, -⟩ := List.getElem?_eq_some_iff.mp hx
    have hturn : turn any one pattern target s
        = some { s with pI := s.pI + 1, tI := s.tI + 1 } := by
      unfold turn
      rw [hc, hx, if_neg (by simpa using hfit.1), if_pos ⟨hpI, by simpa using hfit.2⟩]
    have hw' : pattern.drop (s.pI + 1) = w := by rw [← List.tail_drop, hw, List.tail_cons]
    have ht' : target.drop (s.tI + 1) = t := by rw [← List.tail_drop, ht, List.tail_cons]
    have hnext := ih (s := { s with pI := s.pI + 1, tI := s.tI + 1 }) hw' ht'
      (by simpa only [Nat.add_assoc, Nat.add_comm 1] using hrest)
    have hturns := Takes.again htI hturn hnext
    rwa [Nat.add_right_comm]
  | case2 => simpa using hrest
  | case3 => simpa using hrest

/-! ## What the whole loop takes -/

/-- **From a star on**: the length of what is left, and the setbacks. -/
theorem takes_resumed {w t : List α} {star mark : ℕ} (hw : pattern.drop (star + 1) = w)
    (ht : target.drop mark = t) (hmark : mark ≤ target.length) :
    Takes any one pattern target ⟨star + 1, mark, some star, mark⟩
      (t.length + setbacks any one w t) := by
  -- the loop reads what fits, and is then at the end, at a star, or at a mismatch
  fun_induction setbacks any one w t generalizing star mark with
  | case1 w t hend =>
    have hk : fitting any one w t = t.length := le_antisymm (fitting_le w t) hend
    have hlen : t.length = target.length - mark := by rw [← ht, List.length_drop]
    rw [← hk]
    subst hw ht
    refine takes_fitting (.done ?_)
    dsimp only
    omega
  | case2 w t hlast hstar ih =>
    generalize hk : fitting any one w t = k at hlast hstar ih ⊢
    have hlen : t.length = target.length - mark := by rw [← ht, List.length_drop]
    have hpattern : pattern[star + 1 + k]? = some any := by rw [← List.getElem?_drop, hw, hstar]
    have hnext := @ih (star + 1 + k) (mark + k)
      (by rw [← hw, List.drop_drop]; rfl) (by rw [← ht, List.drop_drop]) (by omega)
    have hturn : turn any one pattern target ⟨star + 1 + k, mark + k, some star, mark⟩
        = some ⟨star + 1 + k + 1, mark + k, some (star + 1 + k), mark + k⟩ := by
      unfold turn
      rw [if_pos hpattern]
    have hturns := Takes.again (s := ⟨star + 1 + k, mark + k, some star, mark⟩)
      (by dsimp only; omega) hturn hnext
    have hcount : t.length + (1 + setbacks any one (w.drop (k + 1)) (t.drop k))
        = k + ((t.drop k).length + setbacks any one (w.drop (k + 1)) (t.drop k) + 1) := by
      rw [List.length_drop]
      omega
    rw [hcount]
    subst hw ht hk
    exact takes_fitting hturns
  | case3 w t hlast hstar ih =>
    have hstop := fitting_stops (not_le.mp hlast) hstar
    generalize hk : fitting any one w t = k at hlast hstar hstop ⊢
    have hlen : t.length = target.length - mark := by rw [← ht, List.length_drop]
    have hpattern : pattern[star + 1 + k]? = w[k]? := by rw [← List.getElem?_drop, hw]
    have htarget : target[mark + k]? = t[k]? := by rw [← List.getElem?_drop, ht]
    have hpos : star + 1 + k < pattern.length ↔ k < w.length := by
      rw [← hw, List.length_drop]
      omega
    have hnext := @ih star (mark + 1) hw (by rw [← List.tail_drop, ht]) (by omega)
    have hturn : turn any one pattern target ⟨star + 1 + k, mark + k, some star, mark⟩
        = some ⟨star + 1, mark + 1, some star, mark + 1⟩ := by
      unfold turn
      dsimp only
      rw [if_neg (by rwa [hpattern]), if_neg]
      rwa [hpattern, htarget, hpos]
    have hturns := Takes.again (s := ⟨star + 1 + k, mark + k, some star, mark⟩)
      (by dsimp only; omega) hturn hnext
    have hcount : t.length + (k + setbacks any one w t.tail)
        = k + (t.tail.length + setbacks any one w t.tail + 1) := by
      rw [List.length_tail]
      omega
    rw [hcount]
    subst hw ht hk
    exact takes_fitting hturns

/-- **The whole loop**: the length of the target and the rework, or less
where it returns `False` before the first star. -/
theorem takes_start (pattern target : List α) :
    ∃ k, Takes any one pattern target start k
      ∧ (k = target.length + rework any one pattern target
        ∨ (rework any one pattern target = 0 ∧ k ≤ target.length)) := by
  have hfit {j : ℕ} (h : Takes any one pattern target
      ⟨fitting any one pattern target, fitting any one pattern target, none, 0⟩ j) :
      Takes any one pattern target start (fitting any one pattern target + j) :=
    takes_fitting (s := start) (by simpa [start] using h)
  have hle := @fitting_le α _ any one pattern target
  unfold rework
  generalize hk : fitting any one pattern target = k at hfit hle
  by_cases hlast : k < target.length
  · by_cases hstar : pattern[k]? = some any
    · rw [if_pos ⟨hlast, hstar⟩]
      have hturn : turn any one pattern target ⟨k, k, none, 0⟩ = some ⟨k + 1, k, some k, k⟩ := by
        unfold turn
        rw [if_pos hstar]
      have hnext := @takes_resumed α _ any one pattern target _ _ k k rfl rfl hlast.le
      refine ⟨_, hfit (.again hlast hturn hnext), .inl ?_⟩
      rw [List.length_drop]
      omega
    · rw [if_neg fun h => hstar h.2]
      have hturn : turn any one pattern target ⟨k, k, none, 0⟩ = none := by
        unfold turn
        rw [if_neg hstar, if_neg]
        rw [← hk] at hlast hstar ⊢
        exact fitting_stops hlast hstar
      exact ⟨_, hfit (.falls hlast hturn), .inr ⟨rfl, hlast⟩⟩
  · rw [if_neg fun h => hlast h.1]
    exact ⟨_, hfit (.done (not_lt.mp hlast)), .inl (by omega)⟩

/-- **When the loop is through** after so many turns, at least the length
of the target: when the rework leaves room. -/
theorem exists_takes_le_iff {bound : ℕ} (hbound : target.length ≤ bound) :
    (∃ k, Takes any one pattern target start k ∧ k ≤ bound)
      ↔ target.length + rework any one pattern target ≤ bound := by
  obtain ⟨k, htakes, hk⟩ := @takes_start α _ any one pattern target
  constructor
  · rintro ⟨j, hj, hle⟩
    obtain rfl := hj.unique htakes
    omega
  · intro hle
    exact ⟨k, htakes, by omega⟩

/-! ## Not linear -/

/-- A run of one character and another, against a run of that character. -/
theorem fitting_replicate {a b : α} (ha : a ≠ any) (hab : b ≠ one ∧ b ≠ a) (m n : ℕ) :
    fitting any one (List.replicate m a ++ [b]) (List.replicate n a) = min m n := by
  induction m generalizing n with
  | zero =>
    cases n with
    | zero => rfl
    | succ n =>
      rw [List.replicate_succ, List.replicate_zero, List.nil_append, fitting,
        if_neg fun h => h.2.elim hab.1 hab.2, Nat.zero_min]
  | succ m ih =>
    cases n with
    | zero => rfl
    | succ n =>
      rw [List.replicate_succ, List.replicate_succ, List.cons_append, fitting,
        if_pos ⟨ha, .inr rfl⟩, ih, Nat.succ_min_succ]

/-- **The setbacks are a product**: each place is given up after the
whole run. -/
theorem setbacks_replicate {a b : α} (ha : a ≠ any) (hb : b ≠ any) (hab : b ≠ one ∧ b ≠ a)
    (m n : ℕ) :
    setbacks any one (List.replicate m a ++ [b]) (List.replicate (m + n) a) = m * n := by
  induction n with
  | zero =>
    rw [setbacks, fitting_replicate ha hab]
    simp
  | succ n ih =>
    have hmin : min m (m + (n + 1)) = m := by omega
    have hmiss : (List.replicate m a ++ [b])[m]? ≠ some any := by simpa using hb
    rw [setbacks, fitting_replicate ha hab, hmin]
    rw [if_neg (by rw [List.length_replicate]; omega), if_neg hmiss, List.tail_replicate,
      show m + (n + 1) - 1 = m + n by omega, ih, Nat.mul_succ, Nat.add_comm]

end Glob

end OpenTerms
