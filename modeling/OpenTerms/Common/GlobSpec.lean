import OpenTerms.Common.Glob
import Mathlib.Computability.Language
import Mathlib.Data.List.TakeWhile
import Mathlib.Order.CompletePartialOrder

/-!
# What the glob matcher matches

The language of a pattern is a concatenation, character by character: a
star is every word, the other special character every word of length one,
and any other character itself. The matcher decides it (`run_iff`).

The loop forgets all stars but the last, and resumes from there only.
Nothing is lost: between the last star and the pointer there is no star,
so a match that starts further on reaches the same point of the pattern
further on, and from a star any later place is as good (`Inv.exchange`).
Each turn lowers `remaining`, so the loop ends by itself (`ends_loop`).
-/

namespace OpenTerms

namespace Glob

variable {α : Type} [DecidableEq α] (any one : α)

/-! ## The language of a pattern -/

/-- What one character of a pattern stands for. -/
def piece (c : α) : Language α :=
  if c = any then ⊤ else if c = one then ⨆ x, {[x]} else {[c]}

/-- The language of a pattern. -/
def language : List α → Language α
  | [] => 1
  | c :: pattern => piece any one c * language pattern

variable {any one}

theorem mem_piece {c : α} (hc : c ≠ any) {w : List α} :
    w ∈ piece any one c ↔ ∃ x, w = [x] ∧ (c = one ∨ c = x) := by
  unfold piece
  rw [if_neg hc]
  by_cases hone : c = one
  · rw [if_pos hone, Language.mem_iSup]
    exact exists_congr fun x => ⟨fun h => ⟨h, Or.inl hone⟩, fun h => h.1⟩
  · rw [if_neg hone]
    constructor
    · exact fun h => ⟨c, h, Or.inr rfl⟩
    · rintro ⟨x, hw, hx⟩
      rcases hx with hx | rfl
      · exact absurd hx hone
      · exact hw

/-- Only stars stand for nothing. -/
theorem nil_mem_language {pattern : List α} :
    [] ∈ language any one pattern ↔ ∀ c ∈ pattern, c = any := by
  induction pattern with
  | nil => simp [language, Language.mem_one]
  | cons c pattern ih =>
    rw [language, Language.mem_mul, List.forall_mem_cons, ← ih]
    constructor
    · rintro ⟨u, hu, v, hv, huv⟩
      obtain ⟨rfl, rfl⟩ := List.append_eq_nil_iff.mp huv
      refine ⟨?_, hv⟩
      by_contra hc
      obtain ⟨x, hx, -⟩ := (mem_piece hc).mp hu
      cases hx
    · rintro ⟨rfl, hv⟩
      refine ⟨[], ?_, [], hv, rfl⟩
      unfold piece
      rw [if_pos rfl]
      trivial

/-! ## What is left fits -/

variable (any one) (pattern target : List α)

/-- The rest of the target is in the language of the rest of the pattern. -/
def Fits (i j : ℕ) : Prop := target.drop j ∈ language any one (pattern.drop i)

variable {any one pattern target}

omit [DecidableEq α] in
theorem drop_eq_cons {l : List α} {i : ℕ} {c : α} (h : l[i]? = some c) :
    l.drop i = c :: l.drop (i + 1) := by
  obtain ⟨hi, rfl⟩ := List.getElem?_eq_some_iff.mp h
  exact List.drop_eq_getElem_cons hi

/-- At the end of the pattern, the target must be at its end. -/
theorem fits_end {j : ℕ} : Fits any one pattern target pattern.length j ↔ target.length ≤ j := by
  unfold Fits
  rw [List.drop_length, language, Language.mem_one, List.drop_eq_nil_iff]

/-- At a star, any later place will do. -/
theorem fits_star {i j : ℕ} (hi : pattern[i]? = some any) (hj : j ≤ target.length) :
    Fits any one pattern target i j
      ↔ ∃ k, j ≤ k ∧ k ≤ target.length ∧ Fits any one pattern target (i + 1) k := by
  unfold Fits
  rw [drop_eq_cons hi, language, Language.mem_mul]
  constructor
  · rintro ⟨u, -, v, hv, huv⟩
    have hlen : u.length + v.length = target.length - j := by
      rw [← List.length_append, huv, List.length_drop]
    have hdrop : target.drop (j + u.length) = v := by
      rw [← List.drop_drop, ← huv, List.drop_left]
    refine ⟨j + u.length, by omega, by omega, ?_⟩
    rwa [hdrop]
  · rintro ⟨k, hjk, hk, hfit⟩
    refine ⟨(target.drop j).take (k - j), ?_, target.drop k, hfit, ?_⟩
    · unfold piece
      rw [if_pos rfl]
      trivial
    · have hdrop : target.drop k = (target.drop j).drop (k - j) := by
        rw [List.drop_drop]
        congr 1
        omega
      rw [hdrop, List.take_append_drop]

/-- At any other character, one character of the target goes with it. -/
theorem fits_char {i j : ℕ} {c : α} (hi : pattern[i]? = some c) (hc : c ≠ any) :
    Fits any one pattern target i j
      ↔ ∃ x, target[j]? = some x ∧ (c = one ∨ c = x) ∧ Fits any one pattern target (i + 1) (j + 1) := by
  unfold Fits
  rw [drop_eq_cons hi, language, Language.mem_mul]
  constructor
  · rintro ⟨u, hu, v, hv, huv⟩
    obtain ⟨x, rfl, hx⟩ := (mem_piece hc).mp hu
    have hj : target[j]? = some x := by
      have hhead : (target.drop j)[0]? = some x := by rw [← huv]; rfl
      rwa [List.getElem?_drop] at hhead
    rw [drop_eq_cons hj] at huv
    refine ⟨x, hj, hx, ?_⟩
    rw [← (List.cons.inj huv).2]
    exact hv
  · rintro ⟨x, hj, hx, hfit⟩
    refine ⟨[x], (mem_piece hc).mpr ⟨x, rfl, hx⟩, _, hfit, ?_⟩
    rw [drop_eq_cons hj]
    rfl

/-- Past characters that are no stars, what fits fits as far on. -/
theorem fits_plain {i k n : ℕ} (hn : i + n ≤ pattern.length) (hk : k ≤ target.length)
    (hplain : ∀ m, i ≤ m → m < i + n → pattern[m]? ≠ some any)
    (h : Fits any one pattern target i k) :
    k + n ≤ target.length ∧ Fits any one pattern target (i + n) (k + n) := by
  induction n with
  | zero => exact ⟨hk, h⟩
  | succ n ih =>
    obtain ⟨hlen, hfit⟩ := ih (by omega) fun m hm hlt => hplain m hm (by omega)
    obtain ⟨c, hc⟩ : ∃ c, pattern[i + n]? = some c :=
      ⟨_, List.getElem?_eq_getElem (by omega)⟩
    have hne : c ≠ any := by
      intro heq
      rw [heq] at hc
      exact hplain (i + n) (by omega) (by omega) hc
    obtain ⟨x, hx, -, hnext⟩ := (fits_char hc hne).mp hfit
    obtain ⟨hlt, -⟩ := List.getElem?_eq_some_iff.mp hx
    exact ⟨by omega, hnext⟩

/-! ## The invariant of the loop -/

variable (any one pattern target)

/-- What the loop knows of the last star: no other has been passed since,
and the target matches if it matches past that star, from the mark on. -/
structure Resumable (star : ℕ) (s : State) : Prop where
  lt : star < s.pI
  aligned : s.pI + s.mark = s.tI + (star + 1)
  plain : ∀ i, star < i → i < s.pI → pattern[i]? ≠ some any
  whole : Fits any one pattern target 0 0
    ↔ ∃ k, s.mark ≤ k ∧ k ≤ target.length ∧ Fits any one pattern target (star + 1) k
  here : Fits any one pattern target (star + 1) s.mark ↔ Fits any one pattern target s.pI s.tI

/-- The invariant of the loop. -/
structure Inv (s : State) : Prop where
  pI_le : s.pI ≤ pattern.length
  tI_le : s.tI ≤ target.length
  mark_le : s.mark ≤ s.tI
  fresh : s.star = none →
    (Fits any one pattern target 0 0 ↔ Fits any one pattern target s.pI s.tI)
  resumable : ∀ star, s.star = some star → Resumable any one pattern target star s

/-- Where the loop starts. -/
def start : State := ⟨0, 0, none, 0⟩

theorem inv_start : Inv any one pattern target start where
  pI_le := Nat.zero_le _
  tI_le := Nat.zero_le _
  mark_le := le_rfl
  fresh _ := Iff.rfl
  resumable := nofun

variable {any one pattern target} {s s' : State}

/-- **One place to go back to is enough.** At a star, and at the end of
the target, the match depends on where the pointers are and on nothing
before. -/
theorem Inv.exchange (h : Inv any one pattern target s)
    (hplace : pattern[s.pI]? = some any ∨ target.length ≤ s.tI) :
    Fits any one pattern target 0 0 ↔ Fits any one pattern target s.pI s.tI := by
  cases hstar : s.star with
  | none => exact h.fresh hstar
  | some star =>
    obtain ⟨hlt, haligned, hplain, hwhole, hhere⟩ := h.resumable star hstar
    have hpI := h.pI_le
    have htI := h.tI_le
    have hmark := h.mark_le
    constructor
    · intro hfit
      obtain ⟨k, hk, hkle, hfit⟩ := hwhole.mp hfit
      obtain ⟨n, hn⟩ : ∃ n, star + 1 + n = s.pI := ⟨s.pI - (star + 1), by omega⟩
      have hplain' : ∀ m, star + 1 ≤ m → m < star + 1 + n → pattern[m]? ≠ some any :=
        fun m hm hmlt => hplain m (by omega) (by omega)
      obtain ⟨hlen, hfit'⟩ := fits_plain (by omega) hkle hplain' hfit
      rw [hn] at hfit'
      rcases hplace with hany | hend
      · -- from the star on, the later place is one of those to choose from
        obtain ⟨k', hk', hk'le, hnext⟩ := (fits_star hany hlen).mp hfit'
        exact (fits_star hany htI).mpr ⟨k', by omega, hk'le, hnext⟩
      · have hsame : k + n = s.tI := by omega
        rwa [hsame] at hfit'
    · intro hfit
      exact hwhole.mpr ⟨s.mark, le_rfl, by omega, hhere.mpr hfit⟩

/-- What is left to do: the characters not yet passed, and, for every
place the mark may still move to, all of them again. -/
def remaining (pattern target : List α) (s : State) : ℕ :=
  (target.length - s.mark) * (pattern.length + target.length + 1)
    + (pattern.length - s.pI) + (target.length - s.tI)

/-! ## One turn -/

/-- The three ways a turn goes on. -/
theorem turn_cases (hturn : turn any one pattern target s = some s') :
    (pattern[s.pI]? = some any
        ∧ s' = { s with star := some s.pI, mark := s.tI, pI := s.pI + 1 })
      ∨ (s.pI < pattern.length ∧ pattern[s.pI]? ≠ some any
        ∧ (pattern[s.pI]? = some one ∨ pattern[s.pI]? = target[s.tI]?)
        ∧ s' = { s with pI := s.pI + 1, tI := s.tI + 1 })
      ∨ ∃ star, s.star = some star ∧ pattern[s.pI]? ≠ some any
        ∧ ¬ (s.pI < pattern.length
          ∧ (pattern[s.pI]? = some one ∨ pattern[s.pI]? = target[s.tI]?))
        ∧ s' = { s with pI := star + 1, mark := s.mark + 1, tI := s.mark + 1 } := by
  unfold turn at hturn
  split at hturn
  · next hany => exact Or.inl ⟨hany, (Option.some.inj hturn).symm⟩
  · next hany =>
    split at hturn
    · next hchar => exact Or.inr (Or.inl ⟨hchar.1, hany, hchar.2, (Option.some.inj hturn).symm⟩)
    · next hchar =>
      cases hstar : s.star with
      | none =>
        rw [hstar] at hturn
        cases hturn
      | some star =>
        rw [hstar] at hturn
        exact Or.inr (Or.inr ⟨star, rfl, hany, hchar, (Option.some.inj hturn).symm⟩)

/-- The one way a turn ends the loop. -/
theorem turn_eq_none (hturn : turn any one pattern target s = none) :
    s.star = none ∧ pattern[s.pI]? ≠ some any
      ∧ ¬ (s.pI < pattern.length
        ∧ (pattern[s.pI]? = some one ∨ pattern[s.pI]? = target[s.tI]?)) := by
  unfold turn at hturn
  split at hturn
  · cases hturn
  · next hany =>
    split at hturn
    · cases hturn
    · next hchar =>
      cases hstar : s.star with
      | none => exact ⟨rfl, hany, hchar⟩
      | some star =>
        rw [hstar] at hturn
        cases hturn

/-- Where the characters differ, nothing fits. -/
theorem Inv.mismatch (h : Inv any one pattern target s) (hlast : s.tI < target.length)
    (hany : pattern[s.pI]? ≠ some any)
    (hchar : ¬ (s.pI < pattern.length
      ∧ (pattern[s.pI]? = some one ∨ pattern[s.pI]? = target[s.tI]?))) :
    ¬ Fits any one pattern target s.pI s.tI := by
  intro hfit
  rcases h.pI_le.lt_or_eq with hlt | heq
  · have hc : pattern[s.pI]? = some (pattern[s.pI]) := List.getElem?_eq_getElem hlt
    have hne : pattern[s.pI] ≠ any := by
      intro heq
      rw [heq] at hc
      exact hany hc
    obtain ⟨x, hx, hfits, -⟩ := (fits_char hc hne).mp hfit
    refine hchar ⟨hlt, ?_⟩
    rw [hc, hx]
    exact hfits.imp (congrArg some) (congrArg some)
  · rw [heq, fits_end] at hfit
    omega

/-- **A turn keeps the invariant**, and leaves less to do. -/
theorem inv_turn (h : Inv any one pattern target s) (hlast : s.tI < target.length)
    (hturn : turn any one pattern target s = some s') :
    Inv any one pattern target s' ∧ remaining pattern target s' < remaining pattern target s := by
  have hpI := h.pI_le
  have htI := h.tI_le
  have hmark := h.mark_le
  rcases turn_cases hturn with ⟨hany, rfl⟩ | ⟨hlt, hany, hchar, rfl⟩ | ⟨star, hstar, hany, hchar, rfl⟩
  · -- a new star: what was known of the last one is in `exchange`
    obtain ⟨hlt, -⟩ := List.getElem?_eq_some_iff.mp hany
    refine ⟨⟨hlt, htI, le_rfl, nofun, ?_⟩, ?_⟩
    · rintro star ⟨⟩
      exact { lt := Nat.lt_succ_self _
              aligned := Nat.add_comm _ _
              plain := fun i hi hi' => absurd hi' (by dsimp only; omega)
              whole := (h.exchange (Or.inl hany)).trans (fits_star hany htI)
              here := Iff.rfl }
    · have hmul := Nat.mul_le_mul_right (pattern.length + target.length + 1)
        (Nat.sub_le_sub_left hmark target.length)
      unfold remaining
      dsimp only
      omega
  · obtain ⟨c, hc⟩ : ∃ c, pattern[s.pI]? = some c := ⟨_, List.getElem?_eq_getElem hlt⟩
    have hne : c ≠ any := by
      intro heq
      rw [heq] at hc
      exact hany hc
    have hx : target[s.tI]? = some (target[s.tI]) := List.getElem?_eq_getElem hlast
    have hfits : Fits any one pattern target s.pI s.tI
        ↔ Fits any one pattern target (s.pI + 1) (s.tI + 1) := by
      rw [fits_char hc hne]
      constructor
      · rintro ⟨x, -, -, hfit⟩
        exact hfit
      · intro hfit
        rw [hc, hx] at hchar
        exact ⟨_, hx, hchar.imp Option.some.inj Option.some.inj, hfit⟩
    refine ⟨⟨hlt, hlast, by dsimp only; omega, fun hstar => (h.fresh hstar).trans hfits, ?_⟩, ?_⟩
    · intro star hstar
      obtain ⟨hstarLt, haligned, hplain, hwhole, hhere⟩ := h.resumable star hstar
      refine ⟨by dsimp only; omega, by dsimp only; omega, ?_, hwhole, hhere.trans hfits⟩
      intro i hi hi'
      rcases Nat.lt_succ_iff_lt_or_eq.mp hi' with hlt' | rfl
      · exact hplain i hi hlt'
      · exact hany
    · unfold remaining
      dsimp only
      omega
  · -- the mark moves on: nothing fits where it was
    obtain ⟨hstarLt, haligned, hplain, hwhole, hhere⟩ := h.resumable star hstar
    have hnot : ¬ Fits any one pattern target (star + 1) s.mark :=
      mt hhere.mp (h.mismatch hlast hany hchar)
    refine ⟨⟨by dsimp only; omega, by dsimp only; omega, le_rfl, ?_, ?_⟩, ?_⟩
    · intro hnone
      rw [hstar] at hnone
      cases hnone
    · intro star' hstar'
      obtain rfl := Option.some.inj (hstar.symm.trans hstar')
      refine ⟨Nat.lt_succ_self _, Nat.add_comm _ _, fun i hi hi' => by dsimp only at hi'; omega, ?_,
        Iff.rfl⟩
      rw [hwhole]
      constructor
      · rintro ⟨k, hk, hkle, hfit⟩
        rcases hk.lt_or_eq with hlt | rfl
        · exact ⟨k, hlt, hkle, hfit⟩
        · exact absurd hfit hnot
      · rintro ⟨k, hk, hkle, hfit⟩
        exact ⟨k, Nat.le_of_succ_le hk, hkle, hfit⟩
    · have hsub : target.length - s.mark = target.length - (s.mark + 1) + 1 := by omega
      unfold remaining
      dsimp only
      rw [hsub, Nat.add_mul]
      omega

/-! ## The loop -/

variable (any one pattern target) in
/-- The loop of the source, as long as it takes: it ends where the target
does, or where a turn returns `False`. -/
inductive Ends : State → Option State → Prop
  | done {s : State} (h : target.length ≤ s.tI) : Ends s (some s)
  | falls {s : State} (h : s.tI < target.length) (hturn : turn any one pattern target s = none) :
      Ends s none
  | again {s s' : State} {o : Option State} (h : s.tI < target.length)
      (hturn : turn any one pattern target s = some s') (hrest : Ends s' o) : Ends s o

/-- **The loop ends by itself**, within the turns it is given. -/
theorem ends_loop {fuel : ℕ} (h : Inv any one pattern target s)
    (hfuel : remaining pattern target s ≤ fuel) :
    Ends any one pattern target s (loop any one pattern target fuel s) := by
  induction fuel generalizing s with
  | zero =>
    refine .done ?_
    unfold remaining at hfuel
    omega
  | succ fuel ih =>
    rw [loop]
    by_cases hlast : s.tI < target.length
    · rw [if_pos hlast]
      cases hturn : turn any one pattern target s with
      | none => exact .falls hlast hturn
      | some s' =>
        obtain ⟨hinv, hless⟩ := inv_turn h hlast hturn
        exact .again hlast hturn (ih hinv (by omega))
    · rw [if_neg hlast]
      exact .done (not_lt.mp hlast)

/-- What the loop leaves when it ends. -/
theorem Ends.spec {o : Option State} (hends : Ends any one pattern target s o)
    (h : Inv any one pattern target s) :
    (o = none → ¬ Fits any one pattern target 0 0)
      ∧ ∀ s', o = some s' → Inv any one pattern target s' ∧ target.length ≤ s'.tI := by
  induction hends with
  | done hlast =>
    refine ⟨nofun, ?_⟩
    rintro s' ⟨⟩
    exact ⟨h, hlast⟩
  | falls hlast hturn =>
    obtain ⟨hstar, hany, hchar⟩ := turn_eq_none hturn
    exact ⟨fun _ => mt (h.fresh hstar).mp (h.mismatch hlast hany hchar), nofun⟩
  | again hlast hturn _ ih => exact ih (inv_turn h hlast hturn).1

omit [DecidableEq α] in
theorem remaining_start : remaining pattern target start ≤ turns pattern target := by
  unfold remaining turns start
  dsimp only
  rw [Nat.add_mul, Nat.sub_zero, Nat.sub_zero]
  omega

/-- **The matcher is correct**: the loop ends by itself, and the answer
is whether the target is in the language of the pattern. -/
theorem run_iff : run any one pattern target = true ↔ target ∈ language any one pattern := by
  have hends := ends_loop (inv_start any one pattern target) remaining_start
  have hspec := hends.spec (inv_start any one pattern target)
  have hwhole : Fits any one pattern target 0 0 ↔ target ∈ language any one pattern := by
    unfold Fits
    rw [List.drop_zero, List.drop_zero]
  have hstart : (⟨0, 0, none, 0⟩ : State) = start := rfl
  rw [run, hstart]
  cases hloop : loop any one pattern target (turns pattern target) start with
  | none =>
    rw [← hwhole]
    exact iff_of_false (by simp) (hspec.1 hloop)
  | some s =>
    obtain ⟨hinv, hlast⟩ := hspec.2 s hloop
    rw [← hwhole, hinv.exchange (Or.inr hlast)]
    unfold Fits
    rw [List.drop_eq_nil_of_le hlast, nil_mem_language, decide_eq_true_iff,
      List.dropWhile_eq_nil_iff]
    simp only [decide_eq_true_iff]

end Glob

end OpenTerms
