import Mathlib.Data.List.Basic

/-!
# The two-pointer glob matcher

A pattern is matched against a target from left to right, with one point
to go back to: the last star, and the place in the target up to which it
has swallowed. Both SDKs have this loop, over code points and over code
units, so the alphabet is a parameter here, with the two characters that
are special in a pattern.
-/

namespace OpenTerms

namespace Glob

variable {α : Type} [DecidableEq α]

/-- The variables of the loop: `star` is the last star met, and `mark`
the place in the target it was last resumed at. -/
structure State where
  pI : ℕ
  tI : ℕ
  star : Option ℕ
  mark : ℕ
  deriving DecidableEq

/-- One turn of the main loop, `none` where it returns `False`. -/
def turn (any one : α) (pattern target : List α) (s : State) : Option State :=
  if pattern[s.pI]? = some any then
    some { s with star := some s.pI, mark := s.tI, pI := s.pI + 1 }
  else if s.pI < pattern.length
      ∧ (pattern[s.pI]? = some one ∨ pattern[s.pI]? = target[s.tI]?) then
    some { s with pI := s.pI + 1, tI := s.tI + 1 }
  else
    match s.star with
    | some star => some { s with pI := star + 1, mark := s.mark + 1, tI := s.mark + 1 }
    | none => none

/-- The main loop, turn after turn while the target lasts. -/
def loop (any one : α) (pattern target : List α) : ℕ → State → Option State
  | 0, s => some s
  | fuel + 1, s =>
    if s.tI < target.length then
      (turn any one pattern target s).bind (loop any one pattern target fuel)
    else some s

/-- A bound on the turns: between two resumptions both pointers only move
forward, and each resumption moves the mark. -/
def turns (pattern target : List α) : ℕ :=
  (target.length + 1) * (pattern.length + target.length + 1)

/-- The matcher: the loop, then whether only stars are left. -/
def run (any one : α) (pattern target : List α) : Bool :=
  match loop any one pattern target (turns pattern target) ⟨0, 0, none, 0⟩ with
  | none => false
  | some s => (pattern.drop s.pI).dropWhile (· = any) = []

end Glob

end OpenTerms
