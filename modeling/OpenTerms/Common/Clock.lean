import OpenTerms.Common.Fallible
import Mathlib.Data.Stream.Defs

/-!
# Computations under a deadline

A computation that may read a clock takes its readings off a stream, and
may raise. Nothing is assumed of the readings: the clock may jump, stand
still or run backwards.

Two facts carry every result about deadlines. A computation without a
deadline is `Untimed`: it leaves the clock alone and does the same under
any. A computation with one is `Cut` from the one without: it does the
same, or raises the timeout. Both pass through sequencing, so a program
is cut from itself as soon as each of its checks is.
-/

namespace OpenTerms

/-- A computation that may read a clock showing times in `T`, and raise. -/
abbrev Timed (T ε α : Type) := StateT (Stream' T) (Except ε) α

namespace Timed

variable {T ε α β : Type}

/-- The timeout, where the next reading is past the deadline. Without a
deadline the clock is not read. -/
def checkDeadline [LT T] [DecidableLT T] (timeout : ε) : Option T → Timed T ε Unit
  | none => pure ()
  | some deadline => fun clock =>
    if deadline < clock.head then .error timeout else .ok ((), clock.tail)

/-- The deadline a budget sets, if it is positive, and what that leaves of
the clock. -/
def started [LT T] [DecidableLT T] [Zero T] [Add T] (budget : T) (clock : Stream' T) :
    Option T × Stream' T :=
  if 0 < budget then (some (clock.head + budget), clock.tail) else (none, clock)

/-- What a computation returns or raises under a clock. -/
def result (x : Timed T ε α) (clock : Stream' T) : Except ε α := (x clock).map Prod.fst

/-! ## Without a clock -/

/-- `x` is `y`, whatever the clock shows. -/
def Untimed (x : Timed T ε α) (y : Except ε α) : Prop :=
  ∀ clock, x clock = y.map fun a => (a, clock)

theorem untimed_lift (y : Except ε α) : Untimed (T := T) (liftM y) y := by
  intro clock
  cases y <;> rfl

theorem untimed_pure (a : α) : Untimed (T := T) (ε := ε) (pure a) (.ok a) := fun _ => rfl

theorem Untimed.bind {x : Timed T ε α} {y : Except ε α} {f : α → Timed T ε β}
    {g : α → Except ε β} (hx : Untimed x y) (hf : ∀ a, y = .ok a → Untimed (f a) (g a)) :
    Untimed (x >>= f) (y >>= g) := by
  intro clock
  have hbind : (x >>= f) clock = x clock >>= fun p => f p.1 p.2 := rfl
  rw [hbind, hx clock]
  cases y with
  | error e => rfl
  | ok a => exact hf a rfl clock

theorem Untimed.result_eq {x : Timed T ε α} {y : Except ε α} (h : Untimed x y)
    (clock : Stream' T) : x.result clock = y := by
  rw [result, h clock]
  cases y <;> rfl

/-- A check without a deadline changes nothing. -/
theorem Untimed.check [LT T] [DecidableLT T] {x : Timed T ε α} {y : Except ε α}
    (h : Untimed x y) (timeout : ε) :
    Untimed (checkDeadline timeout (none : Option T) >>= fun _ => x) y :=
  h

/-! ## Cut short -/

/-- `x` does what `y` does, or raises the timeout. -/
def Cut (timeout : ε) (x : Timed T ε α) (y : Except ε α) : Prop :=
  ∀ clock, x.result clock = y ∨ x clock = .error timeout

theorem Untimed.cut {x : Timed T ε α} {y : Except ε α} (h : Untimed x y) (timeout : ε) :
    Cut timeout x y :=
  fun clock => Or.inl (h.result_eq clock)

theorem cut_checkDeadline [LT T] [DecidableLT T] (timeout : ε) (deadline : Option T) :
    Cut timeout (checkDeadline timeout deadline) (.ok ()) := by
  intro clock
  cases deadline with
  | none => exact Or.inl rfl
  | some d =>
    by_cases h : d < clock.head
    · exact Or.inr (if_pos h)
    · have hcheck : checkDeadline timeout (some d) clock = .ok ((), clock.tail) := if_neg h
      exact Or.inl (by rw [result, hcheck]; rfl)

/-- **A sequence is cut short where one of its steps is.** -/
theorem Cut.bind {timeout : ε} {x : Timed T ε α} {y : Except ε α} {f : α → Timed T ε β}
    {g : α → Except ε β} (hx : Cut timeout x y) (hf : ∀ a, y = .ok a → Cut timeout (f a) (g a)) :
    Cut timeout (x >>= f) (y >>= g) := by
  intro clock
  have hbind : (x >>= f) clock = x clock >>= fun p => f p.1 p.2 := rfl
  rcases hx clock with h | h
  · rw [result] at h ⊢
    rw [hbind]
    cases hxc : x clock with
    | error e =>
      rw [hxc] at h
      subst h
      exact Or.inl rfl
    | ok p =>
      rw [hxc] at h
      subst h
      exact hf p.1 rfl p.2
  · rw [hbind, h]
    exact Or.inr rfl

/-- A step after a check. -/
theorem Cut.check [LT T] [DecidableLT T] {timeout : ε} {x : Timed T ε α} {y : Except ε α}
    (h : Cut timeout x y) (deadline : Option T) :
    Cut timeout (checkDeadline timeout deadline >>= fun _ => x) y :=
  Cut.bind (y := .ok ()) (cut_checkDeadline timeout deadline) fun _ _ => h

end Timed

end OpenTerms
