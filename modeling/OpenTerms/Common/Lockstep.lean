import OpenTerms.Common.Alike
import OpenTerms.Common.Trail

/-!
# Two computations under one clock

Two programs that check their deadlines at the same points are in
`Lockstep`: under one clock both return, with related values and the same
readings left, or both time out, or both raise something else. The
relation passes through checks and sequencing, and a loop whose visits
are in lockstep leaves related trails and ends the same way
(`walk_lockstep`), at the same item if a timeout ends it
(`cutAt_lockstep`), so nothing has to be said about when a deadline
strikes.
-/

namespace OpenTerms

namespace Timed

variable {T ε ε' α α' β β' : Type}

/-- One outcome under a clock in two languages. -/
inductive InStep (timeout : ε) (timeout' : ε') (R : α → α' → Prop) :
    Except ε (α × Stream' T) → Except ε' (α' × Stream' T) → Prop
  | returns (a : α) (b : α') (clock : Stream' T) (h : R a b) :
      InStep timeout timeout' R (.ok (a, clock)) (.ok (b, clock))
  | timesOut : InStep timeout timeout' R (.error timeout) (.error timeout')
  | raises (e : ε) (e' : ε') (he : e ≠ timeout) (he' : e' ≠ timeout') :
      InStep timeout timeout' R (.error e) (.error e')

/-- The same outcome under every clock. -/
def Lockstep (timeout : ε) (timeout' : ε') (R : α → α' → Prop) (x : Timed T ε α)
    (y : Timed T ε' α') : Prop :=
  ∀ clock, InStep timeout timeout' R (x clock) (y clock)

variable {timeout : ε} {timeout' : ε'} {R : α → α' → Prop} {S : β → β' → Prop}

theorem lockstep_pure {a : α} {b : α'} (h : R a b) :
    Lockstep (T := T) timeout timeout' R (pure a) (pure b) :=
  fun clock => .returns a b clock h

/-- What does not look at the clock, and raises no timeout by itself. -/
theorem lockstep_lift {x : Except ε α} {y : Except ε' α'} (h : Alike R x y)
    (hx : Raises (· ≠ timeout) x) (hy : Raises (· ≠ timeout') y) :
    Lockstep (T := T) timeout timeout' R (liftM x) (liftM y) := by
  intro clock
  cases x with
  | error e =>
    cases y with
    | error e' => exact .raises e e' (hx e rfl) (hy e' rfl)
    | ok b => exact h.elim
  | ok a =>
    cases y with
    | error e' => exact h.elim
    | ok b => exact .returns a b clock h

/-- One check, against one deadline. -/
theorem lockstep_check [LT T] [DecidableLT T] (timeout : ε) (timeout' : ε')
    (deadline : Option T) :
    Lockstep timeout timeout' (fun _ _ => True) (checkDeadline timeout deadline)
      (checkDeadline timeout' deadline) := by
  intro clock
  cases deadline with
  | none => exact .returns () () clock trivial
  | some d =>
    unfold checkDeadline
    dsimp only
    by_cases hlate : d < clock.head
    · rw [if_pos hlate, if_pos hlate]
      exact .timesOut
    · rw [if_neg hlate, if_neg hlate]
      exact .returns () () clock.tail trivial

theorem Lockstep.bind {x : Timed T ε α} {y : Timed T ε' α'} {f : α → Timed T ε β}
    {g : α' → Timed T ε' β'} (h : Lockstep timeout timeout' R x y)
    (hf : ∀ a b, R a b → Lockstep timeout timeout' S (f a) (g b)) :
    Lockstep timeout timeout' S (x >>= f) (y >>= g) := by
  intro clock
  have hx : (x >>= f) clock = x clock >>= fun p => f p.1 p.2 := rfl
  have hy : (y >>= g) clock = y clock >>= fun p => g p.1 p.2 := rfl
  have hstep := h clock
  rw [hx, hy]
  generalize x clock = p at hstep ⊢
  generalize y clock = q at hstep ⊢
  cases hstep with
  | returns a b rest hab => exact hf a b hab rest
  | timesOut => exact .timesOut
  | raises e e' he he' => exact .raises e e' he he'

theorem Lockstep.imp {R' : α → α' → Prop} {x : Timed T ε α} {y : Timed T ε' α'}
    (h : Lockstep timeout timeout' R x y) (himp : ∀ a b, R a b → R' a b) :
    Lockstep timeout timeout' R' x y := by
  intro clock
  have hstep := h clock
  generalize x clock = p at hstep ⊢
  generalize y clock = q at hstep ⊢
  cases hstep with
  | returns a b rest hab => exact .returns a b rest (himp a b hab)
  | timesOut => exact .timesOut
  | raises e e' he he' => exact .raises e e' he he'

end Timed

namespace Trail

variable {A B I I' R R' O O' T ε ε' : Type} {timeout : ε} {timeout' : ε'}

/-- How two loops end. -/
inductive Ends (timeout : ε) (timeout' : ε') : Except ε Unit → Except ε' Unit → Prop
  | through : Ends timeout timeout' (.ok ()) (.ok ())
  | timesOut : Ends timeout timeout' (.error timeout) (.error timeout')
  | raises (e : ε) (e' : ε') (he : e ≠ timeout) (he' : e' ≠ timeout') :
      Ends timeout timeout' (.error e) (.error e')

/-- **Two loops whose visits are in lockstep** record related entries up
to the same item, and end there the same way. -/
theorem walk_lockstep {S : Entry I R O → Entry I' R' O' → Prop}
    {visit : A → Timed T ε (Option (Entry I R O))}
    {visit' : B → Timed T ε' (Option (Entry I' R' O'))} {as : List A} {bs : List B}
    (h : List.Forall₂ (fun a b => Timed.Lockstep timeout timeout' (Option.Rel S) (visit a)
      (visit' b)) as bs) (clock : Stream' T) {es : List (Entry I R O)}
    {es' : List (Entry I' R' O')} (hes : List.Forall₂ S es es') :
    ∃ fs fs' x x', List.Forall₂ S fs fs' ∧ Ends timeout timeout' x x'
      ∧ walk visit as clock (ofEntries es) = (ofEntries fs, x)
      ∧ walk visit' bs clock (ofEntries es') = (ofEntries fs', x') := by
  induction h generalizing clock es es' with
  | nil => exact ⟨es, es', _, _, hes, .through, rfl, rfl⟩
  | @cons a b as bs hab _ ih =>
    have hstep := hab clock
    generalize hx : visit a clock = p at hstep
    generalize hy : visit' b clock = q at hstep
    cases hstep with
    | returns e e' rest hrel =>
      rw [walk_cons_ok hx, walk_cons_ok hy]
      refine ih rest ?_
      cases hrel with
      | some hrel => exact List.rel_append hes (.cons hrel .nil)
      | none => exact List.rel_append hes .nil
    | timesOut =>
      exact ⟨es, es', _, _, hes, .timesOut, walk_cons_error hx as es, walk_cons_error hy bs es'⟩
    | raises e e' he he' =>
      exact ⟨es, es', _, _, hes, .raises e e' he he', walk_cons_error hx as es,
        walk_cons_error hy bs es'⟩

/-- **And they are cut at the same item**, if a timeout cuts them. -/
theorem cutAt_lockstep [DecidableEq ε] [DecidableEq ε'] {S : Entry I R O → Entry I' R' O' → Prop}
    {visit : A → Timed T ε (Option (Entry I R O))}
    {visit' : B → Timed T ε' (Option (Entry I' R' O'))} {as : List A} {bs : List B}
    (h : List.Forall₂ (fun a b => Timed.Lockstep timeout timeout' (Option.Rel S) (visit a)
      (visit' b)) as bs) (clock : Stream' T) :
    cutAt timeout visit as clock = cutAt timeout' visit' bs clock := by
  induction h generalizing clock with
  | nil => rfl
  | @cons a b as bs hab _ ih =>
    have hstep := hab clock
    generalize hx : visit a clock = p at hstep
    generalize hy : visit' b clock = q at hstep
    rw [cutAt, cutAt, hx, hy]
    cases hstep with
    -- both go on to the next item, one place further
    | returns e e' rest hrel => exact congrArg (Option.map (· + 1)) (ih rest)
    | timesOut =>
      dsimp only
      rw [if_pos rfl, if_pos rfl]
    | raises e e' he he' =>
      dsimp only
      rw [if_neg he, if_neg he']

end Trail

end OpenTerms
