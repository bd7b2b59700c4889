import OpenTerms.Common.Fallible
import Mathlib.Data.List.Forall2

/-!
# Two computations that behave alike

Two programs in two languages compute with different values and raise
different errors. They are `Alike` when both raise, or both return values
that are related. The relation passes through sequencing, step by step,
so two functions that check and compute in the same order are compared
one line at a time. Lists whose items are related one by one are
`List.Forall₂`; the last section reads facts about one off the other.
-/

namespace OpenTerms

variable {ε ε' α α' β β' : Type}

/-- Both raise, or both return related values. -/
def Alike (R : α → α' → Prop) : Except ε α → Except ε' α' → Prop
  | .ok a, .ok b => R a b
  | .error _, .error _ => True
  | _, _ => False

variable {R : α → α' → Prop}

theorem alike_ok {a : α} {b : α'} (h : R a b) :
    Alike R (.ok a : Except ε α) (.ok b : Except ε' α') := h

theorem alike_error (e : ε) (e' : ε') : Alike R (.error e) (.error e') := trivial

theorem alike_self (x : Except ε α) : Alike Eq x x := by
  cases x with
  | error e => exact alike_error e e
  | ok a => exact alike_ok rfl

/-- **Steps that are alike one by one** are alike in sequence. -/
theorem Alike.bind {S : β → β' → Prop} {x : Except ε α} {y : Except ε' α'}
    {f : α → Except ε β} {g : α' → Except ε' β'} (h : Alike R x y)
    (hf : ∀ a b, R a b → Alike S (f a) (g b)) : Alike S (x >>= f) (y >>= g) := by
  cases x with
  | error e =>
    cases y with
    | error e' => exact trivial
    | ok b => exact absurd h id
  | ok a =>
    cases y with
    | error e' => exact absurd h id
    | ok b => exact hf a b h

theorem Alike.imp {S : α → α' → Prop} {x : Except ε α} {y : Except ε' α'} (h : Alike R x y)
    (himp : ∀ a b, R a b → S a b) : Alike S x y := by
  cases x <;> cases y <;> first | exact h | exact himp _ _ h

/-- Either both return or neither. -/
theorem Alike.succeeds_iff {x : Except ε α} {y : Except ε' α'} (h : Alike R x y) :
    Succeeds x ↔ Succeeds y := by
  cases x with
  | error e =>
    cases y with
    | error e' => exact iff_of_false (not_succeeds_error e) (not_succeeds_error e')
    | ok b => exact h.elim
  | ok a =>
    cases y with
    | error e' => exact h.elim
    | ok b => exact iff_of_true ⟨a, rfl⟩ ⟨b, rfl⟩

/-! ## Related lists -/

/-- What holds of the left of related lists. -/
theorem forall_mem_of_forall₂ {A B : Type} {R : A → B → Prop} {P : A → Prop} {as : List A}
    {bs : List B} (h : List.Forall₂ R as bs) (hP : ∀ a, ∀ b ∈ bs, R a b → P a) :
    ∀ a ∈ as, P a := by
  induction h with
  | nil => exact List.forall_mem_nil _
  | cons hab _ ih =>
    rw [List.forall_mem_cons]
    exact ⟨hP _ _ List.mem_cons_self hab, ih fun a b hb => hP a b (List.mem_cons_of_mem _ hb)⟩

/-- What the right of related lists keeps, if the left keeps it too. -/
theorem filterMap_sublist_of_forall₂ {A B Y : Type} {f : A → Option Y} {g : B → Option Y}
    {as : List A} {bs : List B} (h : List.Forall₂ (fun a b => ∀ y, g b = some y → f a = some y) as bs) :
    (bs.filterMap g).Sublist (as.filterMap f) := by
  induction h with
  | nil => exact List.Sublist.slnil
  | @cons a b as bs hab _ ih =>
    rw [List.filterMap_cons, List.filterMap_cons]
    cases hg : g b with
    | none =>
      cases f a with
      | none => exact ih
      | some y => exact ih.cons y
    | some y =>
      -- what the right keeps, the left keeps
      rw [hab y hg]
      exact ih.cons_cons y

end OpenTerms
