import OpenTerms.Common.Clock
import Mathlib.Data.List.Forall2

/-!
# Loops that leave a trail

A loop visits its items in order under a clock. A visit may record one
entry, in three lists kept side by side, or raise, and an exception leaves
what was recorded so far. `entries` is what the items record by
themselves, without clock and lists.

`walk_ok` says what the loop leaves when no visit raises, and
`raises_of_walk_error` where an exception comes from.
`walk_cut` compares a loop under a deadline with that: it does the same,
or stops at some item with the entries of those before it. `cutAt` is
which item that is: `walk_of_cutAt` says what a loop cut there has done,
and `walk_of_not_cut` that a loop cut nowhere does what it does without
the deadline.
-/

namespace OpenTerms

/-- One record: who fired, why, and to what effect. -/
structure Entry (I R O : Type) where
  id : I
  reason : R
  outcome : O

/-- The three lists a loop fills. -/
structure Trail (I R O : Type) where
  triggered : List I
  reasons : List R
  outcomes : List O

namespace Trail

variable {A I R O T ε : Type}

/-- Nothing recorded. -/
def empty : Trail I R O := ⟨[], [], []⟩

/-- One record more, at the end of each list. -/
def push (t : Trail I R O) (e : Entry I R O) : Trail I R O :=
  ⟨t.triggered ++ [e.id], t.reasons ++ [e.reason], t.outcomes ++ [e.outcome]⟩

/-- The trail of a list of entries. -/
def ofEntries (es : List (Entry I R O)) : Trail I R O :=
  ⟨es.map Entry.id, es.map Entry.reason, es.map Entry.outcome⟩

theorem push_ofEntries (es : List (Entry I R O)) (e : Entry I R O) :
    (ofEntries es).push e = ofEntries (es ++ [e]) := by
  simp [ofEntries, push]

/-- The loop, and the exception that ended it, if one did. -/
def walk (visit : A → Timed T ε (Option (Entry I R O))) :
    List A → Stream' T → Trail I R O → Trail I R O × Except ε Unit
  | [], _, trail => (trail, .ok ())
  | a :: as, clock, trail =>
    match visit a clock with
    | .error e => (trail, .error e)
    | .ok (none, rest) => walk visit as rest trail
    | .ok (some entry, rest) => walk visit as rest (trail.push entry)

/-- The item whose visit raises the timeout that ends the loop, counted from
the first; `none` where no timeout does. -/
def cutAt [DecidableEq ε] (timeout : ε) (visit : A → Timed T ε (Option (Entry I R O))) :
    List A → Stream' T → Option ℕ
  | [], _ => none
  | a :: as, clock =>
    match visit a clock with
    | .error e => if e = timeout then some 0 else none
    | .ok (_, rest) => (cutAt timeout visit as rest).map (· + 1)

/-- What an item records, when its visit returns. -/
def recorded (f : A → Except ε (Option (Entry I R O))) (a : A) : Option (Entry I R O) :=
  match f a with
  | .ok e => e
  | .error _ => none

/-- What a list of items records. -/
def entries (f : A → Except ε (Option (Entry I R O))) (as : List A) : List (Entry I R O) :=
  as.filterMap (recorded f)

/-- The visit of an item returns. -/
def Returns (f : A → Except ε (Option (Entry I R O))) (a : A) : Prop := ∃ e, f a = .ok e

section

variable {visit : A → Timed T ε (Option (Entry I R O))}
  {f : A → Except ε (Option (Entry I R O))}

theorem entries_cons {a : A} {e : Option (Entry I R O)} (h : f a = .ok e) (as : List A) :
    entries f (a :: as) = e.toList ++ entries f as := by
  have hentry : recorded f a = e := by rw [recorded, h]
  unfold entries
  rw [List.filterMap_cons, hentry]
  cases e <;> rfl

/-- What the first items record comes first. -/
theorem entries_take (f : A → Except ε (Option (Entry I R O))) (as : List A) (k : ℕ) :
    entries f (as.take k) = (entries f as).take (entries f (as.take k)).length := by
  conv_rhs => rw [← List.take_append_drop k as]
  unfold entries
  rw [List.filterMap_append, List.take_append_drop k as, List.take_left]

/-- What a list records, where a predicate says who does. -/
theorem entries_eq_filter {B : Type} {p : B → Bool} {e : B → Entry I R O} {as : List A}
    {bs : List B}
    (h : List.Forall₂ (fun a b => recorded f a = if p b then some (e b) else none) as bs) :
    entries f as = (bs.filter p).map e := by
  unfold entries
  induction h with
  | nil => rfl
  | @cons a b as bs hab _ ih =>
    rw [List.filterMap_cons, hab, List.filter_cons, ih]
    cases p b <;> rfl

/-- The trail after a visit that returns. -/
theorem walk_cons_ok {a : A} {e : Option (Entry I R O)} {clock rest : Stream' T}
    (h : visit a clock = .ok (e, rest)) (as : List A) (done : List (Entry I R O)) :
    walk visit (a :: as) clock (ofEntries done)
      = walk visit as rest (ofEntries (done ++ e.toList)) := by
  rw [walk, h]
  cases e with
  | none => rw [Option.toList_none, List.append_nil]
  | some e => simp only [push_ofEntries, Option.toList_some]

theorem walk_cons_error {a : A} {e : ε} {clock : Stream' T} (h : visit a clock = .error e)
    (as : List A) (done : List (Entry I R O)) :
    walk visit (a :: as) clock (ofEntries done) = (ofEntries done, .error e) := by
  rw [walk, h]

/-- **A loop no visit interrupts** records what each item does, in order. -/
theorem walk_ok {as : List A} (hv : ∀ a ∈ as, Timed.Untimed (visit a) (f a))
    (hf : ∀ a ∈ as, Returns f a) (clock : Stream' T) (done : List (Entry I R O)) :
    walk visit as clock (ofEntries done) = (ofEntries (done ++ entries f as), .ok ()) := by
  induction as generalizing done with
  | nil => simp [walk, entries]
  | cons a as ih =>
    rw [List.forall_mem_cons] at hv hf
    obtain ⟨e, he⟩ := hf.1
    have hvisit : visit a clock = .ok (e, clock) := by rw [hv.1 clock, he]; rfl
    rw [walk_cons_ok hvisit, ih hv.2 hf.2, entries_cons he, List.append_assoc]

/-- **A loop that ends by itself** was interrupted by no visit. -/
theorem returns_of_walk_ok {as : List A} (hv : ∀ a ∈ as, Timed.Untimed (visit a) (f a))
    {clock : Stream' T} {done : List (Entry I R O)}
    (h : (walk visit as clock (ofEntries done)).2 = .ok ()) : ∀ a ∈ as, Returns f a := by
  induction as generalizing done with
  | nil => simp
  | cons a as ih =>
    rw [List.forall_mem_cons] at hv ⊢
    cases hfa : f a with
    | error e =>
      have hvisit : visit a clock = .error e := by rw [hv.1 clock, hfa]; rfl
      rw [walk_cons_error hvisit] at h
      cases h
    | ok e =>
      have hvisit : visit a clock = .ok (e, clock) := by rw [hv.1 clock, hfa]; rfl
      rw [walk_cons_ok hvisit] at h
      exact ⟨⟨e, hfa⟩, ih hv.2 h⟩

/-- What a loop raises, an item raises. -/
theorem raises_of_walk_error {as : List A} (hv : ∀ a ∈ as, Timed.Untimed (visit a) (f a))
    {clock : Stream' T} {done : List (Entry I R O)} {e : ε}
    (h : (walk visit as clock (ofEntries done)).2 = .error e) : ∃ a ∈ as, f a = .error e := by
  induction as generalizing done with
  | nil => cases h
  | cons a as ih =>
    rw [List.forall_mem_cons] at hv
    cases hfa : f a with
    | error e' =>
      have hvisit : visit a clock = .error e' := by rw [hv.1 clock, hfa]; rfl
      rw [walk_cons_error hvisit] at h
      obtain rfl := Except.error.inj h
      exact ⟨a, List.mem_cons_self, hfa⟩
    | ok e' =>
      have hvisit : visit a clock = .ok (e', clock) := by rw [hv.1 clock, hfa]; rfl
      rw [walk_cons_ok hvisit] at h
      obtain ⟨b, hb, hfb⟩ := ih hv.2 h
      exact ⟨b, List.mem_cons_of_mem _ hb, hfb⟩

/-- **A loop under a deadline** does what it does without one, or stops
with the timeout at an item, having recorded what the items before it do. -/
theorem walk_cut {visit' : A → Timed T ε (Option (Entry I R O))} {timeout : ε} {as : List A}
    (hv : ∀ a ∈ as, Timed.Untimed (visit a) (f a))
    (hv' : ∀ a ∈ as, Timed.Cut timeout (visit' a) (f a)) (clock clock' : Stream' T)
    (done : List (Entry I R O)) :
    walk visit' as clock' (ofEntries done) = walk visit as clock (ofEntries done)
      ∨ ∃ k, (∀ a ∈ as.take k, Returns f a)
        ∧ walk visit' as clock' (ofEntries done)
          = (ofEntries (done ++ entries f (as.take k)), .error timeout) := by
  induction as generalizing done clock' with
  | nil => exact Or.inl rfl
  | cons a as ih =>
    rw [List.forall_mem_cons] at hv hv'
    rcases hv'.1 clock' with hres | htimeout
    · cases hvisit : visit' a clock' with
      | error e =>
        -- the visit raises, as it does without a deadline
        rw [Timed.result, hvisit] at hres
        have hplain : visit a clock = .error e := by rw [hv.1 clock, ← hres]; rfl
        exact Or.inl (by rw [walk_cons_error hvisit, walk_cons_error hplain])
      | ok p =>
        obtain ⟨e, rest⟩ := p
        rw [Timed.result, hvisit] at hres
        have hplain : visit a clock = .ok (e, clock) := by rw [hv.1 clock, ← hres]; rfl
        rw [walk_cons_ok hvisit, walk_cons_ok hplain]
        refine (ih hv.2 hv'.2 rest (done ++ e.toList)).imp_right ?_
        rintro ⟨k, hk, hwalk⟩
        refine ⟨k + 1, ?_, ?_⟩
        · rw [List.take_succ_cons, List.forall_mem_cons]
          exact ⟨⟨e, hres.symm⟩, hk⟩
        · rw [hwalk, List.take_succ_cons, entries_cons hres.symm, List.append_assoc]
    · refine Or.inr ⟨0, by simp, ?_⟩
      rw [walk_cons_error htimeout]
      simp [entries]

/-- **A loop that is cut at an item** has passed those before it. -/
theorem walk_of_cutAt [DecidableEq ε] {timeout : ε} {as : List A} {clock : Stream' T} {n : ℕ}
    (done : List (Entry I R O)) (h : cutAt timeout visit as clock = some n) :
    n < as.length ∧ ∃ es, walk visit (as.take n) clock (ofEntries done) = (ofEntries es, .ok ())
      ∧ walk visit as clock (ofEntries done) = (ofEntries es, .error timeout) := by
  induction as generalizing clock n done with
  | nil => cases h
  | cons a as ih =>
    cases hvisit : visit a clock with
    | error e =>
      -- the visit raises, and the loop is cut here if that is the timeout
      rw [cutAt, hvisit] at h
      dsimp only at h
      split_ifs at h with he
      obtain rfl := Option.some.inj h
      subst he
      exact ⟨Nat.succ_pos _, done, rfl, walk_cons_error hvisit as done⟩
    | ok p =>
      obtain ⟨e, rest⟩ := p
      rw [cutAt, hvisit] at h
      -- cut later on, with what this visit records in the trail
      obtain ⟨m, hm, rfl⟩ := Option.map_eq_some_iff.mp h
      obtain ⟨hlt, es, htake, hall⟩ := ih (done ++ e.toList) hm
      refine ⟨Nat.succ_lt_succ hlt, es, ?_, ?_⟩
      · rw [List.take_succ_cons, walk_cons_ok hvisit, htake]
      · rw [walk_cons_ok hvisit, hall]

/-- A loop that is cut at no item does not end in a timeout. -/
theorem walk_of_cutAt_none [DecidableEq ε] {timeout : ε} {as : List A} {clock : Stream' T}
    (done : List (Entry I R O)) (h : cutAt timeout visit as clock = none) :
    (walk visit as clock (ofEntries done)).2 ≠ .error timeout := by
  induction as generalizing clock done with
  | nil =>
    intro heq
    cases heq
  | cons a as ih =>
    cases hvisit : visit a clock with
    | error e =>
      rw [cutAt, hvisit] at h
      dsimp only at h
      split_ifs at h with he
      rw [walk_cons_error hvisit]
      exact fun heq => he (Except.error.inj heq)
    | ok p =>
      obtain ⟨e, rest⟩ := p
      rw [cutAt, hvisit] at h
      rw [walk_cons_ok hvisit]
      exact ih _ (Option.map_eq_none_iff.mp h)

/-- **A loop that is cut nowhere** does what it does without a deadline. -/
theorem walk_of_not_cut [DecidableEq ε] {visit' : A → Timed T ε (Option (Entry I R O))}
    {timeout : ε} {as : List A} (hv : ∀ a ∈ as, Timed.Untimed (visit a) (f a))
    (hv' : ∀ a ∈ as, Timed.Cut timeout (visit' a) (f a)) {clock clock' : Stream' T}
    (done : List (Entry I R O)) (h : cutAt timeout visit' as clock' = none) :
    walk visit' as clock' (ofEntries done) = walk visit as clock (ofEntries done) := by
  rcases walk_cut hv hv' clock clock' done with heq | ⟨k, -, hcut⟩
  · exact heq
  · exact absurd (congrArg Prod.snd hcut) (walk_of_cutAt_none done h)

end

end Trail

end OpenTerms
