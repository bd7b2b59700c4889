import OpenTerms.Common.Fallible

/-!
# Programs over atomic operations

A program performs operations one at a time. Each is answered from
outside, and the rest of the program follows from the answer; in the end
it returns or raises. Nothing is said here of what the operations do, so
the same program runs alone or among others.

`Keeps` is the rule programs are proved by. It says which operations a
program performs and how it ends, as long as the answers are as promised;
what the answers are is the business of whoever gives them.
-/

namespace OpenTerms

variable {Op : Type} {Ans : Op → Type} {ε α β : Type}

/-- An operation performed, with its answer. -/
structure Performed (Ans : Op → Type) where
  op : Op
  ans : Ans op

/-- A program that returns an `α` or raises an `ε`. -/
inductive Prog (Op : Type) (Ans : Op → Type) (ε α : Type) where
  | done (r : Except ε α)
  | perform (op : Op) (next : Ans op → Prog Op Ans ε α)

namespace Prog

/-- One operation, and its answer returned. -/
def op (o : Op) : Prog Op Ans ε (Ans o) := .perform o fun ans => .done (.ok ans)

def bind : Prog Op Ans ε α → (α → Prog Op Ans ε β) → Prog Op Ans ε β
  | .done (.ok a), f => f a
  | .done (.error e), _ => .done (.error e)
  | .perform o next, f => .perform o fun ans => (next ans).bind f

instance : Monad (Prog Op Ans ε) where
  pure a := .done (.ok a)
  bind := bind

instance : MonadLift (Except ε) (Prog Op Ans ε) := ⟨.done⟩

/-- `try` and `except`: what is raised goes to the handler. -/
def tryCatch : Prog Op Ans ε α → (ε → Prog Op Ans ε α) → Prog Op Ans ε α
  | .done (.ok a), _ => .done (.ok a)
  | .done (.error e), handler => handler e
  | .perform o next, handler => .perform o fun ans => (next ans).tryCatch handler

instance : MonadExceptOf ε (Prog Op Ans ε) where
  throw e := .done (.error e)
  tryCatch := tryCatch

@[simp] theorem pure_eq (a : α) : (pure a : Prog Op Ans ε α) = .done (.ok a) := rfl

@[simp] theorem done_ok_bind (a : α) (f : α → Prog Op Ans ε β) : (.done (.ok a) >>= f) = f a := rfl

@[simp] theorem done_error_bind (e : ε) (f : α → Prog Op Ans ε β) :
    (.done (.error e) >>= f) = .done (.error e) := rfl

@[simp] theorem perform_bind (o : Op) (next : Ans o → Prog Op Ans ε α) (f : α → Prog Op Ans ε β) :
    (.perform o next >>= f) = .perform o fun ans => next ans >>= f := rfl

@[simp] theorem op_bind (o : Op) (f : Ans o → Prog Op Ans ε β) : (op o >>= f) = .perform o f := rfl

@[simp] theorem lift_eq (x : Except ε α) : (liftM x : Prog Op Ans ε α) = .done x := rfl

@[simp] theorem throw_eq (e : ε) : (throw e : Prog Op Ans ε α) = .done (.error e) := rfl

@[simp] theorem tryCatch_done_ok (a : α) (handler : ε → Prog Op Ans ε α) :
    (Prog.done (.ok a)).tryCatch handler = .done (.ok a) := rfl

@[simp] theorem tryCatch_done_error (e : ε) (handler : ε → Prog Op Ans ε α) :
    (Prog.done (.error e)).tryCatch handler = handler e := rfl

@[simp] theorem tryCatch_perform (o : Op) (next : Ans o → Prog Op Ans ε α)
    (handler : ε → Prog Op Ans ε α) :
    (Prog.perform o next).tryCatch handler = .perform o fun ans => (next ans).tryCatch handler := rfl

/-! ## The rule -/

/-- After the operations in `trace`, the newest first, the program performs
operations that `G` lets it, and ends as `Q` says, as long as the answers
are what `A` promises. -/
def Keeps (G : List (Performed Ans) → Op → Prop) (A : (o : Op) → Ans o → Prop)
    (Q : List (Performed Ans) → Except ε α → Prop) :
    Prog Op Ans ε α → List (Performed Ans) → Prop
  | .done r, trace => Q trace r
  | .perform o next, trace =>
    G trace o ∧ ∀ ans, A o ans → (next ans).Keeps G A Q (⟨o, ans⟩ :: trace)

variable {G : List (Performed Ans) → Op → Prop} {A : (o : Op) → Ans o → Prop}
variable {Q : List (Performed Ans) → Except ε β → Prop} {trace : List (Performed Ans)}

@[simp] theorem keeps_done {r : Except ε β} : (Prog.done r).Keeps G A Q trace ↔ Q trace r := Iff.rfl

@[simp] theorem keeps_perform {o : Op} {next : Ans o → Prog Op Ans ε β} :
    (Prog.perform o next).Keeps G A Q trace
      ↔ G trace o ∧ ∀ ans, A o ans → (next ans).Keeps G A Q (⟨o, ans⟩ :: trace) := Iff.rfl

/-- What the first part of a sequence has to end in. -/
def Then (G : List (Performed Ans) → Op → Prop) (A : (o : Op) → Ans o → Prop)
    (Q : List (Performed Ans) → Except ε β → Prop) (f : α → Prog Op Ans ε β)
    (trace : List (Performed Ans)) : Except ε α → Prop
  | .ok a => (f a).Keeps G A Q trace
  | .error e => Q trace (.error e)

/-- A sequence keeps what its first part does, if that ends where the rest
takes over. -/
theorem Keeps.bind {p : Prog Op Ans ε α} {f : α → Prog Op Ans ε β}
    (h : p.Keeps G A (Then G A Q f) trace) : (p >>= f).Keeps G A Q trace := by
  induction p generalizing trace with
  | done r =>
    cases r with
    | ok a => exact h
    | error e => exact h
  | perform o next ih => exact ⟨h.1, fun ans hans => ih ans (h.2 ans hans)⟩

/-- What the guarded part of a `try` has to end in. -/
def Else (G : List (Performed Ans) → Op → Prop) (A : (o : Op) → Ans o → Prop)
    (Q : List (Performed Ans) → Except ε β → Prop) (handler : ε → Prog Op Ans ε β)
    (trace : List (Performed Ans)) : Except ε β → Prop
  | .ok a => Q trace (.ok a)
  | .error e => (handler e).Keeps G A Q trace

/-- A `try` keeps what its guarded part does, if the handler takes over what
that raises. -/
theorem Keeps.tryCatch {p : Prog Op Ans ε β} {handler : ε → Prog Op Ans ε β}
    (h : p.Keeps G A (Else G A Q handler) trace) : (p.tryCatch handler).Keeps G A Q trace := by
  induction p generalizing trace with
  | done r =>
    cases r with
    | ok a => exact h
    | error e => exact h
  | perform o next ih => exact ⟨h.1, fun ans hans => ih ans (h.2 ans hans)⟩

/-- A weaker end. -/
theorem Keeps.imp {Q' : List (Performed Ans) → Except ε β → Prop} {p : Prog Op Ans ε β}
    (h : p.Keeps G A Q trace) (hQ : ∀ tr r, Q tr r → Q' tr r) : p.Keeps G A Q' trace := by
  induction p generalizing trace with
  | done r => exact hQ _ _ h
  | perform o next ih => exact ⟨h.1, fun ans hans => ih ans (h.2 ans hans)⟩

/-- Every program keeps to nothing. -/
theorem keeps_trivial (p : Prog Op Ans ε β) (trace : List (Performed Ans)) :
    p.Keeps (fun _ _ => True) (fun _ _ => True) (fun _ _ => True) trace := by
  induction p generalizing trace with
  | done r => trivial
  | perform o next ih => exact ⟨trivial, fun ans _ => ih ans _⟩

/-- What holds whatever the answers are, read with answers that are as
promised. -/
theorem Keeps.promised {G' : List (Performed Ans) → Op → Prop}
    {Q' : List (Performed Ans) → Except ε β → Prop} {p : Prog Op Ans ε β}
    (h : p.Keeps G (fun _ _ => True) Q trace) (htrace : ∀ x ∈ trace, A x.op x.ans)
    (hG : ∀ tr o, (∀ x ∈ tr, A x.op x.ans) → G tr o → G' tr o)
    (hQ : ∀ tr r, (∀ x ∈ tr, A x.op x.ans) → Q tr r → Q' tr r) : p.Keeps G' A Q' trace := by
  induction p generalizing trace with
  | done r => exact hQ _ _ htrace h
  | perform o next ih =>
    refine ⟨hG _ _ htrace h.1, fun ans hans => ih ans (h.2 ans trivial) ?_⟩
    exact List.forall_mem_cons.mpr ⟨hans, htrace⟩

/-- What a program has performed stays performed. -/
theorem Keeps.suffix {p : Prog Op Ans ε β} (h : p.Keeps G A Q trace) :
    p.Keeps (fun tr o => trace <:+ tr ∧ G tr o) A (fun tr r => trace <:+ tr ∧ Q tr r) trace := by
  have later : ∀ (p : Prog Op Ans ε β) (tr : List (Performed Ans)), trace <:+ tr → p.Keeps G A Q tr →
      p.Keeps (fun tr o => trace <:+ tr ∧ G tr o) A (fun tr r => trace <:+ tr ∧ Q tr r) tr := by
    intro p
    induction p with
    | done r => exact fun tr hsuffix h => ⟨hsuffix, h⟩
    | perform o next ih =>
      intro tr hsuffix h
      exact ⟨⟨hsuffix, h.1⟩,
        fun ans hans => ih ans _ (hsuffix.trans (List.suffix_cons _ _)) (h.2 ans hans)⟩
  exact later p trace List.suffix_rfl h

/-! ## A program alone -/

/-- The program performs the operations of `trace`, in that order, with the
answers there, and ends as `r` says. -/
def Runs : Prog Op Ans ε α → List (Performed Ans) → Except ε α → Prop
  | .done r', trace, r => trace = [] ∧ r' = r
  | .perform o next, trace, r => ∃ ans rest, trace = ⟨o, ans⟩ :: rest ∧ (next ans).Runs rest r

@[simp] theorem runs_done {r r' : Except ε β} :
    (Prog.done r').Runs trace r ↔ trace = [] ∧ r' = r := Iff.rfl

@[simp] theorem runs_perform {o : Op} {next : Ans o → Prog Op Ans ε β} {r : Except ε β} :
    (Prog.perform o next).Runs trace r ↔ ∃ ans rest, trace = ⟨o, ans⟩ :: rest ∧ (next ans).Runs rest r :=
  Iff.rfl

/-- An operation performed and answered. -/
theorem runs_perform_cons {o : Op} {next : Ans o → Prog Op Ans ε β} {ans : Ans o} {r : Except ε β} :
    (Prog.perform o next).Runs (⟨o, ans⟩ :: trace) r ↔ (next ans).Runs trace r := by
  constructor
  · rintro ⟨ans', rest, htrace, hrun⟩
    obtain ⟨h, rfl⟩ := List.cons.inj htrace
    cases h
    exact hrun
  · exact fun hrun => ⟨ans, trace, rfl, hrun⟩

/-- A sequence runs its first part to an error, or to a value and the rest. -/
theorem runs_bind {p : Prog Op Ans ε α} {f : α → Prog Op Ans ε β} {r : Except ε β} :
    (p >>= f).Runs trace r
      ↔ (∃ e, p.Runs trace (.error e) ∧ r = .error e)
        ∨ ∃ a before after, p.Runs before (.ok a) ∧ (f a).Runs after r ∧ trace = before ++ after := by
  induction p generalizing trace with
  | done r' =>
    cases r' with
    | ok a =>
      simp only [done_ok_bind, runs_done, Except.ok.injEq]
      constructor
      · exact fun hrun => .inr ⟨a, [], trace, ⟨rfl, rfl⟩, hrun, rfl⟩
      · rintro (⟨e, ⟨-, h⟩, -⟩ | ⟨_, _, _, ⟨rfl, rfl⟩, hrun, rfl⟩)
        · cases h
        · exact hrun
    | error e =>
      simp only [done_error_bind, runs_done, Except.error.injEq]
      constructor
      · rintro ⟨rfl, rfl⟩
        exact .inl ⟨e, ⟨rfl, rfl⟩, rfl⟩
      · rintro (⟨_, ⟨rfl, rfl⟩, rfl⟩ | ⟨a, _, _, ⟨-, h⟩, -⟩)
        · exact ⟨rfl, rfl⟩
        · cases h
  | perform o next ih =>
    simp only [perform_bind, runs_perform, ih]
    constructor
    · rintro ⟨ans, rest, rfl, ⟨e, hrun, rfl⟩ | ⟨a, before, after, hrun, hrest, rfl⟩⟩
      · exact .inl ⟨e, ⟨ans, rest, rfl, hrun⟩, rfl⟩
      · exact .inr ⟨a, _, after, ⟨ans, before, rfl, hrun⟩, hrest, rfl⟩
    · rintro (⟨e, ⟨ans, rest, rfl, hrun⟩, rfl⟩ | ⟨a, -, after, ⟨ans, before, rfl, hrun⟩, hrest, rfl⟩)
      · exact ⟨ans, rest, rfl, .inl ⟨e, hrun, rfl⟩⟩
      · exact ⟨ans, before ++ after, rfl, .inr ⟨a, before, after, hrun, hrest, rfl⟩⟩

/-- A `try` runs its guarded part to a value, or to an error and the
handler. -/
theorem runs_tryCatch {p : Prog Op Ans ε β} {handler : ε → Prog Op Ans ε β} {r : Except ε β} :
    (p.tryCatch handler).Runs trace r
      ↔ (∃ a, p.Runs trace (.ok a) ∧ r = .ok a)
        ∨ ∃ e before after, p.Runs before (.error e) ∧ (handler e).Runs after r
          ∧ trace = before ++ after := by
  induction p generalizing trace with
  | done r' =>
    cases r' with
    | ok a =>
      simp only [tryCatch_done_ok, runs_done, Except.ok.injEq]
      constructor
      · rintro ⟨rfl, rfl⟩
        exact .inl ⟨a, ⟨rfl, rfl⟩, rfl⟩
      · rintro (⟨_, ⟨rfl, rfl⟩, rfl⟩ | ⟨e, _, _, ⟨-, h⟩, -⟩)
        · exact ⟨rfl, rfl⟩
        · cases h
    | error e =>
      simp only [tryCatch_done_error, runs_done, Except.error.injEq]
      constructor
      · exact fun hrun => .inr ⟨e, [], trace, ⟨rfl, rfl⟩, hrun, rfl⟩
      · rintro (⟨a, ⟨-, h⟩, -⟩ | ⟨_, _, _, ⟨rfl, rfl⟩, hrun, rfl⟩)
        · cases h
        · exact hrun
  | perform o next ih =>
    simp only [tryCatch_perform, runs_perform, ih]
    constructor
    · rintro ⟨ans, rest, rfl, ⟨a, hrun, rfl⟩ | ⟨e, before, after, hrun, hrest, rfl⟩⟩
      · exact .inl ⟨a, ⟨ans, rest, rfl, hrun⟩, rfl⟩
      · exact .inr ⟨e, _, after, ⟨ans, before, rfl, hrun⟩, hrest, rfl⟩
    · rintro (⟨a, ⟨ans, rest, rfl, hrun⟩, rfl⟩ | ⟨e, -, after, ⟨ans, before, rfl, hrun⟩, hrest, rfl⟩)
      · exact ⟨ans, rest, rfl, .inl ⟨a, hrun, rfl⟩⟩
      · exact ⟨ans, before ++ after, rfl, .inr ⟨e, before, after, hrun, hrest, rfl⟩⟩

/-- The run in which every operation is answered by `answer`. -/
def play (answer : (o : Op) → Ans o) : Prog Op Ans ε α → List (Performed Ans) × Except ε α
  | .done r => ([], r)
  | .perform o next =>
    (⟨o, answer o⟩ :: ((next (answer o)).play answer).1, ((next (answer o)).play answer).2)

/-- Whatever the answers, there is a run. -/
theorem runs_play (answer : (o : Op) → Ans o) (p : Prog Op Ans ε β) :
    p.Runs (p.play answer).1 (p.play answer).2 := by
  induction p with
  | done r => exact ⟨rfl, rfl⟩
  | perform o next ih => exact ⟨answer o, _, rfl, ih (answer o)⟩

theorem mem_play {answer : (o : Op) → Ans o} {p : Prog Op Ans ε β} {x : Performed Ans}
    (h : x ∈ (p.play answer).1) : x.ans = answer x.op := by
  induction p with
  | done r => cases h
  | perform o next ih =>
    rcases List.mem_cons.mp h with rfl | h
    · rfl
    · exact ih (answer o) h

/-- Whatever is answered, the program ends as what it keeps to says. -/
theorem Keeps.runs {p : Prog Op Ans ε β} {before : List (Performed Ans)} {r : Except ε β}
    (h : p.Keeps G (fun _ _ => True) Q before) (hrun : p.Runs trace r) :
    Q (trace.reverse ++ before) r := by
  induction p generalizing before trace with
  | done r' =>
    obtain ⟨rfl, rfl⟩ := hrun
    exact h
  | perform o next ih =>
    obtain ⟨ans, rest, rfl, hrest⟩ := hrun
    have hend := ih ans (h.2 ans trivial) hrest
    rwa [List.reverse_cons, List.append_assoc, List.singleton_append]

/-! ## How a program ends -/

/-- A value as `Q` says, or an error as `E` says. -/
def Ends (E : ε → Prop) (Q : α → Prop) : Except ε α → Prop
  | .ok a => Q a
  | .error e => E e

/-- In every run, the program returns what `Q` says or raises what `E`
says. -/
def Yields (E : ε → Prop) (Q : α → Prop) (p : Prog Op Ans ε α) : Prop :=
  ∀ trace r, p.Runs trace r → Ends E Q r

section Yields

variable {E : ε → Prop} {R : α → Prop} {S : β → Prop}

/-- Without an operation, one end. -/
@[simp] theorem yields_done {r : Except ε α} :
    (Prog.done r : Prog Op Ans ε α).Yields E R ↔ Ends E R r := by
  constructor
  · intro h
    exact h [] r ⟨rfl, rfl⟩
  · rintro h trace r' ⟨-, rfl⟩
    exact h

/-- After an operation, whatever its answer. -/
theorem Yields.perform {o : Op} {next : Ans o → Prog Op Ans ε α}
    (h : ∀ ans, (next ans).Yields E R) : (Prog.perform o next).Yields E R := by
  rintro trace r ⟨ans, rest, -, hrun⟩
  exact h ans rest r hrun

/-- **A sequence**, if what its first part returns lets the rest do so. -/
theorem Yields.bind {p : Prog Op Ans ε α} {f : α → Prog Op Ans ε β} (h : p.Yields E R)
    (hf : ∀ a, R a → (f a).Yields E S) : (p >>= f).Yields E S := by
  intro trace r hrun
  rcases runs_bind.mp hrun with ⟨e, hp, rfl⟩ | ⟨a, before, after, hp, hrest, -⟩
  · exact h trace (.error e) hp
  · exact hf a (h before (.ok a) hp) after r hrest

/-- A weaker end. -/
theorem Yields.mono {E' : ε → Prop} {Q : α → Prop} {p : Prog Op Ans ε α} (h : p.Yields E R)
    (hE : ∀ e, E e → E' e) (hQ : ∀ a, R a → Q a) : p.Yields E' Q := by
  intro trace r hrun
  have hend := h trace r hrun
  cases r with
  | ok a => exact hQ a hend
  | error e => exact hE e hend

theorem Yields.imp {Q : α → Prop} {p : Prog Op Ans ε α} (h : p.Yields E R)
    (hQ : ∀ a, R a → Q a) : p.Yields E Q :=
  h.mono (fun _ h => h) hQ

end Yields

/-! ## Which operations, whatever the answers -/

/-- After `trace`, whatever is answered, the program performs operations that
`G` lets it. -/
def Performs (G : List (Performed Ans) → Op → Prop) (p : Prog Op Ans ε α)
    (trace : List (Performed Ans)) : Prop :=
  p.Keeps G (fun _ _ => True) (fun _ _ => True) trace

@[simp] theorem performs_done {r : Except ε β} : Performs G (Prog.done r) trace := trivial

@[simp] theorem performs_perform {o : Op} {next : Ans o → Prog Op Ans ε β} :
    Performs G (Prog.perform o next) trace
      ↔ G trace o ∧ ∀ ans, Performs G (next ans) (⟨o, ans⟩ :: trace) :=
  ⟨fun h => ⟨h.1, fun ans => h.2 ans trivial⟩, fun h => ⟨h.1, fun ans _ => h.2 ans⟩⟩

/-- A sequence, whatever its first part returns and has performed. -/
theorem Performs.bind {p : Prog Op Ans ε α} {f : α → Prog Op Ans ε β} (h : Performs G p trace)
    (hf : ∀ a tr, Performs G (f a) tr) : Performs G (p >>= f) trace := by
  refine Keeps.bind (Keeps.imp h fun tr r _ => ?_)
  cases r with
  | ok a => exact hf a tr
  | error e => trivial

/-- A `try`, whatever its guarded part raises and has performed. -/
theorem Performs.tryCatch {p : Prog Op Ans ε β} {handler : ε → Prog Op Ans ε β}
    (h : Performs G p trace) (hhandler : ∀ e tr, Performs G (handler e) tr) :
    Performs G (p.tryCatch handler) trace := by
  refine Keeps.tryCatch (Keeps.imp h fun tr r _ => ?_)
  cases r with
  | ok a => trivial
  | error e => exact hhandler e tr

/-- Where `G` lets every operation be performed from some point on, every
program will do. -/
theorem performs_of_forall {p : Prog Op Ans ε β} {D : List (Performed Ans) → Prop}
    (hD : ∀ tr x, D tr → D (x :: tr)) (hG : ∀ tr o, D tr → G tr o) (htrace : D trace) :
    Performs G p trace := by
  induction p generalizing trace with
  | done r => trivial
  | perform o next ih => exact ⟨hG trace o htrace, fun ans _ => ih ans (hD trace _ htrace)⟩

/-- **In a run** each operation is one that may be performed where it is. -/
theorem Performs.at {p : Prog Op Ans ε β} {before pre post : List (Performed Ans)}
    {x : Performed Ans} {r : Except ε β} (h : Performs G p before)
    (hrun : p.Runs (pre ++ x :: post) r) : G (pre.reverse ++ before) x.op := by
  induction p generalizing before pre with
  | done r' =>
    obtain ⟨hnil, -⟩ := hrun
    cases pre <;> cases hnil
  | perform o next ih =>
    obtain ⟨ans, rest, htrace, hrest⟩ := hrun
    cases pre with
    | nil =>
      obtain ⟨rfl, rfl⟩ := List.cons.inj htrace
      exact h.1
    | cons y pre =>
      obtain ⟨rfl, rfl⟩ := List.cons.inj htrace
      have hlater := ih ans (h.2 ans trivial) hrest
      rwa [List.reverse_cons, List.append_assoc, List.singleton_append]

end Prog

end OpenTerms
