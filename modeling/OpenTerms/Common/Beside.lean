import OpenTerms.Common.Threads
import Mathlib.Data.List.Forall2
import Mathlib.Data.Option.Basic

/-!
# Two systems side by side

Two programs run beside each other (`Prog.Beside`) when they perform alike
operations, go on beside each other whatever alike answers they get, and
end alike. Where two systems have such programs, and answer alike
operations alike, callers that make alike moves see the same of both: each
move can be made in both or in neither, and what the two record is alike,
event by event (`Systems.run`). What alike means of operations, answers,
calls and results is the user's.
-/

namespace OpenTerms

section

variable {Op Op' : Type} {Ans : Op → Type} {Ans' : Op' → Type}
variable {ε ε' ρ ρ' α α' β β' κ κ' σ σ' ι I I' : Type}

/-! ## Programs -/

/-- The programs perform operations that `O` relates, under answers that `P`
does, and end as `R` says. -/
inductive Prog.Beside (O : Op → Op' → Prop) (P : Performed Ans → Performed Ans' → Prop)
    (R : Except ε α → Except ε' α' → Prop) : Prog Op Ans ε α → Prog Op' Ans' ε' α' → Prop
  | done {r : Except ε α} {r' : Except ε' α'} (h : R r r') : Beside O P R (.done r) (.done r')
  | perform {o : Op} {o' : Op'} {next : Ans o → Prog Op Ans ε α}
      {next' : Ans' o' → Prog Op' Ans' ε' α'} (ho : O o o')
      (hnext : ∀ ans ans', P ⟨o, ans⟩ ⟨o', ans'⟩ → Beside O P R (next ans) (next' ans')) :
      Beside O P R (.perform o next) (.perform o' next')

namespace Prog

variable {O : Op → Op' → Prop} {P : Performed Ans → Performed Ans' → Prop}
variable {R : Except ε β → Except ε' β' → Prop}

/-- A sequence runs beside a sequence where the first parts do, as long as
what they end in goes on side by side. -/
theorem Beside.bind {p : Prog Op Ans ε α} {p' : Prog Op' Ans' ε' α'} {f : α → Prog Op Ans ε β}
    {f' : α' → Prog Op' Ans' ε' β'}
    (h : p.Beside O P (fun r r' => (Prog.done r >>= f).Beside O P R (Prog.done r' >>= f')) p') :
    (p >>= f).Beside O P R (p' >>= f') := by
  induction h with
  | done h => exact h
  | perform ho _ ih => exact .perform ho ih

/-- A weaker end. -/
theorem Beside.imp {R' : Except ε β → Except ε' β' → Prop} {p : Prog Op Ans ε β}
    {p' : Prog Op' Ans' ε' β'} (h : p.Beside O P R p') (hR : ∀ r r', R r r' → R' r r') :
    p.Beside O P R' p' := by
  induction h with
  | done h => exact .done (hR _ _ h)
  | perform ho _ ih => exact .perform ho ih

end Prog

/-! ## Systems -/

/-- Two systems, and what is alike between them: their states, what comes
in, the calls, the operations, what is performed, and how calls end. -/
structure Systems (Op Op' : Type) (Ans : Op → Type) (Ans' : Op' → Type)
    (ε ε' ρ ρ' κ κ' σ σ' I I' : Type) where
  left : System Op Ans ε ρ κ σ I
  right : System Op' Ans' ε' ρ' κ' σ' I'
  State : σ → σ' → Prop
  Input : I → I' → Prop
  Call : κ → κ' → Prop
  Does : Op → Op' → Prop
  Did : Performed Ans → Performed Ans' → Prop
  Ends : κ → κ' → Except ε ρ → Except ε' ρ' → Prop
  /-- Alike calls are programs that run side by side. -/
  body : ∀ {k k'}, Call k k' → (left.body k).Beside Does Did (Ends k k') (right.body k')
  /-- Alike operations are answered alike, and leave alike states. -/
  handle : ∀ {s s' input input' o o'}, State s s' → Input input input' → Does o o' →
    Did ⟨o, (left.handle s input o).1⟩ ⟨o', (right.handle s' input' o').1⟩
      ∧ State (left.handle s input o).2 (right.handle s' input' o').2

namespace Systems

variable (S : Systems Op Op' Ans Ans' ε ε' ρ ρ' κ κ' σ σ' I I')

/-- Calls that are equally far. -/
structure SameThread (t : Thread Op Ans ε ρ κ) (t' : Thread Op' Ans' ε' ρ' κ') : Prop where
  call : S.Call t.call t'.call
  trace : List.Forall₂ S.Did t.trace t'.trace
  rest : t.rest.Beside S.Does S.Did (S.Ends t.call t'.call) t'.rest

/-- Events of one caller that are alike. -/
inductive SameEvent : Event Ans ε ρ κ ι → Event Ans' ε' ρ' κ' ι → Prop
  | called {i : ι} {k : κ} {k' : κ'} (h : S.Call k k') : SameEvent (.called i k) (.called i k')
  | performed {i : ι} {k : κ} {k' : κ'} {x : Performed Ans} {x' : Performed Ans'} (h : S.Call k k')
      (hx : S.Did x x') : SameEvent (.performed i k x) (.performed i k' x')
  | returned {i : ι} {k : κ} {k' : κ'} {r : Except ε ρ} {r' : Except ε' ρ'} (h : S.Call k k')
      (hr : S.Ends k k' r r') : SameEvent (.returned i k r) (.returned i k' r')

/-- Configurations that are alike. -/
structure Same (c : Config Op Ans ε ρ κ ι σ) (c' : Config Op' Ans' ε' ρ' κ' ι σ') : Prop where
  shared : S.State c.shared c'.shared
  threads : ∀ i, Option.Rel S.SameThread (c.threads i) (c'.threads i)
  history : List.Forall₂ S.SameEvent c.history c'.history

/-- Moves of one caller that are alike. -/
inductive SameMove : Move κ ι I → Move κ' ι I' → Prop
  | call {i : ι} {k : κ} {k' : κ'} (h : S.Call k k') : SameMove (.call i k) (.call i k')
  | step {i : ι} {input : I} {input' : I'} (h : S.Input input input') :
      SameMove (.step i input) (.step i input')

variable {S}

theorem same_start {s : σ} {s' : σ'} (h : S.State s s') :
    S.Same (.start s : Config Op Ans ε ρ κ ι σ) (.start s') :=
  ⟨h, fun _ => .none, .nil⟩

variable [DecidableEq ι] {c : Config Op Ans ε ρ κ ι σ} {c' : Config Op' Ans' ε' ρ' κ' ι σ'}

/-- One caller's thread replaced in both. -/
theorem Same.update (h : S.Same c c') {i : ι} {t : Option (Thread Op Ans ε ρ κ)}
    {t' : Option (Thread Op' Ans' ε' ρ' κ')} (ht : Option.Rel S.SameThread t t') :
    ∀ j, Option.Rel S.SameThread (Function.update c.threads i t j)
      (Function.update c'.threads i t' j) := by
  intro j
  simp only [Function.update_apply]
  by_cases hj : j = i
  · rw [if_pos hj, if_pos hj]
    exact ht
  · rw [if_neg hj, if_neg hj]
    exact h.threads j

/-- **One move** can be made in both or in neither, and leaves them alike. -/
theorem Same.move (h : S.Same c c') {m : Move κ ι I} {m' : Move κ' ι I'} (hm : S.SameMove m m') :
    Option.Rel S.Same (S.left.move c m) (S.right.move c' m') := by
  cases hm with
  | @call i k k' hk =>
    have hi := h.threads i
    unfold System.move
    dsimp only
    generalize c.threads i = t, c'.threads i = t' at hi
    cases hi with
    | none =>
      exact .some ⟨h.shared, h.update (.some ⟨hk, .nil, S.body hk⟩), .cons (.called hk) h.history⟩
    | some _ => exact .none
  | @step i input input' hinput =>
    have hi := h.threads i
    unfold System.move
    dsimp only
    generalize c.threads i = t, c'.threads i = t' at hi
    cases hi with
    | none => exact .none
    | @some t t' ht =>
      obtain ⟨k, trace, p⟩ := t
      obtain ⟨k', trace', p'⟩ := t'
      obtain ⟨hk, htrace, hrest⟩ := ht
      cases hrest with
      | done hend => exact .some ⟨h.shared, h.update .none, .cons (.returned hk hend) h.history⟩
      | perform ho hnext =>
        obtain ⟨hdid, hstate⟩ := S.handle h.shared hinput ho
        exact .some ⟨hstate, h.update (.some ⟨hk, .cons hdid htrace, hnext _ _ hdid⟩),
          .cons (.performed hk hdid) h.history⟩

/-- **Whole runs.** Alike moves lead to alike configurations, whatever the
order the callers move in, or can be made in neither system. -/
theorem Same.run (h : S.Same c c') {ms : List (Move κ ι I)} {ms' : List (Move κ' ι I')}
    (hms : List.Forall₂ S.SameMove ms ms') :
    Option.Rel S.Same (S.left.run (fun _ _ => true) c ms) (S.right.run (fun _ _ => true) c' ms') := by
  induction hms generalizing c c' with
  | nil => exact .some h
  | @cons m m' ms ms' hm _ ih =>
    unfold System.run
    rw [List.foldlM_cons, List.foldlM_cons, if_pos rfl, if_pos rfl]
    have hmoved := h.move hm
    generalize S.left.move c m = d, S.right.move c' m' = d' at hmoved
    cases hmoved with
    | none => exact .none
    | some hd => exact ih hd

end Systems

end

end OpenTerms
