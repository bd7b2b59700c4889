import OpenTerms.Common.Program
import Mathlib.Data.List.Monad
import Mathlib.Logic.Function.Basic

/-!
# Callers sharing a state

Any number of callers make calls, each call a program over atomic
operations on what they share. A move is one caller's: an idle one makes
a call, a busy one performs its next operation or returns. Which caller
moves, and what comes in from outside at each move, is arbitrary: a run
is any sequence of moves, so every interleaving is a run. One caller
alone (`ι` a singleton) is the sequential case.

`Reaches.keeps` is the rule runs are proved by. What the shared state
satisfies tells a program what its answers are, and what the program
keeps to tells how the shared state changes.
-/

namespace OpenTerms

section

variable {Op : Type} {Ans : Op → Type} {ε ρ κ ι σ I : Type}

/-- A call under way: what it has performed, newest first, and the rest. -/
structure Thread (Op : Type) (Ans : Op → Type) (ε ρ κ : Type) where
  call : κ
  trace : List (Performed Ans)
  rest : Prog Op Ans ε ρ

/-- What a run records. -/
inductive Event (Ans : Op → Type) (ε ρ κ ι : Type) where
  | called (i : ι) (k : κ)
  | performed (i : ι) (k : κ) (p : Performed Ans)
  | returned (i : ι) (k : κ) (r : Except ε ρ)

theorem Event.called_ne_performed (i : ι) (k : κ) :
    ∀ j k' x, (.called i k : Event Ans ε ρ κ ι) ≠ .performed j k' x := by
  rintro j k' x ⟨⟩

theorem Event.returned_ne_performed (i : ι) (k : κ) (r : Except ε ρ) :
    ∀ j k' x, (.returned i k r : Event Ans ε ρ κ ι) ≠ .performed j k' x := by
  rintro j k' x ⟨⟩

/-- The shared state, the calls under way, and the events so far, newest
first. -/
structure Config (Op : Type) (Ans : Op → Type) (ε ρ κ ι σ : Type) where
  shared : σ
  threads : ι → Option (Thread Op Ans ε ρ κ)
  history : List (Event Ans ε ρ κ ι)

/-- A caller makes a call, or goes on with the one it made. -/
inductive Move (κ ι I : Type) where
  | call (i : ι) (k : κ)
  | step (i : ι) (input : I)

/-- The operation a move performs, and the call it is part of. -/
def Config.operation (c : Config Op Ans ε ρ κ ι σ) : Move κ ι I → Option (κ × Op)
  | .call _ _ => none
  | .step i _ =>
    match c.threads i with
    | some ⟨k, _, .perform o _⟩ => some (k, o)
    | _ => none

/-- The programs of the calls, and what the operations do to the shared
state, given what comes in from outside. -/
structure System (Op : Type) (Ans : Op → Type) (ε ρ κ σ I : Type) where
  body : κ → Prog Op Ans ε ρ
  handle : σ → I → (o : Op) → Ans o × σ

/-- Nobody has called yet. -/
def Config.start (s : σ) : Config Op Ans ε ρ κ ι σ := ⟨s, fun _ => none, []⟩

variable [DecidableEq ι]

/-- The call of caller `i` ends. -/
def Config.finish (c : Config Op Ans ε ρ κ ι σ) (i : ι) (k : κ) (r : Except ε ρ) :
    Config Op Ans ε ρ κ ι σ where
  shared := c.shared
  threads := Function.update c.threads i none
  history := .returned i k r :: c.history

namespace System

variable (sys : System Op Ans ε ρ κ σ I)

/-- The call `k` of caller `i` begins. -/
def begin (c : Config Op Ans ε ρ κ ι σ) (i : ι) (k : κ) : Config Op Ans ε ρ κ ι σ where
  shared := c.shared
  threads := Function.update c.threads i (some ⟨k, [], sys.body k⟩)
  history := .called i k :: c.history

/-- The call of caller `i` performs `o` and goes on with `next`. -/
def perform (c : Config Op Ans ε ρ κ ι σ) (i : ι) (k : κ) (trace : List (Performed Ans))
    (input : I) (o : Op) (next : Ans o → Prog Op Ans ε ρ) : Config Op Ans ε ρ κ ι σ :=
  let ans := (sys.handle c.shared input o).1
  { shared := (sys.handle c.shared input o).2
    threads := Function.update c.threads i (some ⟨k, ⟨o, ans⟩ :: trace, next ans⟩)
    history := .performed i k ⟨o, ans⟩ :: c.history }

/-- One move, if it can be made. -/
def move (c : Config Op Ans ε ρ κ ι σ) : Move κ ι I → Option (Config Op Ans ε ρ κ ι σ)
  | .call i k =>
    match c.threads i with
    | none => some (sys.begin c i k)
    | some _ => none
  | .step i input =>
    match c.threads i with
    | none => none
    | some ⟨k, _, .done r⟩ => some (c.finish i k r)
    | some ⟨k, trace, .perform o next⟩ => some (sys.perform c i k trace input o next)

/-- What a sequence of moves leads to, if each is one that `may` allows
where it is made. -/
def run (may : Config Op Ans ε ρ κ ι σ → Move κ ι I → Bool) (c : Config Op Ans ε ρ κ ι σ)
    (ms : List (Move κ ι I)) : Option (Config Op Ans ε ρ κ ι σ) :=
  ms.foldlM (fun c m => if may c m then sys.move c m else none) c

/-- What is reached from `c` by moves that `May` allows where they are
made. -/
inductive Reaches (May : Config Op Ans ε ρ κ ι σ → Move κ ι I → Prop)
    (c : Config Op Ans ε ρ κ ι σ) : Config Op Ans ε ρ κ ι σ → Prop where
  | refl : Reaches May c c
  | move {c' c'' : Config Op Ans ε ρ κ ι σ} {m : Move κ ι I} (h : Reaches May c c')
      (may : May c' m) (hm : sys.move c' m = some c'') : Reaches May c c''

variable {sys} {May : Config Op Ans ε ρ κ ι σ → Move κ ι I → Prop}
variable {c c' c'' : Config Op Ans ε ρ κ ι σ}

theorem Reaches.trans (h : sys.Reaches May c c') (h' : sys.Reaches May c' c'') :
    sys.Reaches May c c'' := by
  induction h' with
  | refl => exact h
  | move _ may hm ih => exact .move ih may hm

theorem Reaches.mono {May' : Config Op Ans ε ρ κ ι σ → Move κ ι I → Prop}
    (h : sys.Reaches May c c') (himp : ∀ d m, May d m → May' d m) : sys.Reaches May' c c' := by
  induction h with
  | refl => exact .refl
  | move _ may hm ih => exact .move ih (himp _ _ may) hm

/-- A sequence of moves reaches where it leads. -/
theorem reaches_of_run {may : Config Op Ans ε ρ κ ι σ → Move κ ι I → Bool} {ms : List (Move κ ι I)}
    (hmay : ∀ c m, may c m = true → May c m) (h : sys.run may c ms = some c') :
    sys.Reaches May c c' := by
  induction ms generalizing c with
  | nil =>
    cases h
    exact .refl
  | cons m ms ih =>
    rw [run, List.foldlM_cons, Option.bind_eq_bind, Option.bind_eq_some_iff] at h
    obtain ⟨c₁, hm, hms⟩ := h
    split_ifs at hm with hallowed
    exact (Reaches.move .refl (hmay c m hallowed) hm).trans (ih hms)

/-- What a move does. -/
theorem move_cases {m : Move κ ι I} (h : sys.move c m = some c') :
    (∃ i k, m = .call i k ∧ c.threads i = none ∧ c' = sys.begin c i k)
      ∨ (∃ i input k trace o next, m = .step i input
          ∧ c.threads i = some ⟨k, trace, .perform o next⟩
          ∧ c' = sys.perform c i k trace input o next)
      ∨ ∃ i input k trace r, m = .step i input
          ∧ c.threads i = some ⟨k, trace, .done r⟩ ∧ c' = c.finish i k r := by
  cases m with
  | call i k =>
    left
    cases hi : c.threads i with
    | none =>
      simp only [move, hi] at h
      exact ⟨i, k, rfl, hi, (Option.some.inj h).symm⟩
    | some t => simp [move, hi] at h
  | step i input =>
    right
    cases hi : c.threads i with
    | none => simp [move, hi] at h
    | some t =>
      obtain ⟨k, trace, p⟩ := t
      cases p with
      | done r =>
        simp only [move, hi] at h
        exact .inr ⟨i, input, k, trace, r, rfl, hi, (Option.some.inj h).symm⟩
      | perform o next =>
        simp only [move, hi] at h
        exact .inl ⟨i, input, k, trace, o, next, rfl, hi, (Option.some.inj h).symm⟩

/-- A step after which the caller is still busy performed an operation, now
the newest of its call. -/
theorem performed_of_step {i : ι} {input : I} (h : sys.move c (.step i input) = some c')
    {t : Thread Op Ans ε ρ κ} (ht : c'.threads i = some t) :
    ∃ trace o next, c.threads i = some ⟨t.call, trace, .perform o next⟩
      ∧ c' = sys.perform c i t.call trace input o next
      ∧ t.trace = ⟨o, (sys.handle c.shared input o).1⟩ :: trace := by
  obtain ⟨j, k, hm, -⟩ | ⟨j, input', k, trace, o, next, hm, hj, rfl⟩
    | ⟨j, input', k, trace, r, hm, -, rfl⟩ := move_cases h
  · cases hm
  · cases hm
    simp only [perform, Function.update_self, Option.some.injEq] at ht
    subst ht
    exact ⟨trace, o, next, hj, rfl, rfl⟩
  · cases hm
    simp [Config.finish] at ht

/-- What a call under way has performed is on record. -/
theorem Reaches.recorded {s : σ} (h : sys.Reaches May (.start s) c) :
    ∀ i t, c.threads i = some t → ∀ x ∈ t.trace, .performed i t.call x ∈ c.history := by
  induction h with
  | refl => exact fun _ _ h => nomatch h
  | move _ _ hm ih =>
    intro j t hj x hx
    obtain ⟨i, k, rfl, hi, rfl⟩ | ⟨i, input, k, trace, o, next, rfl, hi, rfl⟩
      | ⟨i, input, k, trace, r, rfl, hi, rfl⟩ := move_cases hm
    · simp only [begin, Function.update_apply] at hj
      split_ifs at hj with hji
      · cases hj
        cases hx
      · exact List.mem_cons_of_mem _ (ih j t hj x hx)
    · simp only [perform, Function.update_apply] at hj
      split_ifs at hj with hji
      · cases hj
        rcases List.mem_cons.mp hx with rfl | hx
        · exact hji ▸ List.mem_cons_self
        · exact List.mem_cons_of_mem _ (hji ▸ ih i _ hi x hx)
      · exact List.mem_cons_of_mem _ (ih j t hj x hx)
    · simp only [Config.finish, Function.update_apply] at hj
      split_ifs at hj with hji
      exact List.mem_cons_of_mem _ (ih j t hj x hx)

/-! ## The record -/

/-- The newest call of a caller on record, and what it performed. -/
def lastCall (j : ι) : List (Event Ans ε ρ κ ι) → Option (κ × List (Performed Ans))
  | [] => none
  | .called i k :: h => if i = j then some (k, []) else lastCall j h
  | .performed i _ p :: h =>
    if i = j then (lastCall j h).map fun call => (call.1, p :: call.2) else lastCall j h
  | .returned _ _ _ :: h => lastCall j h

/-- A call under way is the newest on record of its caller. -/
theorem Reaches.lastCall_eq {s : σ} (h : sys.Reaches May (.start s) c) :
    ∀ i t, c.threads i = some t → lastCall i c.history = some (t.call, t.trace) := by
  induction h with
  | refl => exact fun _ _ h => nomatch h
  | move _ _ hm ih =>
    intro j t hj
    obtain ⟨i, k, rfl, hi, rfl⟩ | ⟨i, input, k, trace, o, next, rfl, hi, rfl⟩
      | ⟨i, input, k, trace, r, rfl, hi, rfl⟩ := move_cases hm
    · simp only [begin, Function.update_apply] at hj
      simp only [begin, lastCall]
      by_cases hji : j = i
      · subst hji
        rw [if_pos rfl] at hj ⊢
        cases hj
        rfl
      · rw [if_neg hji] at hj
        rw [if_neg (Ne.symm hji)]
        exact ih j t hj
    · simp only [perform, Function.update_apply] at hj
      simp only [perform, lastCall]
      by_cases hji : j = i
      · subst hji
        rw [if_pos rfl] at hj ⊢
        cases hj
        rw [ih j _ hi]
        rfl
      · rw [if_neg hji] at hj
        rw [if_neg (Ne.symm hji)]
        exact ih j t hj
    · simp only [Config.finish, Function.update_apply] at hj
      split_ifs at hj with hji
      exact ih j t hj

/-! ## The rule -/

variable (Inv : Config Op Ans ε ρ κ ι σ → Prop)
variable (G : κ → List (Performed Ans) → Op → Prop) (A : κ → (o : Op) → Ans o → Prop)
variable (Q : κ → List (Performed Ans) → Except ε ρ → Prop)

/-- The invariant holds, and every call under way keeps to its part. -/
structure Keeping (c : Config Op Ans ε ρ κ ι σ) : Prop where
  inv : Inv c
  threads : ∀ i t, c.threads i = some t →
    t.rest.Keeps (G t.call) (A t.call) (Q t.call) t.trace

variable {Inv G A Q}

/-- Changing the call of one caller. -/
theorem Keeping.update {i : ι} {t : Option (Thread Op Ans ε ρ κ)} (h : Keeping Inv G A Q c)
    (hinv : Inv c') (hthreads : c'.threads = Function.update c.threads i t)
    (ht : ∀ t', t = some t' → t'.rest.Keeps (G t'.call) (A t'.call) (Q t'.call) t'.trace) :
    Keeping Inv G A Q c' := by
  refine ⟨hinv, fun j t' hj => ?_⟩
  rw [hthreads, Function.update_apply] at hj
  split_ifs at hj with hji
  · exact ht t' hj
  · exact h.threads j t' hj

/-- **What holds over a run.** Each call allowed keeps to its part from the
start; each operation the part allows keeps the invariant, and is answered
as promised. -/
theorem Reaches.keeps (h : sys.Reaches May c c')
    (hcall : ∀ d i k, sys.Reaches May c d → May d (.call i k) → d.threads i = none →
      Keeping Inv G A Q d →
      Inv (sys.begin d i k) ∧ (sys.body k).Keeps (G k) (A k) (Q k) [])
    (hperform : ∀ d i input k trace o next, sys.Reaches May c d → May d (.step i input) →
      d.threads i = some ⟨k, trace, .perform o next⟩ → Keeping Inv G A Q d → G k trace o →
      Inv (sys.perform d i k trace input o next) ∧ A k o (sys.handle d.shared input o).1)
    (hfinish : ∀ d i input k trace r, sys.Reaches May c d → May d (.step i input) →
      d.threads i = some ⟨k, trace, .done r⟩ → Keeping Inv G A Q d → Q k trace r →
      Inv (Config.finish d i k r))
    (h0 : Keeping Inv G A Q c) : Keeping Inv G A Q c' := by
  induction h with
  | refl => exact h0
  | move hd may hm ih =>
    obtain ⟨i, k, rfl, hi, rfl⟩ | ⟨i, input, k, trace, o, next, rfl, hi, rfl⟩
      | ⟨i, input, k, trace, r, rfl, hi, rfl⟩ := move_cases hm
    · obtain ⟨hinv, hbody⟩ := hcall _ i k hd may hi ih
      refine ih.update hinv rfl fun t' ht' => ?_
      cases ht'
      exact hbody
    · have hthread := ih.threads i _ hi
      obtain ⟨hinv, hans⟩ := hperform _ i input k trace o next hd may hi ih hthread.1
      refine ih.update hinv rfl fun t' ht' => ?_
      cases ht'
      exact hthread.2 _ hans
    · have hthread := ih.threads i _ hi
      exact ih.update (hfinish _ i input k trace r hd may hi ih hthread) rfl nofun

/-- **An invariant** that needs nothing of the programs. -/
theorem Reaches.invariant (h : sys.Reaches May c c') (Inv : Config Op Ans ε ρ κ ι σ → Prop)
    (hcall : ∀ d i k, d.threads i = none → Inv d → Inv (sys.begin d i k))
    (hperform : ∀ d i input k trace o next, May d (.step i input) →
      d.threads i = some ⟨k, trace, .perform o next⟩ → Inv d →
      Inv (sys.perform d i k trace input o next))
    (hfinish : ∀ d i k trace r, d.threads i = some ⟨k, trace, .done r⟩ → Inv d →
      Inv (Config.finish d i k r))
    (h0 : Inv c) : Inv c' := by
  have hkeeping : Keeping Inv (fun _ _ _ => True) (fun _ _ _ => True) (fun _ _ _ => True) c' := by
    refine h.keeps ?_ ?_ ?_ ⟨h0, fun i t _ => t.rest.keeps_trivial _⟩
    · intro d i k _ _ hi hd
      exact ⟨hcall d i k hi hd.inv, (sys.body k).keeps_trivial []⟩
    · intro d i input k trace o next _ hmay hi hd _
      exact ⟨hperform d i input k trace o next hmay hi hd.inv, trivial⟩
    · intro d i input k trace r _ _ hi hd _
      exact hfinish d i k trace r hi hd.inv
  exact hkeeping.inv

/-- Every operation on record is one `G` lets the call perform, and every end
one that `Q` allows. -/
def Recorded (G : κ → List (Performed Ans) → Op → Prop)
    (Q : κ → List (Performed Ans) → Except ε ρ → Prop) : List (Event Ans ε ρ κ ι) → Prop
  | [] => True
  | .called _ _ :: h => Recorded G Q h
  | .performed i k p :: h =>
    (∃ trace, lastCall i h = some (k, trace) ∧ G k trace p.op) ∧ Recorded G Q h
  | .returned i k r :: h => (∃ trace, lastCall i h = some (k, trace) ∧ Q k trace r) ∧ Recorded G Q h

theorem Recorded.append {newer older : List (Event Ans ε ρ κ ι)}
    (h : Recorded G Q (newer ++ older)) : Recorded G Q older := by
  induction newer with
  | nil => exact h
  | cons e newer ih =>
    cases e with
    | called i k => exact ih h
    | performed i k p => exact ih h.2
    | returned i k r => exact ih h.2

/-- **What is on record** where the programs of the calls that are allowed
keep to something whatever the answers are. -/
theorem Reaches.records_allowed {s : σ} (h : sys.Reaches May (.start s) c)
    (hbody : ∀ d i k, May d (.call i k) →
      (sys.body k).Keeps (G k) (fun _ _ => True) (Q k) []) : Recorded G Q c.history := by
  have hkeeping : Keeping (fun d => Recorded G Q d.history) G (fun _ _ _ => True) Q c := by
    refine h.keeps ?_ ?_ ?_ ⟨trivial, fun _ _ h => nomatch h⟩
    · intro d i k _ hmay _ hd
      exact ⟨hd.inv, hbody d i k hmay⟩
    · intro d i input k trace o next hreach _ hi hd hG
      exact ⟨⟨⟨trace, hreach.lastCall_eq i _ hi, hG⟩, hd.inv⟩, trivial⟩
    · intro d i input k trace r hreach _ hi hd hQ
      exact ⟨⟨trace, hreach.lastCall_eq i _ hi, hQ⟩, hd.inv⟩
  exact hkeeping.inv

/-- What the newest call of a caller has performed is on record. -/
theorem performed_of_lastCall {j : ι} {h : List (Event Ans ε ρ κ ι)} {k : κ}
    {before after : List (Performed Ans)} {x : Performed Ans} (hrec : Recorded G Q h)
    (hlast : lastCall j h = some (k, after ++ x :: before)) :
    ∃ newer older, h = newer ++ .performed j k x :: older ∧ lastCall j older = some (k, before) := by
  induction h generalizing after with
  | nil => cases hlast
  | cons e h ih =>
    cases e with
    | called i k' =>
      simp only [lastCall] at hlast
      split_ifs at hlast with hij
      · simp at hlast
      · obtain ⟨newer, older, rfl, hbefore⟩ := ih hrec hlast
        exact ⟨_ :: newer, older, rfl, hbefore⟩
    | performed i k' p =>
      simp only [lastCall] at hlast
      obtain ⟨⟨trace, htrace, -⟩, hrec⟩ := hrec
      split_ifs at hlast with hij
      · subst hij
        rw [htrace, Option.map_some, Option.some.injEq, Prod.mk.injEq] at hlast
        obtain ⟨rfl, hcons⟩ := hlast
        cases after with
        | nil =>
          obtain ⟨rfl, rfl⟩ := List.cons.inj hcons
          exact ⟨[], h, rfl, htrace⟩
        | cons y after =>
          obtain ⟨rfl, rfl⟩ := List.cons.inj hcons
          obtain ⟨newer, older, rfl, hbefore⟩ := ih hrec htrace
          exact ⟨_ :: newer, older, rfl, hbefore⟩
      · obtain ⟨newer, older, rfl, hbefore⟩ := ih hrec hlast
        exact ⟨_ :: newer, older, rfl, hbefore⟩
    | returned i k' r =>
      obtain ⟨newer, older, rfl, hbefore⟩ := ih hrec.2 hlast
      exact ⟨_ :: newer, older, rfl, hbefore⟩

/-- And it is among the events it is read from. -/
theorem mem_of_lastCall {j : ι} {h : List (Event Ans ε ρ κ ι)} {k : κ}
    {trace : List (Performed Ans)} {x : Performed Ans} (hlast : lastCall j h = some (k, trace))
    (hx : x ∈ trace) : ∃ k', .performed j k' x ∈ h := by
  induction h generalizing k trace with
  | nil => cases hlast
  | cons e h ih =>
    have hmem (h' : ∃ k', .performed j k' x ∈ h) : ∃ k', .performed j k' x ∈ e :: h :=
      h'.imp fun _ hk' => List.mem_cons_of_mem _ hk'
    cases e with
    | called i k' =>
      simp only [lastCall] at hlast
      split_ifs at hlast with hij
      · cases hlast
        cases hx
      · exact hmem (ih hlast hx)
    | performed i k' p =>
      simp only [lastCall] at hlast
      split_ifs at hlast with hij
      · subst hij
        obtain ⟨⟨k'', trace'⟩, hlast', heq⟩ := Option.map_eq_some_iff.mp hlast
        cases heq
        rcases List.mem_cons.mp hx with rfl | hx
        · exact ⟨k', List.mem_cons_self⟩
        · exact hmem (ih hlast' hx)
      · exact hmem (ih hlast hx)
    | returned i k' r => exact hmem (ih hlast hx)

/-- The newest call of a caller that called in a stretch is of that
stretch. -/
theorem lastCall_append {j : ι} {k : κ} {newer older : List (Event Ans ε ρ κ ι)}
    (hcall : .called j k ∈ newer) : lastCall j (newer ++ older) = lastCall j newer := by
  induction newer with
  | nil => cases hcall
  | cons e newer ih =>
    have hnewer (hne : ∀ k', e ≠ .called j k') : .called j k ∈ newer :=
      (List.mem_cons.mp hcall).resolve_left fun heq => hne k heq.symm
    cases e with
    | called i k' =>
      simp only [List.cons_append, lastCall]
      by_cases hij : i = j
      · rw [if_pos hij, if_pos hij]
      · rw [if_neg hij, if_neg hij]
        refine ih (hnewer fun k'' heq => ?_)
        cases heq
        exact hij rfl
    | performed i k' p =>
      simp only [List.cons_append, lastCall]
      rw [ih (hnewer fun k'' heq => by cases heq)]
    | returned i k' r =>
      simp only [List.cons_append, lastCall]
      exact ih (hnewer fun k'' heq => by cases heq)

/-- How the calls end whose programs keep to something whatever the answers
are. -/
theorem Reaches.ends {s : σ} (h : sys.Reaches May (.start s) c)
    (hbody : ∀ k, (sys.body k).Keeps (G k) (fun _ _ => True) (Q k) []) {i : ι} {k : κ}
    {trace : List (Performed Ans)} {r : Except ε ρ}
    (hi : c.threads i = some ⟨k, trace, .done r⟩) : Q k trace r := by
  have hkeeping : Keeping (fun _ => True) G (fun _ _ _ => True) Q c := by
    refine h.keeps ?_ ?_ ?_ ⟨trivial, ?_⟩
    · intro d i k _ _ _ _
      exact ⟨trivial, hbody k⟩
    · intros
      exact ⟨trivial, trivial⟩
    · intros
      trivial
    · intro i t ht
      cases ht
  exact hkeeping.threads i _ hi

end System

end

end OpenTerms
