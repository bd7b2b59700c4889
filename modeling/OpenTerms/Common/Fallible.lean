import Mathlib.Data.List.Forall2
import Mathlib.Tactic.SplitIfs

/-!
# Computations that may raise

`Except` in `do` blocks: when a sequence of steps returns, and what.
-/

namespace OpenTerms

variable {ε α β : Type}

/-- A guard: the error where the condition holds. -/
def raiseWhen (p : Prop) [Decidable p] (e : ε) : Except ε Unit := if p then .error e else .ok ()

@[simp] theorem raiseWhen_eq_ok_iff {p : Prop} [Decidable p] {e : ε} {u : Unit} :
    raiseWhen p e = .ok u ↔ ¬ p := by
  unfold raiseWhen
  split_ifs with h <;> simp [h]

theorem raiseWhen_neg {p : Prop} [Decidable p] (h : ¬ p) (e : ε) : raiseWhen p e = .ok () := if_neg h

/-- A sequence returns when both steps do. -/
theorem bind_eq_ok_iff {x : Except ε α} {f : α → Except ε β} {b : β} :
    (x >>= f) = .ok b ↔ ∃ a, x = .ok a ∧ f a = .ok b := by
  cases x <;> simp [bind, Except.bind]

/-- A check followed by the rest. -/
theorem check_eq_ok_iff {x : Except ε Unit} {y : Except ε β} {b : β} :
    (x >>= fun _ => y) = .ok b ↔ x = .ok () ∧ y = .ok b :=
  bind_eq_ok_iff.trans ⟨fun ⟨_, h⟩ => h, fun h => ⟨(), h⟩⟩

@[simp] theorem ok_bind (a : α) (f : α → Except ε β) : (.ok a >>= f : Except ε β) = f a := rfl

@[simp] theorem error_bind (e : ε) (f : α → Except ε β) :
    (.error e >>= f : Except ε β) = .error e := rfl

/-! ## What is raised -/

/-- Whatever `x` raises has the property. -/
def Raises (P : ε → Prop) (x : Except ε α) : Prop := ∀ e, x = .error e → P e

variable {P : ε → Prop}

theorem raises_ok (a : α) : Raises P (.ok a) := by
  intro e h
  cases h

theorem raises_error {e : ε} (h : P e) : Raises P (.error e : Except ε α) := by
  intro e' h'
  cases h'
  exact h

theorem Raises.imp {Q : ε → Prop} {x : Except ε α} (h : Raises P x) (himp : ∀ e, P e → Q e) :
    Raises Q x :=
  fun e he => himp e (h e he)

theorem raises_raiseWhen {p : Prop} [Decidable p] {e : ε} (h : P e) :
    Raises P (raiseWhen p e) := by
  unfold raiseWhen
  split_ifs
  · exact raises_error h
  · exact raises_ok ()

/-- A sequence raises what one of its steps does. -/
theorem Raises.bind {x : Except ε α} {f : α → Except ε β} (hx : Raises P x)
    (hf : ∀ a, x = .ok a → Raises P (f a)) : Raises P (x >>= f) := by
  cases x with
  | error e => exact raises_error (hx e rfl)
  | ok a => exact hf a rfl

theorem Raises.mapM {f : α → Except ε β} (hf : ∀ a, Raises P (f a)) (as : List α) :
    Raises P (as.mapM f) := by
  induction as with
  | nil => exact raises_ok []
  | cons a as ih =>
    rw [List.mapM_cons]
    exact (hf a).bind fun b _ => ih.bind fun bs _ => raises_ok _

/-! ## What returns -/

/-- The computation returns something. -/
def Succeeds (x : Except ε α) : Prop := ∃ a, x = .ok a

theorem succeeds_ok (a : α) : Succeeds (.ok a : Except ε α) := ⟨a, rfl⟩

theorem succeeds_of_isOk {x : Except ε α} (h : x.isOk = true) : Succeeds x := by
  cases x with
  | error e => cases h
  | ok a => exact succeeds_ok a

theorem not_succeeds_error (e : ε) : ¬ Succeeds (.error e : Except ε α) := nofun

theorem not_succeeds_iff {x : Except ε α} : ¬ Succeeds x ↔ ∃ e, x = .error e := by
  cases x with
  | ok a => exact ⟨fun h => absurd (succeeds_ok a) h, nofun⟩
  | error e => exact ⟨fun _ => ⟨e, rfl⟩, fun _ => not_succeeds_error e⟩

/-- A sequence returns when its steps do. -/
theorem succeeds_bind_iff {x : Except ε α} {f : α → Except ε β} :
    Succeeds (x >>= f) ↔ ∃ a, x = .ok a ∧ Succeeds (f a) := by
  cases x with
  | ok a => exact ⟨fun h => ⟨a, rfl, h⟩, fun ⟨b, hb, h⟩ => Except.ok.inj hb ▸ h⟩
  | error e => exact ⟨fun h => absurd h (not_succeeds_error e), fun ⟨_, h, _⟩ => nomatch h⟩

/-- A step followed by others that depend on it in nothing that matters. -/
theorem succeeds_bind_const {x : Except ε α} {f : α → Except ε β} {P : Prop}
    (hf : ∀ a, x = .ok a → (Succeeds (f a) ↔ P)) : Succeeds (x >>= f) ↔ Succeeds x ∧ P := by
  rw [succeeds_bind_iff]
  exact ⟨fun ⟨a, ha, h⟩ => ⟨⟨a, ha⟩, (hf a ha).mp h⟩,
    fun ⟨⟨a, ha⟩, h⟩ => ⟨a, ha, (hf a ha).mpr h⟩⟩

theorem succeeds_raiseWhen {p : Prop} [Decidable p] {e : ε} : Succeeds (raiseWhen p e) ↔ ¬ p :=
  ⟨fun ⟨_, h⟩ => raiseWhen_eq_ok_iff.mp h, fun h => ⟨(), raiseWhen_eq_ok_iff.mpr h⟩⟩

theorem succeeds_check_iff {x : Except ε Unit} {y : Except ε β} :
    Succeeds (x >>= fun _ => y) ↔ x = .ok () ∧ Succeeds y :=
  succeeds_bind_iff.trans ⟨fun ⟨_, h⟩ => h, fun h => ⟨(), h⟩⟩

/-- A list of computations returns when each of them does. -/
theorem succeeds_mapM {f : α → Except ε β} (as : List α) :
    Succeeds (as.mapM f) ↔ ∀ a ∈ as, Succeeds (f a) := by
  induction as with
  | nil => exact ⟨fun _ => nofun, fun _ => succeeds_ok []⟩
  | cons a as ih =>
    rw [List.mapM_cons, List.forall_mem_cons, ← ih]
    refine succeeds_bind_const fun b _ => ?_
    exact (succeeds_bind_const fun bs _ => iff_true_intro (succeeds_ok _)).trans (and_iff_left trivial)

/-- What a list of computations gives, and what holds of all of it. -/
theorem exists_mapM_forall {f : α → Except ε β} {P : β → Prop} (as : List α) :
    (∃ bs, as.mapM f = .ok bs ∧ ∀ b ∈ bs, P b) ↔ ∀ a ∈ as, ∃ b, f a = .ok b ∧ P b := by
  induction as with
  | nil => exact iff_of_true ⟨[], rfl, by simp⟩ (by simp)
  | cons a as ih =>
    rw [List.forall_mem_cons, ← ih]
    constructor
    · rintro ⟨bs, hbs, hall⟩
      rw [List.mapM_cons] at hbs
      obtain ⟨b, hb, hbs⟩ := bind_eq_ok_iff.mp hbs
      obtain ⟨rest, hrest, hbs⟩ := bind_eq_ok_iff.mp hbs
      obtain rfl := Except.ok.inj hbs
      rw [List.forall_mem_cons] at hall
      exact ⟨⟨b, hb, hall.1⟩, rest, hrest, hall.2⟩
    · rintro ⟨⟨b, hb, hP⟩, rest, hrest, hall⟩
      refine ⟨b :: rest, ?_, List.forall_mem_cons.mpr ⟨hP, hall⟩⟩
      rw [List.mapM_cons, hb, hrest]
      rfl

/-- A list of partial values has a value where each of them has. -/
theorem mapM_eq_some_iff {f : α → Option β} {as : List α} {bs : List β} :
    as.mapM f = some bs ↔ List.Forall₂ (fun a b => f a = some b) as bs := by
  induction as generalizing bs with
  | nil =>
    rw [List.mapM_nil, List.forall₂_nil_left_iff]
    exact ⟨fun h => (Option.some.inj h).symm, fun h => by rw [h]; rfl⟩
  | cons a as ih =>
    rw [List.mapM_cons, List.forall₂_cons_left_iff]
    simp only [Option.bind_eq_bind, Option.bind_eq_some_iff, ih]
    constructor
    · rintro ⟨b, hb, rest, hrest, hbs⟩
      exact ⟨b, rest, hb, hrest, (Option.some.inj hbs).symm⟩
    · rintro ⟨b, rest, hb, hrest, hbs⟩
      exact ⟨b, hb, rest, hrest, congrArg some hbs.symm⟩

theorem exists_mapM_some {f : α → Option β} {as : List α} (h : ∀ a ∈ as, ∃ b, f a = some b) :
    ∃ bs, List.Forall₂ (fun a b => f a = some b) as bs := by
  induction as with
  | nil => exact ⟨[], .nil⟩
  | cons a as ih =>
    rw [List.forall_mem_cons] at h
    obtain ⟨b, hb⟩ := h.1
    obtain ⟨bs, hbs⟩ := ih h.2
    exact ⟨b :: bs, .cons hb hbs⟩

end OpenTerms
