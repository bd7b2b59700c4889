import OpenTerms.Common.GlobSpec

/-!
# Patterns, part by part

The language of a pattern is the product of the languages of its parts.
A part without special characters occurs in everything the pattern
matches (`infix_of_mem_language`), a run of single-character marks
matches by length, and renaming the characters of pattern and target
alike changes nothing (`mem_language_map`).
-/

namespace OpenTerms

namespace Glob

variable {α : Type} [DecidableEq α] {any one : α}

theorem language_append (p q : List α) :
    language any one (p ++ q) = language any one p * language any one q := by
  induction p with
  | nil => rw [List.nil_append, language, one_mul]
  | cons c p ih => rw [List.cons_append, language, language, ih, mul_assoc]

/-- Characters that stand for themselves. -/
def Plain (any one : α) (p : List α) : Prop := ∀ c ∈ p, c ≠ any ∧ c ≠ one

/-- What stands for itself matches itself. -/
theorem mem_language_plain {p w : List α} (hp : Plain any one p) :
    w ∈ language any one p ↔ w = p := by
  induction p generalizing w with
  | nil => exact Language.mem_one w
  | cons c p ih =>
    obtain ⟨hc, hp⟩ := List.forall_mem_cons.mp hp
    rw [language, Language.mem_mul]
    constructor
    · rintro ⟨u, hu, v, hv, rfl⟩
      obtain ⟨x, rfl, hx⟩ := (mem_piece hc.1).mp hu
      obtain rfl : c = x := hx.resolve_left hc.2
      rw [(ih hp).mp hv]
      rfl
    · rintro rfl
      exact ⟨[c], (mem_piece hc.1).mpr ⟨c, rfl, Or.inr rfl⟩, p, (ih hp).mpr rfl, rfl⟩

/-- **A part that stands for itself occurs in what is matched.** -/
theorem infix_of_mem_language {part p w : List α} (hpart : Plain any one part)
    (hp : part <:+: p) (hw : w ∈ language any one p) : part <:+: w := by
  obtain ⟨before, after, rfl⟩ := hp
  rw [language_append, language_append, Language.mem_mul] at hw
  obtain ⟨u, hu, v, -, rfl⟩ := hw
  obtain ⟨x, -, y, hy, rfl⟩ := Language.mem_mul.mp hu
  rw [(mem_language_plain hpart).mp hy]
  exact ⟨x, v, rfl⟩

/-- A run of marks matches by length. -/
theorem mem_language_replicate (hne : one ≠ any) {n : ℕ} {w : List α} :
    w ∈ language any one (List.replicate n one) ↔ w.length = n := by
  induction n generalizing w with
  | zero => exact (Language.mem_one w).trans List.length_eq_zero_iff.symm
  | succ n ih =>
    rw [List.replicate_succ, language, Language.mem_mul]
    constructor
    · rintro ⟨u, hu, v, hv, rfl⟩
      obtain ⟨x, rfl, -⟩ := (mem_piece hne).mp hu
      have hlen := ih.mp hv
      rw [List.singleton_append, List.length_cons, hlen]
    · intro hlen
      obtain ⟨x, w, rfl⟩ := List.exists_cons_of_length_eq_add_one hlen
      rw [List.length_cons] at hlen
      exact ⟨[x], (mem_piece hne).mpr ⟨x, rfl, Or.inl rfl⟩, w, ih.mpr (by omega), rfl⟩

/-- A pattern matches itself as a text. -/
theorem self_mem_language (p : List α) : p ∈ language any one p := by
  induction p with
  | nil => exact (Language.mem_one _).mpr rfl
  | cons c p ih =>
    have hc : [c] ∈ piece any one c := by
      by_cases hany : c = any
      · unfold piece
        rw [if_pos hany]
        trivial
      · exact (mem_piece hany).mpr ⟨c, rfl, Or.inr rfl⟩
    exact ⟨[c], hc, p, ih, rfl⟩

/-- **What is matched has all the characters of the pattern** that stand
for themselves. -/
theorem countP_le_of_mem_language {q : α → Bool} (hany : q any = false) (hone : q one = false)
    {p w : List α} (hw : w ∈ language any one p) : p.countP q ≤ w.countP q := by
  induction p generalizing w with
  | nil => exact Nat.zero_le _
  | cons c p ih =>
    obtain ⟨u, hu, v, hv, rfl⟩ := hw
    have hrest := ih hv
    have hfirst : [c].countP q ≤ u.countP q := by
      by_cases hcq : q c = true
      · have hne : c ≠ any := by
          rintro rfl
          rw [hany] at hcq
          cases hcq
        obtain ⟨x, rfl, hx⟩ := (mem_piece hne).mp hu
        rcases hx with rfl | rfl
        · rw [hone] at hcq
          cases hcq
        · exact le_rfl
      · rw [List.countP_cons, if_neg hcq]
        exact Nat.zero_le _
    rw [List.countP_append, List.countP_cons]
    rw [List.countP_cons, List.countP_nil] at hfirst
    omega

variable {β : Type} [DecidableEq β] {f : α → β}

theorem mem_piece_map (hf : Function.Injective f) {c : α} {w : List α} :
    w.map f ∈ piece (f any) (f one) (f c) ↔ w ∈ piece any one c := by
  by_cases hany : c = any
  · subst hany
    unfold piece
    rw [if_pos rfl, if_pos rfl]
    exact Iff.rfl
  · rw [mem_piece hany, mem_piece (mt (fun h => hf h) hany)]
    constructor
    · rintro ⟨y, hy, hx⟩
      obtain ⟨x, rfl, rfl⟩ := List.map_eq_singleton_iff.mp hy
      exact ⟨x, rfl, hx.imp (fun h => hf h) (fun h => hf h)⟩
    · rintro ⟨x, rfl, hx⟩
      exact ⟨f x, rfl, hx.imp (congrArg f) (congrArg f)⟩

/-- **The names of the characters do not matter.** -/
theorem mem_language_map (hf : Function.Injective f) {p w : List α} :
    w.map f ∈ language (f any) (f one) (p.map f) ↔ w ∈ language any one p := by
  induction p generalizing w with
  | nil => exact (Language.mem_one _).trans (List.map_eq_nil_iff.trans (Language.mem_one _).symm)
  | cons c p ih =>
    rw [List.map_cons, language, language, Language.mem_mul, Language.mem_mul]
    constructor
    · rintro ⟨u', hu, v', hv, heq⟩
      obtain ⟨u, v, rfl, rfl, rfl⟩ := List.map_eq_append_iff.mp heq.symm
      exact ⟨u, (mem_piece_map hf).mp hu, v, ih.mp hv, rfl⟩
    · rintro ⟨u, hu, v, hv, rfl⟩
      exact ⟨u.map f, (mem_piece_map hf).mpr hu, v.map f, ih.mpr hv, List.map_append.symm⟩

end Glob

end OpenTerms
