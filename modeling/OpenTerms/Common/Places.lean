import Mathlib.Data.List.Nodup
import Mathlib.Logic.Function.Basic

/-!
# Things kept in places

Things are made once, put into a place, carried from place to place, and in
the end dropped or let go. `Sole` says that each is in one place at most,
or has been let go once and is in none. Making a new thing, carrying one,
dropping one and letting one go all keep it, and so nothing is let go
twice.
-/

namespace OpenTerms

variable {X Place : Type} [DecidableEq Place] {gone : List X} {made : X → Prop}
variable {holds : Place → Option X} {place place' : Place} {x : X}

/-- What is made is in one place at most, and in none once it is gone. -/
structure Sole (gone : List X) (made : X → Prop) (holds : Place → Option X) : Prop where
  nodup : gone.Nodup
  gone_made : ∀ x ∈ gone, made x
  held : ∀ place x, holds place = some x →
    made x ∧ x ∉ gone ∧ ∀ place', holds place' = some x → place' = place

omit [DecidableEq Place] in
theorem Sole.mono {made' : X → Prop} (h : Sole gone made holds) (hmade : ∀ x, made x → made' x) :
    Sole gone made' holds where
  nodup := h.nodup
  gone_made x hx := hmade x (h.gone_made x hx)
  held place x hx := ⟨hmade x (h.held place x hx).1, (h.held place x hx).2⟩

theorem eq_of_update_none (hx : Function.update holds place none place' = some x) :
    holds place' = some x ∧ place' ≠ place := by
  rw [Function.update_apply] at hx
  split_ifs at hx with hplace
  exact ⟨hx, hplace⟩

/-- A place is emptied. -/
theorem Sole.drop (h : Sole gone made holds) (place : Place) :
    Sole gone made (Function.update holds place none) := by
  refine ⟨h.nodup, h.gone_made, fun q x hx => ?_⟩
  obtain ⟨hmade, hgone, hone⟩ := h.held q x (eq_of_update_none hx).1
  exact ⟨hmade, hgone, fun q' hq' => hone q' (eq_of_update_none hq').1⟩

/-- What a place holds is let go. -/
theorem Sole.letGo (h : Sole gone made holds) (hx : holds place = some x) :
    Sole (x :: gone) made (Function.update holds place none) := by
  obtain ⟨hmade, hgone, hone⟩ := h.held place x hx
  refine ⟨List.nodup_cons.mpr ⟨hgone, h.nodup⟩, List.forall_mem_cons.mpr ⟨hmade, h.gone_made⟩,
    fun q y hy => ?_⟩
  obtain ⟨hq, hne⟩ := eq_of_update_none hy
  obtain ⟨hmade', hgone', hone'⟩ := h.held q y hq
  refine ⟨hmade', fun hmem => ?_, fun q' hq' => hone' q' (eq_of_update_none hq').1⟩
  rcases List.mem_cons.mp hmem with rfl | hmem
  · exact hne (hone q hq)
  · exact hgone' hmem

/-- What is new is put in a place. -/
theorem Sole.put (h : Sole gone made holds) (hx : ¬ made x) (place : Place) :
    Sole gone (fun y => y = x ∨ made y) (Function.update holds place (some x)) := by
  refine ⟨h.nodup, fun y hy => .inr (h.gone_made y hy), fun q y hy => ?_⟩
  rw [Function.update_apply] at hy
  split_ifs at hy with hq
  · cases hy
    refine ⟨.inl rfl, fun hmem => hx (h.gone_made _ hmem), fun q' hq' => ?_⟩
    rw [Function.update_apply] at hq'
    split_ifs at hq' with hplace
    · rw [hplace, hq]
    · exact absurd (h.held q' _ hq').1 hx
  · obtain ⟨hmade, hgone, hone⟩ := h.held q y hy
    refine ⟨.inr hmade, hgone, fun q' hq' => ?_⟩
    rw [Function.update_apply] at hq'
    split_ifs at hq' with hplace
    · cases hq'
      exact absurd hmade hx
    · exact hone q' hq'

/-- What a place holds is carried to another. -/
theorem Sole.move (h : Sole gone made holds) (place place' : Place) :
    Sole gone made (Function.update (Function.update holds place none) place' (holds place)) := by
  refine ⟨h.nodup, h.gone_made, fun q y hy => ?_⟩
  rw [Function.update_apply] at hy
  split_ifs at hy with hq
  · obtain ⟨hmade, hgone, hone⟩ := h.held place y hy
    refine ⟨hmade, hgone, fun q' hq' => ?_⟩
    rw [Function.update_apply] at hq'
    split_ifs at hq' with hplace
    · rw [hplace, hq]
    · obtain ⟨hq', hne⟩ := eq_of_update_none hq'
      exact absurd (hone q' hq') hne
  · obtain ⟨hholds, hne⟩ := eq_of_update_none hy
    obtain ⟨hmade, hgone, hone⟩ := h.held q y hholds
    refine ⟨hmade, hgone, fun q' hq' => ?_⟩
    rw [Function.update_apply] at hq'
    split_ifs at hq' with hplace
    · exact absurd (hone place hq') (Ne.symm hne)
    · exact hone q' (eq_of_update_none hq').1

end OpenTerms
