import OpenTerms.Common.JsonOrder

/-!
# Removing a name

A tree without the members of one name, at any depth, whatever they hold.
-/

namespace OpenTerms

namespace Json

variable {S N : Type} [DecidableEq S]

mutual

/-- The tree without the members of one name, at any depth. -/
def without (name : S) : Json S N → Json S N
  | .arr xs => .arr (withoutItems name xs)
  | .obj ms => .obj (withoutMembers name ms)
  | v => v

def withoutItems (name : S) : List (Json S N) → List (Json S N)
  | [] => []
  | x :: xs => without name x :: withoutItems name xs

def withoutMembers (name : S) : List (S × Json S N) → List (S × Json S N)
  | [] => []
  | (k, v) :: ms =>
    if k = name then withoutMembers name ms else (k, without name v) :: withoutMembers name ms

end

/-- One member: gone where it has the name. -/
def withoutMember (name : S) (m : S × Json S N) : Option (S × Json S N) :=
  if m.1 = name then none else some (m.1, without name m.2)

variable {name : S}

@[simp] theorem without_null : without name (.null : Json S N) = .null := rfl
@[simp] theorem without_bool (b : Bool) : without name (.bool b : Json S N) = .bool b := rfl
@[simp] theorem without_num (n : N) : without name (.num n : Json S N) = .num n := rfl
@[simp] theorem without_str (s : S) : without name (.str s : Json S N) = .str s := rfl

@[simp] theorem without_arr (xs : List (Json S N)) :
    without name (.arr xs) = .arr (xs.map (without name)) := by
  rw [without]
  congr 1
  induction xs with
  | nil => rfl
  | cons x xs ih => rw [withoutItems, ih]; rfl

@[simp] theorem without_obj (ms : List (S × Json S N)) :
    without name (.obj ms) = .obj (ms.filterMap (withoutMember name)) := by
  rw [without]
  congr 1
  induction ms with
  | nil => rfl
  | cons m ms ih =>
    obtain ⟨k, v⟩ := m
    rw [withoutMembers, ih, List.filterMap_cons, withoutMember]
    split_ifs <;> rfl

theorem withoutMember_eq_some_iff {m m' : S × Json S N} :
    withoutMember name m = some m' ↔ m.1 ≠ name ∧ m' = (m.1, without name m.2) := by
  unfold withoutMember
  split_ifs with h
  · simp [h]
  · simp [h, eq_comm]

theorem mem_filterMap_withoutMember {m' : S × Json S N} {ms : List (S × Json S N)} :
    m' ∈ ms.filterMap (withoutMember name)
      ↔ ∃ m ∈ ms, m.1 ≠ name ∧ m' = (m.1, without name m.2) := by
  simp only [List.mem_filterMap, withoutMember_eq_some_iff]

theorem names_filterMap_withoutMember_sublist (ms : List (S × Json S N)) :
    (names (ms.filterMap (withoutMember name))).Sublist (names ms) := by
  induction ms with
  | nil => exact List.Sublist.slnil
  | cons m ms ih =>
    rw [List.filterMap_cons, withoutMember]
    split_ifs with h
    · exact ih.cons _
    · exact ih.cons_cons _

theorem UniqueNames.without {v : Json S N} (h : UniqueNames v) :
    UniqueNames (v.without name) := by
  induction v with
  | null => trivial
  | bool b => trivial
  | num n => trivial
  | str s => trivial
  | arr xs ih =>
    rw [uniqueNames_arr] at h
    rw [without_arr, uniqueNames_arr, List.forall_mem_map]
    exact fun x hx => ih x hx (h x hx)
  | obj ms ih =>
    rw [uniqueNames_obj] at h
    rw [without_obj, uniqueNames_obj]
    refine ⟨h.1.sublist (names_filterMap_withoutMember_sublist ms), fun m' hm' => ?_⟩
    obtain ⟨m, hm, -, rfl⟩ := mem_filterMap_withoutMember.mp hm'
    exact ih m hm (h.2 m hm)

/-- No member has the name, at any depth. -/
def Lacks (name : S) (v : Json S N) : Prop :=
  Every (fun _ => True) (fun _ => True) (· ≠ name) v

theorem without_eq_self {v : Json S N} (h : Lacks name v) : v.without name = v := by
  unfold Lacks at h
  induction v with
  | null => rfl
  | bool b => rfl
  | num n => rfl
  | str s => rfl
  | arr xs ih =>
    rw [every_arr] at h
    rw [without_arr, List.map_congr_left fun x hx => ih x hx (h x hx), List.map_id']
  | obj ms ih =>
    rw [every_obj] at h
    have hms : ∀ m ∈ ms, withoutMember name m = some m := fun m hm =>
      withoutMember_eq_some_iff.mpr ⟨(h m hm).1, Prod.ext rfl (ih m hm (h m hm).2).symm⟩
    rw [without_obj, List.filterMap_congr hms, List.filterMap_some]

/-- Removing a name does not see what the strings and numbers are. -/
theorem without_map {S' N' : Type} [DecidableEq S'] {f : S → S'} (hf : Function.Injective f)
    (g : N → N') (v : Json S N) : (v.map f g).without (f name) = (v.without name).map f g := by
  induction v with
  | null => rfl
  | bool b => rfl
  | num n => rfl
  | str s => rfl
  | arr xs ih =>
    rw [map_arr, without_arr, without_arr, map_arr, List.map_map, List.map_map]
    exact congrArg _ (List.map_congr_left ih)
  | obj ms ih =>
    rw [map_obj, without_obj, without_obj, map_obj, List.filterMap_map, List.map_filterMap]
    refine congrArg _ (List.filterMap_congr fun m hm => ?_)
    simp only [Function.comp_apply, withoutMember, mapMember, ih m hm]
    by_cases hk : m.1 = name
    · rw [if_pos hk, if_pos (congrArg f hk)]
      rfl
    · rw [if_neg hk, if_neg fun h => hk (hf h)]
      rfl

theorem without_eq_null_iff {v : Json S N} : v.without name = .null ↔ v = .null := by
  cases v <;> simp

/-- Nulls and a name can be removed in either order. -/
theorem stripNulls_without (v : Json S N) :
    (v.without name).stripNulls = v.stripNulls.without name := by
  induction v with
  | null => rfl
  | bool b => rfl
  | num n => rfl
  | str s => rfl
  | arr xs ih =>
    rw [without_arr, stripNulls_arr, stripNulls_arr, without_arr, List.map_map, List.map_map]
    exact congrArg _ (List.map_congr_left ih)
  | obj ms ih =>
    rw [without_obj, stripNulls_obj, stripNulls_obj, without_obj, List.filterMap_filterMap,
      List.filterMap_filterMap]
    refine congrArg _ (List.filterMap_congr fun m hm => ?_)
    obtain ⟨k, v⟩ := m
    have hv := ih (k, v) hm
    by_cases hnull : v = .null
    · subst hnull
      rw [withoutMember]
      split_ifs <;> rfl
    · have hstrip : stripMember (k, v) = some (k, v.stripNulls) :=
        stripMember_eq_some_iff.mpr ⟨hnull, rfl⟩
      rw [hstrip, Option.bind_some, withoutMember, withoutMember]
      split_ifs
      · rfl
      · rw [Option.bind_some, ← hv]
        exact stripMember_eq_some_iff.mpr ⟨mt without_eq_null_iff.mp hnull, rfl⟩

/-- A property of the whole tree is one of what is left. -/
theorem Every.without {pn : N → Prop} {ps pk : S → Prop} {v : Json S N}
    (h : Every pn ps pk v) : Every pn ps pk (v.without name) := by
  induction v with
  | null => trivial
  | bool b => trivial
  | num n => exact h
  | str s => exact h
  | arr xs ih =>
    rw [every_arr] at h
    rw [without_arr, every_arr, List.forall_mem_map]
    exact fun x hx => ih x hx (h x hx)
  | obj ms ih =>
    rw [every_obj] at h
    rw [without_obj, every_obj]
    intro m' hm'
    obtain ⟨m, hm, -, rfl⟩ := mem_filterMap_withoutMember.mp hm'
    exact ⟨(h m hm).1, ih m hm (h m hm).2⟩

end Json

end OpenTerms
