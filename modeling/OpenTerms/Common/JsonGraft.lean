import OpenTerms.Common.JsonOrder

/-!
# Grafting

Replacing every number of a tree by a tree. A container that some code
takes for a leaf, and other code looks into, is a number of the one tree
and a branch of the grafted one: this file says when what is done to the
whole can be done before grafting.
-/

namespace OpenTerms

namespace Json

variable {S N N' N'' : Type}

section

variable (g : N → Json S N')

mutual

/-- The tree with `g n` where the number `n` is. -/
def graft : Json S N → Json S N'
  | .null => .null
  | .bool b => .bool b
  | .num n => g n
  | .str s => .str s
  | .arr xs => .arr (graftItems xs)
  | .obj ms => .obj (graftMembers ms)

def graftItems : List (Json S N) → List (Json S N')
  | [] => []
  | x :: xs => graft x :: graftItems xs

def graftMembers : List (S × Json S N) → List (S × Json S N')
  | [] => []
  | (k, v) :: ms => (k, graft v) :: graftMembers ms

end

/-- One member grafted. -/
def graftMember (m : S × Json S N) : S × Json S N' := (m.1, graft g m.2)

@[simp] theorem graft_null : graft g .null = .null := rfl
@[simp] theorem graft_bool (b : Bool) : graft g (.bool b) = .bool b := rfl
@[simp] theorem graft_num (n : N) : graft g (.num n) = g n := rfl
@[simp] theorem graft_str (s : S) : graft g (.str s) = .str s := rfl

@[simp] theorem graft_arr (xs : List (Json S N)) : graft g (.arr xs) = .arr (xs.map (graft g)) := by
  rw [graft]
  congr 1
  induction xs with
  | nil => rfl
  | cons x xs ih => rw [graftItems, ih]; rfl

@[simp] theorem graft_obj (ms : List (S × Json S N)) :
    graft g (.obj ms) = .obj (ms.map (graftMember g)) := by
  rw [graft]
  congr 1
  induction ms with
  | nil => rfl
  | cons m ms ih => rw [graftMembers, ih]; rfl

theorem names_map_graftMember (ms : List (S × Json S N)) :
    names (ms.map (graftMember g)) = names ms := by
  simp [names, graftMember, Function.comp_def]

theorem get?_map_graftMember [DecidableEq S] (k : S) (ms : List (S × Json S N)) :
    get? k (ms.map (graftMember g)) = (get? k ms).map (graft g) := by
  induction ms with
  | nil => rfl
  | cons m ms ih =>
    obtain ⟨k', v⟩ := m
    rw [List.map_cons, graftMember, get?_cons, get?_cons, ih]
    split_ifs <;> rfl

variable {g}

/-- Grafting leaves is a change of numbers. -/
theorem graft_map (h : N'' → N) (v : Json S N'') : graft g (v.map id h) = graft (g ∘ h) v := by
  induction v with
  | null => rfl
  | bool b => rfl
  | num n => rfl
  | str s => rfl
  | arr xs ih =>
    rw [map_arr, graft_arr, graft_arr, List.map_map]
    exact congrArg _ (List.map_congr_left ih)
  | obj ms ih =>
    rw [map_obj, graft_obj, graft_obj, List.map_map]
    exact congrArg _ (List.map_congr_left fun m hm => Prod.ext rfl (ih m hm))

/-- A change of numbers after grafting is one of what is grafted. -/
theorem map_graft (h : N' → N'') (v : Json S N) :
    (graft g v).map id h = graft (fun n => (g n).map id h) v := by
  induction v with
  | null => rfl
  | bool b => rfl
  | num n => rfl
  | str s => rfl
  | arr xs ih =>
    rw [graft_arr, map_arr, graft_arr, List.map_map]
    exact congrArg _ (List.map_congr_left ih)
  | obj ms ih =>
    rw [graft_obj, map_obj, graft_obj, List.map_map]
    exact congrArg _ (List.map_congr_left fun m hm => Prod.ext rfl (ih m hm))

theorem graft_num_self (v : Json S N) : graft .num v = v := by
  induction v with
  | null => rfl
  | bool b => rfl
  | num n => rfl
  | str s => rfl
  | arr xs ih => rw [graft_arr, List.map_congr_left ih, List.map_id']
  | obj ms ih =>
    rw [graft_obj, List.map_congr_left fun m hm => (Prod.ext rfl (ih m hm) : graftMember _ m = m),
      List.map_id']

/-- A property of every piece of the grafted tree. -/
theorem every_graft {pn : N' → Prop} {ps pk : S → Prop} {v : Json S N} :
    Every pn ps pk (graft g v) ↔ Every (fun n => Every pn ps pk (g n)) ps pk v := by
  induction v with
  | null => simp
  | bool b => simp
  | num n => simp
  | str s => simp
  | arr xs ih =>
    rw [graft_arr, every_arr, every_arr, List.forall_mem_map]
    exact forall₂_congr ih
  | obj ms ih =>
    rw [graft_obj, every_obj, every_obj, List.forall_mem_map]
    exact forall₂_congr fun m hm => and_congr_right fun _ => ih m hm

theorem graft_congr {g' : N → Json S N'} {v : Json S N}
    (h : Every (fun n => g n = g' n) (fun _ => True) (fun _ => True) v) : graft g v = graft g' v := by
  induction v with
  | null => rfl
  | bool b => rfl
  | num n => exact h
  | str s => rfl
  | arr xs ih =>
    rw [every_arr] at h
    rw [graft_arr, graft_arr, List.map_congr_left fun x hx => ih x hx (h x hx)]
  | obj ms ih =>
    rw [every_obj] at h
    rw [graft_obj, graft_obj, List.map_congr_left fun m hm =>
      (Prod.ext rfl (ih m hm (h m hm).2) : graftMember g m = graftMember g' m)]

/-- And only then: a number is where its graft is. -/
theorem graft_eq_graft_iff {g' : N → Json S N'} {v : Json S N} :
    graft g v = graft g' v ↔ Every (fun n => g n = g' n) (fun _ => True) (fun _ => True) v := by
  refine ⟨fun h => ?_, graft_congr⟩
  induction v with
  | null => trivial
  | bool b => trivial
  | num n => exact h
  | str s => trivial
  | arr xs ih =>
    rw [graft_arr, graft_arr, Json.arr.injEq, List.map_inj_left] at h
    exact every_arr.mpr fun x hx => ih x hx (h x hx)
  | obj ms ih =>
    rw [graft_obj, graft_obj, Json.obj.injEq, List.map_inj_left] at h
    exact every_obj.mpr fun m hm => ⟨trivial, ih m hm (Prod.ext_iff.mp (h m hm)).2⟩

theorem UniqueNames.graft {v : Json S N} (hv : UniqueNames v)
    (hg : Every (fun n => UniqueNames (g n)) (fun _ => True) (fun _ => True) v) :
    UniqueNames (graft g v) := by
  induction v with
  | null => trivial
  | bool b => trivial
  | num n => exact hg
  | str s => trivial
  | arr xs ih =>
    rw [uniqueNames_arr] at hv
    rw [every_arr] at hg
    rw [graft_arr, uniqueNames_arr, List.forall_mem_map]
    exact fun x hx => ih x hx (hv x hx) (hg x hx)
  | obj ms ih =>
    rw [uniqueNames_obj] at hv
    rw [every_obj] at hg
    rw [graft_obj, uniqueNames_obj, names_map_graftMember, List.forall_mem_map]
    exact ⟨hv.1, fun m hm => ih m hm (hv.2 m hm) (hg m hm).2⟩

/-- What is grafted is null where the number is replaced by a null. -/
theorem graft_eq_null_iff (hg : ∀ n, g n ≠ .null) {v : Json S N} :
    graft g v = .null ↔ v = .null := by
  cases v with
  | num n => simp [hg n]
  | arr xs => simp
  | obj ms => simp
  | _ => simp

/-- **Stripping the grafted tree** strips the tree and what is grafted. -/
theorem stripNulls_graft (hg : ∀ n, g n ≠ .null) (v : Json S N) :
    (graft g v).stripNulls = graft (fun n => (g n).stripNulls) v.stripNulls := by
  induction v with
  | null => rfl
  | bool b => rfl
  | num n => rfl
  | str s => rfl
  | arr xs ih =>
    rw [graft_arr, stripNulls_arr, stripNulls_arr, graft_arr, List.map_map, List.map_map]
    exact congrArg _ (List.map_congr_left ih)
  | obj ms ih =>
    rw [graft_obj, stripNulls_obj, stripNulls_obj, graft_obj, List.filterMap_map,
      List.map_filterMap]
    refine congrArg _ (List.filterMap_congr fun m hm => ?_)
    have hvalue := ih m hm
    by_cases hnull : m.2 = .null
    · have hstrip : stripMember m = none := by simp [stripMember, hnull]
      have hgraft : stripMember (graftMember g m) = none := by simp [stripMember, graftMember, hnull]
      rw [Function.comp_apply, hgraft, hstrip, Option.map_none]
    · have hstrip := stripMember_eq_some_iff.mpr ⟨hnull, rfl⟩
      have hgraft : stripMember (graftMember g m) = some (m.1, (graft g m.2).stripNulls) :=
        stripMember_eq_some_iff.mpr ⟨fun h => hnull ((graft_eq_null_iff hg).mp h), rfl⟩
      rw [Function.comp_apply, hgraft, hstrip, hvalue]
      rfl

end

end Json

end OpenTerms
