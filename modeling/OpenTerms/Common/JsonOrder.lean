import OpenTerms.Common.Json

/-!
# Member order

Sorting every object of a tree by name, and equality up to member order.
`Same` is the equality of the trees as data: arrays item by item,
objects as finite maps. For trees with no name twice it is equality of
the sorted trees, which is what makes a canonical text possible.

`Every` states a property of all numbers, strings and names of a tree;
it is how the later files say what a canonicalizer lets through.
-/

namespace OpenTerms

namespace Json

variable {S N : Type}

/-! ## Every number, string and name -/

section Every

variable (pn : N → Prop) (ps pk : S → Prop)

mutual

/-- Every number satisfies `pn`, every string value `ps` and every
member name `pk`. -/
def Every : Json S N → Prop
  | .num n => pn n
  | .str s => ps s
  | .arr xs => EveryItem xs
  | .obj ms => EveryMember ms
  | _ => True

def EveryItem : List (Json S N) → Prop
  | [] => True
  | x :: xs => Every x ∧ EveryItem xs

def EveryMember : List (S × Json S N) → Prop
  | [] => True
  | (k, v) :: ms => (pk k ∧ Every v) ∧ EveryMember ms

end

variable {pn ps pk}

@[simp] theorem every_null : Every pn ps pk .null := trivial
@[simp] theorem every_bool (b : Bool) : Every pn ps pk (.bool b) := trivial
@[simp] theorem every_num {n : N} : Every pn ps pk (.num n) ↔ pn n := Iff.rfl
@[simp] theorem every_str {s : S} : Every pn ps pk (.str s) ↔ ps s := Iff.rfl

@[simp] theorem every_arr {xs : List (Json S N)} :
    Every pn ps pk (.arr xs) ↔ ∀ x ∈ xs, Every pn ps pk x := by
  rw [Every]
  induction xs with
  | nil => simp [EveryItem]
  | cons x xs ih => rw [EveryItem, ih, List.forall_mem_cons]

@[simp] theorem every_obj {ms : List (S × Json S N)} :
    Every pn ps pk (.obj ms) ↔ ∀ m ∈ ms, pk m.1 ∧ Every pn ps pk m.2 := by
  rw [Every]
  induction ms with
  | nil => simp [EveryMember]
  | cons m ms ih => rw [EveryMember, ih, List.forall_mem_cons]

theorem Every.imp {pn' : N → Prop} {ps' pk' : S → Prop} (hn : ∀ n, pn n → pn' n)
    (hs : ∀ s, ps s → ps' s) (hk : ∀ k, pk k → pk' k) {v : Json S N} (h : Every pn ps pk v) :
    Every pn' ps' pk' v := by
  induction v with
  | null => trivial
  | bool b => trivial
  | num n => exact hn n h
  | str s => exact hs s h
  | arr xs ih =>
    rw [every_arr] at h ⊢
    exact fun x hx => ih x hx (h x hx)
  | obj ms ih =>
    rw [every_obj] at h ⊢
    exact fun m hm => ⟨hk _ (h m hm).1, ih m hm (h m hm).2⟩

theorem every_of_forall (hn : ∀ n, pn n) (hs : ∀ s, ps s) (hk : ∀ k, pk k) (v : Json S N) :
    Every pn ps pk v := by
  induction v with
  | null => trivial
  | bool b => trivial
  | num n => exact hn n
  | str s => exact hs s
  | arr xs ih => exact every_arr.mpr ih
  | obj ms ih => exact every_obj.mpr fun m hm => ⟨hk m.1, ih m hm⟩

theorem Every.and {pn' : N → Prop} {ps' pk' : S → Prop} {v : Json S N}
    (h : Every pn ps pk v) (h' : Every pn' ps' pk' v) :
    Every (fun n => pn n ∧ pn' n) (fun s => ps s ∧ ps' s) (fun k => pk k ∧ pk' k) v := by
  induction v with
  | null => trivial
  | bool b => trivial
  | num n => exact ⟨h, h'⟩
  | str s => exact ⟨h, h'⟩
  | arr xs ih =>
    rw [every_arr] at h h' ⊢
    exact fun x hx => ih x hx (h x hx) (h' x hx)
  | obj ms ih =>
    rw [every_obj] at h h' ⊢
    exact fun m hm => ⟨⟨(h m hm).1, (h' m hm).1⟩, ih m hm (h m hm).2 (h' m hm).2⟩

/-- A change of alphabet that fixes every piece of the tree fixes it. -/
theorem Every.map_eq_self {f : S → S} {g : N → N} {v : Json S N}
    (h : Every (fun n => g n = n) (fun s => f s = s) (fun k => f k = k) v) : v.map f g = v := by
  induction v with
  | null => rfl
  | bool b => rfl
  | num n => exact congrArg _ h
  | str s => exact congrArg _ h
  | arr xs ih =>
    rw [every_arr] at h
    rw [map_arr, List.map_congr_left fun x hx => ih x hx (h x hx), List.map_id']
  | obj ms ih =>
    rw [every_obj] at h
    rw [map_obj, List.map_congr_left fun m hm =>
      (Prod.ext (h m hm).1 (ih m hm (h m hm).2) : mapMember f g m = m), List.map_id']

theorem every_map {S' N' : Type} {f : S' → S} {g : N' → N} {v : Json S' N'} :
    Every pn ps pk (v.map f g)
      ↔ Every (fun n => pn (g n)) (fun s => ps (f s)) (fun k => pk (f k)) v := by
  induction v with
  | null => simp
  | bool b => simp
  | num n => simp
  | str s => simp
  | arr xs ih =>
    rw [map_arr, every_arr, every_arr, List.forall_mem_map]
    exact forall₂_congr ih
  | obj ms ih =>
    rw [map_obj, every_obj, every_obj, List.forall_mem_map]
    exact forall₂_congr fun m hm => and_congr_right fun _ => ih m hm

section Decidable

variable [DecidablePred pn] [DecidablePred ps] [DecidablePred pk]

mutual

/-- Looking at every piece. -/
def decideEvery : (v : Json S N) → Decidable (Every pn ps pk v)
  | .null => .isTrue trivial
  | .bool _ => .isTrue trivial
  | .num n => inferInstanceAs (Decidable (pn n))
  | .str s => inferInstanceAs (Decidable (ps s))
  | .arr xs => decideEveryItem xs
  | .obj ms => decideEveryMember ms

def decideEveryItem : (xs : List (Json S N)) → Decidable (EveryItem pn ps pk xs)
  | [] => .isTrue trivial
  | x :: xs =>
    have := decideEvery x
    have := decideEveryItem xs
    inferInstanceAs (Decidable (Every pn ps pk x ∧ EveryItem pn ps pk xs))

def decideEveryMember : (ms : List (S × Json S N)) → Decidable (EveryMember pn ps pk ms)
  | [] => .isTrue trivial
  | (k, v) :: ms =>
    have := decideEvery v
    have := decideEveryMember ms
    inferInstanceAs (Decidable ((pk k ∧ Every pn ps pk v) ∧ EveryMember pn ps pk ms))

end

instance (v : Json S N) : Decidable (Every pn ps pk v) := decideEvery v

end Decidable

/-- A property of the whole tree is one of what stripping leaves. -/
theorem Every.stripNulls {v : Json S N} (h : Every pn ps pk v) : Every pn ps pk v.stripNulls := by
  induction v with
  | null => trivial
  | bool b => trivial
  | num n => exact h
  | str s => exact h
  | arr xs ih =>
    rw [every_arr] at h
    rw [stripNulls_arr, every_arr, List.forall_mem_map]
    exact fun x hx => ih x hx (h x hx)
  | obj ms ih =>
    rw [every_obj] at h
    rw [stripNulls_obj, every_obj]
    intro m' hm'
    obtain ⟨m, hm, -, rfl⟩ := mem_filterMap_stripMember.mp hm'
    exact ⟨(h m hm).1, ih m hm (h m hm).2⟩

/-- Stripping removes no number and no string. -/
theorem Every.of_stripNulls {v : Json S N} (h : Every pn ps (fun _ => True) v.stripNulls) :
    Every pn ps (fun _ => True) v := by
  induction v with
  | null => trivial
  | bool b => trivial
  | num n => exact h
  | str s => exact h
  | arr xs ih =>
    rw [stripNulls_arr, every_arr, List.forall_mem_map] at h
    rw [every_arr]
    exact fun x hx => ih x hx (h x hx)
  | obj ms ih =>
    rw [stripNulls_obj, every_obj] at h
    rw [every_obj]
    intro m hm
    refine ⟨trivial, ?_⟩
    by_cases hnull : m.2 = .null
    · rw [hnull]
      trivial
    · exact ih m hm (h _ (mem_filterMap_stripMember.mpr ⟨m, hm, hnull, rfl⟩)).2

end Every

/-! ## Sorting by name -/

section Sorting

variable [LinearOrder S] {V : Type}

/-- The members in increasing order of their names. -/
def sortMembers (ms : List (S × V)) : List (S × V) :=
  ms.insertionSort fun a b => a.1 ≤ b.1

theorem sortMembers_perm (ms : List (S × V)) : (sortMembers ms).Perm ms :=
  List.perm_insertionSort _ ms

@[simp] theorem mem_sortMembers {m : S × V} {ms : List (S × V)} :
    m ∈ sortMembers ms ↔ m ∈ ms := (sortMembers_perm ms).mem_iff

theorem names_sortMembers_perm (ms : List (S × V)) :
    (names (sortMembers ms)).Perm (names ms) := (sortMembers_perm ms).map _

instance : Std.Total fun a b : S × V => a.1 ≤ b.1 := ⟨fun a b => le_total a.1 b.1⟩

instance : IsTrans (S × V) fun a b => a.1 ≤ b.1 := ⟨fun _ _ _ h h' => le_trans h h'⟩

theorem sorted_sortMembers (ms : List (S × V)) :
    (sortMembers ms).Pairwise fun a b => a.1 ≤ b.1 :=
  List.pairwise_insertionSort _ ms

/-- **Sorting forgets the order and nothing else**, where no name occurs
twice. -/
theorem sortMembers_eq_of_perm {ms ns : List (S × V)} (hd : (names ms).Nodup)
    (h : ms.Perm ns) : sortMembers ms = sortMembers ns := by
  have hp : (sortMembers ms).Perm (sortMembers ns) :=
    (sortMembers_perm ms).trans (h.trans (sortMembers_perm ns).symm)
  refine hp.eq_of_pairwise (fun a b ha hb hab hba => ?_) (sorted_sortMembers ms)
    (sorted_sortMembers ns)
  have ha' : a ∈ ms := mem_sortMembers.mp ha
  have hb' : b ∈ ms := h.mem_iff.mpr (mem_sortMembers.mp hb)
  exact List.inj_on_of_nodup_map hd ha' hb' (le_antisymm hab hba)

/-- Sorting commutes with a renaming that keeps the order of the names. -/
theorem sortMembers_map {S' V' : Type} [LinearOrder S'] (f : S × V → S' × V')
    (ms : List (S × V)) (h : ∀ a ∈ ms, ∀ b ∈ ms, a.1 ≤ b.1 ↔ (f a).1 ≤ (f b).1) :
    sortMembers (ms.map f) = (sortMembers ms).map f :=
  (List.map_insertionSort _ _ f ms h).symm

mutual

/-- The tree with the members of every object sorted by name. -/
def sortKeys : Json S N → Json S N
  | .arr xs => .arr (sortItems xs)
  | .obj ms => .obj (sortMembers (sortMemberValues ms))
  | v => v

def sortItems : List (Json S N) → List (Json S N)
  | [] => []
  | x :: xs => sortKeys x :: sortItems xs

def sortMemberValues : List (S × Json S N) → List (S × Json S N)
  | [] => []
  | (k, v) :: ms => (k, sortKeys v) :: sortMemberValues ms

end

/-- One member with its value sorted. -/
def sortMember (m : S × Json S N) : S × Json S N := (m.1, sortKeys m.2)

@[simp] theorem sortKeys_null : sortKeys (.null : Json S N) = .null := rfl
@[simp] theorem sortKeys_bool (b : Bool) : sortKeys (.bool b : Json S N) = .bool b := rfl
@[simp] theorem sortKeys_num (n : N) : sortKeys (.num n : Json S N) = .num n := rfl
@[simp] theorem sortKeys_str (s : S) : sortKeys (.str s : Json S N) = .str s := rfl

@[simp] theorem sortKeys_arr (xs : List (Json S N)) :
    sortKeys (.arr xs) = .arr (xs.map sortKeys) := by
  rw [sortKeys]
  congr 1
  induction xs with
  | nil => rfl
  | cons x xs ih => rw [sortItems, ih]; rfl

@[simp] theorem sortKeys_obj (ms : List (S × Json S N)) :
    sortKeys (.obj ms) = .obj (sortMembers (ms.map sortMember)) := by
  have hvalues : sortMemberValues ms = ms.map sortMember := by
    induction ms with
    | nil => rfl
    | cons m ms ih => rw [sortMemberValues, ih]; rfl
  rw [sortKeys, hvalues]

theorem names_map_sortMember (ms : List (S × Json S N)) :
    names (ms.map sortMember) = names ms := by
  simp [names, sortMember, Function.comp_def]

theorem UniqueNames.sortKeys {v : Json S N} (h : UniqueNames v) : UniqueNames v.sortKeys := by
  induction v with
  | null => trivial
  | bool b => trivial
  | num n => trivial
  | str s => trivial
  | arr xs ih =>
    rw [uniqueNames_arr] at h
    rw [sortKeys_arr, uniqueNames_arr, List.forall_mem_map]
    exact fun x hx => ih x hx (h x hx)
  | obj ms ih =>
    rw [uniqueNames_obj] at h
    rw [sortKeys_obj, uniqueNames_obj, (names_sortMembers_perm _).nodup_iff,
      names_map_sortMember]
    refine ⟨h.1, fun m' hm' => ?_⟩
    obtain ⟨m, hm, rfl⟩ := List.mem_map.mp (mem_sortMembers.mp hm')
    exact ih m hm (h.2 m hm)

theorem every_sortKeys {pn : N → Prop} {ps pk : S → Prop} {v : Json S N} :
    Every pn ps pk v.sortKeys ↔ Every pn ps pk v := by
  induction v with
  | null => simp
  | bool b => simp
  | num n => simp
  | str s => simp
  | arr xs ih =>
    rw [sortKeys_arr, every_arr, every_arr, List.forall_mem_map]
    exact forall₂_congr ih
  | obj ms ih =>
    rw [sortKeys_obj, every_obj, every_obj]
    simp only [mem_sortMembers, List.forall_mem_map]
    exact forall₂_congr fun m hm => and_congr_right fun _ => ih m hm

/-- **Sorting commutes with a change of alphabet** that keeps the order
of the names the tree has. -/
theorem sortKeys_map {S' N' : Type} [LinearOrder S'] {f : S → S'} {g : N → N'}
    {pk : S → Prop} (hf : ∀ a b, pk a → pk b → (f a ≤ f b ↔ a ≤ b)) {v : Json S N}
    (h : Every (fun _ => True) (fun _ => True) pk v) :
    (v.map f g).sortKeys = v.sortKeys.map f g := by
  induction v with
  | null => rfl
  | bool b => rfl
  | num n => rfl
  | str s => rfl
  | arr xs ih =>
    rw [every_arr] at h
    rw [map_arr, sortKeys_arr, sortKeys_arr, map_arr, List.map_map, List.map_map]
    exact congrArg _ (List.map_congr_left fun x hx => ih x hx (h x hx))
  | obj ms ih =>
    rw [every_obj] at h
    rw [map_obj, sortKeys_obj, sortKeys_obj, map_obj, ← sortMembers_map, List.map_map,
      List.map_map]
    · refine congrArg (fun ns => Json.obj (sortMembers ns)) (List.map_congr_left fun m hm => ?_)
      exact Prod.ext rfl (ih m hm (h m hm).2)
    · intro a ha b hb
      obtain ⟨a', ha', rfl⟩ := List.mem_map.mp ha
      obtain ⟨b', hb', rfl⟩ := List.mem_map.mp hb
      exact (hf _ _ (h a' ha').1 (h b' hb').1).symm

end Sorting

/-! ## Equality up to member order -/

section Same

variable [DecidableEq S]

mutual

/-- Equality as data: an object is a finite map from names to values. -/
def Same : Json S N → Json S N → Prop
  | .null, .null => True
  | .bool a, .bool b => a = b
  | .num a, .num b => a = b
  | .str a, .str b => a = b
  | .arr xs, .arr ys => SameItems xs ys
  | .obj ms, .obj ns => ms.length = ns.length ∧ SameMembers ms ns
  | _, _ => False

def SameItems : List (Json S N) → List (Json S N) → Prop
  | [], [] => True
  | x :: xs, y :: ys => Same x y ∧ SameItems xs ys
  | _, _ => False

def SameMembers : List (S × Json S N) → List (S × Json S N) → Prop
  | [], _ => True
  | (k, v) :: ms, ns => (∃ w, get? k ns = some w ∧ Same v w) ∧ SameMembers ms ns

end

theorem sameItems_iff {xs ys : List (Json S N)} : SameItems xs ys ↔ List.Forall₂ Same xs ys := by
  induction xs generalizing ys with
  | nil => cases ys <;> simp [SameItems]
  | cons x xs ih => cases ys <;> simp [SameItems, ih]

theorem sameMembers_iff {ms ns : List (S × Json S N)} :
    SameMembers ms ns ↔ ∀ m ∈ ms, ∃ w, get? m.1 ns = some w ∧ Same m.2 w := by
  induction ms with
  | nil => simp [SameMembers]
  | cons m ms ih => rw [SameMembers, ih, List.forall_mem_cons]

end Same

section Canonical

variable [LinearOrder S] [DecidableEq S]

/-- The members of one object are the other's once both are sorted. -/
theorem map_sortMember_perm {ms ns : List (S × Json S N)} (hm : (names ms).Nodup)
    (hlen : ms.length = ns.length)
    (h : ∀ m ∈ ms, ∃ w, get? m.1 ns = some w ∧ m.2.sortKeys = w.sortKeys) :
    (ms.map sortMember).Perm (ns.map sortMember) := by
  have hnodup : (ms.map sortMember).Nodup := by
    refine List.Nodup.of_map Prod.fst ?_
    change (names (ms.map sortMember)).Nodup
    rwa [names_map_sortMember]
  have hsub : ms.map sortMember ⊆ ns.map sortMember := by
    intro m' hm'
    obtain ⟨m, hm, rfl⟩ := List.mem_map.mp hm'
    obtain ⟨w, hw, heq⟩ := h m hm
    exact List.mem_map.mpr ⟨(m.1, w), mem_of_get? hw, Prod.ext rfl heq.symm⟩
  exact (List.subperm_of_subset hnodup hsub).perm_of_length_le (by simp [hlen])

/-- **Equality up to member order is equality of the sorted trees.** By
induction on the first tree, an object being matched to the other as a
permutation of its members. -/
theorem same_iff_sortKeys_eq {v w : Json S N} (hv : UniqueNames v) (hw : UniqueNames w) :
    Same v w ↔ v.sortKeys = w.sortKeys := by
  induction v generalizing w with
  | null => cases w <;> simp [Same]
  | bool b => cases w <;> simp [Same]
  | num n => cases w <;> simp [Same]
  | str s => cases w <;> simp [Same]
  | arr xs ih =>
    cases w with
    | arr ys =>
      rw [uniqueNames_arr] at hv hw
      rw [Same, sameItems_iff, sortKeys_arr, sortKeys_arr, Json.arr.injEq]
      induction xs generalizing ys with
      | nil => cases ys <;> simp
      | cons x xs ihx =>
        cases ys with
        | nil => simp
        | cons y ys =>
          rw [List.forall_mem_cons] at hv hw
          rw [List.forall₂_cons, List.map_cons, List.map_cons, List.cons.injEq,
            ih x (by simp) hv.1 hw.1,
            ihx (fun z hz => ih z (by simp [hz])) hv.2 ys hw.2]
    | null | bool _ | num _ | str _ | obj _ => simp [Same]
  | obj ms ih =>
    cases w with
    | obj ns =>
      rw [uniqueNames_obj] at hv hw
      rw [Same, sameMembers_iff, sortKeys_obj, sortKeys_obj, Json.obj.injEq]
      constructor
      · rintro ⟨hlen, hsame⟩
        refine sortMembers_eq_of_perm (by rw [names_map_sortMember]; exact hv.1)
          (map_sortMember_perm hv.1 hlen fun m hm => ?_)
        obtain ⟨x, hx, hs⟩ := hsame m hm
        exact ⟨x, hx, (ih m hm (hv.2 m hm) (hw.2 _ (mem_of_get? hx))).mp hs⟩
      · intro heq
        have hperm : (ms.map sortMember).Perm (ns.map sortMember) :=
          (sortMembers_perm _).symm.trans (heq ▸ sortMembers_perm _)
        refine ⟨by simpa using hperm.length_eq, fun m hm => ?_⟩
        obtain ⟨n, hn, hnm⟩ := List.mem_map.mp
          (hperm.mem_iff.mp (List.mem_map_of_mem (f := sortMember) hm))
        obtain ⟨hk, hval⟩ := Prod.mk.inj hnm
        refine ⟨n.2, (get?_eq_some_iff hw.1).mpr (hk ▸ hn), ?_⟩
        exact (ih m hm (hv.2 m hm) (hw.2 n hn)).mpr hval.symm
    | null | bool _ | num _ | str _ | arr _ => simp [Same]

omit [DecidableEq S] in
theorem sortKeys_sortKeys {v : Json S N} (hv : UniqueNames v) :
    v.sortKeys.sortKeys = v.sortKeys := by
  induction v with
  | null => rfl
  | bool b => rfl
  | num n => rfl
  | str s => rfl
  | arr xs ih =>
    rw [uniqueNames_arr] at hv
    rw [sortKeys_arr, sortKeys_arr, List.map_map]
    exact congrArg _ (List.map_congr_left fun x hx => ih x hx (hv x hx))
  | obj ms ih =>
    rw [uniqueNames_obj] at hv
    have hmap : ms.map (sortMember ∘ sortMember) = ms.map sortMember :=
      List.map_congr_left fun m hm => Prod.ext rfl (ih m hm (hv.2 m hm))
    have hperm : ((sortMembers (ms.map sortMember)).map sortMember).Perm (ms.map sortMember) := by
      have := (sortMembers_perm (ms.map sortMember)).map sortMember
      rwa [List.map_map, hmap] at this
    rw [sortKeys_obj, sortKeys_obj]
    refine congrArg _ (sortMembers_eq_of_perm ?_ hperm)
    rw [names_map_sortMember, (names_sortMembers_perm _).nodup_iff, names_map_sortMember]
    exact hv.1

/-- A tree is the same as its sorted form. -/
theorem same_sortKeys {v : Json S N} (hv : UniqueNames v) : Same v.sortKeys v :=
  (same_iff_sortKeys_eq hv.sortKeys hv).mpr (sortKeys_sortKeys hv)

end Canonical

end Json

end OpenTerms
