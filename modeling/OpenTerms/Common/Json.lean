import Mathlib.Data.List.Sort
import Mathlib.Data.List.Nodup

/-!
# JSON trees

A JSON value over a type `S` of strings and a type `N` of numbers. One
type serves the document itself, the Python value `json.loads` makes of
it and the JavaScript value `JSON.parse` makes of it; `map` carries one
to another. An object is the list of its members in order, and
`UniqueNames` says what a `dict` or a JavaScript object always has: no
name twice.

Two trees are `Same` when they are equal up to the order of object
members. Sorting every object by name (`sortKeys`) decides it:
`same_iff_sortKeys_eq`.
-/

namespace OpenTerms

/-- A JSON value. -/
inductive Json (S N : Type) : Type where
  | null
  | bool (b : Bool)
  | num (n : N)
  | str (s : S)
  | arr (xs : List (Json S N))
  | obj (ms : List (S × Json S N))

namespace Json

variable {S N : Type}

/-! ## Induction

The members of a list are values in their own right, so a hypothesis is
stated for each element of it. -/

section Induct

variable {motive : Json S N → Prop}

/-- Structural induction with one hypothesis for each item or member. -/
@[elab_as_elim, induction_eliminator] theorem treeInduct (null : motive .null)
    (bool : ∀ b, motive (.bool b)) (num : ∀ n, motive (.num n)) (str : ∀ s, motive (.str s))
    (arr : ∀ xs, (∀ x ∈ xs, motive x) → motive (.arr xs))
    (obj : ∀ ms, (∀ m ∈ ms, motive m.2) → motive (.obj ms)) (v : Json S N) : motive v :=
  Json.rec (motive_1 := motive) (motive_2 := fun xs => ∀ x ∈ xs, motive x)
    (motive_3 := fun ms => ∀ m ∈ ms, motive m.2) (motive_4 := fun m => motive m.2)
    null bool num str arr obj
    (fun _ h => absurd h List.not_mem_nil)
    (fun _ _ hx hxs => List.forall_mem_cons.mpr ⟨hx, hxs⟩)
    (fun _ h => absurd h List.not_mem_nil)
    (fun _ _ hm hms => List.forall_mem_cons.mpr ⟨hm, hms⟩)
    (fun _ _ hv => hv) v

end Induct

/-! ## Members -/

section Members

variable {V : Type}

/-- The names of an object, in order. -/
def names (ms : List (S × V)) : List S := ms.map Prod.fst

@[simp] theorem names_nil : names ([] : List (S × V)) = [] := rfl

@[simp] theorem names_cons (m : S × V) (ms : List (S × V)) :
    names (m :: ms) = m.1 :: names ms := rfl

theorem mem_names {k : S} {ms : List (S × V)} : k ∈ names ms ↔ ∃ v, (k, v) ∈ ms := by
  simp [names]

variable [DecidableEq S]

/-- The value under a name: `d.get(k)`, or `o[k]` of an own property. -/
def get? (k : S) : List (S × V) → Option V
  | [] => none
  | (k', v) :: ms => if k' = k then some v else get? k ms

/-- Assignment to a name: the member is replaced where it stands, and
appended where it is new. -/
def set (k : S) (v : V) : List (S × V) → List (S × V)
  | [] => [(k, v)]
  | (k', w) :: ms => if k' = k then (k, v) :: ms else (k', w) :: set k v ms

@[simp] theorem get?_nil (k : S) : get? k ([] : List (S × V)) = none := rfl

theorem get?_cons (k k' : S) (v : V) (ms : List (S × V)) :
    get? k ((k', v) :: ms) = if k' = k then some v else get? k ms := rfl

theorem mem_of_get? {k : S} {v : V} {ms : List (S × V)} (h : get? k ms = some v) :
    (k, v) ∈ ms := by
  induction ms with
  | nil => cases h
  | cons m ms ih =>
    obtain ⟨k', w⟩ := m
    rw [get?_cons] at h
    split at h
    · next hk =>
      obtain rfl := Option.some.inj h
      simp [hk]
    · exact List.mem_cons_of_mem _ (ih h)

theorem get?_eq_none_iff {k : S} {ms : List (S × V)} : get? k ms = none ↔ k ∉ names ms := by
  induction ms with
  | nil => simp
  | cons m ms ih =>
    obtain ⟨k', w⟩ := m
    rw [get?_cons, names_cons, List.mem_cons, not_or]
    split
    · next hk => simp [hk]
    · next hk => simp [ih, Ne.symm hk]

/-- With no name twice, membership is lookup. -/
theorem get?_eq_some_iff {k : S} {v : V} {ms : List (S × V)} (h : (names ms).Nodup) :
    get? k ms = some v ↔ (k, v) ∈ ms := by
  refine ⟨mem_of_get?, fun hmem => ?_⟩
  induction ms with
  | nil => cases hmem
  | cons m ms ih =>
    obtain ⟨k', w⟩ := m
    rw [names_cons, List.nodup_cons] at h
    rw [get?_cons]
    rcases List.mem_cons.mp hmem with heq | hmem
    · obtain ⟨rfl, rfl⟩ := Prod.mk.injEq .. ▸ heq
      rw [if_pos rfl]
    · have hne : k' ≠ k := by
        rintro rfl
        exact h.1 (mem_names.mpr ⟨v, hmem⟩)
      rw [if_neg hne]
      exact ih h.2 hmem

/-- A new name is appended. -/
theorem set_of_notMem {k : S} {v : V} {ms : List (S × V)} (h : k ∉ names ms) :
    set k v ms = ms ++ [(k, v)] := by
  induction ms with
  | nil => rfl
  | cons m ms ih =>
    obtain ⟨k', w⟩ := m
    rw [names_cons, List.mem_cons, not_or] at h
    rw [set, if_neg (Ne.symm h.1), ih h.2]
    rfl

theorem mem_of_mem_set {k : S} {v : V} {ms : List (S × V)} {m : S × V}
    (h : m ∈ set k v ms) : m = (k, v) ∨ m ∈ ms := by
  induction ms with
  | nil => exact Or.inl (by simpa [set] using h)
  | cons m' ms ih =>
    obtain ⟨k', w⟩ := m'
    rw [set] at h
    split at h
    · rcases List.mem_cons.mp h with h | h
      · exact Or.inl h
      · exact Or.inr (List.mem_cons_of_mem _ h)
    · rcases List.mem_cons.mp h with h | h
      · exact Or.inr (h ▸ List.mem_cons_self)
      · exact (ih h).imp_right (List.mem_cons_of_mem _)

/-- **Assignment keeps the names apart.** -/
theorem nodup_names_set {k : S} {v : V} {ms : List (S × V)} (h : (names ms).Nodup) :
    (names (set k v ms)).Nodup := by
  induction ms with
  | nil => simp [set]
  | cons m ms ih =>
    obtain ⟨k', w⟩ := m
    rw [names_cons, List.nodup_cons] at h
    rw [set]
    split
    · next hk => subst hk; exact List.nodup_cons.mpr h
    · next hk =>
      refine List.nodup_cons.mpr ⟨fun hmem => ?_, ih h.2⟩
      obtain ⟨x, hx⟩ := mem_names.mp hmem
      rcases mem_of_mem_set hx with heq | hx
      · exact hk (Prod.mk.inj heq).1
      · exact h.1 (mem_names.mpr ⟨x, hx⟩)

theorem get?_set (k k' : S) (v : V) (ms : List (S × V)) :
    get? k' (set k v ms) = if k = k' then some v else get? k' ms := by
  induction ms with
  | nil => rfl
  | cons m ms ih =>
    obtain ⟨k₀, w⟩ := m
    rw [set]
    split
    · next hk =>
      subst hk
      rw [get?_cons, get?_cons]
      split <;> rfl
    · next hk =>
      rw [get?_cons, get?_cons, ih]
      split
      · next h0 => rw [if_neg (fun h => hk (h0.trans h.symm))]
      · rfl

end Members

/-! ## Mapping strings and numbers -/

section Map

variable {S' N' : Type} (f : S → S') (g : N → N')

mutual

/-- The tree with every string and number replaced. -/
def map : Json S N → Json S' N'
  | .null => .null
  | .bool b => .bool b
  | .num n => .num (g n)
  | .str s => .str (f s)
  | .arr xs => .arr (mapItems xs)
  | .obj ms => .obj (mapMembers ms)

def mapItems : List (Json S N) → List (Json S' N')
  | [] => []
  | x :: xs => map x :: mapItems xs

def mapMembers : List (S × Json S N) → List (S' × Json S' N')
  | [] => []
  | (k, v) :: ms => (f k, map v) :: mapMembers ms

end

/-- One member carried over. -/
def mapMember (m : S × Json S N) : S' × Json S' N' := (f m.1, m.2.map f g)

theorem mapItems_eq (xs : List (Json S N)) : mapItems f g xs = xs.map (map f g) := by
  induction xs with
  | nil => rfl
  | cons x xs ih => rw [mapItems, ih]; rfl

theorem mapMembers_eq (ms : List (S × Json S N)) :
    mapMembers f g ms = ms.map (mapMember f g) := by
  induction ms with
  | nil => rfl
  | cons m ms ih => rw [mapMembers, ih]; rfl

@[simp] theorem map_null : map f g .null = .null := rfl
@[simp] theorem map_bool (b : Bool) : map f g (.bool b) = .bool b := rfl
@[simp] theorem map_num (n : N) : map f g (.num n) = .num (g n) := rfl
@[simp] theorem map_str (s : S) : map f g (.str s) = .str (f s) := rfl

@[simp] theorem map_arr (xs : List (Json S N)) :
    map f g (.arr xs) = .arr (xs.map (map f g)) := by rw [map, mapItems_eq]

@[simp] theorem map_obj (ms : List (S × Json S N)) :
    map f g (.obj ms) = .obj (ms.map (mapMember f g)) := by rw [map, mapMembers_eq]

theorem names_map_mapMember (ms : List (S × Json S N)) :
    names (ms.map (mapMember f g)) = (names ms).map f := by
  simp [names, mapMember, Function.comp_def]

variable {f g} in
theorem map_eq_null_iff {v : Json S N} : map f g v = .null ↔ v = .null := by
  cases v <;> simp

theorem map_map {S'' N'' : Type} (f' : S' → S'') (g' : N' → N'') (v : Json S N) :
    (v.map f g).map f' g' = v.map (f' ∘ f) (g' ∘ g) := by
  induction v with
  | null => rfl
  | bool b => rfl
  | num n => rfl
  | str s => rfl
  | arr xs ih =>
    rw [map_arr, map_arr, map_arr, List.map_map]
    exact congrArg _ (List.map_congr_left ih)
  | obj ms ih =>
    rw [map_obj, map_obj, map_obj, List.map_map]
    exact congrArg _ (List.map_congr_left fun m hm => Prod.ext rfl (ih m hm))

theorem get?_map_mapMember [DecidableEq S] [DecidableEq S'] (hf : Function.Injective f) (k : S)
    (ms : List (S × Json S N)) :
    get? (f k) (ms.map (mapMember f g)) = (get? k ms).map (map f g) := by
  induction ms with
  | nil => rfl
  | cons m ms ih =>
    obtain ⟨k', v⟩ := m
    rw [List.map_cons, mapMember, get?_cons, get?_cons, ih]
    by_cases hk : k' = k
    · rw [if_pos hk, if_pos (congrArg f hk)]; rfl
    · rw [if_neg hk, if_neg fun h => hk (hf h)]

end Map

/-! ## Decidable equality -/

section DecidableEq

variable [DecidableEq S] [DecidableEq N]

mutual

/-- Equality of trees, member order included, as a test. -/
def beq : Json S N → Json S N → Bool
  | .null, .null => true
  | .bool a, .bool b => a = b
  | .num a, .num b => a = b
  | .str a, .str b => a = b
  | .arr xs, .arr ys => beqItems xs ys
  | .obj ms, .obj ns => beqMembers ms ns
  | _, _ => false

def beqItems : List (Json S N) → List (Json S N) → Bool
  | [], [] => true
  | x :: xs, y :: ys => beq x y && beqItems xs ys
  | _, _ => false

def beqMembers : List (S × Json S N) → List (S × Json S N) → Bool
  | [], [] => true
  | (k, v) :: ms, (l, w) :: ns => k = l && (beq v w && beqMembers ms ns)
  | _, _ => false

end

theorem beq_iff {v w : Json S N} : beq v w = true ↔ v = w := by
  induction v generalizing w with
  | null => cases w <;> simp [beq]
  | bool b => cases w <;> simp [beq]
  | num n => cases w <;> simp [beq]
  | str s => cases w <;> simp [beq]
  | arr xs ih =>
    have items (ys : List (Json S N)) : beqItems xs ys = true ↔ xs = ys := by
      induction xs generalizing ys with
      | nil => cases ys <;> simp [beqItems]
      | cons x xs ihx =>
        cases ys with
        | nil => simp [beqItems]
        | cons y ys =>
          simp [beqItems, ih x (by simp), ihx fun z hz => ih z (by simp [hz])]
    cases w <;> simp [beq, items]
  | obj ms ih =>
    have members (ns : List (S × Json S N)) : beqMembers ms ns = true ↔ ms = ns := by
      induction ms generalizing ns with
      | nil => cases ns <;> simp [beqMembers]
      | cons m ms ihm =>
        cases ns with
        | nil => simp [beqMembers]
        | cons n ns =>
          have hm := ih m (by simp) (w := n.2)
          simp [beqMembers, hm, ihm fun z hz => ih z (by simp [hz]), Prod.ext_iff, and_assoc]
    cases w <;> simp [beq, members]

instance : DecidableEq (Json S N) := fun _ _ => decidable_of_iff _ beq_iff

end DecidableEq

/-! ## No name twice -/

mutual

/-- No object of the tree has a name twice. -/
def UniqueNames : Json S N → Prop
  | .arr xs => UniqueItems xs
  | .obj ms => (names ms).Nodup ∧ UniqueMembers ms
  | _ => True

def UniqueItems : List (Json S N) → Prop
  | [] => True
  | x :: xs => UniqueNames x ∧ UniqueItems xs

def UniqueMembers : List (S × Json S N) → Prop
  | [] => True
  | (_, v) :: ms => UniqueNames v ∧ UniqueMembers ms

end

@[simp] theorem uniqueNames_null : UniqueNames (.null : Json S N) := trivial
@[simp] theorem uniqueNames_bool (b : Bool) : UniqueNames (.bool b : Json S N) := trivial
@[simp] theorem uniqueNames_num (n : N) : UniqueNames (.num n : Json S N) := trivial
@[simp] theorem uniqueNames_str (s : S) : UniqueNames (.str s : Json S N) := trivial

@[simp] theorem uniqueNames_arr {xs : List (Json S N)} :
    UniqueNames (.arr xs) ↔ ∀ x ∈ xs, UniqueNames x := by
  rw [UniqueNames]
  induction xs with
  | nil => simp [UniqueItems]
  | cons x xs ih => simp [UniqueItems, ih]

@[simp] theorem uniqueNames_obj {ms : List (S × Json S N)} :
    UniqueNames (.obj ms) ↔ (names ms).Nodup ∧ ∀ m ∈ ms, UniqueNames m.2 := by
  have members : UniqueMembers ms ↔ ∀ m ∈ ms, UniqueNames m.2 := by
    induction ms with
    | nil => simp [UniqueMembers]
    | cons m ms ih => rw [UniqueMembers, ih, List.forall_mem_cons]
  rw [UniqueNames, members]

theorem UniqueNames.map {S' N' : Type} {f : S → S'} (g : N → N') (hf : Function.Injective f)
    {v : Json S N} (h : UniqueNames v) : UniqueNames (v.map f g) := by
  induction v with
  | null => trivial
  | bool b => trivial
  | num n => trivial
  | str s => trivial
  | arr xs ih =>
    rw [uniqueNames_arr] at h
    rw [map_arr, uniqueNames_arr, List.forall_mem_map]
    exact fun x hx => ih x hx (h x hx)
  | obj ms ih =>
    rw [uniqueNames_obj] at h
    rw [map_obj, uniqueNames_obj, names_map_mapMember, List.forall_mem_map]
    exact ⟨h.1.map hf, fun m hm => ih m hm (h.2 m hm)⟩

theorem UniqueNames.of_map {S' N' : Type} {f : S → S'} {g : N → N'} {v : Json S N}
    (h : UniqueNames (v.map f g)) : UniqueNames v := by
  induction v with
  | null => trivial
  | bool b => trivial
  | num n => trivial
  | str s => trivial
  | arr xs ih =>
    rw [map_arr, uniqueNames_arr, List.forall_mem_map] at h
    exact uniqueNames_arr.mpr fun x hx => ih x hx (h x hx)
  | obj ms ih =>
    rw [map_obj, uniqueNames_obj, names_map_mapMember, List.forall_mem_map] at h
    exact uniqueNames_obj.mpr ⟨h.1.of_map, fun m hm => ih m hm (h.2 m hm)⟩

section Decidable

variable [DecidableEq S]

mutual

/-- Looking at every object. -/
def decideUniqueNames : (v : Json S N) → Decidable (UniqueNames v)
  | .null => .isTrue trivial
  | .bool _ => .isTrue trivial
  | .num _ => .isTrue trivial
  | .str _ => .isTrue trivial
  | .arr xs => decideUniqueItems xs
  | .obj ms =>
    have := decideUniqueMembers ms
    inferInstanceAs (Decidable ((names ms).Nodup ∧ UniqueMembers ms))

def decideUniqueItems : (xs : List (Json S N)) → Decidable (UniqueItems xs)
  | [] => .isTrue trivial
  | x :: xs =>
    have := decideUniqueNames x
    have := decideUniqueItems xs
    inferInstanceAs (Decidable (UniqueNames x ∧ UniqueItems xs))

def decideUniqueMembers : (ms : List (S × Json S N)) → Decidable (UniqueMembers ms)
  | [] => .isTrue trivial
  | (_, v) :: ms =>
    have := decideUniqueNames v
    have := decideUniqueMembers ms
    inferInstanceAs (Decidable (UniqueNames v ∧ UniqueMembers ms))

end

instance (v : Json S N) : Decidable (UniqueNames v) := decideUniqueNames v

end Decidable

/-! ## Removing null members -/

mutual

/-- The tree without the null members of its objects. Nulls in arrays,
and at the root, stay. -/
def stripNulls : Json S N → Json S N
  | .arr xs => .arr (stripItems xs)
  | .obj ms => .obj (stripMembers ms)
  | v => v

def stripItems : List (Json S N) → List (Json S N)
  | [] => []
  | x :: xs => stripNulls x :: stripItems xs

def stripMembers : List (S × Json S N) → List (S × Json S N)
  | [] => []
  | (_, .null) :: ms => stripMembers ms
  | (k, v) :: ms => (k, stripNulls v) :: stripMembers ms

end

/-- One member stripped: gone where it is null. -/
def stripMember (m : S × Json S N) : Option (S × Json S N) :=
  match m.2 with
  | .null => none
  | v => some (m.1, stripNulls v)

@[simp] theorem stripNulls_null : stripNulls (.null : Json S N) = .null := rfl
@[simp] theorem stripNulls_bool (b : Bool) : stripNulls (.bool b : Json S N) = .bool b := rfl
@[simp] theorem stripNulls_num (n : N) : stripNulls (.num n : Json S N) = .num n := rfl
@[simp] theorem stripNulls_str (s : S) : stripNulls (.str s : Json S N) = .str s := rfl

@[simp] theorem stripNulls_arr (xs : List (Json S N)) :
    stripNulls (.arr xs) = .arr (xs.map stripNulls) := by
  rw [stripNulls]
  congr 1
  induction xs with
  | nil => rfl
  | cons x xs ih => rw [stripItems, ih]; rfl

@[simp] theorem stripNulls_obj (ms : List (S × Json S N)) :
    stripNulls (.obj ms) = .obj (ms.filterMap stripMember) := by
  rw [stripNulls]
  congr 1
  induction ms with
  | nil => rfl
  | cons m ms ih =>
    obtain ⟨k, v⟩ := m
    cases v <;> rw [stripMembers, ih] <;> first | rfl | (intro h; cases h)

theorem stripMember_eq_some_iff {m m' : S × Json S N} :
    stripMember m = some m' ↔ m.2 ≠ .null ∧ m' = (m.1, stripNulls m.2) := by
  obtain ⟨k, v⟩ := m
  cases v <;> simp [stripMember, eq_comm]

theorem mem_filterMap_stripMember {m' : S × Json S N} {ms : List (S × Json S N)} :
    m' ∈ ms.filterMap stripMember ↔ ∃ m ∈ ms, m.2 ≠ .null ∧ m' = (m.1, stripNulls m.2) := by
  simp only [List.mem_filterMap, stripMember_eq_some_iff]

/-- Stripping only removes names. -/
theorem names_filterMap_stripMember_sublist (ms : List (S × Json S N)) :
    (names (ms.filterMap stripMember)).Sublist (names ms) := by
  induction ms with
  | nil => exact List.Sublist.slnil
  | cons m ms ih =>
    obtain ⟨k, v⟩ := m
    cases v with
    | null => exact ih.cons _
    | bool _ | num _ | str _ | arr _ | obj _ => exact ih.cons_cons _

theorem UniqueNames.stripNulls {v : Json S N} (h : UniqueNames v) :
    UniqueNames v.stripNulls := by
  induction v with
  | null => trivial
  | bool b => trivial
  | num n => trivial
  | str s => trivial
  | arr xs ih =>
    rw [uniqueNames_arr] at h
    rw [stripNulls_arr, uniqueNames_arr, List.forall_mem_map]
    exact fun x hx => ih x hx (h x hx)
  | obj ms ih =>
    rw [uniqueNames_obj] at h
    rw [stripNulls_obj, uniqueNames_obj]
    refine ⟨h.1.sublist (names_filterMap_stripMember_sublist ms), fun m' hm' => ?_⟩
    obtain ⟨m, hm, -, rfl⟩ := mem_filterMap_stripMember.mp hm'
    exact ih m hm (h.2 m hm)

/-- Stripping does not see what the strings and numbers are. -/
theorem stripNulls_map {S' N' : Type} (f : S → S') (g : N → N') (v : Json S N) :
    (v.map f g).stripNulls = v.stripNulls.map f g := by
  induction v with
  | null => rfl
  | bool b => rfl
  | num n => rfl
  | str s => rfl
  | arr xs ih =>
    rw [map_arr, stripNulls_arr, stripNulls_arr, map_arr, List.map_map, List.map_map]
    exact congrArg _ (List.map_congr_left ih)
  | obj ms ih =>
    rw [map_obj, stripNulls_obj, stripNulls_obj, map_obj, List.filterMap_map,
      List.map_filterMap]
    refine congrArg _ (List.filterMap_congr fun m hm => ?_)
    obtain ⟨k, v⟩ := m
    have hv := ih (k, v) hm
    cases v <;> simp_all [stripMember, mapMember]

theorem stripNulls_eq_null_iff {v : Json S N} : v.stripNulls = .null ↔ v = .null := by
  cases v <;> simp

/-- A stripped tree has nothing left to strip. -/
theorem stripNulls_stripNulls (v : Json S N) : v.stripNulls.stripNulls = v.stripNulls := by
  induction v with
  | null => rfl
  | bool b => rfl
  | num n => rfl
  | str s => rfl
  | arr xs ih =>
    rw [stripNulls_arr, stripNulls_arr, List.map_map]
    exact congrArg _ (List.map_congr_left ih)
  | obj ms ih =>
    rw [stripNulls_obj, stripNulls_obj, List.filterMap_filterMap]
    refine congrArg _ (List.filterMap_congr fun m hm => ?_)
    cases hstrip : stripMember m with
    | none => rfl
    | some m' =>
      obtain ⟨hne, rfl⟩ := stripMember_eq_some_iff.mp hstrip
      exact stripMember_eq_some_iff.mpr ⟨mt stripNulls_eq_null_iff.mp hne, by rw [ih m hm]⟩

end Json

end OpenTerms
