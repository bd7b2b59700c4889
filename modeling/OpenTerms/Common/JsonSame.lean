import OpenTerms.Common.JsonWithout
import OpenTerms.Common.Members

/-!
# Trees that are the same

What is the same up to member order stays so: members looked up, members
copied, nulls and names removed. Removal commutes with sorting
(`sortMembers_filterMap`), and sorting decides sameness.
-/

namespace OpenTerms

namespace Json

variable {S N : Type} [LinearOrder S] [DecidableEq S] {name : S}

omit [DecidableEq S] in
/-- Removing members commutes with sorting them. -/
theorem sortMembers_filterMap {V V' : Type} {f : S × V → Option (S × V')}
    (hf : ∀ m m', f m = some m' → m'.1 = m.1) {ms : List (S × V)} (hd : (names ms).Nodup) :
    (sortMembers ms).filterMap f = sortMembers (ms.filterMap f) := by
  have hperm : ((sortMembers ms).filterMap f).Perm (sortMembers (ms.filterMap f)) :=
    ((sortMembers_perm ms).filterMap f).trans (sortMembers_perm _).symm
  have hsorted : ((sortMembers ms).filterMap f).Pairwise fun a b => a.1 ≤ b.1 := by
    refine List.Pairwise.filterMap f (fun a b hab a' ha' b' hb' => ?_) (sorted_sortMembers ms)
    rw [hf a a' ha', hf b b' hb']
    exact hab
  refine hperm.eq_of_pairwise (fun a b ha hb hab hba => ?_) hsorted (sorted_sortMembers _)
  obtain ⟨a', ha', hfa⟩ := List.mem_filterMap.mp ha
  obtain ⟨b', hb', hfb⟩ := List.mem_filterMap.mp (mem_sortMembers.mp hb)
  have hname : a'.1 = b'.1 := by
    rw [← hf a' a hfa, ← hf b' b hfb]
    exact le_antisymm hab hba
  obtain rfl := List.inj_on_of_nodup_map hd (mem_sortMembers.mp ha') hb' hname
  exact Option.some.inj (hfa.symm.trans hfb)

omit [DecidableEq S] in
theorem sortKeys_stripNulls {v : Json S N} (hv : UniqueNames v) :
    v.stripNulls.sortKeys = v.sortKeys.stripNulls := by
  induction v with
  | null => rfl
  | bool b => rfl
  | num n => rfl
  | str s => rfl
  | arr xs ih =>
    rw [uniqueNames_arr] at hv
    rw [stripNulls_arr, sortKeys_arr, sortKeys_arr, stripNulls_arr, List.map_map, List.map_map]
    exact congrArg _ (List.map_congr_left fun x hx => ih x hx (hv x hx))
  | obj ms ih =>
    rw [uniqueNames_obj] at hv
    have hnames : ∀ m m' : S × Json S N, stripMember m = some m' → m'.1 = m.1 := fun m m' h => by
      rw [(stripMember_eq_some_iff.mp h).2]
    rw [stripNulls_obj, sortKeys_obj, sortKeys_obj, stripNulls_obj,
      sortMembers_filterMap hnames (by rw [names_map_sortMember]; exact hv.1), List.map_filterMap,
      List.filterMap_map]
    refine congrArg _ (congrArg _ (List.filterMap_congr fun m hm => ?_))
    obtain ⟨k, v⟩ := m
    have hval := ih (k, v) hm (hv.2 _ hm)
    cases v with
    | null => rfl
    | bool b => rfl
    | num n => rfl
    | str s => rfl
    | arr xs => exact congrArg (fun w => some (k, w)) hval
    | obj ns => exact congrArg (fun w => some (k, w)) hval

theorem sortKeys_without {v : Json S N} (hv : UniqueNames v) :
    (v.without name).sortKeys = v.sortKeys.without name := by
  induction v with
  | null => rfl
  | bool b => rfl
  | num n => rfl
  | str s => rfl
  | arr xs ih =>
    rw [uniqueNames_arr] at hv
    rw [without_arr, sortKeys_arr, sortKeys_arr, without_arr, List.map_map, List.map_map]
    exact congrArg _ (List.map_congr_left fun x hx => ih x hx (hv x hx))
  | obj ms ih =>
    rw [uniqueNames_obj] at hv
    have hnames : ∀ m m' : S × Json S N, withoutMember name m = some m' → m'.1 = m.1 :=
      fun m m' h => by rw [(withoutMember_eq_some_iff.mp h).2]
    rw [without_obj, sortKeys_obj, sortKeys_obj, without_obj,
      sortMembers_filterMap hnames (by rw [names_map_sortMember]; exact hv.1), List.map_filterMap,
      List.filterMap_map]
    refine congrArg _ (congrArg _ (List.filterMap_congr fun m hm => ?_))
    obtain ⟨k, v⟩ := m
    change (if k = name then none else some (k, without name v)).map sortMember
      = if k = name then none else some (k, without name v.sortKeys)
    by_cases hk : k = name
    · rw [if_pos hk, if_pos hk, Option.map_none]
    · rw [if_neg hk, if_neg hk, Option.map_some, sortMember, ih (k, v) hm (hv.2 _ hm)]

/-! ## What sameness keeps -/

section Same

variable {v w x : Json S N}

theorem Same.symm (hv : UniqueNames v) (hw : UniqueNames w) (h : Same v w) : Same w v :=
  (same_iff_sortKeys_eq hw hv).mpr ((same_iff_sortKeys_eq hv hw).mp h).symm

theorem Same.trans (hv : UniqueNames v) (hw : UniqueNames w) (hx : UniqueNames x)
    (h : Same v w) (h' : Same w x) : Same v x :=
  (same_iff_sortKeys_eq hv hx).mpr
    (((same_iff_sortKeys_eq hv hw).mp h).trans ((same_iff_sortKeys_eq hw hx).mp h'))

theorem Same.refl (hv : UniqueNames v) : Same v v := (same_iff_sortKeys_eq hv hv).mpr rfl

theorem Same.stripNulls (hv : UniqueNames v) (hw : UniqueNames w) (h : Same v w) :
    Same v.stripNulls w.stripNulls := by
  rw [same_iff_sortKeys_eq hv.stripNulls hw.stripNulls, sortKeys_stripNulls hv,
    sortKeys_stripNulls hw, (same_iff_sortKeys_eq hv hw).mp h]

theorem Same.without (hv : UniqueNames v) (hw : UniqueNames w) (h : Same v w) :
    Same (v.without name) (w.without name) := by
  rw [same_iff_sortKeys_eq hv.without hw.without, sortKeys_without hv, sortKeys_without hw,
    (same_iff_sortKeys_eq hv hw).mp h]

/-- A property of every leaf is one of every tree that is the same. -/
theorem Every.of_same {pn : N → Prop} {ps pk : S → Prop} (hv : UniqueNames v)
    (hw : UniqueNames w) (h : Same v w) (hevery : Every pn ps pk v) : Every pn ps pk w := by
  rw [← every_sortKeys, ← (same_iff_sortKeys_eq hv hw).mp h]
  exact every_sortKeys.mpr hevery

omit [LinearOrder S] in
@[simp] theorem same_str_iff {s : S} : Same (.str s) v ↔ v = .str s := by
  cases v <;> simp [Same, eq_comm]

/-- **Lookup.** -/
theorem Same.get? {ms ns : List (S × Json S N)} (hms : UniqueNames (.obj ms))
    (hns : UniqueNames (.obj ns)) (h : Same (.obj ms) (.obj ns)) (k : S) :
    Option.Rel Same (get? k ms) (get? k ns) := by
  have forward := sameMembers_iff.mp h.2
  have backward := sameMembers_iff.mp (Same.symm hms hns h).2
  cases hm : Json.get? k ms with
  | none =>
    cases hn : Json.get? k ns with
    | none => exact .none
    | some w =>
      obtain ⟨v, hv, -⟩ := backward _ (mem_of_get? hn)
      rw [hm] at hv
      cases hv
  | some v =>
    obtain ⟨w, hw, hsame⟩ := forward _ (mem_of_get? hm)
    rw [hw]
    exact .some hsame

omit [LinearOrder S] in
/-- **Objects related member by member are the same.** -/
theorem MemberRel.same {ms ns : List (S × Json S N)} (h : MemberRel id Same ms ns)
    (hms : (names ms).Nodup) : Same (.obj ms) (.obj ns) := by
  have hnames : names ns = names ms := by
    induction h with
    | nil => rfl
    | cons hm _ ih =>
      rw [names_cons, List.nodup_cons] at hms
      rw [names_cons, names_cons, hm.1, ih hms.2]
      rfl
  refine ⟨h.length_eq, sameMembers_iff.mpr fun m hm => ?_⟩
  obtain ⟨i, hi, rfl⟩ := List.getElem_of_mem hm
  have hi' : i < ns.length := h.length_eq ▸ hi
  have hrel := List.Forall₂.get h hi hi'
  refine ⟨ns[i].2, (get?_eq_some_iff (hnames ▸ hms)).mpr ?_, hrel.2⟩
  have hkey : ns[i].1 = ms[i].1 := hrel.1
  rw [← hkey]
  exact List.getElem_mem hi'

/-- Objects with the same members. -/
theorem same_of_get? {ms ns : List (S × Json S N)} (hms : UniqueNames (.obj ms))
    (hns : (names ns).Nodup) (h : ∀ k, get? k ms = get? k ns) : Same (.obj ms) (.obj ns) := by
  have hms' := uniqueNames_obj.mp hms
  have hmem (m : S × Json S N) : m ∈ ms ↔ m ∈ ns := by
    rw [← get?_eq_some_iff hms'.1, ← get?_eq_some_iff hns, h]
  have hperm : ms.Perm ns :=
    (List.perm_ext_iff_of_nodup (List.Nodup.of_map _ hms'.1) (List.Nodup.of_map _ hns)).mpr hmem
  refine ⟨hperm.length_eq, sameMembers_iff.mpr fun m hm => ?_⟩
  exact ⟨m.2, (get?_eq_some_iff hns).mpr ((hmem m).mp hm), Same.refl (hms'.2 m hm)⟩

end Same

/-! ## The same but for nulls -/

section SameButNulls

variable {v w : Json S N}

/-- The same, up to member order and members that are null. -/
def SameButNulls (v w : Json S N) : Prop := Same v.stripNulls w.stripNulls

omit [LinearOrder S] in
/-- What a lookup in a stripped object finds. -/
theorem get?_filterMap_stripMember {ms : List (S × Json S N)} (hms : (names ms).Nodup) (k : S) :
    get? k (ms.filterMap stripMember)
      = (get? k ms).bind fun v => (stripMember (k, v)).map Prod.snd := by
  induction ms with
  | nil => rfl
  | cons m ms ih =>
    obtain ⟨k', v⟩ := m
    rw [names_cons, List.nodup_cons] at hms
    have hkept {v' : Json S N} (hv : v ≠ .null) (hv' : v' = v.stripNulls) :
        get? k ((k', v') :: ms.filterMap stripMember)
          = (get? k ((k', v) :: ms)).bind fun v => (stripMember (k, v)).map Prod.snd := by
      subst hv'
      rw [get?_cons, get?_cons, ih hms.2]
      by_cases hk : k' = k
      · rw [if_pos hk, if_pos hk, Option.bind_some, stripMember_eq_some_iff.mpr ⟨hv, rfl⟩]
        rfl
      · rw [if_neg hk, if_neg hk]
    cases v with
    | null =>
      rw [List.filterMap_cons_none rfl, ih hms.2, get?_cons]
      by_cases hk : k' = k
      · subst hk
        rw [if_pos rfl, get?_eq_none_iff.mpr hms.1]
        rfl
      · rw [if_neg hk]
    | bool | num | str | arr | obj => exact hkept nofun rfl

omit [LinearOrder S] in
/-- **A tree that stripping leaves the same** had nothing to strip. -/
theorem stripNulls_eq_self_of_same (hv : UniqueNames v) (h : Same v v.stripNulls) :
    v.stripNulls = v := by
  induction v with
  | null => rfl
  | bool b => rfl
  | num n => rfl
  | str s => rfl
  | arr xs ih =>
    rw [uniqueNames_arr] at hv
    rw [stripNulls_arr, Same, sameItems_iff, List.forall₂_map_right_iff, List.forall₂_same] at h
    rw [stripNulls_arr, List.map_congr_left fun x hx => ih x hx (hv x hx) (h x hx), List.map_id']
  | obj ms ih =>
    rw [uniqueNames_obj] at hv
    rw [stripNulls_obj, Same, sameMembers_iff] at h
    have hkept : ∀ m ∈ ms, stripMember m = some m := by
      intro m hm
      obtain ⟨w, hget, hsame⟩ := h.2 m hm
      rw [get?_filterMap_stripMember hv.1, (get?_eq_some_iff hv.1).mpr hm, Option.bind_some,
        Option.map_eq_some_iff] at hget
      obtain ⟨m', hm', rfl⟩ := hget
      obtain ⟨hne, rfl⟩ := stripMember_eq_some_iff.mp hm'
      exact stripMember_eq_some_iff.mpr ⟨hne, Prod.ext rfl (ih m hm (hv.2 m hm) hsame).symm⟩
    rw [stripNulls_obj, List.filterMap_congr hkept, List.filterMap_some]

/-- **Lookup**, an absent member counting as a null. -/
theorem SameButNulls.get? {ms ns : List (S × Json S N)} (hms : UniqueNames (.obj ms))
    (hns : UniqueNames (.obj ns)) (h : SameButNulls (.obj ms) (.obj ns)) (k : S) :
    SameButNulls ((get? k ms).getD .null) ((get? k ns).getD .null) := by
  have hstrip {o : Option (Json S N)} :
      ((o.bind fun v => (stripMember (k, v)).map Prod.snd).getD .null)
        = (o.getD .null).stripNulls := by
    cases o with
    | none => rfl
    | some v => cases v <;> rfl
  have hms' := hms.stripNulls
  have hns' := hns.stripNulls
  rw [stripNulls_obj] at hms' hns'
  have hsame : Same (.obj (ms.filterMap stripMember)) (.obj (ns.filterMap stripMember)) := by
    rwa [SameButNulls, stripNulls_obj, stripNulls_obj] at h
  have hget := Same.get? hms' hns' hsame k
  rw [get?_filterMap_stripMember (uniqueNames_obj.mp hms).1,
    get?_filterMap_stripMember (uniqueNames_obj.mp hns).1] at hget
  unfold SameButNulls
  rw [← hstrip, ← hstrip]
  generalize ((Json.get? k ms).bind fun v => (stripMember (k, v)).map Prod.snd) = o at hget ⊢
  generalize ((Json.get? k ns).bind fun v => (stripMember (k, v)).map Prod.snd) = o' at hget ⊢
  cases hget with
  | none => trivial
  | some hsame => exact hsame

/-- Objects with the same members that are not null. -/
theorem sameButNulls_of_get? {ms ns : List (S × Json S N)} (hms : UniqueNames (.obj ms))
    (hns : UniqueNames (.obj ns))
    (h : ∀ k v, v ≠ .null → (get? k ms = some v ↔ get? k ns = some v)) :
    SameButNulls (.obj ms) (.obj ns) := by
  have hms' := hms.stripNulls
  have hns' := hns.stripNulls
  unfold SameButNulls
  rw [stripNulls_obj] at hms' hns' ⊢
  rw [stripNulls_obj]
  refine same_of_get? hms' (uniqueNames_obj.mp hns').1 fun k => Option.ext fun w => ?_
  rw [get?_filterMap_stripMember (uniqueNames_obj.mp hms).1,
    get?_filterMap_stripMember (uniqueNames_obj.mp hns).1]
  have hlook (o : Option (Json S N)) :
      (o.bind fun v => (stripMember (k, v)).map Prod.snd) = some w
        ↔ ∃ v, v ≠ .null ∧ o = some v ∧ w = v.stripNulls := by
    rw [Option.bind_eq_some_iff]
    constructor
    · rintro ⟨v, hv, hw⟩
      obtain ⟨m, hm, rfl⟩ := Option.map_eq_some_iff.mp hw
      obtain ⟨hne, rfl⟩ := stripMember_eq_some_iff.mp hm
      exact ⟨v, hne, hv, rfl⟩
    · rintro ⟨v, hne, hv, rfl⟩
      exact ⟨v, hv, Option.map_eq_some_iff.mpr ⟨_, stripMember_eq_some_iff.mpr ⟨hne, rfl⟩, rfl⟩⟩
  rw [hlook, hlook]
  exact exists_congr fun v => and_congr_right fun hne => and_congr_left fun _ => h k v hne

omit [LinearOrder S] in
/-- Two such trees are one leaf, two lists or two objects. -/
theorem SameButNulls.cases (h : SameButNulls v w) :
    v = w ∨ (∃ xs ys, v = .arr xs ∧ w = .arr ys) ∨ ∃ ms ns, v = .obj ms ∧ w = .obj ns := by
  unfold SameButNulls at h
  cases v with
  | arr xs =>
    cases w with
    | arr ys => exact .inr (.inl ⟨xs, ys, rfl, rfl⟩)
    | null | bool | num | str | obj => simp [Same] at h
  | obj ms =>
    cases w with
    | obj ns => exact .inr (.inr ⟨ms, ns, rfl, rfl⟩)
    | null | bool | num | str | arr => simp [Same] at h
  | null | bool | num | str =>
    cases w <;> simp_all [Same]

end SameButNulls

end Json

end OpenTerms
