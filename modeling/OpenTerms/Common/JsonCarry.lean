import OpenTerms.Common.JsonSame

/-!
# Trees carried over

One document is loaded as a tree of one language or another, its strings
and numbers carried over by two functions (`Json.map`). Where no two names
become one, what is done to the members commutes with it: setting one
(`map_set`), merging some in (`map_merged`), picking a payload
(`pick_map_eq_ok_iff`), and reordering (`Same.map`).
-/

namespace OpenTerms

namespace Json

variable {S S' N N' : Type} [DecidableEq S] [DecidableEq S'] {f : S → S'} {g : N → N'}

theorem map_set (hf : Function.Injective f) (k : S) (v : Json S N) (ms : List (S × Json S N)) :
    (set k v ms).map (mapMember f g) = set (f k) (v.map f g) (ms.map (mapMember f g)) := by
  induction ms with
  | nil => rfl
  | cons m ms ih =>
    obtain ⟨k', w⟩ := m
    rw [set, List.map_cons, mapMember, set]
    by_cases hk : k' = k
    · rw [if_pos hk, if_pos (congrArg f hk)]
      rfl
    · rw [if_neg hk, if_neg fun h => hk (hf h), List.map_cons, ih]
      rfl

omit [DecidableEq S'] in
/-- A property of every leaf, a member being set. -/
theorem Every.set {pn : N → Prop} {ps pk : S → Prop} {k : S} {v : Json S N}
    {ms : List (S × Json S N)} (hk : pk k) (hv : Every pn ps pk v) (h : Every pn ps pk (.obj ms)) :
    Every pn ps pk (.obj (set k v ms)) := by
  rw [every_obj] at h ⊢
  intro m hm
  rcases mem_of_mem_set hm with rfl | hm
  · exact ⟨hk, hv⟩
  · exact h m hm

/-- And members being merged in. -/
theorem Every.merged {pn : N → Prop} {ps pk : S → Prop} {keep : Json S N → Bool}
    {dst src : List (S × Json S N)} (hdst : Every pn ps pk (.obj dst))
    (hsrc : Every pn ps pk (.obj src)) : Every pn ps pk (.obj (merged keep dst src)) := by
  unfold Json.merged
  induction src generalizing dst with
  | nil => exact hdst
  | cons m src ih =>
    rw [every_obj, List.forall_mem_cons, ← every_obj] at hsrc
    rw [List.foldl_cons]
    refine ih ?_ hsrc.2
    split_ifs
    · exact Every.set hsrc.1.1 hsrc.1.2 hdst
    · exact hdst

theorem UniqueNames.set {k : S} {v : Json S N} {ms : List (S × Json S N)} (hv : UniqueNames v)
    (h : UniqueNames (.obj ms)) : UniqueNames (.obj (Json.set k v ms)) := by
  rw [uniqueNames_obj] at h ⊢
  exact Clean.set h hv

theorem UniqueNames.merged {keep : Json S N → Bool} {dst src : List (S × Json S N)}
    (hdst : UniqueNames (.obj dst)) (hsrc : ∀ m ∈ src, UniqueNames m.2) :
    UniqueNames (.obj (Json.merged keep dst src)) := by
  unfold Json.merged
  induction src generalizing dst with
  | nil => exact hdst
  | cons m src ih =>
    rw [List.forall_mem_cons] at hsrc
    rw [List.foldl_cons]
    refine ih ?_ hsrc.2
    split_ifs
    · exact UniqueNames.set hsrc.1 hdst
    · exact hdst

omit [DecidableEq S] [DecidableEq S'] in
/-- Members carried over one by one. -/
theorem MemberRel.eq_map_mapMember {ms : List (S × Json S N)} {ns : List (S' × Json S' N')}
    (h : MemberRel f (fun v w => w = v.map f g) ms ns) : ns = ms.map (mapMember f g) := by
  induction h with
  | nil => rfl
  | cons hm _ ih =>
    rw [List.map_cons, ← ih]
    exact congrArg (· :: _) (Prod.ext hm.1 hm.2)

/-- **A payload carried over** is the payload of what is carried over. -/
theorem pick_map_eq_ok_iff (hf : Function.Injective f) {keep : Json S N → Bool}
    {keep' : Json S' N' → Bool} (hkeep : ∀ v, keep v = keep' (v.map f g)) {required optional : List S}
    {src : List (S × Json S N)} {out' : List (S' × Json S' N')} :
    pick (required.map f) (optional.map f) keep' (src.map (mapMember f g)) = .ok out'
      ↔ ∃ out, pick required optional keep src = .ok out ∧ out' = out.map (mapMember f g) := by
  have hget (k : S) : Option.Rel (fun v w => w = v.map f g) (get? k src)
      (get? (f k) (src.map (mapMember f g))) := by
    rw [get?_map_mapMember _ _ hf]
    cases get? k src with
    | none => exact .none
    | some v => exact .some rfl
  have hforward {out : List (S × Json S N)} (h : pick required optional keep src = .ok out) :
      pick (required.map f) (optional.map f) keep' (src.map (mapMember f g))
        = .ok (out.map (mapMember f g)) := by
    have hoptional : ∀ k ∈ optional, Option.Rel (fun v w => w = v.map f g)
        ((get? k src).filter keep) ((get? (f k) (src.map (mapMember f g))).filter keep') := by
      intro k _
      refine rel_filter (fun v w hw => ?_) (hget k)
      rw [hw, hkeep]
    obtain ⟨_, hout, hrel⟩ := pick_rel hf (fun k _ => hget k) hoptional h
    rw [hout, hrel.eq_map_mapMember]
  constructor
  · intro h
    -- a payload is there on one side as soon as it is on the other
    have hnames : ∀ k ∈ required, k ∈ names src := by
      intro k hk
      have hk' := pick_isOk_iff.mp ⟨out', h⟩ (f k) (List.mem_map_of_mem hk)
      rw [names_map_mapMember] at hk'
      obtain ⟨k', hmem, heq⟩ := List.mem_map.mp hk'
      rwa [← hf heq]
    obtain ⟨out, hout⟩ := pick_isOk_iff.mpr hnames
    have heq := hforward hout
    rw [h] at heq
    exact ⟨out, hout, Except.ok.inj heq⟩
  · rintro ⟨out, hout, rfl⟩
    exact hforward hout

/-- **What is merged in** is carried over. -/
theorem map_merged (hf : Function.Injective f) {keep : Json S N → Bool} {keep' : Json S' N' → Bool}
    (hkeep : ∀ v, keep v = keep' (v.map f g)) (dst src : List (S × Json S N)) :
    (merged keep dst src).map (mapMember f g)
      = merged keep' (dst.map (mapMember f g)) (src.map (mapMember f g)) := by
  unfold merged
  induction src generalizing dst with
  | nil => rfl
  | cons m src ih =>
    rw [List.foldl_cons, ih, List.map_cons, List.foldl_cons]
    refine congrArg (List.foldl _ · _) ?_
    change (if keep m.2 then set m.1 m.2 dst else dst).map (mapMember f g)
      = if keep' (m.2.map f g) then set (f m.1) (m.2.map f g) (dst.map (mapMember f g))
        else dst.map (mapMember f g)
    rw [← hkeep]
    by_cases hm : keep m.2 = true
    · rw [if_pos hm, if_pos hm, map_set hf]
    · rw [if_neg hm, if_neg hm]

/-- **Sameness is carried over.** -/
theorem Same.map (hf : Function.Injective f) {v w : Json S N} (h : Same v w) :
    Same (v.map f g) (w.map f g) := by
  induction v generalizing w with
  | null => cases w <;> first | exact trivial | exact h.elim
  | bool b => cases w <;> exact h
  | num n => cases w <;> first | exact congrArg g h | exact h.elim
  | str s => cases w <;> first | exact congrArg f h | exact h.elim
  | arr xs ih =>
    cases w with
    | arr ys =>
      have hxs := sameItems_iff.mp h
      rw [map_arr, map_arr]
      refine sameItems_iff.mpr (List.forall₂_map_left_iff.mpr (List.forall₂_map_right_iff.mpr ?_))
      clear h
      induction hxs with
      | nil => exact .nil
      | cons hx _ ih' =>
        rw [List.forall_mem_cons] at ih
        exact .cons (ih.1 hx) (ih' ih.2)
    | null | bool | num | str | obj => exact h.elim
  | obj ms ih =>
    cases w with
    | obj ns =>
      have hms := sameMembers_iff.mp h.2
      rw [map_obj, map_obj]
      refine ⟨?_, sameMembers_iff.mpr ?_⟩
      · rw [List.length_map, List.length_map]
        exact h.1
      · rw [List.forall_mem_map]
        intro m hm
        obtain ⟨w, hget, hsame⟩ := hms m hm
        refine ⟨w.map f g, ?_, ih m hm hsame⟩
        change Json.get? (f m.1) (ns.map (mapMember f g)) = _
        rw [get?_map_mapMember _ _ hf, hget, Option.map_some]
    | null | bool | num | str | arr => exact h.elim

end Json

end OpenTerms
