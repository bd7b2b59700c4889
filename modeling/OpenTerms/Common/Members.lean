import OpenTerms.Common.JsonOrder

/-!
# Copying members

Building one object out of named members of another, in the order the
names are listed: `copyRequired` stops at the first name that is absent,
`copyPresent` passes over it. What comes out depends on the source
through `get?` at the listed names alone, which is what `copyRequired_rel`
and `copyPresent_rel` say, for two sources over two alphabets.
-/

namespace OpenTerms

namespace Json

section Copy

variable {S V : Type} [DecidableEq S]

/-- Copies the named members; an absent one is the error. -/
def copyRequired (src : List (S × V)) : List S → List (S × V) → Except S (List (S × V))
  | [], dst => .ok dst
  | k :: ks, dst =>
    match get? k src with
    | none => .error k
    | some v => copyRequired src ks (set k v dst)

/-- Copies the named members that are there and worth keeping. -/
def copyPresent (keep : V → Bool) (src : List (S × V)) : List S → List (S × V) → List (S × V)
  | [], dst => dst
  | k :: ks, dst =>
    match (get? k src).filter keep with
    | none => copyPresent keep src ks dst
    | some v => copyPresent keep src ks (set k v dst)

/-- A property of every member, and no name twice. -/
def Clean (p : V → Prop) (ms : List (S × V)) : Prop := (names ms).Nodup ∧ ∀ m ∈ ms, p m.2

theorem Clean.set {p : V → Prop} {k : S} {v : V} {ms : List (S × V)} (h : Clean p ms)
    (hv : p v) : Clean p (set k v ms) := by
  refine ⟨nodup_names_set h.1, fun m hm => ?_⟩
  rcases mem_of_mem_set hm with rfl | hm
  · exact hv
  · exact h.2 m hm

theorem Clean.copyRequired {p : V → Prop} {src dst out : List (S × V)} {ks : List S}
    (hsrc : ∀ m ∈ src, p m.2) (hdst : Clean p dst) (h : copyRequired src ks dst = .ok out) :
    Clean p out := by
  induction ks generalizing dst with
  | nil =>
    obtain rfl := Except.ok.inj h
    exact hdst
  | cons k ks ih =>
    rw [Json.copyRequired] at h
    split at h
    · cases h
    · next v hv => exact ih (hdst.set (hsrc _ (mem_of_get? hv))) h

theorem Clean.copyPresent {p : V → Prop} {keep : V → Bool} {src dst : List (S × V)}
    (hsrc : ∀ m ∈ src, p m.2) (hdst : Clean p dst) (ks : List S) :
    Clean p (copyPresent keep src ks dst) := by
  induction ks generalizing dst with
  | nil => exact hdst
  | cons k ks ih =>
    rw [Json.copyPresent]
    split
    · exact ih hdst
    · next v hv =>
      exact ih (hdst.set (hsrc _ (mem_of_get? (Option.filter_eq_some_iff.mp hv).1)))

/-- **What a required copy holds.** -/
theorem get?_copyRequired {src dst out : List (S × V)} {ks : List S}
    (h : copyRequired src ks dst = .ok out) (k : S) :
    get? k out = if k ∈ ks then get? k src else get? k dst := by
  induction ks generalizing dst with
  | nil =>
    obtain rfl := Except.ok.inj h
    simp
  | cons k' ks ih =>
    rw [copyRequired] at h
    split at h
    · cases h
    · next v hv =>
      rw [ih h, get?_set]
      by_cases hk : k' = k
      · subst hk
        simp [hv]
      · simp [hk, Ne.symm hk]

/-- **What an optional copy holds.** -/
theorem get?_copyPresent (keep : V → Bool) (src dst : List (S × V)) (ks : List S) (k : S) :
    get? k (copyPresent keep src ks dst)
      = if k ∈ ks then ((get? k src).filter keep).or (get? k dst) else get? k dst := by
  induction ks generalizing dst with
  | nil => rfl
  | cons k' ks ih =>
    rw [copyPresent]
    by_cases hk : k' = k
    · subst hk
      split
      · next hnone => simp [ih, hnone]
      · next v hsome => simp [ih, hsome, get?_set]
    · have hmem : k ∈ k' :: ks ↔ k ∈ ks := by simp [Ne.symm hk]
      split <;> simp only [ih, get?_set, if_neg hk, hmem]

theorem copyRequired_ok {src : List (S × V)} {ks : List S} (h : ∀ k ∈ ks, k ∈ names src)
    (dst : List (S × V)) : ∃ out, copyRequired src ks dst = .ok out := by
  induction ks generalizing dst with
  | nil => exact ⟨dst, rfl⟩
  | cons k ks ih =>
    rw [List.forall_mem_cons] at h
    rw [copyRequired]
    split
    · next hnone => exact absurd h.1 (get?_eq_none_iff.mp hnone)
    · exact ih h.2 _

theorem mem_names_of_copyRequired {src dst out : List (S × V)} {ks : List S}
    (h : copyRequired src ks dst = .ok out) : ∀ k ∈ ks, k ∈ names src := by
  induction ks generalizing dst with
  | nil => simp
  | cons k ks ih =>
    rw [copyRequired] at h
    split at h
    · cases h
    · next v hv => exact List.forall_mem_cons.mpr ⟨mem_names.mpr ⟨v, mem_of_get? hv⟩, ih h⟩

end Copy

/-! ## A payload -/

section Pick

variable {S V : Type} [DecidableEq S]

/-- The required members and, where there, the optional ones: what a
payload is of the object it is built from. -/
def pick (required optional : List S) (keep : V → Bool) (src : List (S × V)) :
    Except S (List (S × V)) :=
  match copyRequired src required [] with
  | .ok out => .ok (copyPresent keep src optional out)
  | .error k => .error k

variable {required optional : List S} {keep : V → Bool} {src out : List (S × V)}

theorem copyRequired_append (src dst : List (S × V)) (ks ls : List S) :
    copyRequired src (ks ++ ls) dst
      = match copyRequired src ks dst with
        | .ok mid => copyRequired src ls mid
        | .error k => .error k := by
  induction ks generalizing dst with
  | nil => rfl
  | cons k ks ih =>
    rw [List.cons_append, copyRequired, copyRequired]
    split
    · rfl
    · exact ih _

theorem copyPresent_append (src dst : List (S × V)) (ks ls : List S) :
    copyPresent keep src (ks ++ ls) dst = copyPresent keep src ls (copyPresent keep src ks dst) := by
  induction ks generalizing dst with
  | nil => rfl
  | cons k ks ih =>
    rw [List.cons_append, copyPresent, copyPresent]
    split
    · exact ih _
    · exact ih _

theorem pick_eq_ok_iff : pick required optional keep src = .ok out
    ↔ ∃ mid, copyRequired src required [] = .ok mid
      ∧ out = copyPresent keep src optional mid := by
  unfold pick
  split
  · next mid hmid => simp [hmid, eq_comm]
  · next k hk => simp [hk]

theorem Clean.pick {p : V → Prop} (hsrc : ∀ m ∈ src, p m.2)
    (h : pick required optional keep src = .ok out) : Clean p out := by
  obtain ⟨mid, hmid, rfl⟩ := pick_eq_ok_iff.mp h
  have hnil : Clean p ([] : List (S × V)) := ⟨List.nodup_nil, by simp⟩
  exact Clean.copyPresent hsrc (Clean.copyRequired hsrc hnil hmid) _

/-- **What a payload holds**: the required members as they are, the
optional ones that were kept, and nothing else. -/
theorem get?_pick (hdisj : ∀ k ∈ required, k ∉ optional)
    (h : pick required optional keep src = .ok out) (k : S) :
    get? k out = if k ∈ required then get? k src
      else if k ∈ optional then (get? k src).filter keep else none := by
  obtain ⟨mid, hmid, rfl⟩ := pick_eq_ok_iff.mp h
  rw [get?_copyPresent, get?_copyRequired hmid, get?_nil]
  by_cases hr : k ∈ required
  · rw [if_pos hr, if_neg (hdisj k hr), if_pos hr]
  · rw [if_neg hr, if_neg hr, Option.or_none]

theorem mem_of_mem_names_pick (hdisj : ∀ k ∈ required, k ∉ optional)
    (h : pick required optional keep src = .ok out) {k : S} (hk : k ∈ names out) :
    k ∈ required ∨ k ∈ optional := by
  by_contra hnot
  rw [not_or] at hnot
  have hget := get?_pick hdisj h k
  rw [if_neg hnot.1, if_neg hnot.2] at hget
  exact get?_eq_none_iff.mp hget hk

theorem pick_isOk_iff :
    (∃ out, pick required optional keep src = .ok out) ↔ ∀ k ∈ required, k ∈ names src := by
  constructor
  · rintro ⟨out, h⟩
    obtain ⟨mid, hmid, -⟩ := pick_eq_ok_iff.mp h
    exact mem_names_of_copyRequired hmid
  · intro h
    obtain ⟨mid, hmid⟩ := copyRequired_ok h []
    exact ⟨_, pick_eq_ok_iff.mpr ⟨mid, hmid, rfl⟩⟩

end Pick

/-! ## Merging -/

section Merge

variable {S V : Type} [DecidableEq S]

/-- `dst[k] = v`, one member after the other, of those that are kept. -/
def merged (keep : V → Bool) (dst src : List (S × V)) : List (S × V) :=
  src.foldl (fun dst m => if keep m.2 then set m.1 m.2 dst else dst) dst

/-- **What a merge holds**: what was merged in, else what was there. -/
theorem get?_merged {keep : V → Bool} {dst src : List (S × V)} (hsrc : (names src).Nodup) (k : S) :
    get? k (merged keep dst src) = ((get? k src).filter keep).or (get? k dst) := by
  induction src generalizing dst with
  | nil => rfl
  | cons m src ih =>
    obtain ⟨k', v⟩ := m
    rw [names_cons, List.nodup_cons] at hsrc
    change get? k (merged keep (if keep v then set k' v dst else dst) src) = _
    rw [ih hsrc.2, get?_cons]
    by_cases hk : k' = k
    · subst hk
      have hnone : get? k' src = none := get?_eq_none_iff.mpr hsrc.1
      cases hkeep : keep v with
      | true => simp [hnone, Option.filter, hkeep, get?_set]
      | false => simp [hnone, Option.filter, hkeep]
    · cases hkeep : keep v with
      | true => simp [hk, get?_set]
      | false => simp [hk]

theorem get?_filter_ne (k k' : S) (src : List (S × V)) :
    get? k (src.filter fun m => m.1 ≠ k') = if k = k' then none else get? k src := by
  induction src with
  | nil => simp
  | cons m src ih =>
    obtain ⟨k₀, v⟩ := m
    by_cases h : k₀ = k'
    · subst h
      rw [List.filter_cons_of_neg (by simp), ih, get?_cons]
      split_ifs <;> simp_all
    · rw [List.filter_cons_of_pos (by simpa using h), get?_cons, ih, get?_cons]
      split_ifs <;> simp_all

end Merge

/-! ## Two sources -/

section Relate

variable {S S' V V' : Type} [DecidableEq S] [DecidableEq S'] {f : S → S'} {R : V → V' → Prop}

/-- Member by member: the name carried over, the values related. -/
def MemberRel (f : S → S') (R : V → V' → Prop) : List (S × V) → List (S' × V') → Prop :=
  List.Forall₂ fun m m' => m'.1 = f m.1 ∧ R m.2 m'.2

theorem MemberRel.set (hf : Function.Injective f) {k : S} {v : V} {v' : V'}
    {ms : List (S × V)} {ms' : List (S' × V')} (h : MemberRel f R ms ms') (hv : R v v') :
    MemberRel f R (set k v ms) (set (f k) v' ms') := by
  induction h with
  | nil => exact .cons ⟨rfl, hv⟩ .nil
  | @cons m m' ms ms' hm hms ih =>
    obtain ⟨k₀, w⟩ := m
    obtain ⟨k₁, w'⟩ := m'
    obtain ⟨rfl, hw⟩ := hm
    rw [Json.set, Json.set]
    by_cases hk : k₀ = k
    · rw [if_pos hk, if_pos (congrArg f hk)]
      exact .cons ⟨rfl, hv⟩ hms
    · rw [if_neg hk, if_neg fun h => hk (hf h)]
      exact .cons ⟨rfl, hw⟩ ih

omit [DecidableEq S] [DecidableEq S'] in
/-- Related values are kept or dropped together. -/
theorem rel_filter {keep : V → Bool} {keep' : V' → Bool}
    (hkeep : ∀ v v', R v v' → keep v = keep' v') {o : Option V} {o' : Option V'}
    (h : Option.Rel R o o') : Option.Rel R (o.filter keep) (o'.filter keep') := by
  cases h with
  | none => exact .none
  | @some v v' h =>
    cases hk : keep v with
    | true => simpa [Option.filter, hk, ← hkeep v v' h] using h
    | false => simp [Option.filter, hk, ← hkeep v v' h]

/-- **A required copy from two sources that agree at the names.** -/
theorem copyRequired_rel (hf : Function.Injective f) {src : List (S × V)}
    {src' : List (S' × V')} {ks : List S}
    (hsrc : ∀ k ∈ ks, Option.Rel R (get? k src) (get? (f k) src'))
    {dst out : List (S × V)} {dst' : List (S' × V')} (hdst : MemberRel f R dst dst')
    (h : copyRequired src ks dst = .ok out) :
    ∃ out', copyRequired src' (ks.map f) dst' = .ok out' ∧ MemberRel f R out out' := by
  induction ks generalizing dst dst' with
  | nil =>
    obtain rfl := Except.ok.inj h
    exact ⟨dst', rfl, hdst⟩
  | cons k ks ih =>
    rw [List.forall_mem_cons] at hsrc
    rw [copyRequired] at h
    split at h
    · cases h
    · next v hv =>
      rw [hv] at hsrc
      cases hv' : get? (f k) src' with
      | none => rw [hv'] at hsrc; cases hsrc.1
      | some v' =>
        rw [hv', Option.rel_some_some] at hsrc
        rw [List.map_cons, copyRequired, hv']
        exact ih hsrc.2 (hdst.set hf hsrc.1) h

/-- **An optional copy from two sources that agree at the names.** -/
theorem copyPresent_rel (hf : Function.Injective f) {keep : V → Bool} {keep' : V' → Bool}
    {src : List (S × V)} {src' : List (S' × V')} {ks : List S}
    (hsrc : ∀ k ∈ ks, Option.Rel R ((get? k src).filter keep) ((get? (f k) src').filter keep'))
    {dst : List (S × V)} {dst' : List (S' × V')} (hdst : MemberRel f R dst dst') :
    MemberRel f R (copyPresent keep src ks dst) (copyPresent keep' src' (ks.map f) dst') := by
  induction ks generalizing dst dst' with
  | nil => exact hdst
  | cons k ks ih =>
    rw [List.forall_mem_cons] at hsrc
    rw [List.map_cons, copyPresent, copyPresent]
    cases hv : (get? k src).filter keep with
    | none =>
      rw [hv] at hsrc
      cases hv' : (get? (f k) src').filter keep' with
      | none => exact ih hsrc.2 hdst
      | some v' => rw [hv'] at hsrc; cases hsrc.1
    | some v =>
      rw [hv] at hsrc
      cases hv' : (get? (f k) src').filter keep' with
      | none => rw [hv'] at hsrc; cases hsrc.1
      | some v' =>
        rw [hv', Option.rel_some_some] at hsrc
        exact ih hsrc.2 (hdst.set hf hsrc.1)

/-- **A payload from two sources that agree at the names.** -/
theorem pick_rel (hf : Function.Injective f) {keep : V → Bool} {keep' : V' → Bool}
    {required optional : List S} {src : List (S × V)} {src' : List (S' × V')}
    (hrequired : ∀ k ∈ required, Option.Rel R (get? k src) (get? (f k) src'))
    (hoptional : ∀ k ∈ optional,
      Option.Rel R ((get? k src).filter keep) ((get? (f k) src').filter keep'))
    {out : List (S × V)} (h : pick required optional keep src = .ok out) :
    ∃ out', pick (required.map f) (optional.map f) keep' src' = .ok out'
      ∧ MemberRel f R out out' := by
  obtain ⟨mid, hmid, rfl⟩ := pick_eq_ok_iff.mp h
  obtain ⟨mid', hmid', hrel⟩ := copyRequired_rel hf hrequired .nil hmid
  exact ⟨_, pick_eq_ok_iff.mpr ⟨mid', hmid', rfl⟩, copyPresent_rel hf hoptional hrel⟩

omit [DecidableEq S] in
theorem MemberRel.eq_map {V' : Type} {g : V → V'} {ms : List (S × V)} {ns : List (S × V')}
    (h : MemberRel id (fun v w => w = g v) ms ns) : ns = ms.map fun m => (m.1, g m.2) := by
  induction h with
  | nil => rfl
  | cons hm _ ih =>
    rw [List.map_cons, ← ih]
    exact congrArg (· :: _) (Prod.ext hm.1 hm.2)

omit [DecidableEq S] in
theorem MemberRel.eq {ms ns : List (S × V)} (h : MemberRel id Eq ms ns) : ms = ns := by
  induction h with
  | nil => rfl
  | cons hm _ ih => rw [ih, Prod.ext hm.1.symm hm.2]

/-- A payload reads its source at the names only. -/
theorem pick_congr {required optional : List S} {keep : V → Bool} {src src' out : List (S × V)}
    (hrequired : ∀ k ∈ required, get? k src = get? k src')
    (hoptional : ∀ k ∈ optional, (get? k src).filter keep = (get? k src').filter keep)
    (h : pick required optional keep src = .ok out) :
    pick required optional keep src' = .ok out := by
  have rel {o o' : Option V} (ho : o = o') : Option.Rel Eq o o' := by
    subst ho
    cases o with
    | none => exact .none
    | some v => exact .some rfl
  obtain ⟨out', hout', hrel⟩ := pick_rel (f := id) (R := Eq) Function.injective_id
    (fun k hk => rel (hrequired k hk)) (fun k hk => rel (hoptional k hk)) h
  rw [List.map_id, List.map_id] at hout'
  rw [hout', hrel.eq]

/-- A payload built from a payload is that payload. -/
theorem pick_pick {required optional : List S} {keep : V → Bool} {src out src' : List (S × V)}
    (hdisj : ∀ k ∈ required, k ∉ optional) (h : pick required optional keep src = .ok out)
    (hsrc' : ∀ k, k ∈ required ∨ k ∈ optional → get? k src' = get? k out) :
    pick required optional keep src' = .ok out := by
  refine pick_congr (fun k hk => ?_) (fun k hk => ?_) h
  · rw [hsrc' k (Or.inl hk), get?_pick hdisj h, if_pos hk]
  · have hk' : k ∉ required := fun hr => hdisj k hr hk
    rw [hsrc' k (Or.inr hk), get?_pick hdisj h, if_neg hk', if_pos hk, Option.filter_filter]
    simp

end Relate

end Json

end OpenTerms
