import OpenTerms.Py.Permissions.Discovery

/-!
# The key of a domain

`_normalise_domain` trims before it takes the scheme and the path off, so
whitespace next to those is left, and a second pass trims it. `check` and
`discover` make that second pass, in `fetch`, and the other calls do not:
all use one key where the host has no whitespace at its ends.
-/

namespace OpenTerms

namespace Py

namespace Permissions

open Json Prog

variable {libs : Libs} {T : Type}

/-! ## Trimming -/

/-- No whitespace at either end. -/
def Trimmed (s : PyStr) : Prop :=
  (∀ c ∈ s.head?, isSpace c = false) ∧ ∀ c ∈ s.getLast?, isSpace c = false

/-- Dropping at the front does nothing where the first item stays. -/
theorem dropWhile_eq_self {s : PyStr} : s.dropWhile isSpace = s ↔ ∀ c ∈ s.head?, isSpace c = false := by
  cases s with
  | nil => simp
  | cons c s =>
    by_cases hc : isSpace c = true
    · have hlen : (s.dropWhile isSpace).length < (c :: s).length := by
        have := (List.dropWhile_sublist isSpace (l := s)).length_le
        rw [List.length_cons]
        omega
      rw [List.dropWhile_cons_of_pos hc]
      refine iff_of_false (fun h => ?_) (by simp [hc])
      rw [h] at hlen
      omega
    · simp [List.dropWhile_cons_of_neg hc, hc]

theorem rdropWhile_eq_self {s : PyStr} :
    s.rdropWhile isSpace = s ↔ ∀ c ∈ s.getLast?, isSpace c = false := by
  rw [List.rdropWhile_eq_self_iff]
  cases s using List.reverseRecOn with
  | nil => simp
  | append_singleton s c => simp

theorem strip_eq_self_iff {s : PyStr} : strip s = s ↔ Trimmed s := by
  unfold strip Trimmed
  rw [← dropWhile_eq_self, ← rdropWhile_eq_self]
  constructor
  · intro h
    have hfront : s.dropWhile isSpace = s := by
      have hlen := (List.rdropWhile_prefix isSpace (l := s.dropWhile isSpace)).length_le
      rw [h] at hlen
      exact (List.dropWhile_sublist isSpace).eq_of_length_le hlen
    rw [hfront] at h
    exact ⟨hfront, h⟩
  · rintro ⟨hfront, hback⟩
    rw [hfront, hback]

/-- `strip` trims. -/
theorem strip_strip (s : PyStr) : strip (strip s) = strip s := by
  have hback : (strip s).rdropWhile isSpace = strip s := List.rdropWhile_idempotent isSpace _
  have hfront : (strip s).dropWhile isSpace = strip s := by
    rw [dropWhile_eq_self]
    intro c hc
    -- what is left has the first item of what the front was dropped of
    obtain ⟨rest, hrest⟩ : strip s <+: s.dropWhile isSpace := List.rdropWhile_prefix isSpace _
    have hhead : c ∈ (s.dropWhile isSpace).head? := hrest ▸ List.mem_head?_append_of_mem_head? hc
    exact dropWhile_eq_self.mp (List.dropWhile_idempotent isSpace s) c hhead
  exact strip_eq_self_iff.mpr ⟨dropWhile_eq_self.mp hfront, rdropWhile_eq_self.mp hback⟩

/-- What is trimmed off leaves a part. -/
theorem strip_part (s : PyStr) : strip s <:+: s :=
  ((List.rdropWhile_prefix isSpace _).isInfix).trans (List.dropWhile_suffix isSpace).isInfix

/-! ## One pass and another -/

/-- What `str.lower` promises: no part of what it returns has an upper case
left, and whitespace has no case. -/
structure LowerLaws (lower : PyStr → PyStr) : Prop where
  fixed : ∀ s t, t <:+: lower s → lower t = t
  trimmed : ∀ s, Trimmed s → Trimmed (lower s)

theorem dropScheme_suffix (s : PyStr) : dropScheme s <:+ s := by
  unfold dropScheme
  split_ifs
  · exact List.drop_suffix 7 s
  · exact List.drop_suffix 8 s
  · exact List.suffix_rfl

/-- A text without a slash has no scheme and no path. -/
theorem host_of_noSlash {s : PyStr} (h : chr '/' ∉ s) :
    (dropScheme s).takeWhile (· ≠ chr '/') = s := by
  have hscheme (scheme : PyStr) (hslash : chr '/' ∈ scheme) : ¬ scheme <+: s :=
    fun hstart => h (hstart.subset hslash)
  have hnone : dropScheme s = s := by
    unfold dropScheme
    rw [if_neg (hscheme _ (by decide)), if_neg (hscheme _ (by decide))]
  rw [hnone, List.takeWhile_eq_self_iff]
  intro c hc
  exact decide_eq_true fun hslash => h (hslash ▸ hc)

/-- **A second pass trims, and no more.** -/
theorem normaliseDomain_normaliseDomain (laws : LowerLaws libs.lower) (d : PyStr) :
    normaliseDomain libs (normaliseDomain libs d) = strip (normaliseDomain libs d) := by
  have hinfix : normaliseDomain libs d <:+: libs.lower (strip d) :=
    (List.takeWhile_prefix _).isInfix.trans (dropScheme_suffix _).isInfix
  have hslash : chr '/' ∉ strip (normaliseDomain libs d) := by
    intro hmem
    have := List.mem_takeWhile_imp ((strip_part _).subset hmem)
    simp at this
  change (dropScheme (libs.lower (strip (normaliseDomain libs d)))).takeWhile (· ≠ chr '/') = _
  rw [laws.fixed _ _ ((strip_part _).trans hinfix), host_of_noSlash hslash]

/-! ## The host -/

/-- Whitespace right after the scheme. -/
def SpaceAfterScheme (s : PyStr) : Prop :=
  ∃ scheme ∈ [lit "http://", lit "https://"], ∃ c, isSpace c = true ∧ scheme ++ [c] <+: s

/-- Whitespace right before the slash the host ends at. -/
def SpaceBeforeSlash (s : PyStr) : Prop :=
  ∃ host c, chr '/' ∉ host ∧ isSpace c = true ∧ host ++ [c, chr '/'] <+: dropScheme s

/-- A text without whitespace has none in either place. -/
theorem no_space_of_forall {s : PyStr} (h : ∀ c ∈ s, isSpace c = false) :
    ¬ SpaceAfterScheme s ∧ ¬ SpaceBeforeSlash s := by
  constructor
  · rintro ⟨scheme, -, c, hspace, hhead⟩
    rw [h c (hhead.subset (by simp))] at hspace
    cases hspace
  · rintro ⟨host, c, -, hspace, hhead⟩
    rw [h c ((dropScheme_suffix s).subset (hhead.subset (by simp)))] at hspace
    cases hspace

theorem isSpace_slash : isSpace (chr '/') = false := by decide

/-- What comes after a text that is there. -/
theorem append_singleton_prefix_iff {t rest : PyStr} {c : CodePoint} :
    t ++ [c] <+: t ++ rest ↔ c ∈ rest.head? := by
  rw [List.prefix_append_right_inj, List.singleton_prefix_iff_head?_eq_some]
  rfl

/-- No text has both schemes. -/
theorem one_scheme {s : PyStr} (h : lit "http://" <+: s) : ¬ lit "https://" <+: s := by
  intro h'
  have : (lit "http://" : PyStr) <+: lit "https://" :=
    List.prefix_of_prefix_length_le h h' (by decide)
  exact absurd this (by decide)

/-- A scheme that is dropped leaves what follows it. -/
theorem head_dropScheme_iff {s : PyStr} (hs : Trimmed s) :
    (∃ c ∈ (dropScheme s).head?, isSpace c = true) ↔ SpaceAfterScheme s := by
  have hlen : (lit "http://" : PyStr).length = 7 ∧ (lit "https://" : PyStr).length = 8 := by
    decide
  unfold dropScheme SpaceAfterScheme
  simp only [List.mem_cons, List.not_mem_nil, or_false, exists_eq_or_imp, exists_eq_left]
  split_ifs with h h'
  · obtain ⟨rest, rfl⟩ := h
    have hnot (c : CodePoint) : ¬ lit "https://" ++ [c] <+: lit "http://" ++ rest := fun hc =>
      one_scheme (List.prefix_append _ rest) ((List.prefix_append _ _).trans hc)
    rw [List.drop_left' hlen.1]
    simp only [append_singleton_prefix_iff, hnot, and_false, exists_false, or_false]
    exact exists_congr fun c => and_comm
  · obtain ⟨rest, rfl⟩ := h'
    have hnot (c : CodePoint) : ¬ lit "http://" ++ [c] <+: lit "https://" ++ rest := fun hc =>
      h ((List.prefix_append _ _).trans hc)
    rw [List.drop_left' hlen.2]
    simp only [append_singleton_prefix_iff, hnot, and_false, exists_false, false_or]
    exact exists_congr fun c => and_comm
  · refine iff_of_false ?_ ?_
    · rintro ⟨c, hc, hspace⟩
      rw [hs.1 c hc] at hspace
      cases hspace
    · rintro (⟨c, -, hc⟩ | ⟨c, -, hc⟩)
      · exact h ((List.prefix_append _ _).trans hc)
      · exact h' ((List.prefix_append _ _).trans hc)

/-- **The host has whitespace at an end** where it stands next to the
scheme or the path that was taken off. -/
theorem trimmed_host_iff {s : PyStr} (hs : Trimmed s) :
    Trimmed ((dropScheme s).takeWhile (· ≠ chr '/'))
      ↔ ¬ SpaceAfterScheme s ∧ ¬ SpaceBeforeSlash s := by
  have hlast : ∀ c ∈ (dropScheme s).getLast?, isSpace c = false := by
    intro c hc
    obtain ⟨before, hbefore⟩ := dropScheme_suffix s
    exact hs.2 c (hbefore ▸ List.mem_getLast?_append_of_mem_getLast? hc)
  rw [← head_dropScheme_iff hs]
  unfold SpaceBeforeSlash
  -- from here on, what is left of the scheme
  generalize dropScheme s = r at hlast ⊢
  refine and_congr ?_ ?_
  · cases r with
    | nil => simp
    | cons c r =>
      by_cases hslash : c = chr '/'
      · simp [hslash, isSpace_slash]
      · simp [hslash]
  · constructor
    · rintro hhost ⟨host, c, hnoslash, hspace, rest, rfl⟩
      have hc : c ≠ chr '/' := by
        rintro rfl
        rw [isSpace_slash] at hspace
        cases hspace
      have htake : (host ++ [c, chr '/'] ++ rest).takeWhile (· ≠ chr '/') = host ++ [c] := by
        have hhost : ∀ a ∈ host, decide (a ≠ chr '/') = true := by
          intro a ha
          exact decide_eq_true fun h => hnoslash (h ▸ ha)
        rw [List.append_assoc, List.takeWhile_append_of_pos hhost]
        simp [hc]
      rw [htake] at hhost
      rw [hhost c (by simp)] at hspace
      cases hspace
    · intro hnone c hc
      by_contra hspace
      rw [Bool.not_eq_false] at hspace
      obtain ⟨host, hhost⟩ := List.getLast?_eq_some_iff.mp hc
      have hsplit : host ++ [c] ++ r.dropWhile (· ≠ chr '/') = r := by
        rw [← hhost]
        exact List.takeWhile_append_dropWhile
      have hnoslash : chr '/' ∉ host := by
        intro hmem
        have := List.mem_takeWhile_imp (hhost ▸ List.mem_append_left [c] hmem)
        simp at this
      cases hrest : r.dropWhile (· ≠ chr '/') with
      | nil =>
        rw [hrest, List.append_nil] at hsplit
        rw [hlast c (hsplit ▸ by simp)] at hspace
        cases hspace
      | cons d rest =>
        have hd : d = chr '/' := by
          have := List.head?_dropWhile_not (fun a => decide (a ≠ chr '/')) r
          rw [hrest] at this
          simpa using this
        rw [hrest, hd] at hsplit
        exact hnone ⟨host, c, hnoslash, hspace, rest, by simpa using hsplit⟩

/-! ## The keys of the calls -/

/-- An operation on a cache is under this key. -/
def KeyedBy (key : PyStr) (_ : List (Performed (Ans libs T))) : Op libs T → Prop
  | .cacheGet _ domain | .cacheSet _ domain _ | .cacheDelete _ domain => domain = key
  | _ => True

/-- A call looks up, stores and drops under this key only. -/
def Keyed {α : Type} (key : PyStr) (p : ClientM libs T α) : Prop :=
  p.Keeps (KeyedBy key) (fun _ _ => True) (fun _ _ => True) []

/-- Every call on a domain uses the key of its normal form. -/
structure OneKey (self : OpenTermsClient) (libs : Libs) (T : Type) (domain : PyStr) : Prop where
  fetch : Keyed (normaliseDomain libs domain) (self.fetch domain : ClientM libs T _)
  check : ∀ action,
    Keyed (normaliseDomain libs domain) (self.check domain action : ClientM libs T _)
  discover : Keyed (normaliseDomain libs domain) (self.discover domain : ClientM libs T _)
  permissionReceipt : ∀ action decision, Keyed (normaliseDomain libs domain)
    (self.permissionReceipt domain action decision : ClientM libs T _)
  clearCache : Keyed (normaliseDomain libs domain)
    (self.clearCache (some domain) : ClientM libs T _)

theorem fetch_keyed (self : OpenTermsClient) (domain : PyStr)
    (trace : List (Performed (Ans libs T))) :
    (self.fetch domain : ClientM libs T _).Keeps (KeyedBy (normaliseDomain libs domain))
      (fun _ _ => True) (fun _ _ => True) trace := by
  unfold OpenTermsClient.fetch
  rw [op_bind]
  refine ⟨rfl, fun cached _ => ?_⟩
  obtain ⟨now, entry⟩ := cached
  cases entry with
  | some entry => trivial
  | none =>
    refine Keeps.bind ((fetchRaw_keeps (G := KeyedBy (normaliseDomain libs domain))
      (fun _ _ _ _ => trivial) _ _).imp fun tr r _ => ?_)
    cases r with
    | error e => trivial
    | ok raw =>
      cases raw with
      | none => trivial
      | some raw => exact ⟨trivial, fun _ _ => ⟨rfl, fun _ _ => trivial⟩⟩

/-- The calls that normalise twice use the second key as well. -/
theorem oneKey_of_idempotent (self : OpenTermsClient) {domain : PyStr}
    (h : normaliseDomain libs (normaliseDomain libs domain) = normaliseDomain libs domain) :
    OneKey self libs T domain where
  fetch := fetch_keyed self domain []
  check action := by
    unfold Keyed OpenTermsClient.check
    rw [op_bind]
    refine ⟨rfl, fun cached _ => Keeps.bind ?_⟩
    have hfetch := @fetch_keyed libs T self (normaliseDomain libs domain)
    rw [h] at hfetch
    refine (hfetch _).imp fun tr r _ => ?_
    cases r with
    | error e => trivial
    | ok data =>
      refine Keeps.bind ?_
      rw [lift_eq, keeps_done]
      cases checkResult (normaliseDomain libs domain) action _ data with
      | error e => trivial
      | ok result => trivial
  discover := by
    have hfetch := @fetch_keyed libs T self (normaliseDomain libs domain)
    rw [h] at hfetch
    refine Keeps.bind ((hfetch _).imp fun tr r _ => ?_)
    cases r with
    | error e => trivial
    | ok data => trivial
  permissionReceipt action decision := ⟨rfl, fun _ _ => ⟨trivial, fun _ _ => trivial⟩⟩
  clearCache := ⟨rfl, fun _ _ => trivial⟩

/-- **`_normalise_domain` is idempotent**, and the calls on a domain use one
key, exactly where trimming and lower-casing leave no whitespace next to
what is taken off. -/
theorem normaliseDomain_idempotent_iff (libs : Libs) (T : Type) (self : OpenTermsClient)
    (domain : PyStr) (laws : LowerLaws libs.lower) :
    (normaliseDomain libs (normaliseDomain libs domain) = normaliseDomain libs domain
        ∧ OneKey self libs T domain)
      ↔ ¬ SpaceAfterScheme (libs.lower (strip domain))
        ∧ ¬ SpaceBeforeSlash (libs.lower (strip domain)) := by
  have htrimmed : Trimmed (libs.lower (strip domain)) :=
    laws.trimmed _ (strip_eq_self_iff.mp (strip_strip domain))
  rw [and_iff_left_of_imp (oneKey_of_idempotent self), normaliseDomain_normaliseDomain laws,
    strip_eq_self_iff]
  exact trimmed_host_iff htrimmed

namespace Sample

/-- One ASCII letter, lower-cased. -/
def lowerChar (c : CodePoint) : CodePoint :=
  if 0x41 ≤ c.val ∧ c.val ≤ 0x5A then Fin.ofNat _ (c.val + 0x20) else c

theorem lowerChar_spec (c : CodePoint) :
    lowerChar (lowerChar c) = lowerChar c ∧ isSpace (lowerChar c) = isSpace c := by
  unfold lowerChar
  split_ifs with h h'
  · rw [Fin.val_ofNat] at h'
    omega
  · refine ⟨rfl, ?_⟩
    have hval : (Fin.ofNat 0x110000 (c.val + 0x20)).val = c.val + 0x20 := by
      rw [Fin.val_ofNat]
      omega
    unfold isSpace
    rw [hval, Bool.eq_iff_iff]
    simp only [Bool.or_eq_true, Bool.and_eq_true, decide_eq_true_eq, beq_iff_eq]
    omega
  · exact ⟨rfl, rfl⟩

/-- Lower-casing ASCII keeps the laws. -/
theorem lowerLaws : LowerLaws stdlib.lower where
  fixed s t h := by
    have hmem : ∀ c ∈ t, lowerChar c = c := by
      intro c hc
      obtain ⟨c', -, rfl⟩ := List.mem_map.mp (h.subset hc)
      exact (lowerChar_spec c').1
    exact (List.map_congr_left hmem).trans (List.map_id t)
  trimmed s h := by
    change Trimmed (s.map lowerChar)
    unfold Trimmed
    rw [List.head?_map, List.getLast?_map]
    constructor
    · intro c hc
      obtain ⟨c', hc', rfl⟩ := Option.map_eq_some_iff.mp hc
      rw [(lowerChar_spec c').2, h.1 c' hc']
    · intro c hc
      obtain ⟨c', hc', rfl⟩ := Option.map_eq_some_iff.mp hc
      rw [(lowerChar_spec c').2, h.2 c' hc']

end Sample

open OpenTerms.Py.Permissions.Sample in
theorem normaliseDomain_idempotent_sample :
    normaliseDomain stdlib (normaliseDomain stdlib (lit "HTTPS://Example.com/a"))
        = normaliseDomain stdlib (lit "HTTPS://Example.com/a")
      ∧ OneKey defaultClient stdlib ℤ (lit "HTTPS://Example.com/a") := by
  have hspaces : (stdlib.lower (strip (lit "HTTPS://Example.com/a"))).any isSpace = false := by
    decide
  refine (normaliseDomain_idempotent_iff stdlib ℤ defaultClient _ lowerLaws).mpr ?_
  exact no_space_of_forall fun c hc => Bool.eq_false_iff.mpr (List.any_eq_false.mp hspaces c hc)

open OpenTerms.Py.Permissions.Sample in
/-- `"https:// x"` is first `" x"`, then `"x"`. -/
theorem normaliseDomain_twice :
    normaliseDomain stdlib (lit "https:// x") = lit " x"
      ∧ normaliseDomain stdlib (normaliseDomain stdlib (lit "https:// x")) = lit "x" :=
  ⟨by decide, by decide⟩

end Permissions

end Py

end OpenTerms
