import OpenTerms.Py.Permissions.Client
import OpenTerms.Common.Threads

/-!
# What a lookup sees

`TermsCache.get` drops an entry when it finds it expired, so what the
stores hold depends on who looked when. No lookup can tell: while the
clock does not run backwards between lookups, each is answered by the
entry stored last under its key and neither deleted nor cleared since, if
that is still alive (`lookup_sees_latest`). An entry dropped early is one
that every later lookup would find expired.
-/

namespace OpenTerms

namespace Py

namespace Permissions

variable {libs : Libs} {T ι : Type}

/-- What is on record of calls on the module. -/
abbrev Record (libs : Libs) (T ι : Type) :=
  List (Event (Ans libs T) PyErr (Returned libs) ModuleCall ι)

/-- The entry under a key after an operation, nothing being dropped by
lookups. -/
def relatest (cache : CacheRef) (key : PyStr) (before : Option (CacheEntry libs T)) :
    Op libs T → Option (CacheEntry libs T)
  | .cacheSet cache' key' entry => if cache' = cache ∧ key' = key then some entry else before
  | .cacheDelete cache' key' => if cache' = cache ∧ key' = key then none else before
  | .cacheClear cache' => if cache' = cache then none else before
  | _ => before

/-- The entry stored last under a key and not removed since. -/
def latest (cache : CacheRef) (key : PyStr) : Record libs T ι → Option (CacheEntry libs T)
  | [] => none
  | .performed _ _ x :: h => relatest cache key (latest cache key h) x.op
  | .called .. :: h => latest cache key h
  | .returned .. :: h => latest cache key h

/-- Some lookup read this time. -/
def LookedUpAt (h : Record libs T ι) (now : T) : Prop :=
  ∃ i k cache key found, .performed i k ⟨.cacheGet cache key, ⟨now, found⟩⟩ ∈ h

theorem LookedUpAt.cons {h : Record libs T ι} {now : T} (hnow : LookedUpAt h now)
    (e : Event (Ans libs T) PyErr (Returned libs) ModuleCall ι) : LookedUpAt (e :: h) now := by
  obtain ⟨i, k, cache, key, found, hmem⟩ := hnow
  exact ⟨i, k, cache, key, found, List.mem_cons_of_mem _ hmem⟩

section

variable [Sub T] [IntCast T] [LinearOrder T]

/-- The time a lookup reads is no earlier than any that one has read. -/
def Forward (c : Config (Op libs T) (Ans libs T) PyErr (Returned libs) ModuleCall ι (World libs T)) :
    Move ModuleCall ι (Moment T) → Prop
  | .call _ _ => True
  | .step i input => ∀ k cache key, c.operation (.step i input) = some (k, .cacheGet cache key) →
      ∀ now, LookedUpAt c.history now → now ≤ input.now

/-- A store holds what was stored last, or has dropped it as expired. -/
def UpToExpired (h : Record libs T ι) (w : World libs T) : Prop :=
  ∀ cache key, w.caches cache key = latest cache key h
    ∨ w.caches cache key = none
      ∧ ∃ entry now, latest cache key h = some entry ∧ LookedUpAt h now
        ∧ entry.isExpired now = true

/-- Once expired, expired for good. -/
theorem CacheEntry.isExpired_mono (hsub : ∀ a b t : T, a ≤ b → a - t ≤ b - t)
    {entry : CacheEntry libs T} {now now' : T} (hle : now ≤ now')
    (h : entry.isExpired now = true) : entry.isExpired now' = true := by
  unfold CacheEntry.isExpired at h ⊢
  by_cases httl : entry.ttl ≤ 0
  · rw [if_pos httl] at h
    cases h
  · rw [if_neg httl, decide_eq_true_eq] at h ⊢
    exact lt_of_lt_of_le h (hsub _ _ _ hle)

/-- **What a lookup answers**, where the clock has not run backwards. -/
theorem get_eq_latest (hsub : ∀ a b t : T, a ≤ b → a - t ≤ b - t) {h : Record libs T ι}
    {w : World libs T} (hw : UpToExpired h w) {now : T} (hnow : ∀ t, LookedUpAt h t → t ≤ now)
    (cache : CacheRef) (key : PyStr) :
    (TermsCache.get now (w.caches cache) key).1
      = (latest cache key h).filter fun entry => !entry.isExpired now := by
  unfold TermsCache.get
  rcases hw cache key with heq | ⟨hnone, entry, t, hentry, hseen, hexpired⟩
  · rw [heq]
    cases latest cache key h with
    | none => rfl
    | some entry => by_cases he : entry.isExpired now <;> simp [Option.filter, he]
  · have hlate := CacheEntry.isExpired_mono hsub (hnow t hseen) hexpired
    rw [hnone, hentry]
    simp [Option.filter, hlate]

/-- **What an operation leaves** in the stores. -/
theorem UpToExpired.handle {h : Record libs T ι} {w : World libs T} (hw : UpToExpired h w)
    (m : Moment T) (i : ι) (k : ModuleCall) (o : Op libs T) :
    UpToExpired (.performed i k ⟨o, (handle w m o).1⟩ :: h) (handle w m o).2 := by
  -- where neither side changes, what was looked up stays on record
  have hkept {cache : CacheRef} {key : PyStr} {s : Option (CacheEntry libs T)}
      {e : Event (Ans libs T) PyErr (Returned libs) ModuleCall ι}
      (hs : s = w.caches cache key) :
      s = latest cache key h
        ∨ s = none ∧ ∃ entry now, latest cache key h = some entry ∧ LookedUpAt (e :: h) now
          ∧ entry.isExpired now = true := by
    subst hs
    refine (hw cache key).imp_right fun ⟨hnone, entry, now, hentry, hseen, hexpired⟩ => ?_
    exact ⟨hnone, entry, now, hentry, hseen.cons _, hexpired⟩
  intro cache key
  cases o with
  | cacheGet cache' key' =>
    simp only [latest, relatest, Permissions.handle, World.withStore_caches]
    by_cases hcache : cache = cache'
    · subst hcache
      rw [if_pos rfl]
      unfold TermsCache.get
      cases hfound : w.caches cache key' with
      | none => exact hkept rfl
      | some entry =>
        by_cases hexpired : entry.isExpired m.now
        · simp only [hexpired, if_true, TermsCache.delete, Function.update_apply]
          by_cases hkey : key = key'
          · -- the lookup itself drops the entry, at the time it read
            subst hkey
            rw [if_pos rfl]
            rcases hw cache key with heq | ⟨hnone, -⟩
            · refine Or.inr ⟨rfl, entry, m.now, heq.symm.trans hfound, ?_, hexpired⟩
              exact ⟨i, k, cache, key, _, List.mem_cons_self⟩
            · rw [hfound] at hnone
              cases hnone
          · rw [if_neg hkey]
            exact hkept rfl
        · simp only [hexpired]
          exact hkept rfl
    · rw [if_neg hcache]
      exact hkept rfl
  | cacheSet cache' key' entry =>
    simp only [latest, relatest, Permissions.handle, World.withStore_caches, TermsCache.set]
    by_cases hcache : cache = cache'
    · subst hcache
      by_cases hkey : key = key'
      · subst hkey
        exact Or.inl (by simp)
      · rw [if_pos rfl, Function.update_of_ne hkey, if_neg (by simp [Ne.symm hkey])]
        exact hkept rfl
    · rw [if_neg hcache, if_neg (by simp [Ne.symm hcache])]
      exact hkept rfl
  | cacheDelete cache' key' =>
    simp only [latest, relatest, Permissions.handle, World.withStore_caches, TermsCache.delete]
    by_cases hcache : cache = cache'
    · subst hcache
      by_cases hkey : key = key'
      · subst hkey
        exact Or.inl (by simp)
      · rw [if_pos rfl, Function.update_of_ne hkey, if_neg (by simp [Ne.symm hkey])]
        exact hkept rfl
    · rw [if_neg hcache, if_neg (by simp [Ne.symm hcache])]
      exact hkept rfl
  | cacheClear cache' =>
    simp only [latest, relatest, Permissions.handle, World.withStore_caches]
    by_cases hcache : cache = cache'
    · subst hcache
      rw [if_pos rfl, if_pos rfl]
      exact Or.inl rfl
    · rw [if_neg hcache, if_neg (Ne.symm hcache)]
      exact hkept rfl
  | sessionGet userAgent url timeout => exact hkept rfl
  | time => exact hkept rfl
  | utcNowIso => exact hkept rfl
  | defaultClient => exact hkept rfl
  | setDefaultClient client => exact hkept rfl

/-! ## Over a run -/

/-- Each lookup on record was answered by what was stored last before it,
if that was alive. -/
def SeesLatest (h : Record libs T ι) : Prop :=
  ∀ newer older i k cache key now found,
    h = newer ++ .performed i k ⟨.cacheGet cache key, ⟨now, found⟩⟩ :: older →
      found = (latest cache key older).filter fun entry => !entry.isExpired now

/-- One event more, which is no lookup or one so answered. -/
theorem SeesLatest.cons {h : Record libs T ι} (hsees : SeesLatest h)
    {e : Event (Ans libs T) PyErr (Returned libs) ModuleCall ι}
    (he : ∀ i k cache key now found, e = .performed i k ⟨.cacheGet cache key, ⟨now, found⟩⟩ →
      found = (latest cache key h).filter fun entry => !entry.isExpired now) :
    SeesLatest (e :: h) := by
  intro newer older i k cache key now found heq
  cases newer with
  | nil =>
    obtain ⟨rfl, rfl⟩ := List.cons.inj heq
    exact he i k cache key now found rfl
  | cons e' newer =>
    obtain ⟨rfl, rfl⟩ := List.cons.inj heq
    exact hsees newer older i k cache key now found rfl

/-- An event that is no operation leaves the stores and what was stored
last. -/
theorem UpToExpired.event {h : Record libs T ι} {w : World libs T} (hw : UpToExpired h w)
    {e : Event (Ans libs T) PyErr (Returned libs) ModuleCall ι}
    (he : ∀ cache key, latest cache key (e :: h) = latest cache key h) :
    UpToExpired (e :: h) w := by
  intro cache key
  rw [he]
  refine (hw cache key).imp_right fun ⟨hnone, entry, now, hentry, hseen, hexpired⟩ => ?_
  exact ⟨hnone, entry, now, hentry, hseen.cons e, hexpired⟩

/-- **Eviction cannot be seen.** Over any calls by any number of callers,
with a clock that does not run backwards between lookups, every lookup is
answered by the entry stored last under its key and not removed since, if
that is alive, whatever other lookups have dropped. -/
theorem lookup_sees_latest [DecidableEq ι] (hsub : ∀ a b t : T, a ≤ b → a - t ≤ b - t)
    {client : OpenTermsClient}
    {c : Config (Op libs T) (Ans libs T) PyErr (Returned libs) ModuleCall ι (World libs T)}
    (h : (moduleSystem libs T).Reaches Forward (.start (.initial client)) c) :
    SeesLatest c.history := by
  have hinv : UpToExpired c.history c.shared ∧ SeesLatest c.history := by
    refine h.invariant (fun d => UpToExpired d.history d.shared ∧ SeesLatest d.history)
      ?_ ?_ ?_ ?_
    · rintro d i k - ⟨hstores, hsees⟩
      refine ⟨hstores.event fun _ _ => rfl, hsees.cons ?_⟩
      intro j k' cache key now found heq
      exact absurd heq (Event.called_ne_performed i k j k' _)
    · rintro d i input k trace o next hmay hi ⟨hstores, hsees⟩
      refine ⟨hstores.handle input i k o, hsees.cons ?_⟩
      intro j k' cache key now found heq
      obtain ⟨rfl, rfl, hperformed⟩ := Event.performed.inj heq
      obtain ⟨rfl, hans⟩ := Performed.mk.inj hperformed
      have hans : (⟨input.now, (TermsCache.get input.now (d.shared.caches cache) key).1⟩ :
          Lookup libs T) = ⟨now, found⟩ := eq_of_heq hans
      obtain ⟨rfl, rfl⟩ := Lookup.mk.inj hans
      refine get_eq_latest hsub hstores (fun t ht => ?_) cache key
      refine hmay k cache key ?_ t ht
      simp only [Config.operation, hi]
    · rintro d i k trace r - ⟨hstores, hsees⟩
      refine ⟨hstores.event fun _ _ => rfl, hsees.cons ?_⟩
      intro j k' cache key now found heq
      exact absurd heq (Event.returned_ne_performed i k r j k' _)
    · refine ⟨fun cache key => Or.inl rfl, ?_⟩
      intro newer older i k cache key now found heq
      cases newer <;> cases heq
  exact hinv.2

end

section Sample

open OpenTerms.Py.Permissions.Sample

/-- Steps no lookup on record is later than. -/
def inOrder (c : Config (Op stdlib ℤ) (Ans stdlib ℤ) PyErr (Returned stdlib) ModuleCall Unit
    (World stdlib ℤ)) : Move ModuleCall Unit (Moment ℤ) → Bool
  | .call _ _ => true
  | .step _ input => c.history.all fun
    | .performed _ _ ⟨.cacheGet _ _, ⟨now, _⟩⟩ => now ≤ input.now
    | _ => true

theorem forward_of_inOrder
    (c : Config (Op stdlib ℤ) (Ans stdlib ℤ) PyErr (Returned stdlib) ModuleCall Unit
      (World stdlib ℤ)) (m : Move ModuleCall Unit (Moment ℤ)) (h : inOrder c m = true) :
    Forward c m := by
  cases m with
  | call i k => trivial
  | step i input =>
    rintro - - - - now ⟨j, k, cache, key, found, hmem⟩
    exact of_decide_eq_true (List.all_eq_true.mp h _ hmem)

/-- A document is fetched and kept for an hour, and its entry looked up
later than that. -/
def lookedUpLate : List (Move ModuleCall Unit (Moment ℤ)) :=
  .call () (.onClient (.fetch (lit "example.com")))
    :: List.replicate 6 (step 0 (reply none (lit "\x7b\x7d")))
    ++ [.call () (.onClient (.permissionReceipt (lit "example.com") (lit "read") .allow)),
      step 4000 .requestException, step 4000 .requestException]

/-- What the newest event looked up, when it did, what it found, and what
was stored there last. -/
def newestLookup (h : Record stdlib ℤ Unit) : Option (ℤ × Bool × Option ℤ) :=
  match h with
  | .performed _ _ ⟨.cacheGet cache key, ⟨now, found⟩⟩ :: older =>
    some (now, found.isSome, (latest cache key older).map CacheEntry.fetchedAt)
  | _ => none

theorem lookup_sees_latest_sample :
    ∃ h : Record stdlib ℤ Unit, SeesLatest h ∧ newestLookup h = some (4000, false, some 0) := by
  have hrun : ((moduleSystem stdlib ℤ).run inOrder (.start (.initial defaultClient))
      lookedUpLate).map (fun c => newestLookup c.history) = some (some (4000, false, some 0)) := by
    decide
  obtain ⟨c, hc, hseen⟩ := Option.map_eq_some_iff.mp hrun
  have hsub : ∀ a b t : ℤ, a ≤ b → a - t ≤ b - t := by
    intro a b t hle
    omega
  exact ⟨c.history,
    lookup_sees_latest hsub (System.reaches_of_run forward_of_inOrder hc), hseen⟩

end Sample

end Permissions

end Py

end OpenTerms
