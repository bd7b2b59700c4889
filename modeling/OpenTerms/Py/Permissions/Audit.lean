import OpenTerms.Py.Permissions.Contract

/-!
# What a permission receipt names

`permission_receipt` looks the hash up when it is made, in a cache that
others use too. It names the document `check` decided on as long as
nobody puts another text under its key in between; for a domain whose
normal form is its own, that key is the one `check` used.
-/

namespace OpenTerms

namespace Py

namespace Permissions

open Prog OpenTerms.System

variable {libs : Libs} {T ι : Type}

/-- A state of the calls on any number of clients. -/
abbrev SharedConfig (libs : Libs) (T ι : Type) :=
  Config (Op libs T) (Ans libs T) PyErr (Returned libs) (OpenTermsClient × ClientCall) ι
    (World libs T)

/-- A move of one of their callers. -/
abbrev SharedMove (T ι : Type) := Move (OpenTermsClient × ClientCall) ι (Moment T)

/-- The text of the document `check` decided on, if it had one. -/
def DecidedOn (data : Option (Document libs)) (text : PyStr) : Prop :=
  ∃ document, data = some document ∧ text = document.response.text

/-- What a cache has under a key, if anything, is the text decided on. -/
def HoldsOnly (cache : CacheRef) (key : PyStr) (data : Option (Document libs)) (w : World libs T) :
    Prop :=
  ∀ entry, w.caches cache key = some entry → DecidedOn data entry.data.response.text

/-- What is stored under the key is the text decided on. -/
def StoresOnly (cache : CacheRef) (key : PyStr) (data : Option (Document libs))
    (c : SharedConfig libs T ι) (m : SharedMove T ι) : Prop :=
  ∀ call entry, c.operation m = some (call, .cacheSet cache key entry) →
    DecidedOn data entry.data.response.text

section

variable [DecidableEq ι] [Sub T] [IntCast T] [LinearOrder T]

/-- Calls on any number of clients, which may share a cache. -/
def sharedSystem (libs : Libs) (T : Type) [Sub T] [IntCast T] [LinearOrder T] :
    System (Op libs T) (Ans libs T) PyErr (Returned libs) (OpenTermsClient × ClientCall)
      (World libs T) (Moment T) where
  body call := call.1.run call.2
  handle := handle

/-- In `c`, reached by any run, `check` has just computed its result, from
`data`. -/
def JustChecked (c : SharedConfig libs T ι) (self : OpenTermsClient) (domain action : PyStr)
    (data : Option (Document libs)) (decision : Permission) : Prop :=
  ∃ w c₀ i input trace result, (sharedSystem libs T).Reaches (fun _ _ => True) (.start w) c₀
    ∧ (sharedSystem libs T).move c₀ (.step i input) = some c
    ∧ c.threads i = some ⟨(self, .check domain action), trace, .done (.ok (.checked data result))⟩
    ∧ result.decision = decision

/-- The receipt `r` is made by a call after `c`, the moves in between being
ones that `May` allows. -/
def ReceiptAfter (May : SharedConfig libs T ι → SharedMove T ι → Prop) (c : SharedConfig libs T ι)
    (self : OpenTermsClient) (domain action : PyStr) (decision : Permission)
    (r : PermissionReceipt) : Prop :=
  ∃ c₁ c₂ c₃ j trace, (sharedSystem libs T).Reaches May c c₁
    ∧ (sharedSystem libs T).move c₁ (.call j (self, .permissionReceipt domain action decision))
      = some c₂
    ∧ (sharedSystem libs T).Reaches May c₂ c₃
    ∧ c₃.threads j = some ⟨(self, .permissionReceipt domain action decision), trace,
        .done (.ok (.receipt r))⟩

theorem ReceiptAfter.mono {May May' : SharedConfig libs T ι → SharedMove T ι → Prop}
    {c : SharedConfig libs T ι} {self : OpenTermsClient} {domain action : PyStr}
    {decision : Permission} {r : PermissionReceipt}
    (h : ReceiptAfter May c self domain action decision r) (himp : ∀ d m, May d m → May' d m) :
    ReceiptAfter May' c self domain action decision r := by
  obtain ⟨c₁, c₂, c₃, j, trace, hreach₁, hcall, hreach₃, hj⟩ := h
  exact ⟨c₁, c₂, c₃, j, trace, hreach₁.mono himp, hcall, hreach₃.mono himp, hj⟩

/-- A hash, where there is one, is that of the text decided on. -/
def NamesDocument (data : Option (Document libs)) (r : PermissionReceipt) : Prop :=
  r.opentermsHash ≠ [] → ∃ text, DecidedOn data text ∧ sha256Text libs text = .ok r.opentermsHash

/-! ## The check -/

/-- When `check` has computed its result from a document, the cache has that
document under the key it used. -/
theorem holds_of_justChecked {c : SharedConfig libs T ι} {self : OpenTermsClient}
    {domain action : PyStr} {document : Document libs} {decision : Permission}
    (h : JustChecked c self domain action (some document) decision) :
    ∃ entry, c.shared.caches self.cache (normaliseDomain libs (normaliseDomain libs domain))
      = some entry ∧ entry.data = document := by
  obtain ⟨w, c₀, i, input, trace, result, hreach, hmove, hi, -⟩ := h
  have hends : Ends self (.check domain action) trace (.ok (.checked (some document) result)) :=
    (Reaches.move hreach trivial hmove).ends (fun call => run_keeps call.1 call.2 []) hi
  obtain ⟨trace', o, next, -, rfl, rfl⟩ := performed_of_step hmove hi
  obtain ⟨key, hkey, hfound | hstored⟩ := document_of_ends hends rfl
  · obtain ⟨now, entry, hhead, rfl⟩ := hfound
    cases hkey
    obtain ⟨rfl, hans⟩ := Performed.mk.inj (Option.some.inj hhead)
    exact ⟨entry, (lookup_found (eq_of_heq hans)).2.2, rfl⟩
  · obtain ⟨entry, hhead, rfl, -⟩ := hstored
    cases hkey
    obtain ⟨rfl, -⟩ := Performed.mk.inj (Option.some.inj hhead)
    refine ⟨entry, ?_, rfl⟩
    change (handle c₀.shared input _).2.caches _ _ = _
    simp only [handle, World.withStore_caches, if_true, TermsCache.set, Function.update_self]

/-! ## In between -/

/-- What the receipt's call has looked up under the key is the text decided
on. -/
def LookedUpOnly (cache : CacheRef) (key : PyStr) (data : Option (Document libs))
    (trace : List (Performed (Ans libs T))) : Prop :=
  ∀ now entry, ⟨.cacheGet cache key, ⟨now, some entry⟩⟩ ∈ trace →
    DecidedOn data entry.data.response.text

/-- The cache holds only the text decided on, and what caller `j` has looked
up is that text. -/
structure OnlyDecided (cache : CacheRef) (key : PyStr) (data : Option (Document libs)) (j : ι)
    (c : SharedConfig libs T ι) : Prop where
  holds : HoldsOnly cache key data c.shared
  looked : ∀ t, c.threads j = some t → LookedUpOnly cache key data t.trace

theorem holdsOnly_handle {cache : CacheRef} {key : PyStr} {data : Option (Document libs)}
    {w : World libs T} (h : HoldsOnly cache key data w) {input : Moment T} {o : Op libs T}
    (ho : ∀ entry, o = .cacheSet cache key entry → DecidedOn data entry.data.response.text) :
    HoldsOnly cache key data (handle w input o).2 := by
  intro entry hentry
  rcases stored_before hentry with hbefore | hset
  · exact h entry hbefore
  · exact ho entry hset

omit [DecidableEq ι] [Sub T] [IntCast T] [LinearOrder T] in
/-- The operation of a step that stores only the text decided on. -/
theorem storesOnly_step {cache : CacheRef} {key : PyStr} {data : Option (Document libs)}
    {c : SharedConfig libs T ι} {i : ι} {input : Moment T} {call : OpenTermsClient × ClientCall}
    {trace : List (Performed (Ans libs T))} {o : Op libs T}
    {next : Ans libs T o → ClientM libs T (Returned libs)}
    (hmay : StoresOnly cache key data c (.step i input))
    (hi : c.threads i = some ⟨call, trace, .perform o next⟩) :
    ∀ entry, o = .cacheSet cache key entry → DecidedOn data entry.data.response.text := by
  rintro entry rfl
  exact hmay call entry (by simp only [Config.operation, hi])

theorem holdsOnly_of_reaches {cache : CacheRef} {key : PyStr} {data : Option (Document libs)}
    {c c' : SharedConfig libs T ι}
    (h : (sharedSystem libs T).Reaches (StoresOnly cache key data) c c')
    (hc : HoldsOnly cache key data c.shared) : HoldsOnly cache key data c'.shared := by
  refine h.invariant (fun d => HoldsOnly cache key data d.shared) ?_ ?_ ?_ hc
  · exact fun d i k _ hd => hd
  · intro d i input k trace o next hmay hi hd
    exact holdsOnly_handle hd (storesOnly_step hmay hi)
  · exact fun d i k trace r _ hd => hd

theorem onlyDecided_of_reaches {cache : CacheRef} {key : PyStr} {data : Option (Document libs)}
    {j : ι} {c c' : SharedConfig libs T ι}
    (h : (sharedSystem libs T).Reaches (StoresOnly cache key data) c c')
    (hc : OnlyDecided cache key data j c) : OnlyDecided cache key data j c' := by
  refine h.invariant (OnlyDecided cache key data j) ?_ ?_ ?_ hc
  · intro d i k _ hd
    refine ⟨hd.holds, fun t ht => ?_⟩
    simp only [System.begin, Function.update_apply] at ht
    split_ifs at ht with hji
    · cases ht
      intro now entry h
      cases h
    · exact hd.looked t ht
  · intro d i input k trace o next hmay hi hd
    refine ⟨holdsOnly_handle hd.holds (storesOnly_step hmay hi), fun t ht => ?_⟩
    simp only [System.perform, Function.update_apply] at ht
    split_ifs at ht with hji
    · subst hji
      cases ht
      intro now entry hmem
      rcases List.mem_cons.mp hmem with heq | hmem
      · obtain ⟨rfl, hans⟩ := Performed.mk.inj heq
        exact hd.holds entry (lookup_found (eq_of_heq hans).symm).1
      · exact hd.looked _ hi now entry hmem
    · exact hd.looked t ht
  · intro d i k trace r _ hd
    refine ⟨hd.holds, fun t ht => ?_⟩
    simp only [Config.finish, Function.update_apply] at ht
    split_ifs at ht
    exact hd.looked t ht

/-- **A receipt names the document decided on**, if the cache held no other
text under its key when `check` computed its result, which is so where
the domain's normal form is its own and `check` got a document, and none
was stored there until the receipt was made. -/
theorem receipt_names_document {c : SharedConfig libs T ι} {self : OpenTermsClient}
    {domain action : PyStr} {data : Option (Document libs)} {decision : Permission}
    {r : PermissionReceipt} (hcheck : JustChecked c self domain action data decision)
    (hheld : normaliseDomain libs (normaliseDomain libs domain) = normaliseDomain libs domain
        ∧ data ≠ none
      ∨ HoldsOnly self.cache (normaliseDomain libs domain) data c.shared)
    (hreceipt : ReceiptAfter (StoresOnly self.cache (normaliseDomain libs domain) data) c self
      domain action decision r) : NamesDocument data r := by
  have hholds : HoldsOnly self.cache (normaliseDomain libs domain) data c.shared := by
    rcases hheld with ⟨hkey, hdata⟩ | hholds
    · obtain ⟨document, rfl⟩ := Option.ne_none_iff_exists'.mp hdata
      obtain ⟨entry, hentry, hdocument⟩ := holds_of_justChecked hcheck
      rw [hkey] at hentry
      intro entry' hentry'
      cases hentry.symm.trans hentry'
      exact ⟨document, rfl, by rw [hdocument]⟩
    · exact hholds
  obtain ⟨c₁, c₂, c₃, j, trace, hreach₁, hcall, hreach₃, hj⟩ := hreceipt
  intro hhash
  -- When the receipt's call begins it has looked nothing up.
  have hbegun : OnlyDecided self.cache (normaliseDomain libs domain) data j c₂ := by
    have hholds₁ := holdsOnly_of_reaches hreach₁ hholds
    obtain ⟨i, k, hm, -, rfl⟩ | ⟨i, input, k, trace', o, next, hm, -⟩
      | ⟨i, input, k, trace', r', hm, -⟩ := move_cases hcall
    · cases hm
      refine ⟨hholds₁, fun t ht => ?_⟩
      simp only [System.begin, Function.update_self, Option.some.injEq] at ht
      subst ht
      intro now entry h
      cases h
    · cases hm
    · cases hm
  have hlooked := (onlyDecided_of_reaches hreach₃ hbegun).looked _ hj
  have hends : Ends self (.permissionReceipt domain action decision) trace (.ok (.receipt r)) := by
    obtain ⟨w, c₀, i, input, trace', result, hreach₀, hmove, -⟩ := hcheck
    have hstart := (((Reaches.move hreach₀ trivial hmove).trans (hreach₁.mono fun _ _ _ => trivial)).move
      trivial hcall).trans (hreach₃.mono fun _ _ _ => trivial)
    exact hstart.ends (fun call => run_keeps call.1 call.2 []) hj
  obtain ⟨r', hr, hhash' | ⟨now, entry, hmem, hhash'⟩⟩ := hends
  · cases hr
    exact absurd hhash' hhash
  · cases hr
    refine ⟨_, hlooked now entry hmem, ?_⟩
    rw [hhash']
    exact entry.hashed

end

section Sample

open OpenTerms.Py.Permissions.Sample

/-- `check("example.com", "read")` on the client. -/
def checkCall : OpenTermsClient × ClientCall := (defaultClient, .check (lit "example.com") (lit "read"))

/-- The receipt of its decision, which names no permission. -/
def receiptCall : OpenTermsClient × ClientCall :=
  (defaultClient, .permissionReceipt (lit "example.com") (lit "read") .notSpecified)

/-- Steps at a time, requests being met with a document kept for a minute. -/
def steps (now : ℤ) (text : PyStr) (n : ℕ) : List (SharedMove ℤ Unit) :=
  List.replicate n (step now (reply (some (lit "max-age=60")) text))

/-- A call of another document, from a later time. -/
def fetchLater : List (SharedMove ℤ Unit) :=
  .call () (defaultClient, .fetch (lit "example.com")) :: steps 100 (lit "\x7b \x7d") 5

/-- The text `check` decided on, and its decision, when it is to return. -/
def checked (c : SharedConfig stdlib ℤ Unit) :
    Option ((OpenTermsClient × ClientCall) × Option (Document stdlib) × Permission) :=
  match c.threads () with
  | some ⟨call, _, .done (.ok (.checked data result))⟩ => some (call, data, result.decision)
  | _ => none

/-- The receipt made, when it is to be returned. -/
def receipted (c : SharedConfig stdlib ℤ Unit) :
    Option ((OpenTermsClient × ClientCall) × PermissionReceipt) :=
  match c.threads () with
  | some ⟨call, _, .done (.ok (.receipt r))⟩ => some (call, r)
  | _ => none

/-- A check, the moves `between`, and a receipt at the time `now`: the states
after the check and at the end. -/
def auditRun (may : SharedConfig stdlib ℤ Unit → SharedMove ℤ Unit → Bool)
    (between : List (SharedMove ℤ Unit)) (now : ℤ) :
    Option (SharedConfig stdlib ℤ Unit × SharedConfig stdlib ℤ Unit) := do
  let sys := sharedSystem stdlib ℤ
  let c₀ ← sys.run (fun _ _ => true) (.start (.initial defaultClient))
    (.call () checkCall :: steps 0 (lit "\x7b\x7d") 4)
  let c ← sys.move c₀ (step 0 .requestException)
  let c₁ ← sys.run may c (step 0 .requestException :: between)
  let c₂ ← sys.move c₁ (.call () receiptCall)
  let c₃ ← sys.run may c₂ (steps now [] 2)
  pure (c, c₃)

/-- The text decided on and the hash of the receipt, if the calls are the
sample's. -/
def observed (states : SharedConfig stdlib ℤ Unit × SharedConfig stdlib ℤ Unit) :
    Option (Option PyStr × PyStr) := do
  let (call, data, decision) ← checked states.1
  let (call', r) ← receipted states.2
  if call = checkCall ∧ call' = receiptCall ∧ decision = .notSpecified then
    pure (data.map fun document => document.response.text, r.opentermsHash)
  else none

theorem checked_spec {c : SharedConfig stdlib ℤ Unit} {call : OpenTermsClient × ClientCall}
    {data : Option (Document stdlib)} {decision : Permission}
    (h : checked c = some (call, data, decision)) :
    ∃ trace result, c.threads () = some ⟨call, trace, .done (.ok (.checked data result))⟩
      ∧ result.decision = decision := by
  unfold checked at h
  split at h
  · rename_i call' trace data' result hthread
    cases h
    exact ⟨trace, result, hthread, rfl⟩
  · cases h

theorem receipted_spec {c : SharedConfig stdlib ℤ Unit} {call : OpenTermsClient × ClientCall}
    {r : PermissionReceipt} (h : receipted c = some (call, r)) :
    ∃ trace, c.threads () = some ⟨call, trace, .done (.ok (.receipt r))⟩ := by
  unfold receipted at h
  split at h
  · rename_i call' trace r' hthread
    cases h
    exact ⟨trace, hthread⟩
  · cases h

/-- What is observed is of a check and a receipt after it. -/
theorem audit_of_observed {may : SharedConfig stdlib ℤ Unit → SharedMove ℤ Unit → Bool}
    {between : List (SharedMove ℤ Unit)} {now : ℤ} {text : Option PyStr} {hash : PyStr}
    (h : (auditRun may between now).bind observed = some (text, hash)) :
    ∃ c data r, JustChecked c defaultClient (lit "example.com") (lit "read") data .notSpecified
      ∧ ReceiptAfter (may · ·) c defaultClient (lit "example.com") (lit "read") .notSpecified r
      ∧ data.map (fun document => document.response.text) = text ∧ r.opentermsHash = hash := by
  obtain ⟨⟨c, c₃⟩, hrun, hseen⟩ := Option.bind_eq_some_iff.mp h
  simp only [auditRun, Option.bind_eq_bind, Option.bind_eq_some_iff, Option.pure_def,
    Option.some.injEq, Prod.mk.injEq] at hrun
  obtain ⟨c₀, hc₀, c', hc, c₁, hc₁, c₂, hc₂, c₃', hc₃, rfl, rfl⟩ := hrun
  simp only [observed, Option.bind_eq_bind, Option.bind_eq_some_iff] at hseen
  obtain ⟨⟨call, data, decision⟩, hchecked, ⟨call', r⟩, hreceipted, hseen⟩ := hseen
  dsimp only at hseen
  split_ifs at hseen with hcalls
  obtain ⟨rfl, rfl, rfl⟩ := hcalls
  cases hseen
  obtain ⟨trace, result, hthread, hdecision⟩ := checked_spec hchecked
  obtain ⟨trace', hthread'⟩ := receipted_spec hreceipted
  exact ⟨c', data, r,
    ⟨_, c₀, (), _, trace, result, reaches_of_run (fun _ _ _ => trivial) hc₀, hc, hthread,
      hdecision⟩,
    ⟨c₁, c₂, c₃', (), trace', reaches_of_run (fun _ _ h => h) hc₁, hc₂,
      reaches_of_run (fun _ _ h => h) hc₃, hthread'⟩,
    rfl, rfl⟩

/-- Moves that store nothing. -/
def storesNothing (c : SharedConfig stdlib ℤ Unit) (m : SharedMove ℤ Unit) : Bool :=
  match c.operation m with
  | some (_, .cacheSet ..) => false
  | _ => true

theorem storesOnly_of_storesNothing {cache : CacheRef} {key : PyStr}
    {data : Option (Document stdlib)} (c : SharedConfig stdlib ℤ Unit) (m : SharedMove ℤ Unit)
    (h : storesNothing c m = true) : StoresOnly cache key data c m := by
  intro call entry hop
  rw [storesNothing, hop] at h
  cases h

/-- A receipt made at once names the document. -/
theorem receipt_names_document_sample :
    ∃ (data : Option (Document stdlib)) (r : PermissionReceipt),
      NamesDocument data r ∧ r.opentermsHash = hex digestOfEmpty := by
  have hrun : (auditRun storesNothing [] 30).bind observed
      = some (some (lit "\x7b\x7d"), hex digestOfEmpty) := by decide
  obtain ⟨c, data, r, hcheck, hreceipt, htext, hhash⟩ := audit_of_observed hrun
  have hkey : normaliseDomain stdlib (normaliseDomain stdlib (lit "example.com"))
      = normaliseDomain stdlib (lit "example.com") := by decide
  have hdata : data ≠ none := by
    rintro rfl
    cases htext
  exact ⟨data, r, receipt_names_document hcheck (.inl ⟨hkey, hdata⟩)
    (hreceipt.mono storesOnly_of_storesNothing), hhash⟩

/-- A document that has expired is fetched again, and is another: the
receipt of the check names the new one. -/
theorem receipt_names_another : ¬ ∀ (c : SharedConfig stdlib ℤ Unit) (self : OpenTermsClient)
    (domain action : PyStr) (data : Option (Document stdlib)) (decision : Permission)
    (r : PermissionReceipt), JustChecked c self domain action data decision →
      ReceiptAfter (fun _ _ => True) c self domain action decision r → NamesDocument data r := by
  intro h
  have hrun : (auditRun (fun _ _ => true) fetchLater 130).bind observed
      = some (some (lit "\x7b\x7d"), hex digestOfSpaced) := by decide
  obtain ⟨c, data, r, hcheck, hreceipt, htext, hhash⟩ := audit_of_observed hrun
  obtain ⟨text, ⟨document, rfl, rfl⟩, hsha⟩ := h c _ _ _ data _ r hcheck
    (hreceipt.mono fun _ _ _ => trivial)
    (by rw [hhash]; decide)
  rw [Option.map_some, Option.some.injEq] at htext
  rw [htext, hhash] at hsha
  exact absurd hsha (by decide)

end Sample

end Permissions

end Py

end OpenTerms
