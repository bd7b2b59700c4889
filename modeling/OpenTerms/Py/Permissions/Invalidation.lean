import OpenTerms.Py.Permissions.Contract

/-!
# What invalidation leaves behind

Calls on the module, one after the other. `configure` gives the module a
new client, which is given the old cache; and `clear_cache` of a domain
drops the entry `fetch` would use, but `check`, which normalises twice,
may use another. So nothing stale is served over every run in which
`configure` is called with nothing in the cache, and a domain is cleared
whose normal form is its own, or with nothing under the other key.
-/

namespace OpenTerms

namespace Py

namespace Permissions

open Prog

variable {libs : Libs} {T : Type}

/-- The domain whose document a call asks for. -/
def ClientCall.domain : ClientCall → Option PyStr
  | .fetch domain => some domain
  | .check domain _ => some domain
  | .permissionReceipt .. | .clearCache _ => none

/-- A call after which no document of the domain that was there before is
to be served. -/
def ModuleCall.Invalidates (domain : PyStr) : ModuleCall → Prop
  | .configure .. => True
  | .onClient (.clearCache none) => True
  | .onClient (.clearCache (some domain')) => domain' = domain
  | .onClient _ => False

/-- The keys under which documents of a domain are looked up. -/
def keysOf (libs : Libs) (domain : PyStr) : List PyStr :=
  [normaliseDomain libs domain, normaliseDomain libs (normaliseDomain libs domain)]

theorem fetchKey_mem_keysOf {k : ClientCall} {domain key : PyStr} (hk : k.domain = some domain)
    (hkey : k.fetchKey libs = some key) : key ∈ keysOf libs domain := by
  cases k with
  | fetch domain' =>
    cases hk
    cases hkey
    exact List.mem_cons_self
  | check domain' action =>
    cases hk
    cases hkey
    exact List.mem_cons_of_mem _ List.mem_cons_self
  | permissionReceipt domain' action decision => cases hk
  | clearCache domain' => cases hk

/-! ## What a call on the module does -/

/-- An operation of the call `k`. -/
def ModuleDoes (k : ModuleCall) (trace : List (Performed (Ans libs T))) (o : Op libs T) : Prop :=
  match k with
  | .onClient k =>
    o = .defaultClient ∨ ∃ client, ⟨.defaultClient, client⟩ ∈ trace ∧ Does client k trace o
  | .configure defaultTtl timeout userAgent registryUrl =>
    o = .setDefaultClient (.init defaultTtl timeout userAgent none registryUrl)

/-- How the call `k` ends. -/
def ModuleEnds (k : ModuleCall) (trace : List (Performed (Ans libs T)))
    (r : Except PyErr (Returned libs)) : Prop :=
  match k with
  | .onClient k => ∃ client, ⟨.defaultClient, client⟩ ∈ trace ∧ Ends client k trace r
  | .configure .. => r = .ok .nothing ∧ ∃ client, trace.head? = some ⟨.setDefaultClient client, ()⟩

theorem moduleRun_keeps (k : ModuleCall) :
    (moduleRun k : ClientM libs T (Returned libs)).Keeps (ModuleDoes k) (fun _ _ => True)
      (ModuleEnds k) [] := by
  cases k with
  | onClient k =>
    rw [moduleRun, op_bind, keeps_perform]
    refine ⟨.inl rfl, fun client _ => ?_⟩
    refine (run_keeps client k _).suffix.promised (fun _ _ => trivial) ?_ ?_
    · rintro tr o - ⟨hsuffix, hdoes⟩
      exact .inr ⟨client, hsuffix.subset List.mem_cons_self, hdoes⟩
    · rintro tr r - ⟨hsuffix, hends⟩
      exact ⟨client, hsuffix.subset List.mem_cons_self, hends⟩
  | configure defaultTtl timeout userAgent registryUrl =>
    exact ⟨rfl, fun _ _ => ⟨rfl, _, rfl⟩⟩

/-! ## Invalidation -/

/-- A state of the calls on the module, made by one caller. -/
abbrev ModuleConfig (libs : Libs) (T : Type) :=
  Config (Op libs T) (Ans libs T) PyErr (Returned libs) ModuleCall Unit (World libs T)

/-- Nothing is left under the keys of a domain. -/
def Cleared (w : World libs T) (domain : PyStr) : Prop :=
  ∀ key ∈ keysOf libs domain, w.caches getDefaultCache key = none

/-- `configure` finds nothing in the cache, and `clear_cache` of a domain
leaves nothing under the key `check` uses. -/
def LeavesNothing (c : ModuleConfig libs T) (m : Move ModuleCall Unit (Moment T)) : Prop :=
  match c.operation m with
  | some (_, .setDefaultClient _) => ∀ key, c.shared.caches getDefaultCache key = none
  | some (_, .cacheDelete cache key) =>
    normaliseDomain libs key = key ∨ c.shared.caches cache (normaliseDomain libs key) = none
  | _ => True

section

variable [Sub T] [IntCast T] [LinearOrder T]

/-- The document came in a reply on record. -/
def DownloadedIn {κ ι : Type} (history : List (Event (Ans libs T) PyErr (Returned libs) κ ι))
    (document : Document libs) : Prop :=
  ∃ i k userAgent url timeout,
    .performed i k
        ⟨.sessionGet userAgent url timeout, ⟨document.number, .response document.response⟩⟩
      ∈ history

omit [Sub T] [IntCast T] [LinearOrder T] in
/-- A reply on record is the event just recorded or was on record before. -/
theorem downloadedIn_cons {κ ι : Type} {e : Event (Ans libs T) PyErr (Returned libs) κ ι}
    {history : List (Event (Ans libs T) PyErr (Returned libs) κ ι)} {document : Document libs}
    (h : DownloadedIn (e :: history) document) :
    (∃ i k userAgent url timeout, e = .performed i k
        ⟨.sessionGet userAgent url timeout, ⟨document.number, .response document.response⟩⟩)
      ∨ DownloadedIn history document := by
  obtain ⟨i, k, userAgent, url, timeout, hmem⟩ := h
  rcases List.mem_cons.mp hmem with heq | hmem
  · exact .inl ⟨i, k, userAgent, url, timeout, heq.symm⟩
  · exact .inr ⟨i, k, userAgent, url, timeout, hmem⟩

/-- The module's client has the module's cache, requests are numbered in
turn, and a call that invalidates a domain has cleared it by the time it
is to return. -/
structure Invalidating (c : ModuleConfig libs T) : Prop where
  client : c.shared.client.cache = getDefaultCache
  numbered : ∀ document, DownloadedIn c.history document → document.number < c.shared.requests
  cleared : ∀ k trace r domain, c.threads () = some ⟨k, trace, .done (.ok r)⟩ →
    k.Invalidates domain → Cleared c.shared domain

/-- What an operation of the module answers: its client has its cache. -/
def OwnCache (o : Op libs T) (ans : Ans libs T o) : Prop :=
  ∀ client, (⟨o, ans⟩ : Performed (Ans libs T)) = ⟨.defaultClient, client⟩ →
    client.cache = getDefaultCache

/-- The last operation of a call that invalidates a domain clears it. -/
theorem cleared_of_performed {w : World libs T} {input : Moment T} {k : ModuleCall}
    {trace : List (Performed (Ans libs T))} {o : Op libs T} {r : Returned libs} {domain : PyStr}
    (hown : ∀ x ∈ (⟨o, (handle w input o).1⟩ :: trace : List (Performed (Ans libs T))),
      OwnCache x.op x.ans)
    (hends : ModuleEnds k (⟨o, (handle w input o).1⟩ :: trace) (.ok r))
    (hk : k.Invalidates domain)
    (hset : ∀ client, o = .setDefaultClient client → ∀ key, w.caches getDefaultCache key = none)
    (hdelete : ∀ cache key, o = .cacheDelete cache key →
      normaliseDomain libs key = key ∨ w.caches cache (normaliseDomain libs key) = none) :
    Cleared (handle w input o).2 domain := by
  cases k with
  | configure defaultTtl timeout userAgent registryUrl =>
    obtain ⟨-, client, hhead⟩ := hends
    obtain ⟨rfl, -⟩ := Performed.mk.inj (Option.some.inj hhead)
    exact fun key _ => hset client rfl key
  | onClient k =>
    obtain ⟨client, hclient, hends⟩ := hends
    have hcache : client.cache = getDefaultCache := hown _ hclient client rfl
    cases k with
    | fetch domain' => exact hk.elim
    | check domain' action => exact hk.elim
    | permissionReceipt domain' action decision => exact hk.elim
    | clearCache domain' =>
      cases domain' with
      | none =>
        obtain ⟨-, hhead⟩ := hends
        obtain ⟨rfl, -⟩ := Performed.mk.inj (Option.some.inj hhead)
        intro key _
        simp only [handle, hcache, World.withStore_caches, if_true]
        rfl
      | some domain' =>
        obtain ⟨-, hhead⟩ := hends
        obtain ⟨rfl, -⟩ := Performed.mk.inj (Option.some.inj hhead)
        cases hk
        intro key hkey
        simp only [handle, hcache, World.withStore_caches, if_true, TermsCache.delete,
          Function.update_apply]
        split_ifs with hkey'
        · rfl
        · -- The key `check` uses, where it is another.
          have hkey : key = normaliseDomain libs (normaliseDomain libs domain) := by
            simpa [keysOf, hkey'] using hkey
          subst hkey
          exact hcache ▸ (hdelete _ _ rfl).resolve_left hkey'

/-- The module's client keeps the module's cache. -/
theorem client_cache_of_does {w : World libs T} {input : Moment T} {k : ModuleCall}
    {trace : List (Performed (Ans libs T))} {o : Op libs T} (h : ModuleDoes k trace o)
    (hw : w.client.cache = getDefaultCache) :
    (handle w input o).2.client.cache = getDefaultCache := by
  cases k with
  | configure defaultTtl timeout userAgent registryUrl =>
    cases h
    rfl
  | onClient k =>
    rw [client_unchanged]
    · exact hw
    · rintro client rfl
      obtain h | ⟨client', -, h⟩ := h
      · cases h
      · exact h

/-- What the module answers of its client. -/
theorem ownCache_of_handle {w : World libs T} {input : Moment T} (o : Op libs T)
    (hw : w.client.cache = getDefaultCache) : OwnCache o (handle w input o).1 := by
  intro client heq
  obtain ⟨rfl, hans⟩ := Performed.mk.inj heq
  rw [← eq_of_heq hans]
  exact hw

/-- A request is given the next number. -/
theorem number_of_handle {w : World libs T} {input : Moment T} {o : Op libs T}
    {userAgent url : PyStr} {timeout : ℤ} {d : Download}
    (h : (⟨o, (handle w input o).1⟩ : Performed (Ans libs T))
      = ⟨.sessionGet userAgent url timeout, d⟩) :
    d.number = w.requests ∧ (handle w input o).2.requests = w.requests + 1 := by
  obtain ⟨rfl, hans⟩ := Performed.mk.inj h
  rw [← eq_of_heq hans]
  exact ⟨rfl, rfl⟩

omit [Sub T] [IntCast T] [LinearOrder T] in
/-- An event that is no operation. -/
theorem Invalidating.event {c c' : ModuleConfig libs T} (h : Invalidating c)
    {e : Event (Ans libs T) PyErr (Returned libs) ModuleCall Unit} (hshared : c'.shared = c.shared)
    (hhistory : c'.history = e :: c.history) (he : ∀ i k x, e ≠ .performed i k x)
    (hthread : ∀ k trace r, c'.threads () ≠ some ⟨k, trace, .done (.ok r)⟩) : Invalidating c' := by
  refine ⟨hshared ▸ h.client, fun document hdoc => ?_, fun k trace r domain hdone => ?_⟩
  · rw [hshared]
    rw [hhistory] at hdoc
    obtain ⟨i, k, userAgent, url, timeout, rfl⟩ | hdoc := downloadedIn_cons hdoc
    · exact absurd rfl (he _ _ _)
    · exact h.numbered document hdoc
  · exact absurd hdone (hthread k trace r)

theorem Invalidating.perform {c : ModuleConfig libs T}
    (h : Invalidating c) {input : Moment T} {k : ModuleCall} {trace : List (Performed (Ans libs T))}
    {o : Op libs T} {next : Ans libs T o → ClientM libs T (Returned libs)}
    (hi : c.threads () = some ⟨k, trace, .perform o next⟩)
    (hmay : LeavesNothing c (.step () input)) (hdoes : ModuleDoes k trace o)
    (hkeeps : (next (handle c.shared input o).1).Keeps (ModuleDoes k) OwnCache
      (fun trace r => (∀ x ∈ trace, OwnCache x.op x.ans) ∧ ModuleEnds k trace r)
      (⟨o, (handle c.shared input o).1⟩ :: trace)) :
    Invalidating ((moduleSystem libs T).perform c () k trace input o next) := by
  refine ⟨client_cache_of_does hdoes h.client, fun document hdoc => ?_,
    fun k' trace' r domain hdone hk => ?_⟩
  · obtain ⟨i, k', userAgent, url, timeout, heq⟩ | hdoc := downloadedIn_cons hdoc
    · obtain ⟨hnumber, hnext⟩ := number_of_handle (Event.performed.inj heq).2.2
      change document.number = c.shared.requests at hnumber
      change document.number < (handle c.shared input o).2.requests
      omega
    · exact lt_of_lt_of_le (h.numbered document hdoc) (requests_le c.shared input o)
  · -- The operation was the call's last, and what it was the contract says.
    simp only [System.perform, moduleSystem, Function.update_self, Option.some.injEq,
      Thread.mk.injEq] at hdone
    obtain ⟨rfl, rfl, hdone⟩ := hdone
    rw [hdone] at hkeeps
    refine cleared_of_performed hkeeps.1 hkeeps.2 hk ?_ ?_
    · rintro client rfl
      simpa only [LeavesNothing, Config.operation, hi] using hmay
    · rintro cache key rfl
      simpa only [LeavesNothing, Config.operation, hi] using hmay

theorem invalidating_of_reaches {client : OpenTermsClient} (hclient : client.cache = getDefaultCache)
    {c : ModuleConfig libs T}
    (h : (moduleSystem libs T).Reaches LeavesNothing (.start (.initial client)) c) :
    System.Keeping Invalidating ModuleDoes (fun _ => OwnCache)
      (fun k trace r => (∀ x ∈ trace, OwnCache x.op x.ans) ∧ ModuleEnds k trace r) c := by
  refine h.keeps ?_ ?_ ?_ ⟨⟨hclient, ?_, ?_⟩, ?_⟩
  · intro d i k _ _ _ hd
    refine ⟨hd.inv.event rfl rfl (Event.called_ne_performed _ _) fun k' trace r hdone => ?_,
      (moduleRun_keeps k).promised (fun _ h => nomatch h) (fun _ _ _ hdoes => hdoes)
        fun _ _ => .intro⟩
    simp only [System.begin, Function.update_self, Option.some.injEq, Thread.mk.injEq] at hdone
    obtain ⟨rfl, rfl, hdone⟩ := hdone
    cases k <;> cases hdone
  · intro d i input k trace o next _ hmay hi hd hdoes
    have hans : OwnCache o (handle d.shared input o).1 := ownCache_of_handle o hd.inv.client
    exact ⟨hd.inv.perform hi hmay hdoes ((hd.threads i _ hi).2 _ hans), hans⟩
  · intro d i input k trace r _ _ _ hd _
    refine hd.inv.event rfl rfl (Event.returned_ne_performed _ _ _) fun k' trace' r' hdone => ?_
    simp [Config.finish] at hdone
  · rintro document ⟨i, k, userAgent, url, timeout, hmem⟩
    cases hmem
  · intro k trace r domain hdone
    cases hdone
  · intro i t ht
    cases ht

/-! ## Afterwards -/

/-- From request number `n` on: what is stored for the domain is as new. -/
structure Since (n : ℕ) (domain : PyStr) (c : ModuleConfig libs T) : Prop where
  client : c.shared.client.cache = getDefaultCache
  requests : n ≤ c.shared.requests
  stored : ∀ key ∈ keysOf libs domain, ∀ entry,
    c.shared.caches getDefaultCache key = some entry → n ≤ entry.data.number

/-- An answer with nothing older for the domain. -/
structure NewAnswer (n : ℕ) (domain : PyStr) (x : Performed (Ans libs T)) : Prop where
  client : OwnCache x.op x.ans
  lookup : ∀ key ∈ keysOf libs domain, ∀ now entry,
    x = ⟨.cacheGet getDefaultCache key, ⟨now, some entry⟩⟩ → n ≤ entry.data.number
  reply : ∀ userAgent url timeout d, x = ⟨.sessionGet userAgent url timeout, d⟩ → n ≤ d.number

/-- A call that asks for the domain ends with nothing older. -/
def ServesNew (n : ℕ) (domain : PyStr) (k : ModuleCall) (r : Except PyErr (Returned libs)) : Prop :=
  ∀ q returned document, k = .onClient q → q.domain = some domain → r = .ok returned →
    returned.document? = some document → n ≤ document.number

omit [Sub T] [IntCast T] [LinearOrder T] in
theorem received_new {n : ℕ} {domain : PyStr} {trace : List (Performed (Ans libs T))}
    {document : Document libs} (htrace : ∀ x ∈ trace, NewAnswer n domain x)
    (h : Received trace document) : n ≤ document.number := by
  obtain ⟨userAgent, url, timeout, hmem⟩ := h
  exact (htrace _ hmem).reply userAgent url timeout _ rfl

omit [Sub T] [IntCast T] [LinearOrder T] in
/-- With such answers a call serves nothing older. -/
theorem servesNew_of_ends {n : ℕ} {domain : PyStr} {k : ModuleCall}
    {trace : List (Performed (Ans libs T))} {r : Except PyErr (Returned libs)}
    (htrace : ∀ x ∈ trace, NewAnswer n domain x) (h : ModuleEnds k trace r) :
    ServesNew n domain k r := by
  rintro q returned document rfl hdomain rfl hdoc
  obtain ⟨client, hclient, hends⟩ := h
  have hcache : client.cache = getDefaultCache := (htrace _ hclient).client client rfl
  obtain ⟨key, hkey, hfound | ⟨entry, -, -, hreceived⟩⟩ := document_of_ends hends hdoc
  · obtain ⟨now, entry, hhead, rfl⟩ := hfound
    rw [hcache] at hhead
    exact (htrace _ (List.mem_of_mem_head? hhead)).lookup key (fetchKey_mem_keysOf hdomain hkey)
      now entry rfl
  · exact received_new htrace hreceived

/-- An operation of a call so answered stores nothing older, and is so
answered itself. -/
theorem Since.perform {n : ℕ} {domain : PyStr} {c : ModuleConfig libs T} (h : Since n domain c)
    {input : Moment T} {k : ModuleCall} {trace : List (Performed (Ans libs T))} {o : Op libs T}
    {next : Ans libs T o → ClientM libs T (Returned libs)}
    (htrace : ∀ x ∈ trace, NewAnswer n domain x) (hdoes : ModuleDoes k trace o) :
    Since n domain ((moduleSystem libs T).perform c () k trace input o next)
      ∧ NewAnswer n domain ⟨o, (handle c.shared input o).1⟩ := by
  constructor
  · refine ⟨client_cache_of_does hdoes h.client,
      h.requests.trans (requests_le c.shared input o), fun key hkey entry hentry => ?_⟩
    rcases stored_before hentry with hbefore | rfl
    · exact h.stored key hkey entry hbefore
    · cases k with
      | configure defaultTtl timeout userAgent registryUrl => cases hdoes
      | onClient k =>
        obtain hdoes | ⟨client, -, -, -, hreceived, -⟩ := hdoes
        · cases hdoes
        · exact received_new htrace hreceived
  · refine ⟨ownCache_of_handle o h.client, fun key hkey now entry heq => ?_,
      fun userAgent url timeout d heq => ?_⟩
    · obtain ⟨rfl, hans⟩ := Performed.mk.inj heq
      obtain ⟨hstored, -⟩ := lookup_found (eq_of_heq hans)
      exact h.stored key hkey entry hstored
    · rw [(number_of_handle heq).1]
      exact h.requests

/-- What every run from then on satisfies, however it goes. -/
theorem since_of_reaches {n : ℕ} {domain : PyStr} {c c' : ModuleConfig libs T}
    {May : ModuleConfig libs T → Move ModuleCall Unit (Moment T) → Prop}
    (h : (moduleSystem libs T).Reaches May c c') (hsince : Since n domain c)
    {k : ModuleCall} {trace : List (Performed (Ans libs T))} {r : Except PyErr (Returned libs)}
    (hthread : c.threads () = some ⟨k, trace, .done r⟩) (hr : ServesNew n domain k r) :
    System.Keeping (Since n domain)
      (fun k trace o => (∀ x ∈ trace, NewAnswer n domain x) ∧ ModuleDoes k trace o)
      (fun _ o ans => NewAnswer n domain ⟨o, ans⟩) (fun k _ => ServesNew n domain k) c' := by
  refine h.keeps ?_ ?_ ?_ ⟨hsince, fun i t ht => ?_⟩
  · intro d i k _ _ _ hd
    exact ⟨⟨hd.inv.client, hd.inv.requests, hd.inv.stored⟩, (moduleRun_keeps k).promised
      (fun _ h => nomatch h) (fun _ _ => .intro) fun _ _ htrace hends => servesNew_of_ends htrace hends⟩
  · intro d i input k trace o next _ _ _ hd hdoes
    exact hd.inv.perform hdoes.1 hdoes.2
  · intro d i input k trace r _ _ _ hd _
    exact ⟨hd.inv.client, hd.inv.requests, hd.inv.stored⟩
  · cases hthread.symm.trans ht
    exact hr

/-- No call in `c'` that asks for a domain returns a document downloaded
before `c`, where a call that invalidates the domain is about to return. -/
def NothingStale (c c' : ModuleConfig libs T) : Prop :=
  ∀ k trace r domain, c.threads () = some ⟨k, trace, .done (.ok r)⟩ → k.Invalidates domain →
    ∀ q trace' returned document, c'.threads () = some ⟨.onClient q, trace', .done (.ok returned)⟩ →
      q.domain = some domain → returned.document? = some document →
        ¬ DownloadedIn c.history document

/-- **Invalidation is complete** in every run whose invalidations leave
nothing. -/
theorem invalidation_complete {c c' : ModuleConfig libs T}
    {May : ModuleConfig libs T → Move ModuleCall Unit (Moment T) → Prop}
    (h : (moduleSystem libs T).Reaches LeavesNothing (.start (.initial defaultClient)) c)
    (h' : (moduleSystem libs T).Reaches May c c') : NothingStale c c' := by
  intro k trace r domain hthread hk q trace' returned document hthread' hq hdoc hdownloaded
  have hkeeping := invalidating_of_reaches rfl h
  have hcleared := hkeeping.inv.cleared k trace r domain hthread hk
  have hnew : ServesNew c.shared.requests domain k (.ok r) := by
    rintro q returned document rfl hq - -
    cases q with
    | fetch domain' => exact hk.elim
    | check domain' action => exact hk.elim
    | permissionReceipt domain' action decision => cases hq
    | clearCache domain' => cases hq
  have hsince : Since c.shared.requests domain c :=
    ⟨hkeeping.inv.client, le_refl _, fun key hkey entry hentry => by
      rw [hcleared key hkey] at hentry
      cases hentry⟩
  have hserved := (since_of_reaches h' hsince hthread hnew).threads () _ hthread'
  have hle := hserved q returned document rfl hq rfl hdoc
  have hlt := hkeeping.inv.numbered document hdownloaded
  omega

end

section Sample

open OpenTerms.Py.Permissions.Sample

/-- A call, and steps of it, requests being met with a document. -/
def callMoves (k : ModuleCall) (steps : ℕ) : List (Move ModuleCall Unit (Moment ℤ)) :=
  .call () k :: List.replicate steps (step 0 (reply none (lit "\x7b\x7d")))

/-- `fetch("example.com")`. -/
def fetchCall : ModuleCall := .onClient (.fetch (lit "example.com"))

/-- The call about to return, and the document it ends with. -/
def aboutToReturn (c : ModuleConfig stdlib ℤ) : Option (ModuleCall × Option (Document stdlib)) :=
  match c.threads () with
  | some ⟨k, _, .done (.ok returned)⟩ => some (k, returned.document?)
  | _ => none

theorem aboutToReturn_spec {c : ModuleConfig stdlib ℤ} {k : ModuleCall}
    {data : Option (Document stdlib)} (h : aboutToReturn c = some (k, data)) :
    ∃ trace returned, c.threads () = some ⟨k, trace, .done (.ok returned)⟩
      ∧ returned.document? = data := by
  unfold aboutToReturn at h
  split at h
  · rename_i k' trace returned hthread
    obtain ⟨rfl, rfl⟩ := Prod.mk.inj (Option.some.inj h)
    exact ⟨trace, returned, hthread, rfl⟩
  · cases h

/-- The replies on record. -/
def downloads (history : List (Event (Ans stdlib ℤ) PyErr (Returned stdlib) ModuleCall Unit)) :
    List (ℕ × Response) :=
  history.filterMap fun
    | .performed _ _ ⟨.sessionGet _ _ _, ⟨number, .response resp⟩⟩ => some (number, resp)
    | _ => none

theorem downloadedIn_of_mem
    {history : List (Event (Ans stdlib ℤ) PyErr (Returned stdlib) ModuleCall Unit)}
    {document : Document stdlib} (h : (document.number, document.response) ∈ downloads history) :
    DownloadedIn history document := by
  obtain ⟨e, hmem, he⟩ := List.mem_filterMap.mp h
  split at he
  · rename_i i k userAgent url timeout number resp
    cases he
    exact ⟨i, k, userAgent, url, timeout, hmem⟩
  · cases he

/-- What the two states of a run have to return, and whether the second is
a document on record in the first. -/
def observe (c c' : ModuleConfig stdlib ℤ) : Option (ModuleCall × ModuleCall × Bool) :=
  match aboutToReturn c, aboutToReturn c' with
  | some (k, _), some (k', some document) =>
    some (k, k', (document.number, document.response) ∈ downloads c.history)
  | _, _ => none

theorem observe_spec {c c' : ModuleConfig stdlib ℤ} {k k' : ModuleCall} {old : Bool}
    (h : observe c c' = some (k, k', old)) :
    ∃ trace r trace' returned document, c.threads () = some ⟨k, trace, .done (.ok r)⟩
      ∧ c'.threads () = some ⟨k', trace', .done (.ok returned)⟩
      ∧ returned.document? = some document ∧ (old = true → DownloadedIn c.history document) := by
  unfold observe at h
  split at h
  · rename_i k₁ data k₂ document hk hk'
    obtain ⟨rfl, hrest⟩ := Prod.mk.inj (Option.some.inj h)
    obtain ⟨rfl, rfl⟩ := Prod.mk.inj hrest
    obtain ⟨trace, r, hthread, -⟩ := aboutToReturn_spec hk
    obtain ⟨trace', returned, hthread', hdoc⟩ := aboutToReturn_spec hk'
    exact ⟨trace, r, trace', returned, document, hthread, hthread', hdoc,
      fun hold => downloadedIn_of_mem (of_decide_eq_true hold)⟩
  · cases h

/-- Steps that invalidate only by clearing a domain that is its own normal
form. -/
def clearsOwnKey (c : ModuleConfig stdlib ℤ) (m : Move ModuleCall Unit (Moment ℤ)) : Bool :=
  match c.operation m with
  | some (_, .setDefaultClient _) => false
  | some (_, .cacheDelete _ key) => normaliseDomain stdlib key = key
  | _ => true

theorem leavesNothing_of_clearsOwnKey (c : ModuleConfig stdlib ℤ)
    (m : Move ModuleCall Unit (Moment ℤ)) (h : clearsOwnKey c m = true) : LeavesNothing c m := by
  unfold clearsOwnKey at h
  unfold LeavesNothing
  cases hop : c.operation m with
  | none => trivial
  | some performed =>
    obtain ⟨k, o⟩ := performed
    rw [hop] at h
    cases o with
    | setDefaultClient client => cases h
    | cacheDelete cache key => exact .inl (of_decide_eq_true h)
    | _ => trivial

/-- A document is fetched, its domain cleared, and fetched again. -/
theorem invalidation_complete_sample : ∃ c c' : ModuleConfig stdlib ℤ, NothingStale c c'
    ∧ observe c c' = some (.onClient (.clearCache (some (lit "example.com"))), fetchCall, false) := by
  have hrun : ((moduleSystem stdlib ℤ).run clearsOwnKey (.start (.initial defaultClient))
      (callMoves fetchCall 6 ++ callMoves (.onClient (.clearCache (some (lit "example.com")))) 2)).bind
        (fun c => ((moduleSystem stdlib ℤ).run (fun _ _ => true) c
          (step 1 .requestException :: callMoves fetchCall 5)).bind (observe c))
      = some (.onClient (.clearCache (some (lit "example.com"))), fetchCall, false) := by
    decide
  obtain ⟨c, hc, hrun⟩ := Option.bind_eq_some_iff.mp hrun
  obtain ⟨c', hc', hseen⟩ := Option.bind_eq_some_iff.mp hrun
  exact ⟨c, c', invalidation_complete (System.reaches_of_run leavesNothing_of_clearsOwnKey hc)
    (System.reaches_of_run (fun _ _ h => h) hc'), hseen⟩

/-- After `configure` the document fetched before it is served still. -/
theorem configure_leaves_stale : ¬ ∀ c c' : ModuleConfig stdlib ℤ,
    (moduleSystem stdlib ℤ).Reaches (fun _ _ => True) (.start (.initial defaultClient)) c →
      (moduleSystem stdlib ℤ).Reaches (fun _ _ => True) c c' → NothingStale c c' := by
  intro h
  have hrun : ((moduleSystem stdlib ℤ).run (fun _ _ => true) (.start (.initial defaultClient))
      (callMoves fetchCall 6 ++ callMoves (.configure 0 10 [] none) 1)).bind
        (fun c => ((moduleSystem stdlib ℤ).run (fun _ _ => true) c
          (step 1 .requestException :: callMoves fetchCall 2)).bind (observe c))
      = some (.configure 0 10 [] none, fetchCall, true) := by decide
  obtain ⟨c, hc, hrun⟩ := Option.bind_eq_some_iff.mp hrun
  obtain ⟨c', hc', hseen⟩ := Option.bind_eq_some_iff.mp hrun
  obtain ⟨trace, r, trace', returned, document, hthread, hthread', hdoc, hold⟩ := observe_spec hseen
  exact h c c' (System.reaches_of_run (fun _ _ _ => trivial) hc)
    (System.reaches_of_run (fun _ _ _ => trivial) hc') _ trace r (lit "example.com") hthread trivial
    _ trace' returned document hthread' rfl hdoc (hold rfl)

end Sample

end Permissions

end Py

end OpenTerms
