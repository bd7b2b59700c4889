import OpenTerms.Py.Permissions.Contract

/-!
# How old a cached document may be

`lifetime` is how long a response may be kept: not at all where a
directive forbids it or the time is zero. The code agrees where that is
positive; where it is not, `is_expired` takes the time to be without end.
So documents are served in time over every run that stores none whose
response forbids it.
-/

namespace OpenTerms

namespace Py

namespace Permissions

variable {libs : Libs} {T : Type}

/-- The value of the first `max-age`. -/
def maxAge (cacheControl : Bytes) : Option ℤ :=
  (maxAgeDigits (cacheControl.map foldCase)).map digitsValue

/-- The seconds a response may be kept; what is not positive means not at
all. -/
def lifetime (defaultTtl : ℤ) (resp : Response) : ℤ :=
  let cacheControl := resp.cacheControl.getD []
  if forbidsCaching cacheControl then 0 else (maxAge cacheControl).getD defaultTtl

/-- Where a response may be kept, the code keeps it for that long. -/
theorem ttl_eq_lifetime {defaultTtl ttl : ℤ} {resp : Response} (h : 0 < lifetime defaultTtl resp)
    (httl : ttlOf defaultTtl resp = .ok ttl) : ttl = lifetime defaultTtl resp := by
  unfold lifetime at h ⊢
  unfold ttlOf at httl
  generalize resp.cacheControl.getD [] = cacheControl at h httl ⊢
  dsimp only at h httl ⊢
  by_cases hforbids : forbidsCaching cacheControl
  · rw [if_pos hforbids] at h
    omega
  rw [if_neg hforbids]
  split_ifs at httl with hempty
  · subst hempty
    exact (Except.ok.inj httl).symm
  · obtain ⟨parsedTtl, hparsed, httl⟩ := bind_eq_ok_iff.mp httl
    obtain rfl := Except.ok.inj httl
    unfold parseMaxAge at hparsed
    unfold maxAge
    cases hdigits : maxAgeDigits (cacheControl.map foldCase) with
    | some digits =>
      rw [hdigits] at hparsed
      obtain ⟨n, hn, hparsed⟩ := bind_eq_ok_iff.mp hparsed
      obtain rfl := Except.ok.inj hparsed
      unfold intOfDigits at hn
      split_ifs at hn
      obtain rfl := Except.ok.inj hn
      rfl
    | none =>
      rw [hdigits, if_neg hforbids] at hparsed
      obtain rfl := Except.ok.inj hparsed
      rfl

/-- Some call received the entry's document, and read its time off the
clock. -/
def DownloadedAt {ι : Type} (history : List (Event (Ans libs T) PyErr (Returned libs) ClientCall ι))
    (entry : CacheEntry libs T) : Prop :=
  ∃ i k userAgent url timeout,
    .performed i k
        ⟨.sessionGet userAgent url timeout, ⟨entry.data.number, .response entry.data.response⟩⟩
      ∈ history
    ∧ .performed i k ⟨.time, entry.fetchedAt⟩ ∈ history

/-- The entry may be kept, is kept for as long as it may, and was
downloaded when it says. -/
def Honest {ι : Type} (self : OpenTermsClient)
    (history : List (Event (Ans libs T) PyErr (Returned libs) ClientCall ι))
    (entry : CacheEntry libs T) : Prop :=
  0 < lifetime self.defaultTtl entry.data.response
    ∧ entry.ttl = lifetime self.defaultTtl entry.data.response ∧ DownloadedAt history entry

theorem Honest.mono {ι : Type} {self : OpenTermsClient}
    {history : List (Event (Ans libs T) PyErr (Returned libs) ClientCall ι)}
    {entry : CacheEntry libs T} {e : Event (Ans libs T) PyErr (Returned libs) ClientCall ι}
    (h : Honest self history entry) : Honest self (e :: history) entry := by
  obtain ⟨hlife, httl, i, k, userAgent, url, timeout, hget, htime⟩ := h
  exact ⟨hlife, httl, i, k, userAgent, url, timeout, List.mem_cons_of_mem _ hget,
    List.mem_cons_of_mem _ htime⟩

/-- A state of the calls on a client. -/
abbrev ClientConfig (libs : Libs) (T ι : Type) :=
  Config (Op libs T) (Ans libs T) PyErr (Returned libs) ClientCall ι (World libs T)

section

variable {ι : Type} [DecidableEq ι] [Sub T] [IntCast T] [LinearOrder T]
variable {self : OpenTermsClient}

/-- A document is stored only if its response may be kept. -/
def storesCacheable (self : OpenTermsClient) (c : ClientConfig libs T ι)
    (m : Move ClientCall ι (Moment T)) : Bool :=
  match c.operation m with
  | some (_, .cacheSet _ _ entry) => 0 < lifetime self.defaultTtl entry.data.response
  | _ => true

/-- What is stored is honest, and what was found was so, and not expired. -/
structure Fresh (client : OpenTermsClient) (c : ClientConfig libs T ι) : Prop where
  stored : ∀ key entry, c.shared.caches client.cache key = some entry →
    Honest client c.history entry
  found : ∀ i k key now entry,
    .performed i k ⟨.cacheGet client.cache key, ⟨now, some entry⟩⟩ ∈ c.history →
      Honest client c.history entry ∧ entry.isExpired now = false

omit [DecidableEq ι] in
/-- An event that is no operation. -/
theorem Fresh.event {c c' : ClientConfig libs T ι} (h : Fresh self c)
    {e : Event (Ans libs T) PyErr (Returned libs) ClientCall ι} (hshared : c'.shared = c.shared)
    (hhistory : c'.history = e :: c.history)
    (he : ∀ i k x, e ≠ .performed i k x) : Fresh self c' := by
  refine ⟨fun key entry hentry => ?_, fun i k key now entry hfound => ?_⟩
  · rw [hshared] at hentry
    rw [hhistory]
    exact (h.stored key entry hentry).mono
  · rw [hhistory] at hfound ⊢
    rcases List.mem_cons.mp hfound with heq | hfound
    · exact absurd heq.symm (he _ _ _)
    · obtain ⟨hhonest, hlive⟩ := h.found i k key now entry hfound
      exact ⟨hhonest.mono, hlive⟩

/-- An operation of a call keeps what is stored honest. -/
theorem Fresh.perform {c : ClientConfig libs T ι} {w : World libs T}
    (hreach : (self.system libs T).Reaches (storesCacheable self · ·) (.start w) c)
    (h : Fresh self c) {i : ι} {input : Moment T} {k : ClientCall}
    {trace : List (Performed (Ans libs T))} {o : Op libs T}
    {next : Ans libs T o → ClientM libs T (Returned libs)}
    (hi : c.threads i = some ⟨k, trace, .perform o next⟩)
    (hmay : storesCacheable self c (.step i input)) (hdoes : Does self k trace o) :
    Fresh self ((self.system libs T).perform c i k trace input o next) := by
  refine ⟨fun key entry hentry => ?_, fun j k' key now entry hfound => ?_⟩
  · rcases stored_before hentry with hbefore | rfl
    · exact (h.stored key entry hbefore).mono
    · -- The call stores what it received: the record has both steps.
      obtain ⟨-, -, ⟨userAgent, url, timeout, hget⟩, htime, httl⟩ := hdoes
      have hlife : 0 < lifetime self.defaultTtl entry.data.response := by
        simpa [storesCacheable, Config.operation, hi] using hmay
      have hrecorded := hreach.recorded i _ hi
      exact ⟨hlife, ttl_eq_lifetime hlife httl, i, k, userAgent, url, timeout,
        List.mem_cons_of_mem _ (hrecorded _ hget), List.mem_cons_of_mem _ (hrecorded _ htime)⟩
  · rcases List.mem_cons.mp hfound with heq | hfound
    · obtain ⟨rfl, rfl, hperformed⟩ := Event.performed.inj heq
      obtain ⟨rfl, hans⟩ := Performed.mk.inj hperformed
      obtain ⟨hstored, hlive, -⟩ := lookup_found (eq_of_heq hans).symm
      exact ⟨(h.stored key entry hstored).mono, hlive⟩
    · obtain ⟨hhonest, hlive⟩ := h.found j k' key now entry hfound
      exact ⟨hhonest.mono, hlive⟩

/-- Every document served without a request was downloaded when its entry
says, may be kept, and is no older than it may be at the time it was
found. -/
def ServedFresh (self : OpenTermsClient) (c : ClientConfig libs T ι) : Prop :=
  ∀ i k trace returned document, c.threads i = some ⟨k, trace, .done (.ok returned)⟩ →
    returned.document? = some document → (∀ d, ¬ Requested trace d) →
    ∃ key now entry, ⟨.cacheGet self.cache key, ⟨now, some entry⟩⟩ ∈ trace
      ∧ entry.data = document ∧ DownloadedAt c.history entry
      ∧ 0 < lifetime self.defaultTtl document.response
      ∧ now - entry.fetchedAt ≤ (lifetime self.defaultTtl document.response : T)

/-- What every run that stores only what may be kept satisfies. -/
theorem fresh_of_reaches {c : ClientConfig libs T ι}
    (h : (self.system libs T).Reaches (storesCacheable self · ·) (.start (.initial self)) c) :
    System.Keeping (Fresh self) (Does self) (fun _ _ _ => True) (Ends self) c := by
  refine h.keeps ?_ ?_ ?_ ⟨⟨fun _ _ h => ?_, fun _ _ _ _ _ h => ?_⟩, ?_⟩
  · intro d i k _ _ _ hd
    exact ⟨hd.inv.event rfl rfl (Event.called_ne_performed _ _), run_keeps self k []⟩
  · intro d i input k trace o next hreach hmay hi hd hdoes
    exact ⟨hd.inv.perform hreach hi hmay hdoes, trivial⟩
  · intro d i input k trace r _ _ _ hd _
    exact hd.inv.event rfl rfl (Event.returned_ne_performed _ _ _)
  · cases h
  · cases h
  · intro i t ht
    cases ht

/-- **The cache is fresh** in every run that stores only documents whose
response may be kept. -/
theorem cache_fresh {c : ClientConfig libs T ι}
    (h : (self.system libs T).Reaches (storesCacheable self · ·) (.start (.initial self)) c) :
    ServedFresh self c := by
  intro i k trace returned document hi hdoc hnet
  have hkeeping := fresh_of_reaches h
  obtain ⟨key, -, hfound | ⟨entry, -, -, hreceived⟩⟩ := document_of_ends (hkeeping.threads i _ hi) hdoc
  · obtain ⟨now, entry, hhead, rfl⟩ := hfound
    have hmem : ⟨.cacheGet self.cache key, ⟨now, some entry⟩⟩ ∈ trace := List.mem_of_mem_head? hhead
    obtain ⟨⟨hlife, httl, hdownloaded⟩, hlive⟩ :=
      hkeeping.inv.found i k key now entry (h.recorded i _ hi _ hmem)
    refine ⟨key, now, entry, hmem, rfl, hdownloaded, hlife, ?_⟩
    rw [← httl]
    exact TermsCache.age_le_of_live hlive (by omega)
  · exact absurd hreceived (hnet _)

end

section Sample

open OpenTerms.Py.Permissions.Sample

/-- `fetch` of a document with this header, and again at a later time. -/
def fetchTwice (cacheControl : Bytes) (later : ℤ) : List (Move ClientCall Unit (Moment ℤ)) :=
  let call := .call () (.fetch (lit "example.com"))
  let step := fun now => step now (reply (some cacheControl) (lit "\x7b\x7d"))
  [call, step 0, step 0, step 1, step 1, step 1, call, step later]

/-- The response the document came in that a call ended with, having made
no request. -/
def servedFromCache (c : ClientConfig stdlib ℤ Unit) : Option Response :=
  match c.threads () with
  | some ⟨_, trace, .done (.ok returned)⟩ =>
    if trace.all fun x => match x.op with
      | .sessionGet .. => false
      | _ => true
    then returned.document?.map Document.response
    else none
  | _ => none

theorem servedFromCache_spec {c : ClientConfig stdlib ℤ Unit} {resp : Response}
    (h : servedFromCache c = some resp) :
    ∃ k trace returned document, c.threads () = some ⟨k, trace, .done (.ok returned)⟩
      ∧ returned.document? = some document ∧ (∀ d, ¬ Requested trace d)
      ∧ document.response = resp := by
  unfold servedFromCache at h
  split at h
  · rename_i k trace returned hthread
    split_ifs at h with hall
    obtain ⟨document, hdoc, hresp⟩ := Option.map_eq_some_iff.mp h
    refine ⟨k, trace, returned, document, hthread, hdoc, ?_, hresp⟩
    rintro d ⟨userAgent, url, timeout, hmem⟩
    exact Bool.false_ne_true (List.all_eq_true.mp hall _ hmem)
  · cases h

/-- A document kept for a minute is served after half of one. -/
theorem cache_fresh_sample : ∃ c : ClientConfig stdlib ℤ Unit, ServedFresh defaultClient c
    ∧ (servedFromCache c).map Response.cacheControl = some (some (lit "Max-Age=60")) := by
  have hrun : (((defaultClient.system stdlib ℤ).run (storesCacheable defaultClient)
      (.start (.initial defaultClient))
      (fetchTwice (lit "Max-Age=60") 30)).bind servedFromCache).map Response.cacheControl
        = some (some (lit "Max-Age=60")) := by decide
  obtain ⟨resp, hresp, hcontrol⟩ := Option.map_eq_some_iff.mp hrun
  obtain ⟨c, hc, hserved⟩ := Option.bind_eq_some_iff.mp hresp
  refine ⟨c, cache_fresh (System.reaches_of_run (fun _ _ h => h) hc), ?_⟩
  rw [hserved, Option.map_some, hcontrol]

/-- A document whose response forbids caching is served a million seconds
later. -/
theorem cache_stale : ¬ ∀ c : ClientConfig stdlib ℤ Unit,
    (defaultClient.system stdlib ℤ).Reaches (fun _ _ => True) (.start (.initial defaultClient)) c →
      ServedFresh defaultClient c := by
  intro h
  have hrun : ((defaultClient.system stdlib ℤ).run (fun _ _ => true) (.start (.initial defaultClient))
      (fetchTwice (lit "no-store") 1000000)).bind servedFromCache
        = some ⟨200, lit "\x7b\x7d", some (lit "no-store")⟩ := by decide
  obtain ⟨c, hc, hserved⟩ := Option.bind_eq_some_iff.mp hrun
  obtain ⟨k, trace, returned, document, hthread, hdoc, hnet, hresp⟩ := servedFromCache_spec hserved
  obtain ⟨-, -, -, -, -, -, hlife, -⟩ := h c (System.reaches_of_run (fun _ _ _ => trivial) hc)
    () k trace returned document hthread hdoc hnet
  rw [hresp] at hlife
  exact absurd hlife (by decide)

end Sample

end Permissions

end Py

end OpenTerms
