import OpenTerms.Py.Permissions.Client

/-!
# What a call on a client does

The one statement about the methods that everything else uses. A call
touches its client's cache alone; it stores what it has just received,
under the key it fetches, with the time it read off the clock and for as
long as the response sets; and the
document it ends with is the one its last step found in the cache or put
there.
-/

namespace OpenTerms

namespace Py

namespace Permissions

open Prog

variable {libs : Libs} {T : Type}

/-- The key under which a call fetches a document. `check` normalises twice:
once itself, once in `fetch`. -/
def ClientCall.fetchKey (libs : Libs) : ClientCall → Option PyStr
  | .fetch domain => some (normaliseDomain libs domain)
  | .check domain _ => some (normaliseDomain libs (normaliseDomain libs domain))
  | .permissionReceipt .. | .clearCache _ => none

/-- An operation performed, as a request answered with `d`. -/
def Requested (trace : List (Performed (Ans libs T))) (d : Download) : Prop :=
  ∃ userAgent url timeout, ⟨.sessionGet userAgent url timeout, d⟩ ∈ trace

/-- The document came in a reply to one of the call's requests. -/
def Received (trace : List (Performed (Ans libs T))) (document : Document libs) : Prop :=
  Requested trace ⟨document.number, .response document.response⟩

/-- An operation of the call `k` on `self`. -/
def Does (self : OpenTermsClient) (k : ClientCall) (trace : List (Performed (Ans libs T))) :
    Op libs T → Prop
  | .cacheGet cache _ => cache = self.cache
  | .cacheSet cache key entry =>
    cache = self.cache ∧ k.fetchKey libs = some key ∧ Received trace entry.data
      ∧ ⟨.time, entry.fetchedAt⟩ ∈ trace ∧ ttlOf self.defaultTtl entry.data.response = .ok entry.ttl
  | .cacheDelete cache key =>
    cache = self.cache ∧ ∃ domain, k = .clearCache (some domain) ∧ key = normaliseDomain libs domain
  | .cacheClear cache => cache = self.cache ∧ k = .clearCache none
  | .sessionGet .. | .time | .utcNowIso => True
  | .defaultClient | .setDefaultClient _ => False

/-- The last operation found the document in the cache, under `key`. -/
def Found (cache : CacheRef) (key : PyStr) (trace : List (Performed (Ans libs T)))
    (document : Document libs) : Prop :=
  ∃ now entry, trace.head? = some ⟨.cacheGet cache key, ⟨now, some entry⟩⟩ ∧ entry.data = document

/-- The last operation put the document, just received, there. -/
def Stored (cache : CacheRef) (key : PyStr) (trace : List (Performed (Ans libs T)))
    (document : Document libs) : Prop :=
  ∃ entry, trace.head? = some ⟨.cacheSet cache key entry, ()⟩ ∧ entry.data = document
    ∧ Received trace document

/-- A document that was fetched, if any, is the one the last operation was
about. -/
def Fetched (cache : CacheRef) (key : PyStr) (trace : List (Performed (Ans libs T))) :
    Except PyErr (Option (Document libs)) → Prop
  | .ok (some document) => Found cache key trace document ∨ Stored cache key trace document
  | _ => True

/-- How the call `k` on `self` ends, where it does not raise. -/
def Ends (self : OpenTermsClient) (k : ClientCall) (trace : List (Performed (Ans libs T))) :
    Except PyErr (Returned libs) → Prop
  | .error _ => True
  | .ok returned =>
    match k with
    | .fetch domain => ∃ data, returned = .document data
        ∧ Fetched self.cache (normaliseDomain libs domain) trace (.ok data)
    | .check domain action => ∃ data result source, returned = .checked data result
        ∧ checkResult (normaliseDomain libs domain) action source data = .ok result
        ∧ Fetched self.cache (normaliseDomain libs (normaliseDomain libs domain)) trace (.ok data)
    | .permissionReceipt domain _ _ => ∃ r, returned = .receipt r
        ∧ (r.opentermsHash = [] ∨ ∃ now entry,
          ⟨.cacheGet self.cache (normaliseDomain libs domain), ⟨now, some entry⟩⟩ ∈ trace
            ∧ r.opentermsHash = entry.contentHash)
    | .clearCache (some domain) => returned = .nothing
        ∧ trace.head? = some ⟨.cacheDelete self.cache (normaliseDomain libs domain), ()⟩
    | .clearCache none => returned = .nothing ∧ trace.head? = some ⟨.cacheClear self.cache, ()⟩

theorem Received.mono {trace : List (Performed (Ans libs T))} {document : Document libs}
    {x : Performed (Ans libs T)} (h : Received trace document) : Received (x :: trace) document := by
  obtain ⟨userAgent, url, timeout, h⟩ := h
  exact ⟨userAgent, url, timeout, List.mem_cons_of_mem _ h⟩

/-! ## Fetching -/

theorem raw_of_document {defaultTtl : ℤ} {document : Document libs} {raw : Raw libs}
    (h : document.raw defaultTtl = .ok raw) :
    raw.document = document ∧ ttlOf defaultTtl document.response = .ok raw.ttl := by
  unfold Document.raw at h
  split at h
  · cases h
  split at h
  · cases h
  · next ttl httl =>
    cases h
    exact ⟨rfl, httl⟩

/-- A document accepted is the reply's. -/
theorem accept_spec {self : OpenTermsClient} {taken : PyDict → Bool} {d : Download}
    {raw : Raw libs} (h : self.accept taken d = .ok (some raw)) :
    d = ⟨raw.document.number, .response raw.document.response⟩
      ∧ ttlOf self.defaultTtl raw.document.response = .ok raw.ttl := by
  obtain ⟨number, reply⟩ := d
  unfold OpenTermsClient.accept at h
  cases reply with
  | requestException => cases h
  | raised e => cases h
  | response resp =>
    dsimp only at h
    by_cases hstatus : resp.statusCode ≠ 200
    · rw [if_pos hstatus] at h
      cases h
    rw [if_neg hstatus] at h
    split at h
    · split_ifs at h
      case neg => cases h
      rw [map_eq_pure_bind, bind_eq_ok_iff] at h
      obtain ⟨raw', hraw, h⟩ := h
      cases h
      obtain ⟨hdoc, httl⟩ := raw_of_document hraw
      rw [hdoc]
      exact ⟨rfl, httl⟩
    all_goals cases h

/-- A document that was fetched, if any, came in a reply. -/
def FromReply (self : OpenTermsClient) (trace : List (Performed (Ans libs T))) :
    Except PyErr (Option (Raw libs)) → Prop
  | .ok (some raw) =>
    Received trace raw.document ∧ ttlOf self.defaultTtl raw.document.response = .ok raw.ttl
  | _ => True

theorem fromReply_accept (self : OpenTermsClient) (taken : PyDict → Bool) (d : Download)
    (userAgent url : PyStr) (timeout : ℤ) (trace : List (Performed (Ans libs T))) :
    FromReply self (⟨.sessionGet userAgent url timeout, d⟩ :: trace) (self.accept taken d) := by
  cases h : (self.accept taken d : Except PyErr (Option (Raw libs))) with
  | error e => trivial
  | ok raw =>
    cases raw with
    | none => trivial
    | some raw =>
      obtain ⟨hd, httl⟩ := accept_spec h
      refine ⟨⟨userAgent, url, timeout, ?_⟩, httl⟩
      rw [← hd]
      exact List.mem_cons_self

section

variable {self : OpenTermsClient} {G : List (Performed (Ans libs T)) → Op libs T → Prop}
variable {A : (o : Op libs T) → Ans libs T o → Prop}

theorem firstOf_keeps (hG : ∀ tr userAgent url timeout, G tr (.sessionGet userAgent url timeout))
    (urls : List PyStr) (trace : List (Performed (Ans libs T))) :
    (self.firstOf urls).Keeps G A (FromReply self) trace := by
  induction urls generalizing trace with
  | nil => trivial
  | cons url urls ih =>
    rw [OpenTermsClient.firstOf, op_bind]
    refine ⟨hG _ _ _ _, fun d _ => Keeps.bind ?_⟩
    have hfrom := fromReply_accept self (fun _ => true) d self.userAgent url self.timeout trace
    rw [lift_eq, keeps_done]
    cases h : (self.accept (fun _ => true) d : Except PyErr (Option (Raw libs))) with
    | error e => trivial
    | ok raw =>
      cases raw with
      | none => exact ih _
      | some raw =>
        rw [h] at hfrom
        exact hfrom

/-- What `_fetch_raw` returns came in a reply to one of its requests. -/
theorem fetchRaw_keeps (hG : ∀ tr userAgent url timeout, G tr (.sessionGet userAgent url timeout))
    (domain : PyStr) (trace : List (Performed (Ans libs T))) :
    (self.fetchRaw domain).Keeps G A (FromReply self) trace := by
  refine Keeps.bind ((firstOf_keeps hG _ trace).imp fun tr r hr => ?_)
  cases r with
  | error e => trivial
  | ok raw =>
    cases raw with
    | some raw => exact hr
    | none =>
      change Keeps G A _ _ _
      cases self.registryUrl with
      | none => trivial
      | some registry =>
        dsimp only
        split_ifs
        · trivial
        · exact ⟨hG _ _ _ _, fun d _ => fromReply_accept _ _ _ _ _ _ tr⟩

end

theorem fetch_keeps {self : OpenTermsClient} {k : ClientCall} {domain : PyStr}
    (hk : k.fetchKey libs = some (normaliseDomain libs domain))
    (trace : List (Performed (Ans libs T))) :
    (self.fetch domain).Keeps (Does self k) (fun _ _ => True)
      (Fetched self.cache (normaliseDomain libs domain)) trace := by
  unfold OpenTermsClient.fetch
  rw [op_bind]
  refine ⟨rfl, fun cached _ => ?_⟩
  obtain ⟨now, entry⟩ := cached
  cases entry with
  | some entry => exact .inl ⟨now, entry, rfl, rfl⟩
  | none =>
    refine Keeps.bind ((fetchRaw_keeps (fun _ _ _ _ => trivial) _ _).imp fun tr r hr => ?_)
    cases r with
    | error e => trivial
    | ok raw =>
      cases raw with
      | none => trivial
      | some raw =>
        obtain ⟨hrec, httl⟩ := hr
        exact ⟨trivial, fun fetchedAt _ => ⟨⟨rfl, hk, hrec.mono, List.mem_cons_self, httl⟩,
          fun _ _ => .inr ⟨_, rfl, rfl, hrec.mono.mono⟩⟩⟩

/-! ## All calls -/

/-- **What a call does.** Whatever the answers, and whatever was performed
before. -/
theorem run_keeps (self : OpenTermsClient) (k : ClientCall)
    (trace : List (Performed (Ans libs T))) :
    (self.run k).Keeps (Does self k) (fun _ _ => True) (Ends self k) trace := by
  cases k with
  | fetch domain =>
    refine Keeps.bind ((fetch_keeps rfl trace).imp fun tr r hr => ?_)
    cases r with
    | error e => trivial
    | ok data => exact ⟨data, rfl, hr⟩
  | check domain action =>
    refine Keeps.bind ?_
    unfold OpenTermsClient.check
    rw [op_bind]
    refine ⟨rfl, fun cached _ => Keeps.bind ((fetch_keeps rfl _).imp fun tr r hr => ?_)⟩
    cases r with
    | error e => trivial
    | ok data =>
      refine Keeps.bind ?_
      rw [lift_eq, keeps_done]
      cases hresult : checkResult (normaliseDomain libs domain) action _ data with
      | error e => trivial
      | ok result => exact ⟨data, result, _, rfl, hresult, hr⟩
  | permissionReceipt domain action decision =>
    refine Keeps.bind ?_
    unfold OpenTermsClient.permissionReceipt
    rw [op_bind]
    refine ⟨rfl, fun cached _ => ?_⟩
    obtain ⟨now, entry⟩ := cached
    refine ⟨trivial, fun timestamp _ => ⟨_, rfl, ?_⟩⟩
    cases entry with
    | none => exact .inl rfl
    | some entry => exact .inr ⟨now, entry, List.mem_cons_of_mem _ List.mem_cons_self, rfl⟩
  | clearCache domain =>
    cases domain with
    | none => exact ⟨⟨rfl, rfl⟩, fun _ _ => ⟨rfl, rfl⟩⟩
    | some domain => exact ⟨⟨rfl, domain, rfl, rfl⟩, fun _ _ => ⟨rfl, rfl⟩⟩

/-- The document a call ends with. -/
theorem document_of_ends {self : OpenTermsClient} {k : ClientCall}
    {trace : List (Performed (Ans libs T))} {returned : Returned libs} {document : Document libs}
    (h : Ends self k trace (.ok returned)) (hdoc : returned.document? = some document) :
    ∃ key, k.fetchKey libs = some key
      ∧ (Found self.cache key trace document ∨ Stored self.cache key trace document) := by
  cases k with
  | fetch domain =>
    obtain ⟨data, rfl, hfetched⟩ := h
    cases hdoc
    exact ⟨_, rfl, hfetched⟩
  | check domain action =>
    obtain ⟨data, result, -, rfl, -, hfetched⟩ := h
    cases hdoc
    exact ⟨_, rfl, hfetched⟩
  | permissionReceipt domain action decision =>
    obtain ⟨r, rfl, -⟩ := h
    cases hdoc
  | clearCache domain =>
    cases domain with
    | none =>
      obtain ⟨rfl, -⟩ := h
      cases hdoc
    | some domain =>
      obtain ⟨rfl, -⟩ := h
      cases hdoc

end Permissions

end Py

end OpenTerms
