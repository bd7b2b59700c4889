import OpenTerms.Py.CanonicalText
import OpenTerms.Py.Permissions.Contract
import OpenTerms.Py.Policy.Types
import OpenTerms.Py.Verification

/-!
# Lookups in a document

`discover` and the `from_dict` it calls, and what `check` and `discover`
make of an object a site serves. Both walk it with operations only some
types have: they return where `permissions` and `discovery` are shaped as
the code takes them to be (`lookups_total_iff`), and raise elsewhere; and
both raise where its response is one `json.loads`, the hash or `int` does
not take.
-/

namespace OpenTerms

namespace Py

namespace Permissions

open Json Prog

variable {libs : Libs} {T : Type}

/-! ## `discover` -/

/-- `McpServer`. -/
structure McpServer where
  url : PyVal
  transport : PyVal
  description : PyVal

/-- `ApiSpec`. -/
structure ApiSpec where
  url : PyVal
  type : PyVal
  description : PyVal

/-- `DiscoveryResult`. -/
structure DiscoveryResult where
  mcpServers : List McpServer
  apiSpecs : List ApiSpec

/-- `.get(k)`, which only a dict has. -/
def getMember (k : PyStr) : PyVal → Except PyErr PyVal
  | .obj ms => .ok (getD k ms)
  | _ => .error .attributeError

/-- The server of an entry. -/
def McpServer.ofEntry (s : PyVal) : Except PyErr McpServer := do
  let url ← subscript (lit "url") s
  let transport ← subscript (lit "transport") s
  let description ← getMember (lit "description") s
  .ok ⟨url, transport, description⟩

/-- The spec of an entry. -/
def ApiSpec.ofEntry (s : PyVal) : Except PyErr ApiSpec := do
  let url ← subscript (lit "url") s
  let type ← subscript (lit "type") s
  let description ← getMember (lit "description") s
  .ok ⟨url, type, description⟩

/-- `DiscoveryResult.from_dict`. -/
def DiscoveryResult.fromDict : PyVal → Except PyErr DiscoveryResult
  | .obj data => do
    let servers ← iterate ((get? (lit "mcp_servers") data).getD (.arr []))
    let mcpServers ← servers.mapM McpServer.ofEntry
    let specs ← iterate ((get? (lit "api_specs") data).getD (.arr []))
    let apiSpecs ← specs.mapM ApiSpec.ofEntry
    .ok ⟨mcpServers, apiSpecs⟩
  | _ => .error .attributeError

/-- What `discover` makes of the document it got, if any. -/
def discovered : Option (Document libs) → Except PyErr (Option DiscoveryResult)
  | none => .ok none
  | some document =>
    match getD (lit "discovery") document.data with
    | .null => .ok none
    | discoveryRaw => some <$> DiscoveryResult.fromDict discoveryRaw

/-- `OpenTermsClient.discover`. -/
def OpenTermsClient.discover (self : OpenTermsClient) (domain : PyStr) :
    ClientM libs T (Option DiscoveryResult) := do
  let domain := normaliseDomain libs domain
  let data ← self.fetch domain
  liftM (discovered data)

/-! ## Shapes -/

/-- A list of objects that have the required members, or nothing to walk. -/
def Entries (required : List PyStr) (v : PyVal) : Prop :=
  v = .str [] ∨ v = .obj []
    ∨ ∃ items, v = .arr items ∧ ∀ s ∈ items, ∃ ms, s = .obj ms ∧ ∀ k ∈ required, k ∈ names ms

/-- A `discovery` that `from_dict` takes. -/
def DiscoveryShape (data : PyDict) : Prop :=
  getD (lit "discovery") data = .null
    ∨ ∃ ms, getD (lit "discovery") data = .obj ms
      ∧ (∀ v ∈ get? (lit "mcp_servers") ms, Entries [lit "url", lit "transport"] v)
      ∧ ∀ v ∈ get? (lit "api_specs") ms, Entries [lit "url", lit "type"] v

/-- A `permissions` that is not there or an object. -/
def PermissionsShape (data : PyDict) : Prop :=
  ∀ v ∈ get? (lit "permissions") data, ∃ ms, v = .obj ms

theorem subscript_isOk_iff {k : PyStr} {v : PyVal} :
    Succeeds (subscript k v) ↔ ∃ ms, v = .obj ms ∧ k ∈ names ms := by
  cases v with
  | obj ms =>
    rw [subscript]
    cases hk : get? k ms with
    | none => exact iff_of_false (not_succeeds_error _) (by simpa using get?_eq_none_iff.mp hk)
    | some v' => exact iff_of_true (succeeds_ok _) ⟨ms, rfl, mem_names.mpr ⟨v', mem_of_get? hk⟩⟩
  | _ => exact iff_of_false (not_succeeds_error _) (by rintro ⟨ms, h, -⟩; cases h)

/-- An entry with two required members. -/
theorem ofEntry_isOk_iff {α : Type} {k k' : PyStr} {s : PyVal} (mk : PyVal → PyVal → PyVal → α) :
    Succeeds (do
        let v ← subscript k s
        let v' ← subscript k' s
        let description ← getMember (lit "description") s
        .ok (mk v v' description))
      ↔ ∃ ms, s = .obj ms ∧ ∀ name ∈ [k, k'], name ∈ names ms := by
  rw [succeeds_bind_const (P := ∃ ms, s = .obj ms ∧ k' ∈ names ms), subscript_isOk_iff]
  · constructor
    · rintro ⟨⟨ms, rfl, hk⟩, ms', hms, hk'⟩
      cases hms
      exact ⟨ms, rfl, List.forall_mem_cons.mpr ⟨hk, List.forall_mem_singleton.mpr hk'⟩⟩
    · rintro ⟨ms, rfl, h⟩
      exact ⟨⟨ms, rfl, h k List.mem_cons_self⟩, ms, rfl, h k' (by simp)⟩
  · intro v hv
    rw [succeeds_bind_const (P := True), subscript_isOk_iff, and_true]
    intro v' hv'
    refine iff_true_intro ?_
    -- what has been subscripted is a dict
    obtain ⟨ms, rfl, -⟩ := subscript_isOk_iff.mp ⟨v', hv'⟩
    exact succeeds_ok _

/-- Walking a member's entries. -/
theorem entries_isOk_iff {α : Type} {ofEntry : PyVal → Except PyErr α} {required : List PyStr}
    (hentry : ∀ s, Succeeds (ofEntry s) ↔ ∃ ms, s = .obj ms ∧ ∀ k ∈ required, k ∈ names ms)
    {k : PyStr} {data : PyDict} :
    (∃ items, iterate ((get? k data).getD (.arr [])) = .ok items ∧ Succeeds (items.mapM ofEntry))
      ↔ ∀ v ∈ get? k data, Entries required v := by
  have htext (s : PyStr) : ¬ Succeeds (ofEntry (.str s)) := by
    rw [hentry]
    rintro ⟨ms, h, -⟩
    cases h
  simp only [succeeds_mapM]
  cases hk : get? k data with
  | none => simp [iterate]
  | some v =>
    simp only [Option.getD_some, Option.mem_some_iff, forall_eq']
    unfold Entries
    cases v with
    | arr items => simp [iterate, hentry]
    | str s =>
      cases s with
      | nil => simp [iterate]
      | cons c s => simp [iterate, htext]
    | obj ms =>
      cases ms with
      | nil => simp [iterate]
      | cons m ms => simp [iterate, htext]
    | null => simp [iterate]
    | bool b => simp [iterate]
    | num x => simp [iterate]

/-- **When `discover` returns.** -/
theorem discovered_isOk_iff {document : Document libs} :
    Succeeds (discovered (some document)) ↔ DiscoveryShape document.data := by
  unfold discovered DiscoveryShape
  dsimp only
  generalize getD (lit "discovery") document.data = v
  cases v with
  | null => exact iff_of_true (succeeds_ok _) (.inl rfl)
  | obj data =>
    simp only [reduceCtorEq, Json.obj.injEq, exists_eq_left', false_or]
    rw [map_eq_pure_bind]
    refine (succeeds_bind_const (P := True) fun _ _ => iff_true_intro (succeeds_ok _)).trans ?_
    rw [and_true, DiscoveryResult.fromDict,
      ← entries_isOk_iff fun s => ofEntry_isOk_iff (s := s) McpServer.mk,
      ← entries_isOk_iff fun s => ofEntry_isOk_iff (s := s) ApiSpec.mk, succeeds_bind_iff]
    have hspecs (mcpServers : List McpServer) : Succeeds (do
          let specs ← iterate ((get? (lit "api_specs") data).getD (.arr []))
          let apiSpecs ← specs.mapM ApiSpec.ofEntry
          .ok (DiscoveryResult.mk mcpServers apiSpecs))
        ↔ ∃ items, iterate ((get? (lit "api_specs") data).getD (.arr [])) = .ok items
          ∧ Succeeds (items.mapM ApiSpec.ofEntry) := by
      rw [succeeds_bind_iff]
      refine exists_congr fun items => and_congr_right fun _ => ?_
      exact (succeeds_bind_const (P := True) fun _ _ => iff_true_intro (succeeds_ok _)).trans
        (and_true _).to_iff
    constructor
    · rintro ⟨servers, hservers, h⟩
      have h := (succeeds_bind_const fun mcpServers _ => hspecs mcpServers).mp h
      exact ⟨⟨servers, hservers, h.1⟩, h.2⟩
    · rintro ⟨⟨servers, hservers, hentries⟩, h⟩
      exact ⟨servers, hservers,
        (succeeds_bind_const fun mcpServers _ => hspecs mcpServers).mpr ⟨hentries, h⟩⟩
  | _ =>
    refine iff_of_false ?_ (by rintro (h | ⟨ms, h, -⟩) <;> cases h)
    exact not_succeeds_error _

/-! ## `check` -/

/-- The value of the first permission of the action's name, the case of
letters aside. -/
def permissionFor (libs : Libs) (action : PyStr) (data : PyDict) : Option PyVal :=
  match get? (lit "permissions") data with
  | some (.obj permissions) =>
    (permissions.find? fun m => libs.lower m.1 = libs.lower action).map Prod.snd
  | _ => none

/-- A permission that is the bare `allowed`, or an object with it. -/
def Says (allowed : Bool) (v : PyVal) : Prop :=
  v = .bool allowed ∨ ∃ ms, v = .obj ms ∧ get? (lit "allowed") ms = some (.bool allowed)

/-- The decision is the one the permission says; it is the third where that
says neither. -/
structure Decided (libs : Libs) (action : PyStr) (data : PyDict) (decision : Permission) : Prop where
  allow : decision = .allow ↔ ∃ v ∈ permissionFor libs action data, Says true v
  deny : decision = .deny ↔ ∃ v ∈ permissionFor libs action data, Says false v

theorem lookupPermission_eq (libs : Libs) (actionLower : PyStr) (permissions : PyDict) :
    lookupPermission libs actionLower permissions
      = ((permissions.find? fun m => libs.lower m.1 = actionLower).map Prod.snd).getD .null := by
  induction permissions with
  | nil => rfl
  | cons m permissions ih =>
    obtain ⟨key, val⟩ := m
    rw [lookupPermission, List.find?_cons, ih]
    by_cases h : libs.lower key = actionLower
    · simp [h]
    · simp [h]

theorem decisionOf_eq_iff {v : PyVal} :
    (decisionOf v = .allow ↔ Says true v) ∧ (decisionOf v = .deny ↔ Says false v) := by
  unfold Says
  cases v with
  | bool b => cases b <;> simp [decisionOf]
  | obj ms =>
    simp only [decisionOf, getD, reduceCtorEq, Json.obj.injEq, exists_eq_left', false_or]
    cases get? (lit "allowed") ms with
    | none => simp
    | some w =>
      cases w with
      | bool b => cases b <;> simp
      | _ => simp
  | _ => simp [decisionOf]

/-- **When `check` returns, and what it decides.** -/
theorem checkResult_eq {domain action : PyStr} {source : Source} {document : Document libs} :
    (∃ result, checkResult domain action source (some document) = .ok result
        ∧ Decided libs action document.data result.decision)
      ↔ PermissionsShape document.data := by
  have hdecided (v : Option PyVal) : (decisionOf (v.getD .null) = .allow ↔ ∃ w ∈ v, Says true w)
      ∧ (decisionOf (v.getD .null) = .deny ↔ ∃ w ∈ v, Says false w) := by
    cases v with
    | none => simp [decisionOf]
    | some w => simpa using decisionOf_eq_iff
  unfold PermissionsShape
  simp only [checkResult]
  cases hget : get? (lit "permissions") document.data with
  | none =>
    refine iff_of_true ⟨_, rfl, ?_⟩ (by simp)
    have hnone : permissionFor libs action document.data = none := by rw [permissionFor, hget]
    refine ⟨?_, ?_⟩ <;> rw [hnone] <;> simp [lookupPermission, decisionOf]
  | some v =>
    cases v with
    | obj permissions =>
      refine iff_of_true ⟨_, rfl, ?_⟩ fun v hv => ⟨permissions, (Option.some.inj hv).symm⟩
      have hsome : permissionFor libs action document.data
          = (permissions.find? fun m => libs.lower m.1 = libs.lower action).map Prod.snd := by
        rw [permissionFor, hget]
      refine ⟨?_, ?_⟩ <;> rw [hsome, lookupPermission_eq]
      · exact (hdecided _).1
      · exact (hdecided _).2
    | _ =>
      refine iff_of_false (by rintro ⟨result, h, -⟩; cases h) fun h => ?_
      obtain ⟨ms, hms⟩ := h _ rfl
      cases hms

/-! ## What is served -/

/-- A JSON object that came in a response, whether or not it is taken in. -/
structure Served (libs : Libs) where
  number : ℕ
  response : Response
  data : PyDict
  denotes : libs.json response.text = some (.obj data)

/-- A document, as it was served. -/
def Document.served (document : Document libs) : Served libs where
  number := document.number
  response := document.response
  data := document.data
  denotes := (Libs.loads_eq_ok_iff.mp document.loaded).2

/-- The object is what the cache has, or what a request was answered with.
An answer of the registry that has an `error` is no document. -/
def Serves (self : OpenTermsClient) (domain : PyStr) (trace : List (Performed (Ans libs T)))
    (served : Served libs) : Prop :=
  (∃ now entry, ⟨.cacheGet self.cache domain, ⟨now, some entry⟩⟩ ∈ trace
      ∧ entry.data.served = served)
    ∨ ∃ userAgent url timeout,
      ⟨.sessionGet userAgent url timeout, ⟨served.number, .response served.response⟩⟩ ∈ trace
        ∧ served.response.statusCode = 200
        ∧ ∀ registry, self.registryUrl = some registry → url = registry ++ chr '/' :: domain →
          lit "error" ∉ names served.data

/-- A response that is taken in: `json.loads` does not raise of its text,
which has no surrogates, and `int` converts the digits of its `max-age`. -/
structure Readable (libs : Libs) (resp : Response) : Prop where
  loads : libs.unloadable resp.text = none
  text : NoSurrogate resp.text
  maxAge : ∀ digits ∈ maxAgeDigits ((resp.cacheControl.getD []).map foldCase),
    digits.length ≤ maxStrDigits

/-- Text that can be hashed. -/
theorem sha256Text_isOk_iff {text : PyStr} : Succeeds (sha256Text libs text) ↔ NoSurrogate text := by
  unfold sha256Text encodeUtf8
  cases henc : Utf8.encode text with
  | none =>
    refine iff_of_false (not_succeeds_error _) fun h => ?_
    have := Utf8.encode_eq_some_iff.mpr ⟨h, rfl⟩
    rw [henc] at this
    cases this
  | some bytes => exact iff_of_true (succeeds_ok _) (Utf8.encode_eq_some_iff.mp henc).1

/-- A time that can be read. -/
theorem ttlOf_isOk_iff {defaultTtl : ℤ} {resp : Response} :
    Succeeds (ttlOf defaultTtl resp)
      ↔ ∀ digits ∈ maxAgeDigits ((resp.cacheControl.getD []).map foldCase),
        digits.length ≤ maxStrDigits := by
  unfold ttlOf parseMaxAge
  generalize resp.cacheControl.getD [] = cacheControl
  dsimp only
  split
  · next hempty =>
    subst hempty
    exact iff_of_true (succeeds_ok _) fun digits h => by cases h
  · cases maxAgeDigits (cacheControl.map foldCase) with
    | none => exact iff_of_true (succeeds_ok _) fun digits h => by cases h
    | some digits =>
      unfold intOfDigits
      simp only [Option.mem_some_iff, forall_eq']
      by_cases hlong : maxStrDigits < digits.length
      · rw [if_pos hlong]
        exact iff_of_false (not_succeeds_error _) (Nat.not_le.mpr hlong)
      · rw [if_neg hlong]
        exact iff_of_true (succeeds_ok _) (Nat.not_lt.mp hlong)

/-- A response holds one object at most. -/
theorem served_ext {a b : Served libs} (hnumber : a.number = b.number)
    (hresponse : a.response = b.response) : a = b := by
  obtain ⟨number, response, data, denotes⟩ := a
  obtain ⟨number', response', data', denotes'⟩ := b
  dsimp only at hnumber hresponse
  subst hnumber hresponse
  obtain rfl : data = data' := by
    rw [denotes] at denotes'
    exact Json.obj.inj (Option.some.inj denotes')
  rfl

theorem raw_isOk_iff {defaultTtl : ℤ} {document : Document libs} :
    Succeeds (document.raw defaultTtl) ↔ Readable libs document.response := by
  have hloads := (Libs.loads_eq_ok_iff.mp document.loaded).1
  unfold Document.raw
  split
  · next e h =>
    refine iff_of_false (not_succeeds_error _) fun hreadable => ?_
    obtain ⟨contentHash, hok⟩ := sha256Text_isOk_iff.mpr hreadable.text
    cases h.symm.trans hok
  · next contentHash h =>
    have htext := sha256Text_isOk_iff.mp ⟨contentHash, h⟩
    split
    · next e httl =>
      refine iff_of_false (not_succeeds_error _) fun hreadable => ?_
      obtain ⟨ttl, hok⟩ := ttlOf_isOk_iff.mpr hreadable.maxAge
      cases httl.symm.trans hok
    · next ttl httl =>
      exact iff_of_true (succeeds_ok _) ⟨hloads, htext, ttlOf_isOk_iff.mp ⟨ttl, httl⟩⟩

/-- What is in a cache was readable. -/
theorem readable_entry (entry : CacheEntry libs T) : Readable libs entry.data.response where
  loads := (Libs.loads_eq_ok_iff.mp entry.data.loaded).1
  text := sha256Text_isOk_iff.mp ⟨_, entry.hashed⟩
  maxAge := by
    obtain ⟨defaultTtl, httl⟩ := entry.timed
    exact ttlOf_isOk_iff.mp ⟨_, httl⟩

/-- What a reply is accepted as, by the objects it holds. -/
def Accepted (taken : PyDict → Bool) (d : Download) : Except PyErr (Option (Raw libs)) → Prop
  | .ok (some raw) => d = ⟨raw.document.number, .response raw.document.response⟩
      ∧ Readable libs raw.document.response
  | .ok none => ∀ served : Served libs, d = ⟨served.number, .response served.response⟩ →
      served.response.statusCode = 200 → taken served.data = false
  | .error _ => ∀ served : Served libs, d = ⟨served.number, .response served.response⟩ →
      served.response.statusCode = 200 → ¬ Readable libs served.response

theorem accept_accepted (self : OpenTermsClient) (taken : PyDict → Bool) (d : Download) :
    Accepted taken d (self.accept taken d : Except PyErr (Option (Raw libs))) := by
  obtain ⟨number, reply⟩ := d
  unfold OpenTermsClient.accept
  cases reply with
  | requestException => exact fun served h => by cases h
  | raised e => exact fun served h => by cases h
  | response resp =>
    dsimp only
    by_cases hstatus : resp.statusCode = 200
    swap
    · rw [if_pos hstatus]
      exact fun served h hok => absurd (by cases h; exact hok) hstatus
    rw [if_neg (not_not.mpr hstatus)]
    split
    · next data hloads =>
      -- the one object of the reply
      have only (served : Served libs)
          (h : (⟨number, .response resp⟩ : Download) = ⟨served.number, .response served.response⟩) :
          served = Document.served ⟨number, resp, data, hloads⟩ := by
        obtain ⟨hnumber, hresp⟩ := Download.mk.inj h
        exact served_ext hnumber.symm (Reply.response.inj hresp).symm
      split
      · cases hraw : (⟨number, resp, data, hloads⟩ : Document libs).raw self.defaultTtl with
        | ok raw =>
          have hreadable := raw_isOk_iff.mp ⟨raw, hraw⟩
          obtain ⟨hdocument, -⟩ := raw_of_document hraw
          rw [← hdocument] at hreadable
          refine ⟨?_, hreadable⟩
          rw [hdocument]
        | error e =>
          intro served h _ hreadable
          rw [only served h] at hreadable
          have hok : Succeeds ((⟨number, resp, data, hloads⟩ : Document libs).raw self.defaultTtl) :=
            raw_isOk_iff.mpr hreadable
          exact not_succeeds_iff.mpr ⟨e, hraw⟩ hok
      · next htaken =>
        intro served h _
        rw [only served h]
        exact Bool.eq_false_iff.mpr htaken
    · next v hobj hloads =>
      -- some other value, so no object is served
      intro served h _
      cases h
      have hv := (Libs.loads_eq_ok_iff.mp hloads).2
      exact absurd (Option.some.inj (hv.symm.trans served.denotes)) (hobj _)
    · next hloads =>
      -- not JSON, so no object either
      intro served h _
      cases h
      unfold Libs.loads at hloads
      rw [served.denotes] at hloads
      split at hloads <;> cases hloads
    · next e hloads =>
      -- `json.loads` raises: a response of this text is not readable
      intro served h _ hreadable
      cases h
      unfold Libs.loads at hloads
      rw [hreadable.loads, served.denotes] at hloads
      cases hloads

/-- What a search ends with, by the objects served in it. -/
def Serving (self : OpenTermsClient) (domain : PyStr) (trace : List (Performed (Ans libs T))) :
    Except PyErr (Option (Raw libs)) → Prop
  | .ok (some raw) => Readable libs raw.document.response
      ∧ ∀ served, Serves self domain trace served → served = raw.document.served
  | .ok none => ∀ served : Served libs, ¬ Serves self domain trace served
  | .error _ => ∀ served : Served libs, Serves self domain trace served →
      ¬ Readable libs served.response

section

variable {self : OpenTermsClient} {domain : PyStr} {trace : List (Performed (Ans libs T))}

/-- A request more serves what it is answered with. -/
theorem served_of_request {userAgent url : PyStr} {timeout : ℤ} {d : Download}
    {served : Served libs} (hbefore : ∀ served : Served libs, ¬ Serves self domain trace served)
    (h : Serves self domain (⟨.sessionGet userAgent url timeout, d⟩ :: trace) served) :
    d = ⟨served.number, .response served.response⟩ ∧ served.response.statusCode = 200
      ∧ ∀ registry, self.registryUrl = some registry → url = registry ++ chr '/' :: domain →
        lit "error" ∉ names served.data := by
  rcases h with ⟨now, entry, hmem, hentry⟩ | ⟨agent, url', timeout', hmem, hstatus, hregistry⟩
  · rcases List.mem_cons.mp hmem with heq | hmem
    · cases heq
    · exact absurd (.inl ⟨now, entry, hmem, hentry⟩) (hbefore served)
  · rcases List.mem_cons.mp hmem with heq | hmem
    · cases heq
      exact ⟨rfl, hstatus, hregistry⟩
    · exact absurd (.inr ⟨agent, url', timeout', hmem, hstatus, hregistry⟩) (hbefore served)

/-- What is neither a lookup nor a request serves nothing. -/
theorem served_of_other {x : Performed (Ans libs T)} {served : Served libs}
    (hget : ∀ cache key, x.op ≠ .cacheGet cache key)
    (hrequest : ∀ userAgent url timeout, x.op ≠ .sessionGet userAgent url timeout)
    (h : Serves self domain (x :: trace) served) : Serves self domain trace served := by
  rcases h with ⟨now, entry, hmem, hentry⟩ | ⟨userAgent, url, timeout, hmem, h⟩
  · rcases List.mem_cons.mp hmem with rfl | hmem
    · exact absurd rfl (hget _ _)
    · exact .inl ⟨now, entry, hmem, hentry⟩
  · rcases List.mem_cons.mp hmem with rfl | hmem
    · exact absurd rfl (hrequest _ _ _)
    · exact .inr ⟨userAgent, url, timeout, hmem, h⟩

/-- An answer that settles the search. -/
theorem serving_accept {taken : PyDict → Bool} {userAgent url : PyStr} {timeout : ℤ} {d : Download}
    (hbefore : ∀ served : Served libs, ¬ Serves self domain trace served)
    (htaken : ∀ served : Served libs,
      (∀ registry, self.registryUrl = some registry → url = registry ++ chr '/' :: domain →
        lit "error" ∉ names served.data) → taken served.data = true) :
    Serving self domain (⟨.sessionGet userAgent url timeout, d⟩ :: trace) (self.accept taken d) := by
  have haccept := @accept_accepted libs self taken d
  cases h : (self.accept taken d : Except PyErr (Option (Raw libs))) with
  | error e =>
    rw [h] at haccept
    intro served hserves
    obtain ⟨hd, hstatus, -⟩ := served_of_request hbefore hserves
    exact haccept served hd hstatus
  | ok raw =>
    rw [h] at haccept
    cases raw with
    | none =>
      intro served hserves
      obtain ⟨hd, hstatus, hregistry⟩ := served_of_request hbefore hserves
      have := haccept served hd hstatus
      rw [htaken served hregistry] at this
      cases this
    | some raw =>
      obtain ⟨hd, htext⟩ := haccept
      refine ⟨htext, fun served hserves => ?_⟩
      obtain ⟨hd', -, -⟩ := served_of_request hbefore hserves
      obtain ⟨hnumber, hresp⟩ := Download.mk.inj (hd'.symm.trans hd)
      exact served_ext hnumber (Reply.response.inj hresp)

theorem firstOf_serving (urls : List PyStr)
    (hbefore : ∀ served : Served libs, ¬ Serves self domain trace served) :
    (self.firstOf urls : ClientM libs T _).Keeps (fun _ _ => True) (fun _ _ => True)
      (Serving self domain) trace := by
  induction urls generalizing trace with
  | nil => exact hbefore
  | cons url urls ih =>
    rw [OpenTermsClient.firstOf, op_bind]
    refine ⟨trivial, fun d _ => Keeps.bind ?_⟩
    have hserving : Serving self domain (⟨.sessionGet self.userAgent url self.timeout, d⟩ :: trace)
        (self.accept (fun _ => true) d) := serving_accept hbefore fun _ _ => rfl
    rw [lift_eq, keeps_done]
    cases h : (self.accept (fun _ => true) d : Except PyErr (Option (Raw libs))) with
    | error e =>
      rw [h] at hserving
      exact hserving
    | ok raw =>
      rw [h] at hserving
      cases raw with
      -- nothing taken: on to the next address
      | none => exact ih hserving
      | some raw => exact hserving

theorem fetchRaw_serving (hbefore : ∀ served : Served libs, ¬ Serves self domain trace served) :
    (self.fetchRaw domain : ClientM libs T _).Keeps (fun _ _ => True) (fun _ _ => True)
      (Serving self domain) trace := by
  refine Keeps.bind ((firstOf_serving _ hbefore).imp fun tr r hr => ?_)
  cases r with
  | error e => exact hr
  | ok raw =>
    cases raw with
    | some raw => exact hr
    | none =>
      -- neither address has it, so the registry is asked
      change Keeps _ _ _ _ _
      cases hregistry : self.registryUrl with
      | none => exact hr
      | some registry =>
        dsimp only
        split_ifs
        · exact hr
        · refine ⟨trivial, fun d _ => serving_accept hr fun served h => ?_⟩
          exact decide_eq_true (h registry hregistry rfl)

/-- **What `fetch` makes of an object that is served**: it returns it, or
raises where it cannot be read. -/
theorem fetch_serves {fetched : Except PyErr (Option (Document libs))} {served : Served libs}
    (hfetch : (self.fetch domain : ClientM libs T _).Runs trace fetched)
    (hserves : Serves self (normaliseDomain libs domain) trace served) :
    (Readable libs served.response
        ∧ ∃ document : Document libs, document.served = served ∧ fetched = .ok (some document))
      ∨ (¬ Readable libs served.response ∧ ∃ e, fetched = .error e) := by
  have hkeeps : (self.fetch domain : ClientM libs T _).Keeps (fun _ _ => True) (fun _ _ => True)
      (fun tr r => ∀ served : Served libs, Serves self (normaliseDomain libs domain) tr served →
        (Readable libs served.response
            ∧ ∃ document : Document libs, document.served = served ∧ r = .ok (some document))
          ∨ (¬ Readable libs served.response ∧ ∃ e, r = .error e)) [] := by
    unfold OpenTermsClient.fetch
    rw [op_bind]
    refine ⟨trivial, fun cached _ => ?_⟩
    obtain ⟨now, entry⟩ := cached
    cases entry with
    | some entry =>
      -- found in the cache, which serves nothing else
      rintro served (⟨now', entry', hmem, rfl⟩ | ⟨_, _, _, hmem, -⟩)
      · cases List.mem_singleton.mp hmem
        exact .inl ⟨readable_entry entry, entry.data, rfl, rfl⟩
      · cases List.mem_singleton.mp hmem
    | none =>
      refine Keeps.bind ((fetchRaw_serving ?_).imp fun tr r hr => ?_)
      · rintro served (⟨now', entry', hmem, -⟩ | ⟨_, _, _, hmem, -⟩)
        · cases List.mem_singleton.mp hmem
        · cases List.mem_singleton.mp hmem
      · cases r with
        | error e => exact fun served hserves => .inr ⟨hr served hserves, e, rfl⟩
        | ok raw =>
          cases raw with
          | none => exact fun served hserves => absurd hserves (hr served)
          | some raw =>
            refine ⟨trivial, fun fetchedAt _ => ⟨trivial, fun stored _ => ?_⟩⟩
            -- reading the clock and storing the document serve nothing
            intro served hserves
            have hserves := served_of_other (by simp) (by simp)
              (served_of_other (by simp) (by simp) hserves)
            obtain rfl := hr.2 served hserves
            exact .inl ⟨hr.1, raw.document, rfl, rfl⟩
  refine hkeeps.runs hfetch served ?_
  simpa [Serves] using hserves

end

/-! ## Lookups -/

/-- Where `check` looked before it fetched. -/
def sourceOf (lookup : Lookup libs T) : Source :=
  if lookup.entry.isSome then .cache else .network

theorem check_runs_iff {self : OpenTermsClient} {domain action : PyStr} {lookup : Lookup libs T}
    {trace : List (Performed (Ans libs T))} {data : Option (Document libs)} {result : CheckResult} :
    (self.check domain action).Runs
        (⟨.cacheGet self.cache (normaliseDomain libs domain), lookup⟩ :: trace) (.ok (data, result))
      ↔ (self.fetch (normaliseDomain libs domain)).Runs trace (.ok data)
        ∧ checkResult (normaliseDomain libs domain) action (sourceOf lookup) data = .ok result := by
  unfold OpenTermsClient.check
  rw [op_bind, runs_perform]
  constructor
  · rintro ⟨lookup', rest, htrace, hcheck⟩
    cases htrace
    rcases runs_bind.mp hcheck with ⟨e, -, he⟩ | ⟨data', before, after, hdata, hresult, rfl⟩
    · cases he
    rcases runs_bind.mp hresult with ⟨e, -, he⟩ | ⟨result', _, _, ⟨rfl, hres⟩, ⟨rfl, hpair⟩, rfl⟩
    · cases he
    cases hpair
    rw [List.append_nil, List.append_nil]
    exact ⟨hdata, hres⟩
  · rintro ⟨hfetch, hresult⟩
    refine ⟨lookup, trace, rfl, runs_bind.mpr (.inr ⟨data, trace, [], hfetch, ?_, by simp⟩)⟩
    exact runs_bind.mpr (.inr ⟨result, [], [], ⟨rfl, hresult⟩, ⟨rfl, rfl⟩, rfl⟩)

theorem discover_runs_iff {self : OpenTermsClient} {domain : PyStr}
    {trace : List (Performed (Ans libs T))} {found : Option DiscoveryResult} :
    (self.discover domain).Runs trace (.ok found)
      ↔ ∃ data, (self.fetch (normaliseDomain libs domain)).Runs trace (.ok data)
        ∧ discovered data = .ok found := by
  constructor
  · intro h
    rcases runs_bind.mp h with ⟨e, -, he⟩ | ⟨data, before, _, hdata, ⟨rfl, hfound⟩, rfl⟩
    · cases he
    · rw [List.append_nil]
      exact ⟨data, hdata, hfound⟩
  · rintro ⟨data, hfetch, hfound⟩
    exact runs_bind.mpr (.inr ⟨data, trace, [], hfetch, ⟨rfl, hfound⟩, by simp⟩)

/-- **`check` and `discover` return** on an object that is served exactly
where its response can be read and the members they walk have the shapes
they take. -/
theorem lookups_total_iff (libs : Libs) (T : Type) (self : OpenTermsClient) (domain action : PyStr)
    (lookup : Lookup libs T) (trace : List (Performed (Ans libs T)))
    (fetched : Except PyErr (Option (Document libs))) (served : Served libs)
    (hfetch : (self.fetch (normaliseDomain libs domain) : ClientM libs T _).Runs trace fetched)
    (hserves : Serves self (normaliseDomain libs (normaliseDomain libs domain)) trace served) :
    ((∃ document result, document.served = served ∧ (self.check domain action).Runs
          (⟨.cacheGet self.cache (normaliseDomain libs domain), lookup⟩ :: trace)
          (.ok (some document, result))
          ∧ Decided libs action served.data result.decision)
        ∧ ∃ found, (self.discover domain).Runs trace (.ok found))
      ↔ Readable libs served.response ∧ PermissionsShape served.data
        ∧ DiscoveryShape served.data := by
  simp only [check_runs_iff, discover_runs_iff]
  constructor
  · rintro ⟨⟨document, result, rfl, ⟨hrun, hcheck⟩, hdecided⟩, found, data, hrun', hfound⟩
    -- both calls returned, so the fetch of each did
    have hpermissions := checkResult_eq.mp ⟨result, hcheck, hdecided⟩
    rcases fetch_serves hrun' hserves with ⟨hreadable, document', hdocument, hdata⟩ | ⟨-, e, he⟩
    · cases hdata
      have hdiscovery := discovered_isOk_iff.mp ⟨found, hfound⟩
      have hsame : document'.data = document.data := congrArg Served.data hdocument
      rw [hsame] at hdiscovery
      exact ⟨hreadable, hpermissions, hdiscovery⟩
    · cases he
  · rintro ⟨hreadable, hpermissions, hdiscovery⟩
    -- the fetch returns what is served, and both calls go on from there
    rcases fetch_serves hfetch hserves with ⟨-, document, rfl, rfl⟩ | ⟨hnot, -⟩
    · obtain ⟨result, hcheck, hdecided⟩ := checkResult_eq.mpr hpermissions
      obtain ⟨found, hfound⟩ := discovered_isOk_iff.mpr hdiscovery
      exact ⟨⟨document, result, rfl, ⟨hfetch, hcheck⟩, hdecided⟩, found, some document, hfetch, hfound⟩
    · exact absurd hreadable hnot

/-- A document in the cache is fetched from there. -/
theorem fetch_cached (self : OpenTermsClient) (domain : PyStr) (now : T)
    (entry : CacheEntry libs T) :
    (self.fetch domain).Runs [⟨.cacheGet self.cache (normaliseDomain libs domain), ⟨now, some entry⟩⟩]
      (.ok (some entry.data)) := by
  unfold OpenTermsClient.fetch
  rw [op_bind, runs_perform]
  exact ⟨_, _, rfl, rfl, rfl⟩

namespace Sample

/-- The libraries on one text. -/
def oneText (digest : Bytes) : Libs where
  sha256 _ := digest
  json := Py.loads
  unloadable := ofLength
  lower := stdlib.lower

def grantedDigest : Bytes :=
  [100, 130, 251, 123, 200, 177, 46, 115, 154, 135, 191, 177, 31, 67, 155, 254, 165, 88, 207, 145,
    137, 45, 246, 8, 208, 159, 150, 87, 252, 180, 3, 67]

def listedDigest : Bytes :=
  [164, 71, 95, 16, 38, 117, 254, 89, 158, 46, 17, 132, 246, 105, 185, 36, 107, 126, 190, 17, 60,
    53, 29, 81, 78, 99, 80, 24, 161, 245, 60, 248]

def grantedText : String :=
  "\x7b\"permissions\":\x7b\"Read\":true\x7d,\"discovery\":\x7b\"mcp_servers\":[\x7b\"url\":\"u\","
    ++ "\"transport\":\"t\"\x7d]\x7d\x7d"

/-- A document that permits reading and names a server, in the cache for a
minute. -/
def granted : CacheEntry (oneText grantedDigest) ℤ where
  data :=
    { number := 0
      response := ⟨200, lit grantedText, some (lit "max-age=60")⟩
      data := [(lit "permissions", .obj [(lit "Read", .bool true)]),
        (lit "discovery", .obj [(lit "mcp_servers",
          .arr [.obj [(lit "url", .str (lit "u")), (lit "transport", .str (lit "t"))]])])]
      loaded := Libs.loads_eq_ok_iff.mpr ⟨by decide, by decide⟩ }
  fetchedAt := 0
  ttl := 60
  contentHash := hex grantedDigest
  hashed := by decide
  timed := ⟨3600, by decide⟩

/-- `{"permissions":[]}`, in the cache. -/
def listed : CacheEntry (oneText listedDigest) ℤ where
  data :=
    { number := 0
      response := ⟨200, lit "\x7b\"permissions\":[]\x7d", none⟩
      data := [(lit "permissions", .arr [])]
      loaded := Libs.loads_eq_ok_iff.mpr ⟨by decide, by decide⟩ }
  fetchedAt := 0
  ttl := 3600
  contentHash := hex listedDigest
  hashed := by decide
  timed := ⟨3600, rfl⟩

/-- The lookup that finds an entry for `x.com`. -/
def hit {libs : Libs} (entry : CacheEntry libs ℤ) : Performed (Ans libs ℤ) :=
  ⟨.cacheGet getDefaultCache (normaliseDomain libs (normaliseDomain libs (lit "x.com"))),
    ⟨0, some entry⟩⟩

end Sample

open OpenTerms.Py.Permissions.Sample in
/-- Reading is allowed, whatever the case of its name, and the server is
found. -/
theorem lookups_total_sample :
    (∃ document result, (defaultClient.check (lit "x.com") (lit "read")).Runs
          [⟨.cacheGet getDefaultCache (normaliseDomain (oneText grantedDigest) (lit "x.com")),
            ⟨0, some granted⟩⟩, hit granted] (.ok (some document, result))
          ∧ result.decision = .allow)
      ∧ ∃ found, (defaultClient.discover (lit "x.com")).Runs [hit granted] (.ok found) := by
  have hpermissions : PermissionsShape granted.data.data := by
    intro v hv
    obtain rfl := Option.some.inj hv
    exact ⟨_, rfl⟩
  have hdiscovery : DiscoveryShape granted.data.data := by
    refine .inr ⟨_, rfl, fun v hv => ?_, fun v hv => by cases hv⟩
    obtain rfl := Option.some.inj hv
    refine .inr (.inr ⟨_, rfl, List.forall_mem_singleton.mpr ⟨_, rfl, ?_⟩⟩)
    decide
  obtain ⟨⟨document, result, -, hcheck, hdecided⟩, hfound⟩ :=
    (lookups_total_iff (oneText grantedDigest) ℤ defaultClient (lit "x.com") (lit "read")
      ⟨0, some granted⟩ [hit granted] (.ok (some granted.data)) granted.data.served
      (fetch_cached defaultClient _ 0 granted)
      (.inl ⟨0, granted, List.mem_cons_self, rfl⟩)).mpr
      ⟨readable_entry granted, hpermissions, hdiscovery⟩
  exact ⟨⟨document, result, hcheck, hdecided.allow.mpr ⟨.bool true, by decide, .inl rfl⟩⟩, hfound⟩

open OpenTerms.Py.Permissions.Sample in
/-- A `permissions` that is a list raises, where the decision is
`not_specified`. -/
theorem check_raises :
    Serves defaultClient
        (normaliseDomain (oneText listedDigest) (normaliseDomain (oneText listedDigest) (lit "x.com")))
        [hit listed] listed.data.served
      ∧ (defaultClient.fetch (normaliseDomain (oneText listedDigest) (lit "x.com"))).Runs [hit listed]
        (.ok (some listed.data))
      ∧ (defaultClient.check (lit "x.com") (lit "read")).Runs
          [⟨.cacheGet getDefaultCache (normaliseDomain (oneText listedDigest) (lit "x.com")),
            ⟨0, some listed⟩⟩, hit listed] (.error .attributeError) := by
  have hfetch := fetch_cached defaultClient (normaliseDomain (oneText listedDigest) (lit "x.com"))
    0 listed
  refine ⟨.inl ⟨0, listed, List.mem_cons_self, rfl⟩, hfetch, ?_⟩
  unfold OpenTermsClient.check
  rw [op_bind, runs_perform]
  refine ⟨_, _, rfl, runs_bind.mpr (.inr ⟨_, [hit listed], [], hfetch, ?_, rfl⟩)⟩
  exact runs_bind.mpr (.inl ⟨.attributeError, ⟨rfl, rfl⟩, rfl⟩)

end Permissions

end Py

end OpenTerms
