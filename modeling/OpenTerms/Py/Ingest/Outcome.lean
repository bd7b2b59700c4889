import OpenTerms.Py.Ingest.Emission

/-!
# How an emission ends

A caller that guards an emission with `except IngestError` is left with
what else it raises. `Emits` is when the client gets as far as posting,
and a reply that is `Handled` ends in a response or in an `IngestError`;
everything else gets past the guard (`guarded_runs`).
-/

namespace OpenTerms

namespace Py

namespace Ingest

open Json Prog

/-- The arguments of an emission that an adapter leaves at their
defaults. -/
structure Emission.Plain (e : Emission) : Prop where
  timestamp : e.timestamp = none
  createdAt : e.createdAt = none
  amount : e.amountCharged = 0
  extra : e.extra = none

/-- **When the client posts**: there is an agent, the key can be used, the
canonicalizer takes the context, and UTF-8 takes the strings. -/
def Emits (client : IngestClient) (e : Emission) (ctx : ObjDict) : Prop :=
  ∃ agent, (given e.agentId).or (given client.agentId) = some agent
    ∧ client.keyId ≠ [] ∧ (∃ sk, coercePrivateKey client.privateKey = .ok sk)
    ∧ Signable (.obj ctx)
    ∧ ∀ s ∈ [client.workspaceId, agent, e.actionType, e.termsUrl, e.termsHash, e.pricingVersion],
        NoSurrogate s

/-- The hash an answer names. -/
def Reply.hash (libs : Libs) : Reply → PyVal
  | .response _ body =>
    match (Utf8.decode body).bind libs.loads with
    | some (.obj ms) => getD (lit "hash") ms
    | _ => .null
  | _ => .null

section

variable {libs : Libs} {reply : Reply}

/-- A response carries the hash of its reply. -/
theorem canonicalHash_of_readReply {resp : IngestResponse} (h : readReply libs reply = .ok resp) :
    resp.canonicalHash = reply.hash libs := by
  cases reply with
  | response status body =>
    rcases @readResponse_cases libs status body with
      ⟨text, ms, hash, ingestedAt, hdecode, hloads, hhash, -, resp', hresp, rfl⟩ | ⟨-, err, herr, -⟩
    · obtain rfl := Except.ok.inj (hresp.symm.trans h)
      unfold Reply.hash
      dsimp only
      rw [hdecode, Option.bind_some, hloads]
      dsimp only
      rw [getD, hhash]
      rfl
    · cases herr.symm.trans h
  | httpError code body => cases h
  | urlError text => cases h
  | raised name => cases h

/-- Without a response there is no hash to go on, if the reply is handled. -/
theorem hash_of_ingestError {err : IngestError} (h : readReply libs reply = .error (.ingest err)) :
    reply.hash libs = .null := by
  cases reply with
  | response status body =>
    rcases @readResponse_cases libs status body with
      ⟨text, ms, hash, ingestedAt, -, -, -, -, resp, hresp, -⟩ | ⟨-, err', herr, hne⟩
    · cases hresp.symm.trans h
    · exact absurd (Except.error.inj (herr.symm.trans h)) (hne err)
  | httpError code body => rfl
  | urlError text => rfl
  | raised name => rfl

theorem handled_of_ok {resp : IngestResponse} (h : readReply libs reply = .ok resp) :
    reply.Handled libs :=
  readReply_handled_iff.mpr fun err herr => by cases h.symm.trans herr

theorem handled_of_ingestError {err : IngestError}
    (h : readReply libs reply = .error (.ingest err)) : reply.Handled libs :=
  readReply_handled_iff.mpr fun _ herr => ⟨err, Except.error.inj (herr.symm.trans h)⟩

theorem not_handled {err : Exc} (h : readReply libs reply = .error err)
    (hne : ∀ e, err ≠ .ingest e) : ¬ reply.Handled libs := fun hreply => by
  obtain ⟨e, he⟩ := readReply_handled_iff.mp hreply err h
  exact hne e he

end

section

variable [Ucd] {X : Type} {AnsX : X → Type} {libs : Libs} {client : IngestClient} {e : Emission}
variable {ctx : ObjDict} {rid : PyStr} {trace : List (Performed (Ans AnsX))}

/-- A plain receipt is signed exactly when the client can emit it. -/
theorem emits_iff (he : e.Plain) (hrid : ∀ c ∈ rid, c.val < 0x80) (ts : Stamp) {agent : PyStr}
    (hagent : (given e.agentId).or (given client.agentId) = some agent) :
    (∃ signed, client.sign libs (client.receipt e (some ctx) agent ts.text rid) = .ok signed)
      ↔ Emits client e ctx := by
  have hts : NoSurrogate ts.text := noSurrogate_ascii ts.ascii
  have hid : NoSurrogate rid := noSurrogate_ascii hrid
  rw [sign_receipt_isOk_iff he.extra]
  unfold Emits texts
  rw [he.createdAt, he.amount]
  have hcreated : (given none).getD ts.text = ts.text := rfl
  have hzero : |(0 : ℤ)| ≤ maxSafeInteger := by decide
  simp only [hcreated, hagent, Option.some.injEq, exists_eq_left', List.forall_mem_cons, hts, hid,
    hzero, true_and, and_true]

omit [Ucd] in
/-- The context of a post-action receipt can be signed. -/
theorem signable_postState (bytes : Bytes) :
    Signable (.obj [(lit "post_state_hash", .str (hex bytes))]) := by
  have hascii : ∀ c ∈ (lit "post_state_hash" : PyStr), c.val < 0x80 :=
    Utf16.lit_ascii (by decide)
  have hname : ∀ k ∈ names [(lit "post_state_hash", (.str (hex bytes) : PyObj))],
      BmpName k ∧ NoSurrogate k := by
    refine List.forall_mem_singleton.mpr ⟨fun c hc => ?_, noSurrogate_ascii hascii⟩
    have hlt := hascii c hc
    omega
  refine (signable_obj hname (List.forall_mem_singleton.mpr nofun)).mpr ?_
  refine List.forall_mem_singleton.mpr (signable_str.mpr (noSurrogate_ascii ?_))
  refine ofChars_ascii fun c hc => ?_
  obtain ⟨b, -, hb⟩ := List.mem_flatMap.mp hc
  exact hexByteChars_lt c hb

omit [Ucd] in
/-- What can be emitted before an action can be emitted after it. -/
theorem Emits.postAction (h : Emits client e ctx) (bytes : Bytes) :
    Emits client e [(lit "post_state_hash", .str (hex bytes))] := by
  obtain ⟨agent, hagent, hkey, hsk, -, htexts⟩ := h
  exact ⟨agent, hagent, hkey, hsk, signable_postState bytes, htexts⟩

/-- A plain post-action receipt is the receipt of its one-member context. -/
theorem emitPostActionReceipt_eq (he : e.Plain) (rid hash : PyStr) :
    (client.emitPostActionReceipt libs e rid hash : IngestM AnsX _)
      = client.emitReceipt libs e (some [(lit "post_state_hash", .str hash)]) (some rid) := by
  unfold IngestClient.emitPostActionReceipt postActionContext
  obtain ⟨-, -, -, hextra⟩ := he
  cases e
  subst hextra
  rfl

/-- **How `emit_receipt` runs**: to the reply, or to an exception of its own
before anything is posted. -/
theorem emitReceipt_runs (he : e.Plain) (hrid : rid ≠ []) (hascii : ∀ c ∈ rid, c.val < 0x80)
    {r : Except Exc IngestResponse}
    (h : (client.emitReceipt libs e (some ctx) (some rid) : IngestM AnsX _).Runs trace r) :
    (Emits client e ctx ∧ ∃ stamp request reply,
        trace = [⟨.utcnowIso, stamp⟩, ⟨.urlopen request, reply⟩] ∧ r = readReply libs reply)
      ∨ (¬ Emits client e ctx ∧ (∀ x ∈ trace, x.op = .utcnowIso) ∧ ∃ err, r = .error (.py err)) := by
  rw [emitReceipt_eq he.timestamp hrid] at h
  cases hagent : (given e.agentId).or (given client.agentId) with
  | none =>
    rw [hagent] at h
    obtain ⟨rfl, rfl⟩ := h
    refine .inr ⟨?_, nofun, _, rfl⟩
    rintro ⟨agent, h, -⟩
    cases hagent.symm.trans h
  | some agent =>
    rw [hagent] at h
    dsimp only at h
    rw [op_bind, runs_perform] at h
    obtain ⟨stamp, rest, rfl, h⟩ := h
    have hemits := @emits_iff _ libs client e ctx rid he hascii stamp agent hagent
    cases hsign : client.sign libs (client.receipt e (some ctx) agent stamp.text rid) with
    | error err =>
      rw [hsign] at h
      obtain ⟨rfl, rfl⟩ := h
      refine .inr ⟨fun hcan => ?_, List.forall_mem_singleton.mpr rfl, _, rfl⟩
      obtain ⟨signed, hok⟩ := hemits.mpr hcan
      cases hsign.symm.trans hok
    | ok signed =>
      rw [hsign] at h
      dsimp only at h
      rw [op_bind, runs_perform] at h
      obtain ⟨reply, rest, rfl, rfl, rfl⟩ := h
      exact .inl ⟨hemits.mp ⟨signed, hsign⟩, stamp, _, reply, rfl, rfl⟩

omit [Ucd] in
theorem performs_orFresh {α : Type} {G : List (Performed (Ans AnsX)) → Op X → Prop}
    {fresh : IngestM AnsX Stamp} {f : PyStr → IngestM AnsX α} {s : Option PyStr}
    (hfresh : ∀ tr, Performs G fresh tr) (hf : ∀ text tr, Performs G (f text) tr) :
    Performs G (orFresh s fresh >>= f) trace := by
  unfold orFresh
  split
  · exact hf _ _
  · exact ((hfresh trace).bind fun _ _ => performs_done).bind hf

/-- What the client has signed for these arguments, posted. -/
def Posted (client : IngestClient) (libs : Libs) (e : Emission) (ctx : Option ObjDict)
    (request : Request) : Prop :=
  ∃ agent ts rid, client.sign libs (client.receipt e ctx agent ts rid) = .ok request.signed

/-- **What `emit_receipt` performs**, whatever its arguments: it asks for an
id and the time, and posts what it has signed. -/
theorem performs_emitReceipt {G : List (Performed (Ans AnsX)) → Op X → Prop}
    {ctx : Option ObjDict} {receiptId : Option PyStr} (hid : ∀ tr, G tr .uuid4)
    (htime : ∀ tr, G tr .utcnowIso)
    (hpost : ∀ tr request, Posted client libs e ctx request → G tr (.urlopen request)) :
    Performs G (client.emitReceipt libs e ctx receiptId : IngestM AnsX _) trace := by
  unfold IngestClient.emitReceipt
  split
  · exact performs_done
  · rename_i agent _
    refine performs_orFresh (fun tr => performs_perform.mpr ⟨htime tr, fun _ => performs_done⟩)
      fun ts tr => ?_
    refine performs_orFresh (fun tr => performs_perform.mpr ⟨hid tr, fun _ => performs_done⟩)
      fun rid tr => ?_
    cases hsign : client.sign libs (client.receipt e ctx agent ts rid) with
    | error err => exact performs_done
    | ok signed =>
      refine performs_perform.mpr ⟨hpost tr _ ⟨agent, ts, rid, hsign⟩, fun reply => ?_⟩
      exact performs_done

/-- **An emission under `except IngestError`**, with something to do after it
and something to do instead. What is not an `IngestError` goes on. -/
theorem guarded_runs {α : Type} {k : IngestResponse → IngestM AnsX α}
    {handler : IngestError → IngestM AnsX α} {r : Except Exc α} (he : e.Plain) (hrid : rid ≠ [])
    (hascii : ∀ c ∈ rid, c.val < 0x80)
    (hk : ∀ resp tr r, (k resp).Runs tr r → ∃ a, r = .ok a)
    (h : (exceptIngestError (client.emitReceipt libs e (some ctx) (some rid) >>= k) handler).Runs
      trace r) :
    (Emits client e ctx ∧ ∃ stamp request reply after,
        trace = ⟨.utcnowIso, stamp⟩ :: ⟨.urlopen request, reply⟩ :: after
        ∧ ((∃ resp, readReply libs reply = .ok resp ∧ (k resp).Runs after r)
          ∨ (∃ err, readReply libs reply = .error (.ingest err) ∧ (handler err).Runs after r)
          ∨ (¬ reply.Handled libs ∧ after = [] ∧ ∃ err, r = .error err)))
      ∨ (¬ Emits client e ctx ∧ (∀ x ∈ trace, x.op = .utcnowIso) ∧ ∃ err, r = .error err) := by
  rcases runs_tryCatch.mp h with ⟨a, hrun, rfl⟩ | ⟨err, before, after, hrun, hhandler, rfl⟩
  · rcases runs_bind.mp hrun with ⟨_, _, hr⟩ | ⟨resp, before, after, hemit, hrest, rfl⟩
    · cases hr
    · rcases emitReceipt_runs he hrid hascii hemit with
        ⟨hemits, stamp, request, reply, rfl, hreply⟩ | ⟨_, _, _, hr⟩
      · exact .inl ⟨hemits, stamp, request, reply, after, rfl, .inl ⟨resp, hreply.symm, hrest⟩⟩
      · cases hr
  · have hemit : (client.emitReceipt libs e (some ctx) (some rid) : IngestM AnsX _).Runs before
        (.error err) := by
      rcases runs_bind.mp hrun with ⟨_, hemit, hr⟩ | ⟨resp, before', after', -, hrest, -⟩
      · obtain rfl := Except.error.inj hr
        exact hemit
      · obtain ⟨a, ha⟩ := hk _ _ _ hrest
        cases ha
    rcases emitReceipt_runs he hrid hascii hemit with
      ⟨hemits, stamp, request, reply, rfl, hreply⟩ | ⟨hnot, htrace, err', hr⟩
    · refine .inl ⟨hemits, stamp, request, reply, after, rfl, .inr ?_⟩
      cases err with
      | ingest err => exact .inl ⟨err, hreply.symm, hhandler⟩
      | _ =>
        obtain ⟨rfl, rfl⟩ := hhandler
        exact .inr ⟨not_handled hreply.symm nofun, rfl, _, rfl⟩
    · cases hr
      obtain ⟨rfl, rfl⟩ := hhandler
      exact .inr ⟨hnot, by rwa [List.append_nil], _, rfl⟩

end

end Ingest

end Py

end OpenTerms
