import OpenTerms.Py.Ingest.Client

/-!
# What an emission does

The order of what `emit_receipt` does, read once (`emitReceipt_eq`): the
time, the signature, the request and what is made of the reply. Signing
fails on the key, on the context or on a string that UTF-8 does not take
(`sign_receipt_isOk_iff`), and what is posted has the members of the
receipt (`get?_sign`).
-/

namespace OpenTerms

namespace Py

namespace Ingest

open Json Utf16

variable [Ucd] {libs : Libs} {self : IngestClient} {e : Emission}

/-! ## The payload -/

omit [Ucd] in
/-- Without `extra` the receipt holds the ten members and the context. -/
theorem receipt_eq (he : e.extra = none) (ctx : ObjDict) (agent ts rid : PyStr) :
    self.receipt e (some ctx) agent ts rid
      = [(lit "workspace_id", .str self.workspaceId), (lit "agent_id", .str agent),
          (lit "action_type", .str e.actionType), (lit "terms_url", .str e.termsUrl),
          (lit "terms_hash", .str e.termsHash), (lit "timestamp", .str ts),
          (lit "pricing_version", .str e.pricingVersion), (lit "receipt_id", .str rid),
          (lit "amount_charged", .num (.num (.int e.amountCharged))),
          (lit "created_at", .str ((given e.createdAt).getD ts)),
          (lit "action_context", .obj ctx)] := by
  unfold IngestClient.receipt
  rw [he]
  rfl

omit [Ucd] in
/-- All of it is payload. -/
theorem buildPayload_receipt (he : e.extra = none) (ctx : ObjDict) (agent ts rid : PyStr) :
    Obj.buildPayload (self.receipt e (some ctx) agent ts rid)
      = .ok (self.receipt e (some ctx) agent ts rid) := by
  rw [receipt_eq he]
  rfl

omit [Ucd] in
theorem names_receipt (he : e.extra = none) (ctx : ObjDict) (agent ts rid : PyStr) :
    names (self.receipt e (some ctx) agent ts rid)
      = signedRequired ++ [lit "action_context"] := by
  rw [receipt_eq he]
  rfl

/-! ## What can be signed -/

/-- A value the canonicalizer takes: what `_validate` and `allow_nan=False`
let through, in strings UTF-8 takes. -/
def Signable (v : PyObj) : Prop :=
  Accepted v ∧ Every (fun _ => True) NoSurrogate NoSurrogate (untuple v.stripNulls)

omit [Ucd] in
theorem signable_str {s : PyStr} : Signable (.str s) ↔ NoSurrogate s := by
  simp [Signable, Accepted, untuple]

omit [Ucd] in
theorem signable_int {z : ℤ} : Signable (.num (.num (.int z))) ↔ |z| ≤ maxSafeInteger := by
  simp [Signable, Accepted, untuple, Atom.seen, Atom.Accepted, Atom.written, SafeNum]

omit [Ucd] in
/-- An object of plain names and no nulls is taken member by member. -/
theorem signable_obj {ms : ObjDict} (hnames : ∀ k ∈ names ms, BmpName k ∧ NoSurrogate k)
    (hnull : ∀ m ∈ ms, m.2 ≠ .null) : Signable (.obj ms) ↔ ∀ m ∈ ms, Signable m.2 := by
  have hname : ∀ m ∈ ms, BmpName m.1 ∧ NoSurrogate m.1 :=
    fun m hm => hnames m.1 (List.mem_map_of_mem hm)
  have hstrip : ms.filterMap stripMember = ms.map fun m => (m.1, m.2.stripNulls) := by
    rw [← List.filterMap_eq_map]
    exact List.filterMap_congr fun m hm => stripMember_eq_some_iff.mpr ⟨hnull m hm, rfl⟩
  unfold Signable Accepted untuple
  rw [stripNulls_obj, hstrip, graft_obj, every_obj, every_obj, every_obj]
  simp only [List.forall_mem_map, graftMember]
  constructor
  · rintro ⟨⟨hvalid, haccepted⟩, htext⟩ m hm
    exact ⟨⟨(hvalid m hm).2, (haccepted m hm).2⟩, (htext m hm).2⟩
  · intro h
    exact ⟨⟨fun m hm => ⟨(hname m hm).1, (h m hm).1.1⟩, fun m hm => ⟨trivial, (h m hm).1.2⟩⟩,
      fun m hm => ⟨(hname m hm).2, (h m hm).2⟩⟩

/-- The strings of a receipt, its context apart. -/
def texts (self : IngestClient) (e : Emission) (agent ts rid : PyStr) : List PyStr :=
  [self.workspaceId, agent, e.actionType, e.termsUrl, e.termsHash, ts, e.pricingVersion, rid,
    (given e.createdAt).getD ts]

omit [Ucd] in
/-- The canonicalizer takes a receipt with its context, its strings and its
amount. -/
theorem signable_receipt (he : e.extra = none) (ctx : ObjDict) (agent ts rid : PyStr) :
    Signable (.obj (self.receipt e (some ctx) agent ts rid))
      ↔ Signable (.obj ctx) ∧ (∀ s ∈ texts self e agent ts rid, NoSurrogate s)
        ∧ |e.amountCharged| ≤ maxSafeInteger := by
  have hplain : ∀ k ∈ signedRequired ++ [lit "action_context"], BmpName k ∧ NoSurrogate k := by
    intro k hk
    refine signed_name ((List.mem_append.mp hk).elim (List.mem_append_left _) fun h => ?_)
    rw [List.mem_singleton.mp h]
    exact List.mem_append_right _ List.mem_cons_self
  rw [← names_receipt he ctx agent ts rid] at hplain
  rw [signable_obj hplain (by rw [receipt_eq he]; simp), receipt_eq he, texts]
  simp only [List.forall_mem_cons, signable_str, signable_int, List.not_mem_nil,
    IsEmpty.forall_iff, implies_true, and_true]
  constructor
  · rintro ⟨h1, h2, h3, h4, h5, h6, h7, h8, h9, h10, h11⟩
    exact ⟨h11, ⟨h1, h2, h3, h4, h5, h6, h7, h8, h10⟩, h9⟩
  · rintro ⟨h11, ⟨h1, h2, h3, h4, h5, h6, h7, h8, h10⟩, h9⟩
    exact ⟨h1, h2, h3, h4, h5, h6, h7, h8, h9, h10, h11⟩

/-- **When signing succeeds.** -/
theorem sign_receipt_isOk_iff (he : e.extra = none) (ctx : ObjDict) (agent ts rid : PyStr) :
    (∃ signed, self.sign libs (self.receipt e (some ctx) agent ts rid) = .ok signed)
      ↔ self.keyId ≠ [] ∧ (∃ sk, coercePrivateKey self.privateKey = .ok sk)
        ∧ Signable (.obj ctx) ∧ (∀ s ∈ texts self e agent ts rid, NoSurrogate s)
        ∧ |e.amountCharged| ≤ maxSafeInteger := by
  have hnames : ∀ k ∈ signedRequired ++ [lit "action_context"], k ∉ metadataKeys ∧ k ∈ signedKeys := by
    decide
  rw [← names_receipt he ctx agent ts rid] at hnames
  rw [← signable_receipt he, Signable, ← obj_canonicalize_isOk_iff]
  unfold IngestClient.sign
  rw [buildPayload_receipt he, ok_bind]
  simp only [obj_signReceipt_eq_ok_iff]
  constructor
  · rintro ⟨signed, hkey, -, -, sk, bytes, hsk, hbytes, -⟩
    exact ⟨hkey, ⟨sk, hsk⟩, bytes, hbytes⟩
  · rintro ⟨hkey, ⟨sk, hsk⟩, bytes, hbytes⟩
    exact ⟨_, hkey, fun k hk => (hnames k hk).1, fun k hk => (hnames k hk).2, sk, bytes, hsk, hbytes,
      rfl⟩

/-! ## What is posted -/

/-- What is signed of a receipt is posted as it was. -/
theorem get?_sign {receipt signed : ObjDict} (h : self.sign libs receipt = .ok signed) {k : PyStr} :
    (k ∈ signedRequired → get? k signed = get? k receipt)
      ∧ (k ∈ payloadKeysOptional → get? k signed = (get? k receipt).filter Obj.isNotNone) := by
  unfold IngestClient.sign at h
  obtain ⟨payload, hpayload, hsign⟩ := bind_eq_ok_iff.mp h
  obtain ⟨-, -, -, sk, bytes, -, -, rfl⟩ := obj_signReceipt_eq_ok_iff.mp hsign
  have hpick := get?_pick signedRequired_disjoint (obj_buildPayload_eq_ok_iff.mp hpayload) k
  constructor
  · intro hk
    rw [get?_obj_withMetadata_signed _ _ _ _ (List.mem_append_left _ hk), hpick, if_pos hk]
  · intro hk
    have hnot : k ∉ signedRequired := fun hreq => signedRequired_disjoint k hreq hk
    rw [get?_obj_withMetadata_signed _ _ _ _ (List.mem_append_right _ hk), hpick, if_neg hnot,
      if_pos hk]

/-- The id and the context a receipt is posted with. -/
theorem get?_signed_receipt (he : e.extra = none) {ctx signed : ObjDict} {agent ts rid : PyStr}
    (h : self.sign libs (self.receipt e (some ctx) agent ts rid) = .ok signed) :
    get? (lit "receipt_id") signed = some (.str rid)
      ∧ get? (lit "action_context") signed = some (.obj ctx) := by
  have hid := (get?_sign h).1 (show lit "receipt_id" ∈ signedRequired by decide)
  have hctx := (get?_sign h).2 (show lit "action_context" ∈ payloadKeysOptional by decide)
  rw [receipt_eq he] at hid hctx
  exact ⟨hid, hctx⟩

/-! ## The order of things -/

variable {X : Type} {AnsX : X → Type}

/-- **`emit_receipt`, step by step**, where the id is given and the time is
not. -/
theorem emitReceipt_eq (hts : e.timestamp = none) {rid : PyStr} (hrid : rid ≠ [])
    (ctx : Option ObjDict) :
    (self.emitReceipt libs e ctx (some rid) : IngestM AnsX IngestResponse)
      = (match (given e.agentId).or (given self.agentId) with
        | none => throw (.py (.valueError
            (lit "agent_id must be provided either at init or per-call")))
        | some agent => do
          let stamp ← (utcnowIso : IngestM AnsX Stamp)
          match self.sign libs (self.receipt e ctx agent stamp.text rid) with
          | .error err => throw (.py err)
          | .ok signed => do
            let reply ← urlopen (self.request signed e.idempotencyKey)
            liftM (readReply libs reply) : IngestM AnsX IngestResponse) := by
  have hgiven : given (some rid) = some rid := by simp [given, hrid]
  unfold IngestClient.emitReceipt orFresh
  rw [hts, hgiven]
  cases (given e.agentId).or (given self.agentId) with
  | none => rfl
  | some agent =>
    refine congrArg (Prog.perform Op.utcnowIso) (funext fun stamp => ?_)
    change (liftM (liftPy (self.sign libs (self.receipt e ctx agent (Stamp.text stamp) rid)))
        >>= fun signed => self.post libs signed e.idempotencyKey)
      = (match self.sign libs (self.receipt e ctx agent (Stamp.text stamp) rid) with
        | .error err => throw (.py err)
        | .ok signed => self.post libs signed e.idempotencyKey)
    cases self.sign libs (self.receipt e ctx agent (Stamp.text stamp) rid) with
    | error err => rfl
    | ok signed => rfl

omit [Ucd] in
/-- A reply after which the client returns or raises an `IngestError`: an
error of the transport it knows, or an answer that is a JSON object with
a hash and a time. -/
def Reply.Handled (libs : Libs) : Reply → Prop
  | .response _ body => ∃ text ms, Utf8.decode body = some text ∧ libs.loads text = some (.obj ms)
      ∧ lit "hash" ∈ names ms ∧ lit "ingested_at" ∈ names ms
  | .httpError .. | .urlError _ => True
  | .raised _ => False

omit [Ucd] in
/-- The members `_post` asks for can only be those of an object. -/
theorem subscript_eq_ok_iff {k : PyStr} {v w : PyVal} :
    subscript k v = .ok w ↔ ∃ ms, v = .obj ms ∧ get? k ms = some w := by
  cases v with
  | obj ms =>
    rw [subscript]
    cases hk : get? k ms with
    | none => simp [hk]
    | some v' => simp [hk]
  | _ => simp [subscript]

omit [Ucd] in
/-- An answer is read where it is a JSON object with the two members. -/
theorem readResponse_cases (status : ℤ) (body : Bytes) :
    (∃ text ms hash ingestedAt, Utf8.decode body = some text ∧ libs.loads text = some (.obj ms)
        ∧ get? (lit "hash") ms = some hash ∧ get? (lit "ingested_at") ms = some ingestedAt
        ∧ ∃ resp, readResponse libs status body = .ok resp ∧ resp.canonicalHash = hash)
      ∨ (¬ (Reply.response status body).Handled libs
        ∧ ∃ err, readResponse libs status body = .error err ∧ ∀ e', err ≠ .ingest e') := by
  unfold readResponse Reply.Handled
  cases hdecode : Utf8.decode body with
  | none =>
    refine .inr ⟨?_, _, rfl, fun _ h => by cases h⟩
    rintro ⟨_, _, h, -⟩
    cases hdecode.symm.trans h
  | some text =>
    dsimp only
    cases hloads : libs.loads text with
    | none =>
      refine .inr ⟨?_, _, rfl, fun _ h => by cases h⟩
      rintro ⟨_, _, h, hloads', -⟩
      cases hdecode.symm.trans h
      cases hloads.symm.trans hloads'
    | some parsed =>
      -- a member is asked of an object only
      have absent {k : PyStr} (h : ∀ w, subscript k parsed ≠ .ok w) :
          ∃ err, liftPy (subscript k parsed) = .error (.py err) := by
        cases hsub : subscript k parsed with
        | ok w => exact absurd hsub (h w)
        | error err => exact ⟨err, rfl⟩
      by_cases hhash : ∃ w, subscript (lit "hash") parsed = .ok w
      · obtain ⟨hash, hhash⟩ := hhash
        obtain ⟨ms, rfl, hget⟩ := subscript_eq_ok_iff.mp hhash
        by_cases hat : ∃ w, subscript (lit "ingested_at") (.obj ms) = .ok w
        · obtain ⟨ingestedAt, hat⟩ := hat
          obtain ⟨ms', hms, hget'⟩ := subscript_eq_ok_iff.mp hat
          cases hms
          refine .inl ⟨text, ms, hash, ingestedAt, rfl, hloads, hget, hget', ?_⟩
          dsimp only
          rw [hhash, hat]
          exact ⟨_, rfl, rfl⟩
        · obtain ⟨err, herr⟩ := absent (not_exists.mp hat)
          refine .inr ⟨?_, .py err, ?_, fun _ h => by cases h⟩
          · rintro ⟨_, ms', h, hloads', -, hmem⟩
            cases hdecode.symm.trans h
            cases hloads.symm.trans hloads'
            obtain ⟨w, hw⟩ := Option.ne_none_iff_exists'.mp
              (mt get?_eq_none_iff.mp (not_not.mpr hmem))
            exact hat ⟨w, subscript_eq_ok_iff.mpr ⟨ms, rfl, hw⟩⟩
          · dsimp only
            rw [hhash, herr]
            rfl
      · obtain ⟨err, herr⟩ := absent (not_exists.mp hhash)
        refine .inr ⟨?_, .py err, ?_, fun _ h => by cases h⟩
        · rintro ⟨_, ms', h, hloads', hmem, -⟩
          cases hdecode.symm.trans h
          cases hloads.symm.trans hloads'
          obtain ⟨w, hw⟩ := Option.ne_none_iff_exists'.mp (mt get?_eq_none_iff.mp (not_not.mpr hmem))
          exact hhash ⟨w, subscript_eq_ok_iff.mpr ⟨ms', rfl, hw⟩⟩
        · dsimp only
          rw [herr]
          rfl

omit [Ucd] in
/-- **What is made of a handled reply** is a response or an `IngestError`. -/
theorem readReply_handled_iff {reply : Reply} :
    reply.Handled libs ↔ ∀ err, readReply libs reply = .error err → ∃ e', err = .ingest e' := by
  cases reply with
  | response status body =>
    change _ ↔ ∀ err, readResponse libs status body = .error err → _
    rcases @readResponse_cases libs status body with
      ⟨text, ms, hash, ingestedAt, hdecode, hloads, hhash, hat, resp, hresp, -⟩ | ⟨hnot, err, herr, hne⟩
    · refine iff_of_true ⟨text, ms, hdecode, hloads, ?_, ?_⟩ ?_
      · exact mem_names.mpr ⟨hash, mem_of_get? hhash⟩
      · exact mem_names.mpr ⟨ingestedAt, mem_of_get? hat⟩
      · intro err herr
        cases hresp.symm.trans herr
    · refine iff_of_false hnot fun h => ?_
      obtain ⟨e', he'⟩ := h err herr
      exact hne e' he'
  | httpError code body => exact iff_of_true trivial fun err h => by cases h; exact ⟨_, rfl⟩
  | urlError text => exact iff_of_true trivial fun err h => by cases h; exact ⟨_, rfl⟩
  | raised name =>
    refine iff_of_false id fun h => ?_
    obtain ⟨e', he'⟩ := h _ rfl
    cases he'

end Ingest

end Py

end OpenTerms
