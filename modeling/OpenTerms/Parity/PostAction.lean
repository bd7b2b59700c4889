import OpenTerms.Py.Ingest.Emission
import OpenTerms.Py.Ingest.Sample
import OpenTerms.Ts.Ingest.Client
import OpenTerms.Ts.RoundTrip

/-!
# What a post-action receipt carries

The hash of the state goes into the context, and then `extra` is merged
over the finished receipt. Both clients take an `action_context` that is
an object out of `extra` first; one of another kind is merged over the
context and takes the hash with it.
-/

namespace OpenTerms

namespace Parity

open Json Prog

/-- The signed receipt has this id, and a context with this hash and with
whatever else the context given in `extra` has. -/
def Carries {n : ℕ} [NeZero n] {N : Type} (receiptId postStateHash : List (Fin n))
    (extra : Option (List (List (Fin n) × Json (List (Fin n)) N)))
    (signed : List (List (Fin n) × Json (List (Fin n)) N)) : Prop :=
  get? (lit "receipt_id") signed = some (.str receiptId)
    ∧ ∃ ctx, get? (lit "action_context") signed = some (.obj ctx)
      ∧ get? (lit "post_state_hash") ctx = some (.str postStateHash)
      ∧ ∀ ms, extra.bind (get? (lit "action_context")) = some (.obj ms) →
        ∀ k ≠ lit "post_state_hash", get? k ctx = get? k ms

/-- `extra` without its context has its names once still, and only such as
it had. -/
theorem forall_dropped {S V : Type} [DecidableEq S] {k' : S} {p : S → Prop}
    {extra : Option (List (S × V))} (hextra : ∀ ms ∈ extra, (names ms).Nodup ∧ ∀ k ∈ names ms, p k) :
    ∀ ms ∈ extra.map (List.filter fun m => m.1 ≠ k'), (names ms).Nodup ∧ ∀ k ∈ names ms, p k := by
  intro ms' hms'
  obtain ⟨ms, hms, rfl⟩ := Option.map_eq_some_iff.mp hms'
  obtain ⟨hnodup, hnames⟩ := hextra ms hms
  have hsub : (names (ms.filter fun m => m.1 ≠ k')).Sublist (names ms) := List.filter_sublist.map _
  exact ⟨hnodup.sublist hsub, fun k hk => hnames k (hsub.subset hk)⟩

/-- And it has no context. -/
theorem get?_dropped {S V : Type} [DecidableEq S] (k : S) (extra : Option (List (S × V))) :
    (extra.map (List.filter fun m => m.1 ≠ k)).bind (get? k) = none := by
  cases extra with
  | none => rfl
  | some ms => exact (get?_filter_ne k k ms).trans (if_pos rfl)

/-! ## Python -/

/-- Every receipt that is posted has the property. -/
def PyPosts {X : Type} {AnsX : X → Type} (P : Py.ObjDict → Prop)
    (_ : List (Performed (Py.Ingest.Ans AnsX))) : Py.Ingest.Op X → Prop
  | .urlopen request => P request.signed
  | _ => True

/-- No context in `extra`, or one that is an object. -/
def PyContext (extra : Option Py.ObjDict) : Prop :=
  ∀ v, extra.bind (get? (lit "action_context")) = some v → v = .null ∨ ∃ ms, v = .obj ms

section

variable [Ucd] {libs : Py.Ingest.Libs} {self : Py.Ingest.IngestClient} {e : Py.Ingest.Emission}

omit [Ucd] in
/-- What the receipt of an emission holds. -/
theorem py_get?_receipt (hextra : ∀ ms ∈ e.extra, (names ms).Nodup) (ctx : Py.ObjDict)
    (agent ts rid : PyStr) (k : PyStr) :
    get? k (self.receipt e (some ctx) agent ts rid)
      = (((e.extra.bind (get? k)).filter Py.Obj.isNotNone).or
          (get? k (self.receipt { e with extra := none } (some ctx) agent ts rid))) := by
  have hnodup : (names (e.extra.getD [])).Nodup := by
    cases h : e.extra with
    | none => exact List.nodup_nil
    | some ms => exact hextra ms h
  have hbind : e.extra.bind (get? k) = get? k (e.extra.getD []) := by
    cases e.extra <;> rfl
  rw [hbind]
  exact get?_merged hnodup k

/-- The context a receipt is posted with: what `extra` has for one, or the
one of the call. -/
theorem py_get?_context (hextra : ∀ ms ∈ e.extra, (names ms).Nodup) {ctx signed : Py.ObjDict}
    {agent ts rid : PyStr}
    (hsign : self.sign libs (self.receipt e (some ctx) agent ts rid) = .ok signed) :
    get? (lit "action_context") signed
      = ((e.extra.bind (get? (lit "action_context"))).filter Py.Obj.isNotNone).or
          (some (.obj ctx)) := by
  rw [(Py.Ingest.get?_sign hsign).2
    (show lit "action_context" ∈ Py.payloadKeysOptional by decide), py_get?_receipt hextra]
  generalize e.extra.bind (get? (lit "action_context")) = v
  cases v with
  | none => rfl
  | some v =>
    by_cases hv : v = .null
    · subst hv
      rfl
    · simp [Option.filter, Py.Obj.isNotNone, hv]

omit [Ucd] in
/-- What is left of `extra` has its names once, and only such as it had. -/
theorem py_context_extra {extra : Option Py.ObjDict} (h : PyStr)
    (hextra : ∀ ms ∈ extra, (names ms).Nodup ∧ ∀ k ∈ names ms, k ∈ Py.payloadKeysOptional) :
    ∀ ms ∈ (Py.Ingest.postActionContext h extra).2,
      (names ms).Nodup ∧ ∀ k ∈ names ms, k ∈ Py.payloadKeysOptional := by
  unfold Py.Ingest.postActionContext
  split
  · exact forall_dropped hextra
  · exact hextra

/-- A signed post-action receipt, and the context given for it. -/
theorem py_carries_iff {agent ts rid rid' h : PyStr} {signed : Py.ObjDict}
    (hextra : ∀ ms ∈ e.extra, (names ms).Nodup ∧ ∀ k ∈ names ms, k ∈ Py.payloadKeysOptional)
    (hsign : self.sign libs (self.receipt
        { e with extra := (Py.Ingest.postActionContext h e.extra).2 }
        (some (Py.Ingest.postActionContext h e.extra).1) agent ts rid') = .ok signed) :
    Carries rid h e.extra signed ↔ rid' = rid ∧ PyContext e.extra := by
  have hleft := py_context_extra h hextra
  have hget := @py_get?_receipt self
    { e with extra := (Py.Ingest.postActionContext h e.extra).2 } (fun ms hms => (hleft ms hms).1)
    (Py.Ingest.postActionContext h e.extra).1 agent ts rid'
  have hid : get? (lit "receipt_id") signed = some (.str rid') := by
    rw [(Py.Ingest.get?_sign hsign).1 (show lit "receipt_id" ∈ Py.signedRequired by decide),
      hget]
    -- an id is none of the optional members
    have hnone : (Py.Ingest.postActionContext h e.extra).2.bind (get? (lit "receipt_id")) = none := by
      cases hx : (Py.Ingest.postActionContext h e.extra).2 with
      | none => rfl
      | some ms =>
        refine get?_eq_none_iff.mpr fun hmem => ?_
        exact absurd ((hleft ms hx).2 _ hmem) (by decide)
    rw [hnone]
    rfl
  have hcontext := py_get?_context (fun ms hms => (hleft ms hms).1) hsign
  unfold Carries PyContext
  rw [hid, Option.some.injEq, Json.str.injEq, hcontext]
  refine and_congr_right fun _ => ?_
  unfold Py.Ingest.postActionContext
  cases hgiven : e.extra.bind (get? (lit "action_context")) with
  | none =>
    dsimp only
    rw [hgiven]
    refine iff_of_true ⟨_, rfl, ?_, fun ms hms => by cases hms⟩ fun v hv => by cases hv
    rw [get?_cons, if_pos rfl]
  | some v =>
    -- a value that is no object is merged over the context
    have hother (hv : v ≠ .null) (hobj : ∀ ms, v ≠ .obj ms) :
        (∃ ctx, ((some v).filter Py.Obj.isNotNone).or
            (some (.obj [(lit "post_state_hash", .str h)])) = some (.obj ctx)
          ∧ get? (lit "post_state_hash") ctx = some (.str h)
          ∧ ∀ ms, some v = some (.obj ms) → ∀ k ≠ lit "post_state_hash", get? k ctx = get? k ms)
          ↔ ∀ w, some v = some w → w = .null ∨ ∃ ms, w = .obj ms := by
      refine iff_of_false ?_ fun hall => ?_
      · rintro ⟨ctx, hctx, -⟩
        rw [show (some v).filter Py.Obj.isNotNone = some v by
          simp [Option.filter, Py.Obj.isNotNone, hv]] at hctx
        exact hobj ctx (Option.some.inj hctx)
      · rcases hall v rfl with hnull | ⟨ms, hms⟩
        · exact hv hnull
        · exact hobj ms hms
    cases v with
    | null =>
      dsimp only
      rw [hgiven]
      refine iff_of_true ⟨_, rfl, ?_, fun ms hms => by cases hms⟩ ?_
      · rw [get?_cons, if_pos rfl]
      · intro v hv
        exact .inl (Option.some.inj hv).symm
    | obj ms =>
      dsimp only
      rw [get?_dropped]
      refine iff_of_true ⟨_, rfl, ?_, ?_⟩ ?_
      · rw [get?_set, if_pos rfl]
      · intro ms' hms' k hk
        cases hms'
        rw [get?_set, if_neg (Ne.symm hk)]
      · intro v hv
        exact .inr ⟨ms, (Option.some.inj hv).symm⟩
    | _ =>
      dsimp only
      rw [hgiven]
      exact hother (fun hv => by cases hv) (fun ms hv => by cases hv)

/-- A post-action receipt is posted once it is signed. -/
theorem py_post_runs {X : Type} {AnsX : X → Type} {agent rid h : PyStr} {stamp : Py.Ingest.Stamp}
    {signed : Py.ObjDict} {reply : Py.Ingest.Reply}
    (hagent : (Py.Ingest.given e.agentId).or (Py.Ingest.given self.agentId) = some agent)
    (hts : e.timestamp = none) (hrid : rid ≠ [])
    (hsign : self.sign libs (self.receipt
        { e with extra := (Py.Ingest.postActionContext h e.extra).2 }
        (some (Py.Ingest.postActionContext h e.extra).1) agent stamp.text rid) = .ok signed) :
    (self.emitPostActionReceipt libs e rid h : Py.Ingest.IngestM AnsX _).Runs
      [⟨.utcnowIso, stamp⟩, ⟨.urlopen (self.request signed e.idempotencyKey), reply⟩]
      (Py.Ingest.readReply libs reply) := by
  unfold Py.Ingest.IngestClient.emitPostActionReceipt
  dsimp only
  rw [Py.Ingest.emitReceipt_eq
    (e := { e with extra := (Py.Ingest.postActionContext h e.extra).2 }) hts hrid]
  dsimp only
  rw [hagent]
  dsimp only
  rw [op_bind, runs_perform]
  refine ⟨stamp, _, rfl, ?_⟩
  rw [hsign]
  exact ⟨reply, [], rfl, rfl, rfl⟩

/-- **Whatever Python posts** as a post-action receipt. -/
theorem py_posts {X : Type} {AnsX : X → Type} {rid h : PyStr}
    (hextra : ∀ ms ∈ e.extra, (names ms).Nodup ∧ ∀ k ∈ names ms, k ∈ Py.payloadKeysOptional) :
    (self.emitPostActionReceipt libs e rid h : Py.Ingest.IngestM AnsX _).Keeps
      (PyPosts fun signed => Carries rid h e.extra signed ↔ rid ≠ [] ∧ PyContext e.extra)
      (fun _ _ => True) (fun _ _ => True) [] := by
  unfold Py.Ingest.IngestClient.emitPostActionReceipt Py.Ingest.IngestClient.emitReceipt
  dsimp only
  cases (Py.Ingest.given e.agentId).or (Py.Ingest.given self.agentId) with
  | none => trivial
  | some agent =>
    -- the id is the one given, or a fresh one in place of an empty one
    have hpost (ts rid' : PyStr) (hrid : rid' = rid ↔ rid ≠ [])
        (trace : List (Performed (Py.Ingest.Ans AnsX))) :
        (do
          let signed ← liftM (Py.Ingest.liftPy (self.sign libs (self.receipt
            { e with extra := (Py.Ingest.postActionContext h e.extra).2 }
            (some (Py.Ingest.postActionContext h e.extra).1) agent ts rid')))
          self.post libs signed e.idempotencyKey : Py.Ingest.IngestM AnsX _).Keeps
            (PyPosts fun signed => Carries rid h e.extra signed ↔ rid ≠ [] ∧ PyContext e.extra)
            (fun _ _ => True) (fun _ _ => True) trace := by
      cases hsign : self.sign libs (self.receipt
          { e with extra := (Py.Ingest.postActionContext h e.extra).2 }
          (some (Py.Ingest.postActionContext h e.extra).1) agent ts rid') with
      | error err => trivial
      | ok signed =>
        have hcarries : Carries rid h e.extra signed ↔ rid ≠ [] ∧ PyContext e.extra := by
          rw [py_carries_iff hextra hsign, hrid]
        exact ⟨hcarries, fun _ _ => trivial⟩
    have hid (ts : PyStr) (trace : List (Performed (Py.Ingest.Ans AnsX))) :
        (do
          let rid' ← Py.Ingest.orFresh (some rid) Py.Ingest.uuid4
          let signed ← liftM (Py.Ingest.liftPy (self.sign libs (self.receipt
            { e with extra := (Py.Ingest.postActionContext h e.extra).2 }
            (some (Py.Ingest.postActionContext h e.extra).1) agent ts rid')))
          self.post libs signed e.idempotencyKey : Py.Ingest.IngestM AnsX _).Keeps
            (PyPosts fun signed => Carries rid h e.extra signed ↔ rid ≠ [] ∧ PyContext e.extra)
            (fun _ _ => True) (fun _ _ => True) trace := by
      by_cases hrid : rid = []
      · have hgiven : Py.Ingest.given (some rid) = none := by simp [Py.Ingest.given, hrid]
        rw [Py.Ingest.orFresh, hgiven]
        refine ⟨trivial, fun stamp _ => hpost ts stamp.text ?_ _⟩
        have := stamp.nonempty
        simp [hrid, this]
      · have hgiven : Py.Ingest.given (some rid) = some rid := by simp [Py.Ingest.given, hrid]
        rw [Py.Ingest.orFresh, hgiven]
        exact hpost ts rid (iff_of_true rfl hrid) trace
    cases hts : Py.Ingest.given e.timestamp with
    | none =>
      rw [Py.Ingest.orFresh, hts]
      exact ⟨trivial, fun stamp _ => hid stamp.text _⟩
    | some ts =>
      rw [Py.Ingest.orFresh, hts]
      exact hid ts []

end

/-! ## TypeScript -/

/-- Every receipt that is posted has the property. -/
def TsPosts (P : Ts.JsObject → Prop) (_ : List (Performed Ts.Ingest.Ans)) : Ts.Ingest.Op → Prop
  | .fetch request => P request.signed
  | _ => True

/-- No context in `extra`, or one that is an array, or an object without a
member of the name assignment makes no property of. -/
def TsContext (extra : Option Ts.JsObject) : Prop :=
  ∀ v, extra.bind (get? (lit "action_context")) = some v →
    v = .null ∨ (∃ ms, v = .obj ms ∧ Ts.protoName ∉ names ms) ∨ ∃ xs, v = .arr xs

/-- Assigning entries is merging all but the one under `__proto__`. -/
theorem assignAll_eq (target source : Ts.JsObject) :
    Ts.Ingest.assignAll target source
      = merged (fun _ => true) target (source.filter fun m => m.1 ≠ Ts.protoName) := by
  unfold Ts.Ingest.assignAll merged
  induction source generalizing target with
  | nil => rfl
  | cons m source ih =>
    rw [List.foldl_cons, ih, Ts.assign]
    by_cases hm : m.1 = Ts.protoName
    · rw [if_pos hm, List.filter_cons_of_neg (by simpa using hm)]
    · rw [if_neg hm, List.filter_cons_of_pos (by simpa using hm), List.foldl_cons, if_pos rfl]

theorem mergeExtra_eq (receipt : Ts.JsObject) {extra : Ts.JsObject}
    (hproto : Ts.protoName ∉ names extra) :
    Ts.Ingest.mergeExtra receipt extra = merged Ts.isNotNull receipt extra := by
  unfold Ts.Ingest.mergeExtra merged
  induction extra generalizing receipt with
  | nil => rfl
  | cons m extra ih =>
    rw [names_cons, List.mem_cons, not_or] at hproto
    rw [List.foldl_cons, List.foldl_cons, Ts.assign, if_neg (Ne.symm hproto.1), ih _ hproto.2]

/-- The context `Object.assign` makes. -/
theorem get?_assigned {h : JsStr} {source : Ts.JsObject} (hsource : (names source).Nodup)
    (k : JsStr) :
    get? k (Ts.assign (lit "post_state_hash") (.str h)
        (Ts.Ingest.assignAll [(lit "post_state_hash", .str h)] source))
      = if k = lit "post_state_hash" then some (.str h)
        else if k = Ts.protoName then none else get? k source := by
  have hname : (lit "post_state_hash" : JsStr) ≠ Ts.protoName := by decide
  have hnodup : (names (source.filter fun m => m.1 ≠ Ts.protoName)).Nodup :=
    hsource.sublist (List.filter_sublist.map _)
  rw [Ts.assign, if_neg hname, get?_set, assignAll_eq, get?_merged hnodup, get?_filter_ne]
  by_cases hk : k = lit "post_state_hash"
  · rw [if_pos hk.symm, if_pos hk]
  · have hnone : get? k [((lit "post_state_hash" : JsStr), (.str h : Ts.JsVal))] = none := by
      rw [get?_cons, if_neg (Ne.symm hk), get?_nil]
    rw [if_neg (Ne.symm hk), if_neg hk, hnone, Option.or_none]
    split_ifs
    · rfl
    · cases get? k source <;> rfl

section

variable {crypto : Crypto} {self : Ts.Ingest.IngestClient} {opts : Ts.Ingest.EmitOptions}

/-- What is signed of a receipt is posted as it was. -/
theorem ts_get?_sign {receipt signed : Ts.JsObject} (h : self.sign crypto receipt = .ok signed)
    {k : JsStr} :
    (k ∈ Ts.signedRequired → get? k signed = get? k receipt)
      ∧ (k ∈ Ts.signedOptional → get? k signed = (get? k receipt).filter Ts.isNotNull) := by
  unfold Ts.Ingest.IngestClient.sign at h
  obtain ⟨payload, hpayload, hsign⟩ := bind_eq_ok_iff.mp h
  obtain ⟨-, -, -, -, bytes, -, rfl⟩ := Ts.signReceipt_eq_ok_iff.mp hsign
  have hmeta : ∀ k ∈ Ts.signedRequired ++ Ts.signedOptional,
      k ≠ lit "key_id" ∧ k ≠ lit "signature" ∧ k ≠ lit "canonical_hash" := by decide
  have hpick := get?_pick Ts.signedRequired_disjoint (Ts.buildPayload_eq_ok_iff.mp hpayload) k
  constructor
  · intro hk
    obtain ⟨h1, h2, h3⟩ := hmeta k (List.mem_append_left _ hk)
    rw [Ts.get?_withMetadata, if_neg h1, if_neg h2, if_neg h3, hpick, if_pos hk]
  · intro hk
    obtain ⟨h1, h2, h3⟩ := hmeta k (List.mem_append_right _ hk)
    have hnot : k ∉ Ts.signedRequired := fun hreq => Ts.signedRequired_disjoint k hreq hk
    rw [Ts.get?_withMetadata, if_neg h1, if_neg h2, if_neg h3, hpick, if_neg hnot, if_pos hk]

/-- What the receipt of an emission holds. -/
theorem ts_get?_receipt (hextra : ∀ ms ∈ opts.extra, (names ms).Nodup ∧ Ts.protoName ∉ names ms)
    (ctx : Ts.JsObject) (agent ts rid : JsStr) (k : JsStr) :
    get? k (self.receipt opts (some ctx) agent ts rid)
      = (((opts.extra.bind (get? k)).filter Ts.isNotNull).or
          (get? k (self.receipt { opts with extra := none } (some ctx) agent ts rid))) := by
  cases hx : opts.extra with
  | none =>
    unfold Ts.Ingest.IngestClient.receipt
    rw [hx]
    rfl
  | some ms =>
    obtain ⟨hnodup, hproto⟩ := hextra ms hx
    unfold Ts.Ingest.IngestClient.receipt
    rw [hx]
    exact (congrArg (get? k) (mergeExtra_eq _ hproto)).trans (get?_merged hnodup k)

/-- What is left of `extra` has its names once, and only such as it had. -/
theorem ts_context_extra {extra : Option Ts.JsObject} (h : JsStr)
    (hextra : ∀ ms ∈ extra, (names ms).Nodup ∧ ∀ k ∈ names ms, k ∈ Ts.signedOptional) :
    ∀ ms ∈ (Ts.Ingest.postActionContext h extra).2,
      (names ms).Nodup ∧ ∀ k ∈ names ms, k ∈ Ts.signedOptional := by
  unfold Ts.Ingest.postActionContext
  dsimp only
  split
  · exact forall_dropped hextra
  · exact forall_dropped hextra
  · exact hextra

/-- A signed post-action receipt, and the context given for it. -/
theorem ts_carries_iff {agent ts rid h : JsStr} {signed : Ts.JsObject}
    (hextra : ∀ ms ∈ opts.extra, (names ms).Nodup ∧ ∀ k ∈ names ms, k ∈ Ts.signedOptional)
    (hunique : ∀ ms ∈ opts.extra, UniqueNames (.obj ms))
    (hsign : self.sign crypto (self.receipt
        { opts with extra := (Ts.Ingest.postActionContext h opts.extra).2 }
        (some (Ts.Ingest.postActionContext h opts.extra).1) agent ts rid) = .ok signed) :
    Carries rid h opts.extra signed ↔ TsContext opts.extra := by
  have hleft := ts_context_extra h hextra
  have hproto : Ts.protoName ∉ Ts.signedOptional := by decide
  have hget := @ts_get?_receipt self
    { opts with extra := (Ts.Ingest.postActionContext h opts.extra).2 }
    (fun ms hms => ⟨(hleft ms hms).1, fun hmem => hproto ((hleft ms hms).2 _ hmem)⟩)
    (Ts.Ingest.postActionContext h opts.extra).1 agent ts rid
  have hid : get? (lit "receipt_id") signed = some (.str rid) := by
    rw [(ts_get?_sign hsign).1 (show lit "receipt_id" ∈ Ts.signedRequired by decide), hget]
    -- an id is none of the optional members
    have hnone : (Ts.Ingest.postActionContext h opts.extra).2.bind (get? (lit "receipt_id"))
        = none := by
      cases hx : (Ts.Ingest.postActionContext h opts.extra).2 with
      | none => rfl
      | some ms =>
        refine get?_eq_none_iff.mpr fun hmem => ?_
        exact absurd ((hleft ms hx).2 _ hmem) (by decide)
    rw [hnone]
    rfl
  have hcontext : get? (lit "action_context") signed
      = ((((Ts.Ingest.postActionContext h opts.extra).2.bind (get? (lit "action_context"))).filter
          Ts.isNotNull).or (some (.obj (Ts.Ingest.postActionContext h opts.extra).1))) := by
    rw [(ts_get?_sign hsign).2
      (show lit "action_context" ∈ Ts.signedOptional by decide), hget]
    generalize (Ts.Ingest.postActionContext h opts.extra).2.bind (get? (lit "action_context")) = v
    cases v with
    | none => rfl
    | some v =>
      by_cases hv : v = .null
      · subst hv
        rfl
      · simp [Option.filter, Ts.isNotNull, hv]
  unfold Carries TsContext
  rw [hid, and_iff_right rfl, hcontext]
  unfold Ts.Ingest.postActionContext
  cases hgiven : opts.extra.bind (get? (lit "action_context")) with
  | none =>
    dsimp only
    rw [hgiven]
    refine iff_of_true ⟨_, rfl, ?_, fun ms hms => by cases hms⟩ fun v hv => by cases hv
    rw [get?_cons, if_pos rfl]
  | some v =>
    have hother (hv : v ≠ .null) (hobj : ∀ ms, v ≠ .obj ms) (harr : ∀ xs, v ≠ .arr xs) :
        (∃ ctx, ((some v).filter Ts.isNotNull).or
            (some (.obj [(lit "post_state_hash", .str h)])) = some (.obj ctx)
          ∧ get? (lit "post_state_hash") ctx = some (.str h)
          ∧ ∀ ms, some v = some (.obj ms) → ∀ k ≠ lit "post_state_hash", get? k ctx = get? k ms)
          ↔ ∀ w, some v = some w →
            w = .null ∨ (∃ ms, w = .obj ms ∧ Ts.protoName ∉ names ms) ∨ ∃ xs, w = .arr xs := by
      refine iff_of_false ?_ fun hall => ?_
      · rintro ⟨ctx, hctx, -⟩
        rw [show (some v).filter Ts.isNotNull = some v by
          simp [Option.filter, Ts.isNotNull, hv]] at hctx
        exact hobj ctx (Option.some.inj hctx)
      · rcases hall v rfl with hnull | ⟨ms, hms, -⟩ | ⟨xs, hxs⟩
        · exact hv hnull
        · exact hobj ms hms
        · exact harr xs hxs
    cases v with
    | null =>
      dsimp only
      rw [hgiven]
      refine iff_of_true ⟨_, rfl, ?_, fun ms hms => by cases hms⟩ ?_
      · rw [get?_cons, if_pos rfl]
      · intro v hv
        exact .inl (Option.some.inj hv).symm
    | obj ms =>
      dsimp only
      rw [get?_dropped]
      obtain ⟨given, hextra', hms⟩ := Option.bind_eq_some_iff.mp hgiven
      have hnodup : (names ms).Nodup :=
        (uniqueNames_obj.mp ((uniqueNames_obj.mp (hunique given hextra')).2 _ (mem_of_get? hms))).1
      have hassigned := get?_assigned (h := h) hnodup
      constructor
      · rintro ⟨ctx, hctx, -, hkept⟩ v hv
        obtain rfl := Option.some.inj hv
        refine .inr (.inl ⟨ms, rfl, fun hmem => ?_⟩)
        obtain rfl := Json.obj.inj (Option.some.inj hctx)
        have hlost := hkept ms rfl Ts.protoName (by decide)
        rw [Ts.Ingest.ownEntries, hassigned, if_neg (by decide), if_pos rfl] at hlost
        exact get?_eq_none_iff.mp hlost.symm hmem
      · intro hall
        have hkept : Ts.protoName ∉ names ms := by
          rcases hall _ rfl with hnull | ⟨ms', hms', hnot⟩ | ⟨xs, hxs⟩
          · cases hnull
          · cases hms'
            exact hnot
          · cases hxs
        refine ⟨_, rfl, (hassigned _).trans (if_pos rfl), fun ms' hms' k hk => ?_⟩
        cases hms'
        rw [Ts.Ingest.ownEntries, hassigned, if_neg hk]
        by_cases hkp : k = Ts.protoName
        · rw [if_pos hkp, hkp, get?_eq_none_iff.mpr hkept]
        · rw [if_neg hkp]
    | arr xs =>
      dsimp only
      rw [get?_dropped]
      refine iff_of_true ⟨_, rfl, ?_, fun ms hms => by cases hms⟩ ?_
      · rw [Ts.assign, if_neg (by decide), get?_set, if_pos rfl]
      · intro v hv
        exact .inr (.inr ⟨xs, (Option.some.inj hv).symm⟩)
    | _ =>
      dsimp only
      rw [hgiven]
      exact hother (fun hv => by cases hv) (fun ms hv => by cases hv) (fun xs hv => by cases hv)

/-- **Whatever TypeScript posts** as a post-action receipt. -/
theorem ts_posts {rid h : JsStr}
    (hextra : ∀ ms ∈ opts.extra, (names ms).Nodup ∧ ∀ k ∈ names ms, k ∈ Ts.signedOptional)
    (hunique : ∀ ms ∈ opts.extra, UniqueNames (.obj ms)) :
    (self.emitPostActionReceipt crypto opts rid h).Keeps
      (TsPosts fun signed => Carries rid h opts.extra signed ↔ TsContext opts.extra)
      (fun _ _ => True) (fun _ _ => True) [] := by
  unfold Ts.Ingest.IngestClient.emitPostActionReceipt Ts.Ingest.IngestClient.emitReceipt
  dsimp only
  cases Ts.Ingest.given (opts.agentId.or self.agentId) with
  | none => trivial
  | some agent =>
    have hpost (ts : JsStr) (trace : List (Performed Ts.Ingest.Ans)) :
        (do
          let signed ← liftM (Ts.Ingest.liftTs (self.sign crypto (self.receipt
            { opts with extra := (Ts.Ingest.postActionContext h opts.extra).2 }
            (some (Ts.Ingest.postActionContext h opts.extra).1) agent ts rid)))
          self.post signed opts.idempotencyKey : Ts.Ingest.IngestM _).Keeps
            (TsPosts fun signed => Carries rid h opts.extra signed ↔ TsContext opts.extra)
            (fun _ _ => True) (fun _ _ => True) trace := by
      cases hsign : self.sign crypto (self.receipt
          { opts with extra := (Ts.Ingest.postActionContext h opts.extra).2 }
          (some (Ts.Ingest.postActionContext h opts.extra).1) agent ts rid) with
      | error err => trivial
      | ok signed => exact ⟨ts_carries_iff hextra hunique hsign, fun _ _ => trivial⟩
    cases opts.timestamp with
    | none => exact ⟨trivial, fun ts _ => hpost ts _⟩
    | some ts => exact hpost ts []

/-- A post-action receipt is posted once it is signed. -/
theorem ts_post_runs {agent ts rid h : JsStr} {signed : Ts.JsObject} {reply : Ts.Ingest.Reply}
    (hagent : Ts.Ingest.given (opts.agentId.or self.agentId) = some agent)
    (hts : opts.timestamp = none)
    (hsign : self.sign crypto (self.receipt
        { opts with extra := (Ts.Ingest.postActionContext h opts.extra).2 }
        (some (Ts.Ingest.postActionContext h opts.extra).1) agent ts rid) = .ok signed) :
    (self.emitPostActionReceipt crypto opts rid h).Runs
      [⟨.utcNowIso, ts⟩, ⟨.fetch (self.request signed opts.idempotencyKey), reply⟩]
      (Ts.Ingest.readReply self.timeoutMs reply) := by
  have hfresh : Ts.Ingest.orFresh opts.timestamp Ts.Ingest.utcNowIso = Ts.Ingest.utcNowIso := by
    rw [hts]
    rfl
  unfold Ts.Ingest.IngestClient.emitPostActionReceipt Ts.Ingest.IngestClient.emitReceipt
  dsimp only
  rw [hagent]
  dsimp only
  rw [hfresh, op_bind, runs_perform]
  refine ⟨ts, _, rfl, ?_⟩
  dsimp only [Ts.Ingest.orFresh]
  rw [pure_eq, done_ok_bind, hsign]
  exact ⟨reply, [], rfl, rfl, rfl⟩

end

/-- **What a post-action receipt carries**, in either language: the id, and
a context that is an object with the hash and the rest of what was given,
exactly where `extra` has no context of another kind. -/
theorem post_state_hash_iff [Ucd] {X : Type} {AnsX : X → Type} :
    (∀ (libs : Py.Ingest.Libs) (self : Py.Ingest.IngestClient) (e : Py.Ingest.Emission)
        (receiptId postStateHash : PyStr),
      (∀ ms ∈ e.extra, (names ms).Nodup ∧ ∀ k ∈ names ms, k ∈ Py.payloadKeysOptional) →
        (self.emitPostActionReceipt libs e receiptId postStateHash : Py.Ingest.IngestM AnsX _).Keeps
          (PyPosts fun signed => Carries receiptId postStateHash e.extra signed
            ↔ receiptId ≠ [] ∧ PyContext e.extra)
          (fun _ _ => True) (fun _ _ => True) [])
      ∧ ∀ (crypto : Crypto) (self : Ts.Ingest.IngestClient) (opts : Ts.Ingest.EmitOptions)
        (receiptId postStateHash : JsStr),
      (∀ ms ∈ opts.extra, UniqueNames (.obj ms) ∧ ∀ k ∈ names ms, k ∈ Ts.signedOptional) →
        (self.emitPostActionReceipt crypto opts receiptId postStateHash).Keeps
          (TsPosts fun signed => Carries receiptId postStateHash opts.extra signed
            ↔ TsContext opts.extra)
          (fun _ _ => True) (fun _ _ => True) [] := by
  refine ⟨fun libs self e rid h hextra => py_posts hextra,
    fun crypto self opts rid h hextra => ?_⟩
  exact ts_posts
    (fun ms hms => ⟨(uniqueNames_obj.mp (hextra ms hms).1).1, (hextra ms hms).2⟩)
    (fun ms hms => (hextra ms hms).1)

/-! ## One of each -/

section Sample

attribute [local instance] Ucd.allPrintable

/-- An emission with this context in `extra`. -/
def pyEmission (context : Py.PyObj) : Py.Ingest.Emission where
  actionType := lit "tool_call"
  termsUrl := lit "https://x.com/terms"
  termsHash := lit "t1"
  extra := some [(lit "action_context", context)]

def tsClient : Ts.Ingest.IngestClient where
  baseUrl := lit "http://localhost:3000"
  workspaceId := lit "w1"
  keyId := lit "k1"
  privateKey := Sample.seed
  agentId := some (lit "a1")
  apiKey := none
  timeoutMs := 10000

def tsOptions (context : Ts.JsVal) : Ts.Ingest.EmitOptions where
  actionType := lit "tool_call"
  termsUrl := lit "https://x.com/terms"
  termsHash := lit "t1"
  extra := some [(lit "action_context", context)]

/-- The emission whose context is `{"a": true}`, and the call with it. -/
def pyObject : Py.Ingest.Emission := pyEmission (.obj [(lit "a", .bool true)])

def pyCall : Py.Ingest.IngestM (fun _ : Unit => Unit) Py.Ingest.IngestResponse :=
  Py.Ingest.Sample.client.emitPostActionReceipt Py.Ingest.Sample.libs pyObject (lit "r1") (lit "h1")

def tsObject : Ts.Ingest.EmitOptions := tsOptions (.obj [(lit "a", .bool true)])

def tsCall : Ts.Ingest.IngestM Ts.Ingest.IngestResponse :=
  tsClient.emitPostActionReceipt Sample.crypto tsObject (lit "r1") (lit "h1")

/-- Both calls post, and what they post carries the hash beside the member. -/
theorem post_state_hash_sample :
    (∃ request reply r,
        pyCall.Runs ([⟨.utcnowIso, Py.Ingest.Sample.now⟩] ++ [⟨.urlopen request, reply⟩]) r
          ∧ Carries (lit "r1") (lit "h1") pyObject.extra request.signed)
      ∧ ∃ request reply r,
        tsCall.Runs ([⟨.utcNowIso, lit "2025-01-01T00:00:00Z"⟩] ++ [⟨.fetch request, reply⟩]) r
          ∧ Carries (lit "r1") (lit "h1") tsObject.extra request.signed := by
  have hpy := (@post_state_hash_iff Ucd.allPrintable Unit (fun _ => Unit)).1 Py.Ingest.Sample.libs
    Py.Ingest.Sample.client pyObject (lit "r1") (lit "h1")
  have hts := (@post_state_hash_iff Ucd.allPrintable Unit (fun _ => Unit)).2 Sample.crypto tsClient
    tsObject (lit "r1") (lit "h1")
  constructor
  · have hsigned : (Py.Ingest.Sample.client.sign Py.Ingest.Sample.libs (Py.Ingest.Sample.client.receipt
        { pyObject with extra := (Py.Ingest.postActionContext (lit "h1") pyObject.extra).2 }
        (some (Py.Ingest.postActionContext (lit "h1") pyObject.extra).1)
        (lit "a1") Py.Ingest.Sample.now.text (lit "r1"))).isOk = true := by decide +kernel
    obtain ⟨signed, hsign⟩ := succeeds_of_isOk hsigned
    have hruns : ∃ request reply r,
        pyCall.Runs ([⟨.utcnowIso, Py.Ingest.Sample.now⟩] ++ [⟨.urlopen request, reply⟩]) r :=
      ⟨_, .urlError [], _, py_post_runs rfl rfl (by decide) hsign⟩
    obtain ⟨request, reply, r, hrun⟩ := hruns
    have hextra : ∀ ms ∈ pyObject.extra,
        (names ms).Nodup ∧ ∀ k ∈ names ms, k ∈ Py.payloadKeysOptional := by
      rintro ms ⟨⟩
      refine ⟨List.nodup_singleton _, fun k hk => ?_⟩
      rw [List.mem_singleton.mp hk]
      exact (by decide : lit "action_context" ∈ Py.payloadKeysOptional)
    refine ⟨request, reply, r, hrun, (Performs.at (hpy hextra) hrun).mpr ⟨by decide, ?_⟩⟩
    exact fun v hv => .inr ⟨_, (Option.some.inj hv).symm⟩
  · have hsigned : (tsClient.sign Sample.crypto (tsClient.receipt
        { tsObject with extra := (Ts.Ingest.postActionContext (lit "h1") tsObject.extra).2 }
        (some (Ts.Ingest.postActionContext (lit "h1") tsObject.extra).1)
        (lit "a1") (lit "2025-01-01T00:00:00Z") (lit "r1"))).isOk = true := by decide +kernel
    obtain ⟨signed, hsign⟩ := succeeds_of_isOk hsigned
    have hruns : ∃ request reply r,
        tsCall.Runs ([⟨.utcNowIso, lit "2025-01-01T00:00:00Z"⟩] ++ [⟨.fetch request, reply⟩]) r :=
      ⟨_, .timeout, _, ts_post_runs rfl rfl hsign⟩
    obtain ⟨request, reply, r, hrun⟩ := hruns
    have hextra : ∀ ms ∈ tsObject.extra,
        UniqueNames (.obj ms) ∧ ∀ k ∈ names ms, k ∈ Ts.signedOptional := by
      rintro ms ⟨⟩
      refine ⟨by decide, fun k hk => ?_⟩
      rw [List.mem_singleton.mp hk]
      exact (by decide : lit "action_context" ∈ Ts.signedOptional)
    refine ⟨request, reply, r, hrun, (Performs.at (hts hextra) hrun).mpr fun v hv => ?_⟩
    exact .inr (.inl ⟨_, (Option.some.inj hv).symm, by decide⟩)

/-- A context that is a string is merged over the one with the hash. -/
theorem post_state_hash_lost : ∃ request reply r,
    (Py.Ingest.Sample.client.emitPostActionReceipt Py.Ingest.Sample.libs
        (pyEmission (.str (lit "none"))) (lit "r1") (lit "h1") :
        Py.Ingest.IngestM (fun _ : Unit => Unit) _).Runs
          [⟨.utcnowIso, Py.Ingest.Sample.now⟩, ⟨.urlopen request, reply⟩] r
      ∧ ¬ Carries (lit "r1") (lit "h1") (pyEmission (.str (lit "none"))).extra request.signed := by
  have hsigned : (Py.Ingest.Sample.client.sign Py.Ingest.Sample.libs (Py.Ingest.Sample.client.receipt
      { pyEmission (.str (lit "none")) with
        extra := (Py.Ingest.postActionContext (lit "h1") (pyEmission (.str (lit "none"))).extra).2 }
      (some (Py.Ingest.postActionContext (lit "h1") (pyEmission (.str (lit "none"))).extra).1)
      (lit "a1") Py.Ingest.Sample.now.text (lit "r1"))).isOk = true := by
    decide +kernel
  obtain ⟨signed, hsign⟩ := succeeds_of_isOk hsigned
  refine ⟨_, .urlError [], _,
    py_post_runs rfl rfl (by decide) hsign, fun hcarries => ?_⟩
  have hextra : ∀ ms ∈ (pyEmission (.str (lit "none"))).extra,
      (names ms).Nodup ∧ ∀ k ∈ names ms, k ∈ Py.payloadKeysOptional := by
    rintro ms ⟨⟩
    refine ⟨List.nodup_singleton _, fun k hk => ?_⟩
    rw [List.mem_singleton.mp hk]
    exact (by decide : lit "action_context" ∈ Py.payloadKeysOptional)
  obtain ⟨-, hcontext⟩ := (py_carries_iff hextra hsign).mp hcarries
  rcases hcontext (.str (lit "none")) rfl with hnull | ⟨ms, hms⟩
  · cases hnull
  · cases hms

end Sample

end Parity

end OpenTerms
