import OpenTerms.LangChain.Handler
import OpenTerms.Py.Ingest.Emission

/-!
# What a callback does

One rule for each callback of the handler: the operations it performs, in
what order, and what it has done when it ends. A start generates its id
before all else and sets its entry once, at the end; an end and an error
pop theirs first. Nothing here says what the answers are.
-/

namespace OpenTerms

namespace LangChain

open Json Py Py.Ingest Prog

/-- The `run_id` of a callback. -/
def Callback.runId {Out : Type} : Callback Out → Option RunId
  | .toolStart _ _ runId _ => runId
  | .toolEnd _ runId => runId
  | .toolError runId => runId

/-- The agent the receipts of the handler name. -/
def OpenTermsCallbackHandler.agent (self : OpenTermsCallbackHandler) : Option PyStr :=
  (given (some self.agentId)).or (given self.client.agentId)

/-- The terms the handler was made with. -/
def OpenTermsCallbackHandler.defaults (self : OpenTermsCallbackHandler) : Terms :=
  ⟨self.termsUrl, self.termsHash⟩

/-- `hashlib.sha256(str(output).encode("utf-8")).hexdigest()` -/
def postStateHash (libs : Libs) (text : PyStr) : Except PyErr PyStr := do
  let bytes ← encodeUtf8 text
  .ok (hex (libs.crypto.sha256 bytes))

variable [Ucd] {Out : Type}

/-- What the handler's client signed for these terms, this context and this
id. -/
def OpenTermsCallbackHandler.Signed (self : OpenTermsCallbackHandler) (libs : Libs) (terms : Terms)
    (ctx : ObjDict) (receiptId : PyStr) (signed : ObjDict) : Prop :=
  ∃ agent ts, self.agent = some agent
    ∧ self.client.sign libs (self.client.receipt (self.emission terms) (some ctx) agent ts receiptId)
      = .ok signed

/-- The operations a callback performs, given what it has performed. -/
def OpenTermsCallbackHandler.Does (self : OpenTermsCallbackHandler) (libs : Libs)
    (strOf : Out → Except Exc PyStr) :
    Callback Out → List (Performed (Ans PendingAns)) → Op PendingOp → Prop
  | .toolStart _ _ (some _) _, trace, .uuid4 => trace = []
  | .toolStart _ _ (some _) _, trace, .utcnowIso => ∃ x, trace = [⟨.uuid4, x⟩]
  | .toolStart serialized inputStr (some _) inputs, trace, .urlopen request =>
    ∃ x stamp, trace = [⟨.utcnowIso, stamp⟩, ⟨.uuid4, x⟩]
      ∧ self.Signed libs (self.termsFor (extractToolName serialized))
        (toolContext (extractToolName serialized) inputStr inputs) x.text request.signed
  | .toolStart _ _ (some r) _, trace, .own (.set rid p) =>
    rid = r ∧ ∃ request reply stamp,
      trace = [⟨.urlopen request, reply⟩, ⟨.utcnowIso, stamp⟩, ⟨.uuid4, p.receiptId⟩]
  | .toolEnd _ (some r), trace, .own (.pop rid) => rid = r ∧ trace = []
  | .toolEnd _ (some r), trace, .utcnowIso => ∃ p, trace = [⟨.own (.pop r), some p⟩]
  | .toolEnd output (some r), trace, .urlopen request =>
    self.emitPostAction = true ∧ ∃ (p : PendingReceipt) (stamp : Stamp) (text hash : PyStr),
      trace = [⟨.utcnowIso, stamp⟩, ⟨.own (.pop r), some p⟩]
      ∧ strOf output = .ok text ∧ postStateHash libs text = .ok hash
      ∧ self.Signed libs self.defaults [(lit "post_state_hash", .str hash)] p.receiptId.text
        request.signed
  | .toolError (some r), trace, .own (.pop rid) => rid = r ∧ trace = []
  | _, _, _ => False

/-- What a callback has done when it ends. -/
def Ended : Callback Out → List (Performed (Ans PendingAns)) → Except Exc Unit → Prop
  | .toolStart _ _ (some r) _, trace, result =>
    (result = .ok () ∨ ∃ err, result = .error (.ingest err)) →
      ∃ p, ⟨.own (.set r p), ()⟩ ∈ trace
  | .toolEnd _ (some r), trace, _ => ∃ taken, ⟨.own (.pop r), taken⟩ ∈ trace
  | .toolError (some r), trace, _ => ∃ taken, ⟨.own (.pop r), taken⟩ ∈ trace
  | _, _, _ => True

variable {libs : Libs}

/-- **The rule of `emit_receipt`** where the id is given and the time is
not. -/
theorem emitReceipt_rule {X : Type} {AnsX : X → Type} {client : IngestClient} {e : Emission}
    {G : List (Performed (Ans AnsX)) → Op X → Prop} {A : (o : Op X) → Ans AnsX o → Prop}
    {Q : List (Performed (Ans AnsX)) → Except Exc IngestResponse → Prop}
    {trace : List (Performed (Ans AnsX))} {rid : PyStr} {ctx : Option ObjDict}
    (hts : e.timestamp = none) (hrid : rid ≠ []) (htime : G trace .utcnowIso)
    (hpost : ∀ stamp agent signed, (given e.agentId).or (given client.agentId) = some agent →
      client.sign libs (client.receipt e ctx agent stamp.text rid) = .ok signed →
      G (⟨.utcnowIso, stamp⟩ :: trace) (.urlopen (client.request signed e.idempotencyKey)))
    (hfail : ∀ tr err, trace <:+ tr → Q tr (.error (.py err)))
    (hend : ∀ stamp request reply,
      Q (⟨.urlopen request, reply⟩ :: ⟨.utcnowIso, stamp⟩ :: trace) (readReply libs reply)) :
    (client.emitReceipt libs e ctx (some rid) : IngestM AnsX _).Keeps G A Q trace := by
  rw [emitReceipt_eq hts hrid]
  cases hagent : (given e.agentId).or (given client.agentId) with
  | none => exact hfail _ _ List.suffix_rfl
  | some agent =>
    dsimp only
    rw [op_bind, keeps_perform]
    refine ⟨htime, fun stamp _ => ?_⟩
    cases hsign : client.sign libs (client.receipt e ctx agent (Stamp.text stamp) rid) with
    | error err => exact hfail _ _ (List.suffix_cons _ _)
    | ok signed =>
      dsimp only
      rw [op_bind, keeps_perform]
      exact ⟨hpost stamp agent signed hagent hsign, fun reply _ => hend _ _ _⟩

variable {self : OpenTermsCallbackHandler} {strOf : Out → Except Exc PyStr}

/-- What is left to do once the guarded part of `except IngestError` ends. -/
def Unless (G : List (Performed (Ans PendingAns)) → Op PendingOp → Prop)
    (A : (o : Op PendingOp) → Ans PendingAns o → Prop)
    (Q : List (Performed (Ans PendingAns)) → Except Exc Unit → Prop)
    (handler : IngestError → HandlerM Unit) (trace : List (Performed (Ans PendingAns))) :
    Except Exc Unit → Prop
  | .error (.ingest err) => (handler err).Keeps G A Q trace
  | r => Q trace r

omit [Ucd] in
/-- `except IngestError` keeps what its guarded part does, if the handler
takes over where that raises one. -/
theorem exceptIngestError_rule {G : List (Performed (Ans PendingAns)) → Op PendingOp → Prop}
    {A : (o : Op PendingOp) → Ans PendingAns o → Prop}
    {Q : List (Performed (Ans PendingAns)) → Except Exc Unit → Prop}
    {trace : List (Performed (Ans PendingAns))} {p : HandlerM Unit}
    {handler : IngestError → HandlerM Unit} (h : p.Keeps G A (Unless G A Q handler) trace) :
    (exceptIngestError p handler).Keeps G A Q trace := by
  refine Keeps.tryCatch (h.imp fun tr r hr => ?_)
  cases r with
  | ok a => exact hr
  | error e =>
    cases e with
    | ingest err => exact hr
    | _ => exact hr

/-- **A start**: its id, the pre-action receipt, and one entry at the end. -/
theorem onToolStart_does (serialized : PyVal) (inputStr : PyStr) (r : RunId)
    (inputs : Option ObjDict) :
    (self.onToolStart libs serialized inputStr (some r) inputs).Keeps
      (self.Does libs strOf (.toolStart serialized inputStr (some r) inputs)) (fun _ _ => True)
      (Ended (.toolStart serialized inputStr (some r) inputs : Callback Out)) [] := by
  unfold OpenTermsCallbackHandler.onToolStart runIdOr
  dsimp only
  rw [pure_eq, done_ok_bind, op_bind, keeps_perform]
  refine ⟨rfl, fun x _ => ?_⟩
  refine exceptIngestError_rule (Keeps.bind ?_)
  refine emitReceipt_rule rfl x.nonempty ⟨x, rfl⟩ ?_ ?_ ?_
  · intro stamp agent signed hagent hsign
    exact ⟨x, stamp, rfl, agent, stamp.text, hagent, hsign⟩
  · intro tr err _ hend
    rcases hend with hok | ⟨e, he⟩
    · cases hok
    · cases he
  · intro stamp request reply
    -- the entry is set after the emission, however that ended
    have hset (hash : PyVal) :
        self.Does libs strOf (.toolStart serialized inputStr (some r) inputs)
          [⟨.urlopen request, reply⟩, ⟨.utcnowIso, stamp⟩, ⟨.uuid4, x⟩]
          (.own (.set r ⟨x, hash⟩)) := ⟨rfl, request, reply, stamp, rfl⟩
    cases hread : readReply libs reply with
    | ok resp => exact ⟨hset _, fun _ _ _ => ⟨_, List.mem_cons_self⟩⟩
    | error e =>
      cases e with
      | ingest err =>
        refine ⟨hset _, fun _ _ => ?_⟩
        -- strict or not, the entry is set
        split
        · exact fun _ => ⟨_, List.mem_cons_self⟩
        · exact fun _ => ⟨_, List.mem_cons_self⟩
      | _ =>
        intro hend
        rcases hend with hok | ⟨e, he⟩
        · cases hok
        · cases he

/-- **An end**: its entry, and the post-action receipt if there was one. -/
theorem onToolEnd_does (output : Out) (runId : Option RunId) :
    (self.onToolEnd libs strOf output runId).Keeps (self.Does libs strOf (.toolEnd output runId))
      (fun _ _ => True) (Ended (.toolEnd output runId)) [] := by
  unfold OpenTermsCallbackHandler.onToolEnd
  cases runId with
  | none => trivial
  | some r =>
    dsimp only
    rw [op_bind, keeps_perform]
    refine ⟨⟨rfl, rfl⟩, fun taken _ => ?_⟩
    split
    · rename_i hpost
      cases taken with
      | none => exact ⟨none, List.mem_cons_self⟩
      | some p =>
        dsimp only
        unfold OpenTermsCallbackHandler.emitPending
        have htaken (tr : List (Performed (Ans PendingAns))) :
            (⟨.own (.pop r), some p⟩ : Performed (Ans PendingAns))
              ∈ tr ++ [⟨.own (.pop r), some p⟩] := by simp
        cases hstr : strOf output with
        | error e => exact ⟨some p, htaken []⟩
        | ok text =>
          rw [lift_eq, done_ok_bind]
          cases hbytes : encodeUtf8 text with
          | error e => exact ⟨some p, htaken []⟩
          | ok bytes =>
            rw [lift_eq, liftPy, done_ok_bind]
            have hhash : postStateHash libs text = .ok (hex (libs.crypto.sha256 bytes)) := by
              rw [postStateHash, hbytes]
              rfl
            refine exceptIngestError_rule (Keeps.bind ?_)
            refine emitReceipt_rule rfl p.receiptId.nonempty ⟨p, rfl⟩ ?_ ?_ ?_
            · intro stamp agent signed hagent hsign
              exact ⟨hpost, p, stamp, text, _, rfl, hstr, hhash, agent, stamp.text, hagent, hsign⟩
            · intro tr err hsuffix
              exact ⟨some p, hsuffix.subset List.mem_cons_self⟩
            · intro stamp request reply
              cases readReply libs reply with
              | ok resp => exact ⟨some p, htaken [_, _]⟩
              | error e =>
                cases e with
                | ingest err =>
                  -- strict or not, the entry was taken
                  show Keeps _ _ _ (if _ then _ else _) _
                  split
                  · exact ⟨some p, htaken [_, _]⟩
                  · exact ⟨some p, htaken [_, _]⟩
                | _ => exact ⟨some p, htaken [_, _]⟩
    · exact ⟨taken, List.mem_cons_self⟩

omit [Ucd] in
/-- **An error**: its entry, and nothing else. -/
theorem onToolError_does [Ucd] (runId : Option RunId) :
    (onToolError runId).Keeps (self.Does libs strOf (.toolError runId)) (fun _ _ => True)
      (Ended (.toolError runId : Callback Out)) [] := by
  cases runId with
  | none => trivial
  | some r => exact ⟨⟨rfl, rfl⟩, fun taken _ => ⟨taken, List.mem_cons_self⟩⟩

/-- **What every callback does.** -/
theorem run_does (k : Callback Out) (hk : k.runId ≠ none) :
    (self.run libs strOf k).Keeps (self.Does libs strOf k) (fun _ _ => True) (Ended k) [] := by
  cases k with
  | toolStart serialized inputStr runId inputs =>
    cases runId with
    | none => exact absurd rfl hk
    | some r => exact onToolStart_does serialized inputStr r inputs
  | toolEnd output runId => exact onToolEnd_does output runId
  | toolError runId => exact onToolError_does runId

end LangChain

end OpenTerms
