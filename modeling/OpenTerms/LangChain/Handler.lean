import OpenTerms.Py.Ingest.Client

/-!
# `openterms_langchain/handler.py`

The three callbacks of `OpenTermsCallbackHandler` as programs over the
network, fresh ids and the pending receipts, each access to which is one
locked section. `str(output)` is up to the output's type, which is any:
`strOf` stands for it.
-/

namespace OpenTerms

namespace LangChain

open Json Py Py.Ingest

/-- A LangChain `run_id`: a UUID, by its text. -/
abbrev RunId := PyStr

/-- `_PendingReceipt`; the hash is null where there was no response. -/
structure PendingReceipt where
  receiptId : Stamp
  canonicalHash : PyVal

/-- The `terms_url` and the `terms_hash` of a receipt. -/
structure Terms where
  termsUrl : PyStr
  termsHash : PyStr

/-- `OpenTermsCallbackHandler`, without the receipts that are pending. -/
structure OpenTermsCallbackHandler where
  client : IngestClient
  agentId : PyStr
  termsUrl : PyStr
  termsHash : PyStr
  emitPostAction : Bool
  strict : Bool
  perToolTerms : List (PyStr × Terms)

/-- `set_tool_terms`. -/
def OpenTermsCallbackHandler.setToolTerms (self : OpenTermsCallbackHandler) (toolName : PyStr)
    (terms : Terms) : OpenTermsCallbackHandler :=
  { self with perToolTerms := Json.set toolName terms self.perToolTerms }

/-- `_terms_for`. -/
def OpenTermsCallbackHandler.termsFor (self : OpenTermsCallbackHandler) (toolName : PyStr) : Terms :=
  (get? toolName self.perToolTerms).getD ⟨self.termsUrl, self.termsHash⟩

/-- `_extract_tool_name`. -/
def extractToolName [Ucd] : PyVal → PyStr
  | .obj serialized =>
    let fromId :=
      match getD (lit "id") serialized with
      | .arr ident =>
        match ident.getLast? with
        | some last => str last
        | none => lit "unknown_tool"
      | _ => lit "unknown_tool"
    match getD (lit "name") serialized with
    | .str name => if name ≠ [] then name else fromId
    | _ => fromId
  | _ => lit "unknown_tool"

/-! ## Operations -/

/-- The locked sections. -/
inductive PendingOp where
  /-- `self._pending[rid] = …`. -/
  | set (rid : RunId) (receipt : PendingReceipt)
  /-- `self._pending.pop(rid, None)`. -/
  | pop (rid : RunId)

@[reducible] def PendingAns : PendingOp → Type
  | .set .. => Unit
  | .pop _ => Option PendingReceipt

abbrev HandlerM := IngestM PendingAns

abbrev setPending (rid : RunId) (receipt : PendingReceipt) : HandlerM Unit :=
  own (PendingOp.set rid receipt)

abbrev popPending (rid : RunId) : HandlerM (Option PendingReceipt) := own (PendingOp.pop rid)

/-! ## Callbacks -/

/-- What both emissions of a callback have in common. -/
def OpenTermsCallbackHandler.emission (self : OpenTermsCallbackHandler) (terms : Terms) :
    Emission where
  actionType := lit "tool_call"
  termsUrl := terms.termsUrl
  termsHash := terms.termsHash
  agentId := some self.agentId

/-- The `action_context` of a tool call. -/
def toolContext (toolName inputStr : PyStr) (inputs : Option ObjDict) : ObjDict :=
  [(lit "tool_id", .str toolName),
    (lit "args", .obj (inputs.getD [(lit "input", .str inputStr)]))]

/-- `run_id or uuid.uuid4()`: a UUID is true. -/
def runIdOr : Option RunId → HandlerM RunId
  | some rid => pure rid
  | none => do
    let stamp ← uuid4
    pure stamp.text

variable [Ucd]

/-- `on_tool_start`. -/
def OpenTermsCallbackHandler.onToolStart (self : OpenTermsCallbackHandler) (libs : Libs)
    (serialized : PyVal) (inputStr : PyStr) (runId : Option RunId) (inputs : Option ObjDict) :
    HandlerM Unit := do
  let toolName := extractToolName serialized
  let rid ← runIdOr runId
  let actionContext := toolContext toolName inputStr inputs
  let terms := self.termsFor toolName
  let receiptId ← uuid4
  exceptIngestError
    (do
      let resp ← self.client.emitReceipt libs (self.emission terms) (some actionContext)
        (some receiptId.text)
      setPending rid ⟨receiptId, resp.canonicalHash⟩)
    fun err => do
      setPending rid ⟨receiptId, .null⟩
      if self.strict then throw (.ingest err) else pure ()

/-- What `on_tool_end` does with the receipt it took off the pending ones. -/
def OpenTermsCallbackHandler.emitPending {Out : Type} (self : OpenTermsCallbackHandler)
    (libs : Libs) (strOf : Out → Except Exc PyStr) (output : Out) (pending : PendingReceipt) :
    HandlerM Unit := do
  let text ← liftM (strOf output)
  let bytes ← liftM (liftPy (encodeUtf8 text))
  exceptIngestError
    (do
      let _ ← self.client.emitPostActionReceipt libs (self.emission ⟨self.termsUrl, self.termsHash⟩)
        pending.receiptId.text (hex (libs.crypto.sha256 bytes))
      pure ())
    fun err => if self.strict then throw (.ingest err) else pure ()

/-- `on_tool_end`. -/
def OpenTermsCallbackHandler.onToolEnd {Out : Type} (self : OpenTermsCallbackHandler) (libs : Libs)
    (strOf : Out → Except Exc PyStr) (output : Out) (runId : Option RunId) : HandlerM Unit :=
  match runId with
  | none => pure ()
  | some rid => do
    let pending ← popPending rid
    if self.emitPostAction then
      match pending with
      | none => pure ()
      | some pending => self.emitPending libs strOf output pending
    else pure ()

omit [Ucd] in
/-- `on_tool_error`. -/
def onToolError (runId : Option RunId) : HandlerM Unit :=
  match runId with
  | none => pure ()
  | some rid => do
    let _ ← popPending rid
    pure ()

/-! ## Calls -/

/-- A callback LangChain makes. -/
inductive Callback (Out : Type) where
  | toolStart (serialized : PyVal) (inputStr : PyStr) (runId : Option RunId)
      (inputs : Option ObjDict)
  | toolEnd (output : Out) (runId : Option RunId)
  | toolError (runId : Option RunId)

/-- The program of a callback. -/
def OpenTermsCallbackHandler.run {Out : Type} (self : OpenTermsCallbackHandler) (libs : Libs)
    (strOf : Out → Except Exc PyStr) : Callback Out → HandlerM Unit
  | .toolStart serialized inputStr runId inputs =>
    self.onToolStart libs serialized inputStr runId inputs
  | .toolEnd output runId => self.onToolEnd libs strOf output runId
  | .toolError runId => onToolError runId

end LangChain

end OpenTerms
