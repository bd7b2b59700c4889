import OpenTerms.Common.Program
import OpenTerms.Py.Objects
import OpenTerms.Py.Policy.Types
import Mathlib.Data.List.DropRight

/-!
# `client.py`

`IngestClient` as programs over what it has from outside: fresh ids, the
time as text, and the network. `emit_receipt` builds a receipt, signs its
payload and posts it; `emit_post_action_receipt` puts the hash of the
state into the context and leaves the rest to it. The methods take part
in larger programs, so the operations leave room for more (`own`).
-/

namespace OpenTerms

namespace Py

namespace Ingest

open Json

/-- What the client calls and does not define. -/
structure Libs where
  crypto : Crypto
  /-- `json.loads` of a text; `none` where it raises a `ValueError`: a
  `JSONDecodeError`, or that of an integer with too many digits, which no
  caller tells apart. -/
  loads : PyStr → Option PyVal
  /-- `bytes.decode("utf-8", errors="replace")`. -/
  decodeReplace : Bytes → PyStr

/-- `IngestError`. -/
structure IngestError where
  message : PyStr
  status : Option ℤ
  body : Option PyStr
  code : PyVal
  deriving DecidableEq

/-- The exceptions the calls can end in. -/
inductive Exc where
  | ingest (e : IngestError)
  | py (e : PyErr)
  | unicodeDecodeError
  | jsonDecodeError
  /-- An exception of code that is called, by its name. -/
  | other (name : PyStr)
  deriving DecidableEq

/-- An exception of the canonicalizer or the signer, as the client raises
it. -/
def liftPy {α : Type} : Except PyErr α → Except Exc α
  | .ok a => .ok a
  | .error e => .error (.py e)

/-! ## Operations -/

/-- What `str(uuid.uuid4())` and `_utcnow_iso()` return. -/
structure Stamp where
  text : PyStr
  nonempty : text ≠ []
  ascii : ∀ c ∈ text, c.val < 0x80

/-- `urllib.request.Request`, with the dict its body was written from. -/
structure Request where
  url : PyStr
  signed : ObjDict
  headers : List (PyStr × PyStr)
  timeout : ℤ

/-- `json.dumps(signed)`. The text is ASCII, and encoded as such. -/
def Request.body (request : Request) : PyStr := Obj.dumps (.obj request.signed)

/-- How a request ends, its reply read. -/
inductive Reply where
  | response (status : ℤ) (body : Bytes)
  | httpError (code : ℤ) (body : Bytes)
  /-- A `URLError`, by its text. -/
  | urlError (text : PyStr)
  /-- Any other exception, by its name. -/
  | raised (name : PyStr)

/-- What the programs do that is decided outside, and what the program they
are part of does besides. -/
inductive Op (X : Type) where
  /-- `uuid.uuid4()`. -/
  | uuid4
  /-- `_utcnow_iso()`. -/
  | utcnowIso
  /-- `urllib.request.urlopen`. -/
  | urlopen (request : Request)
  | own (x : X)

@[reducible] def Ans {X : Type} (AnsX : X → Type) : Op X → Type
  | .uuid4 | .utcnowIso => Stamp
  | .urlopen _ => Reply
  | .own x => AnsX x

abbrev IngestM {X : Type} (AnsX : X → Type) := Prog (Op X) (Ans AnsX) Exc

section

variable {X : Type} {AnsX : X → Type}

abbrev uuid4 : IngestM AnsX Stamp := Prog.op Op.uuid4

abbrev utcnowIso : IngestM AnsX Stamp := Prog.op Op.utcnowIso

abbrev urlopen (request : Request) : IngestM AnsX Reply := Prog.op (Op.urlopen request)

abbrev own (x : X) : IngestM AnsX (AnsX x) := Prog.op (Op.own x)

/-- `except IngestError`. -/
def exceptIngestError {α : Type} (p : IngestM AnsX α) (handler : IngestError → IngestM AnsX α) :
    IngestM AnsX α :=
  p.tryCatch fun
    | .ingest err => handler err
    | e => throw e

end

/-! ## The reply -/

/-- `bool(v)`. -/
def truthy : PyVal → Bool
  | .null => false
  | .bool b => b
  | .num (.int z) => z ≠ 0
  | .num (.float x) => x ≠ .fin 0
  | .num .negZero => false
  | .str s => s ≠ []
  | .arr xs => !xs.isEmpty
  | .obj ms => !ms.isEmpty

/-- `IngestResponse`. -/
structure IngestResponse where
  canonicalHash : PyVal
  ingestedAt : PyVal
  duplicate : Bool
  receipt : PyVal
  decision : PyVal
  status : ℤ
  deriving DecidableEq

/-- The `code` an error body names. -/
def errorCode (libs : Libs) (errBody : PyStr) : PyVal :=
  match libs.loads errBody with
  | some (.obj ms) => getD (lit "code") ms
  | _ => .null

/-- What `_post` makes of the body of an answer. -/
def readResponse (libs : Libs) (status : ℤ) (responseBody : Bytes) : Except Exc IngestResponse :=
  match Utf8.decode responseBody with
  | none => .error .unicodeDecodeError
  | some text =>
    match libs.loads text with
    | none => .error .jsonDecodeError
    | some parsed => do
      let hash ← liftPy (subscript (lit "hash") parsed)
      let ingestedAt ← liftPy (subscript (lit "ingested_at") parsed)
      match parsed with
      | .obj ms =>
        .ok { canonicalHash := hash,
              ingestedAt := ingestedAt,
              duplicate := truthy ((get? (lit "duplicate") ms).getD (.bool false)),
              receipt := (get? (lit "receipt") ms).getD (.obj []),
              decision := getD (lit "decision") ms,
              status := status }
      | _ => .error (.py .attributeError)

/-- What `_post` makes of a reply. -/
def readReply (libs : Libs) : Reply → Except Exc IngestResponse
  | .response status body => readResponse libs status body
  | .httpError code body =>
    let errBody := libs.decodeReplace body
    .error (.ingest { message := lit "ingest failed with HTTP " ++ decimal code,
                      status := some code,
                      body := some errBody,
                      code := errorCode libs errBody })
  | .urlError text =>
    .error (.ingest { message := lit "ingest transport error: " ++ text,
                      status := none,
                      body := none,
                      code := .null })
  | .raised name => .error (.other name)

/-! ## The client -/

/-- What emits: `IngestClient` without its JWKS, which only `verify` uses. -/
structure IngestClient where
  baseUrl : PyStr
  workspaceId : PyStr
  keyId : PyStr
  privateKey : PrivateKeyInput
  agentId : Option PyStr
  apiKey : Option PyStr
  timeout : ℤ

/-- `IngestClient.__init__`. -/
def IngestClient.init (baseUrl workspaceId keyId : PyStr) (privateKey : PrivateKeyInput)
    (agentId apiKey : Option PyStr) (timeout : ℤ) : Except PyErr IngestClient := do
  raiseWhen (baseUrl = []) (.valueError (lit "base_url is required"))
  .ok ⟨baseUrl.rdropWhile (· = chr '/'), workspaceId, keyId, privateKey, agentId, apiKey, timeout⟩

/-- The string, where there is one and it is not empty: what `or` goes by. -/
def given (s : Option PyStr) : Option PyStr := s.filter (· ≠ [])

/-- The arguments both methods take. -/
structure Emission where
  actionType : PyStr
  termsUrl : PyStr
  termsHash : PyStr
  pricingVersion : PyStr := lit "v1"
  amountCharged : ℤ := 0
  agentId : Option PyStr := none
  timestamp : Option PyStr := none
  createdAt : Option PyStr := none
  idempotencyKey : Option PyStr := none
  extra : Option ObjDict := none

/-- `receipt[k] = v`, of the members of `extra` that are not `None`. -/
def mergeExtra (receipt extra : ObjDict) : ObjDict :=
  extra.foldl (fun receipt m => if Obj.isNotNone m.2 then set m.1 m.2 receipt else receipt) receipt

/-- The receipt `emit_receipt` builds. -/
def IngestClient.receipt (self : IngestClient) (e : Emission) (actionContext : Option ObjDict)
    (agent ts receiptId : PyStr) : ObjDict :=
  let receipt : ObjDict :=
    [(lit "workspace_id", .str self.workspaceId), (lit "agent_id", .str agent),
      (lit "action_type", .str e.actionType), (lit "terms_url", .str e.termsUrl),
      (lit "terms_hash", .str e.termsHash), (lit "timestamp", .str ts),
      (lit "pricing_version", .str e.pricingVersion), (lit "receipt_id", .str receiptId),
      (lit "amount_charged", .num (.num (.int e.amountCharged))),
      (lit "created_at", .str ((given e.createdAt).getD ts))]
  let receipt := match actionContext with
    | some ctx => set (lit "action_context") (.obj ctx) receipt
    | none => receipt
  mergeExtra receipt (e.extra.getD [])

/-- The payload of a receipt, signed with the client's key. -/
def IngestClient.sign [Ucd] (self : IngestClient) (libs : Libs) (receipt : ObjDict) :
    Except PyErr ObjDict := do
  let payload ← Obj.buildPayload receipt
  Obj.signReceipt libs.crypto payload self.privateKey self.keyId

/-- The request `_post` makes. -/
def IngestClient.request (self : IngestClient) (signed : ObjDict) (idempotencyKey : Option PyStr) :
    Request where
  url := self.baseUrl ++ lit "/v1/receipts/ingest"
  signed := signed
  headers :=
    [(lit "Content-Type", lit "application/json"), (lit "Accept", lit "application/json")]
      ++ ((given self.apiKey).map fun key => (lit "Authorization", lit "Bearer " ++ key)).toList
      ++ ((given idempotencyKey).map fun key => (lit "Idempotency-Key", key)).toList
  timeout := self.timeout

section

variable [Ucd] {X : Type} {AnsX : X → Type}

omit [Ucd] in
/-- `IngestClient._post`. -/
def IngestClient.post (self : IngestClient) (libs : Libs) (signed : ObjDict)
    (idempotencyKey : Option PyStr) : IngestM AnsX IngestResponse := do
  let reply ← urlopen (self.request signed idempotencyKey)
  liftM (readReply libs reply)

/-- `s or fresh()`. -/
def orFresh (s : Option PyStr) (fresh : IngestM AnsX Stamp) : IngestM AnsX PyStr :=
  match given s with
  | some s => pure s
  | none => do
    let stamp ← fresh
    pure stamp.text

/-- `IngestClient.emit_receipt`. -/
def IngestClient.emitReceipt (self : IngestClient) (libs : Libs) (e : Emission)
    (actionContext : Option ObjDict) (receiptId : Option PyStr) : IngestM AnsX IngestResponse :=
  match (given e.agentId).or (given self.agentId) with
  | none => throw (.py (.valueError (lit "agent_id must be provided either at init or per-call")))
  | some agent => do
    let ts ← orFresh e.timestamp utcnowIso
    let rid ← orFresh receiptId uuid4
    let signed ← liftM (liftPy (self.sign libs (self.receipt e actionContext agent ts rid)))
    self.post libs signed e.idempotencyKey

/-- The context of a post-action receipt, and what is left of `extra`. -/
def postActionContext (postStateHash : PyStr) (extra : Option ObjDict) :
    ObjDict × Option ObjDict :=
  match extra.bind (get? (lit "action_context")) with
  | some (.obj ctx) =>
    (set (lit "post_state_hash") (.str postStateHash) ctx,
      extra.map (List.filter fun m => m.1 ≠ lit "action_context"))
  | _ => ([(lit "post_state_hash", .str postStateHash)], extra)

/-- `IngestClient.emit_post_action_receipt`. -/
def IngestClient.emitPostActionReceipt (self : IngestClient) (libs : Libs) (e : Emission)
    (receiptId postStateHash : PyStr) : IngestM AnsX IngestResponse :=
  let ctx := postActionContext postStateHash e.extra
  self.emitReceipt libs { e with extra := ctx.2 } (some ctx.1) (some receiptId)

end

end Ingest

end Py

end OpenTerms
