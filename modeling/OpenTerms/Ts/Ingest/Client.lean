import OpenTerms.Common.Program
import OpenTerms.Ts.Object
import OpenTerms.Ts.Sign
import Mathlib.Data.List.DropRight

/-!
# `client.ts`

`IngestClient` as programs over what it has from outside: fresh ids, the
time as text, and `fetch` raced against a timer. As in Python,
`emitPostActionReceipt` puts the hash of the state into the context and
leaves the rest to `emitReceipt`; here the context is filled by
`Object.assign`, and what is left of `extra` is taken by a rest pattern.
-/

namespace OpenTerms

namespace Ts

namespace Ingest

open Json

/-- `IngestError`. -/
structure IngestError where
  message : JsStr
  status : Option ℤ
  body : Option JsStr
  code : JsAny
  deriving DecidableEq

/-- What a call can reject with. -/
inductive Exc where
  | ingest (e : IngestError)
  | ts (e : TsErr)
  | syntaxError
  /-- What `fetch` rejects with, by its name. -/
  | other (name : JsStr)
  deriving DecidableEq

def liftTs {α : Type} : Except TsErr α → Except Exc α
  | .ok a => .ok a
  | .error e => .error (.ts e)

/-! ## Operations -/

/-- The request `_post` makes, with the object its body was written
from. -/
structure Request where
  url : JsStr
  signed : JsObject
  headers : List (JsStr × JsStr)

/-- How the race between the request and the timer ends. -/
inductive Reply where
  | response (status : ℤ) (text : JsStr)
  | rejected (name : JsStr)
  | timeout

/-- What the methods do that is decided outside. -/
inductive Op where
  | randomUuid
  | utcNowIso
  | fetch (request : Request)

@[reducible] def Ans : Op → Type
  | .randomUuid | .utcNowIso => JsStr
  | .fetch _ => Reply

abbrev IngestM := Prog Op Ans Exc

abbrev randomUuid : IngestM JsStr := Prog.op Op.randomUuid

abbrev utcNowIso : IngestM JsStr := Prog.op Op.utcNowIso

abbrev fetch (request : Request) : IngestM Reply := Prog.op (Op.fetch request)

/-! ## The reply -/

/-- `IngestResponse`. -/
structure IngestResponse where
  canonicalHash : JsAny
  ingestedAt : JsAny
  duplicate : JsAny
  receipt : JsAny
  decision : JsAny
  status : ℤ

/-- The `code` an error body names. -/
def errorCode (text : JsStr) : JsAny :=
  match jsonParse text with
  | none => .json .null
  | some parsed =>
    match readProp parsed (lit "code") with
    | .ok code => orElse code .null
    | .error _ => .json .null

/-- What `_post` makes of a reply. -/
def readReply (timeoutMs : ℤ) : Reply → Except Exc IngestResponse
  | .timeout =>
    .error (.ingest ⟨lit "request exceeded " ++ (decimal timeoutMs ++ lit "ms"), none, none,
      .json .null⟩)
  | .rejected name => .error (.other name)
  | .response status text =>
    if status < 200 ∨ 299 < status then
      .error (.ingest ⟨lit "ingest failed with HTTP " ++ decimal status, some status, some text,
        errorCode text⟩)
    else
      match jsonParse text with
      | none => .error .syntaxError
      | some parsed => do
        let hash ← liftTs (readProp parsed (lit "hash"))
        let ingestedAt ← liftTs (readProp parsed (lit "ingested_at"))
        let duplicate ← liftTs (readProp parsed (lit "duplicate"))
        let receipt ← liftTs (readProp parsed (lit "receipt"))
        let decision ← liftTs (readProp parsed (lit "decision"))
        .ok { canonicalHash := hash,
              ingestedAt := ingestedAt,
              duplicate := orElse duplicate (.bool false),
              receipt := orElse receipt (.obj []),
              decision := orElse decision .null,
              status := status }

/-! ## The client -/

/-- What emits: `IngestClient` without its JWKS, which only `verify` uses. -/
structure IngestClient where
  baseUrl : JsStr
  workspaceId : JsStr
  keyId : JsStr
  privateKey : Bytes
  agentId : Option JsStr
  apiKey : Option JsStr
  timeoutMs : ℤ

/-- `new IngestClient(…)`. -/
def IngestClient.init (baseUrl workspaceId keyId : JsStr) (privateKey : Bytes)
    (agentId apiKey : Option JsStr) (timeoutMs : Option ℤ) : Except TsErr IngestClient := do
  raiseWhen (baseUrl = []) (.error (lit "baseUrl is required"))
  .ok ⟨baseUrl.rdropWhile (· = chr '/'), workspaceId, keyId, privateKey, agentId, apiKey,
    timeoutMs.getD 10000⟩

/-- The options both methods take. -/
structure EmitOptions where
  actionType : JsStr
  termsUrl : JsStr
  termsHash : JsStr
  pricingVersion : Option JsStr := none
  amountCharged : Option Double := none
  agentId : Option JsStr := none
  timestamp : Option JsStr := none
  createdAt : Option JsStr := none
  idempotencyKey : Option JsStr := none
  extra : Option JsObject := none

/-- `receipt[k] = v`, of the entries of `extra` that are not `null`. An own
`__proto__` of `extra` becomes the receipt's prototype; here it is dropped,
and what `buildPayload` would find inherited is not modelled. -/
def mergeExtra (receipt extra : JsObject) : JsObject :=
  extra.foldl (fun receipt m => if isNotNull m.2 then assign m.1 m.2 receipt else receipt) receipt

/-- The receipt `emitReceipt` builds. -/
def IngestClient.receipt (self : IngestClient) (opts : EmitOptions) (actionContext : Option JsObject)
    (agent ts receiptId : JsStr) : JsObject :=
  let receipt : JsObject :=
    [(lit "workspace_id", .str self.workspaceId), (lit "agent_id", .str agent),
      (lit "action_type", .str opts.actionType), (lit "terms_url", .str opts.termsUrl),
      (lit "terms_hash", .str opts.termsHash), (lit "timestamp", .str ts),
      (lit "pricing_version", .str (opts.pricingVersion.getD (lit "v1"))),
      (lit "receipt_id", .str receiptId),
      (lit "amount_charged", .num (opts.amountCharged.getD (.ofInt 0))),
      (lit "created_at", .str (opts.createdAt.getD ts))]
  let receipt := match actionContext with
    | some ctx => set (lit "action_context") (.obj ctx) receipt
    | none => receipt
  mergeExtra receipt (opts.extra.getD [])

/-- The payload of a receipt, signed with the client's key. -/
def IngestClient.sign (self : IngestClient) (crypto : Crypto) (receipt : JsObject) :
    Except TsErr JsObject := do
  let payload ← buildPayload receipt
  signReceipt crypto payload self.privateKey self.keyId

/-- The string, where it is there and not empty. -/
def given (s : Option JsStr) : Option JsStr := s.filter (· ≠ [])

/-- The request `_post` makes. -/
def IngestClient.request (self : IngestClient) (signed : JsObject) (idempotencyKey : Option JsStr) :
    Request where
  url := self.baseUrl ++ lit "/v1/receipts/ingest"
  signed := signed
  headers :=
    [(lit "Content-Type", lit "application/json"), (lit "Accept", lit "application/json")]
      ++ ((given self.apiKey).map fun key => (lit "Authorization", lit "Bearer " ++ key)).toList
      ++ ((given idempotencyKey).map fun key => (lit "Idempotency-Key", key)).toList

/-- `IngestClient._post`. -/
def IngestClient.post (self : IngestClient) (signed : JsObject) (idempotencyKey : Option JsStr) :
    IngestM IngestResponse := do
  let reply ← fetch (self.request signed idempotencyKey)
  liftM (readReply self.timeoutMs reply)

/-- `s ?? fresh()`. -/
def orFresh (s : Option JsStr) (fresh : IngestM JsStr) : IngestM JsStr :=
  match s with
  | some s => pure s
  | none => fresh

/-- `IngestClient.emitReceipt`. -/
def IngestClient.emitReceipt (self : IngestClient) (crypto : Crypto) (opts : EmitOptions)
    (actionContext : Option JsObject) (receiptId : Option JsStr) : IngestM IngestResponse :=
  match given (opts.agentId.or self.agentId) with
  | none => throw (.ts (.error (lit "agentId must be provided either at init or per-call")))
  | some agent => do
    let ts ← orFresh opts.timestamp utcNowIso
    let rid ← orFresh receiptId randomUuid
    let signed ← liftM (liftTs (self.sign crypto (self.receipt opts actionContext agent ts rid)))
    self.post signed opts.idempotencyKey

/-- The own enumerable properties of an object or an array. -/
def ownEntries : JsVal → JsObject
  | .obj ms => ms
  | .arr xs => xs.mapIdx fun i x => (decimal i, x)
  | _ => []

/-- `Object.assign(target, …)`, of the entries of one source. -/
def assignAll (target source : JsObject) : JsObject :=
  source.foldl (fun out m => assign m.1 m.2 out) target

/-- The context of a post-action receipt, and what is left of `extra`. An
array is an object too. -/
def postActionContext (postStateHash : JsStr) (extra : Option JsObject) :
    JsObject × Option JsObject :=
  let ctx : JsObject := [(lit "post_state_hash", .str postStateHash)]
  let assigned (given : JsVal) : JsObject × Option JsObject :=
    (assign (lit "post_state_hash") (.str postStateHash) (assignAll ctx (ownEntries given)),
      extra.map (List.filter fun m => m.1 ≠ lit "action_context"))
  match extra.bind (get? (lit "action_context")) with
  | some (.obj ms) => assigned (.obj ms)
  | some (.arr xs) => assigned (.arr xs)
  | _ => (ctx, extra)

/-- `IngestClient.emitPostActionReceipt`. -/
def IngestClient.emitPostActionReceipt (self : IngestClient) (crypto : Crypto) (opts : EmitOptions)
    (receiptId postStateHash : JsStr) : IngestM IngestResponse :=
  let ctx := postActionContext postStateHash opts.extra
  self.emitReceipt crypto { opts with extra := ctx.2 } (some ctx.1) (some receiptId)

end Ingest

end Ts

end OpenTerms
