import OpenTerms.Common.Calendar
import OpenTerms.Py.Policy.Draws
import OpenTerms.Py.Signing

/-!
# `scripts/generate_corpus.py`: the receipts

The script spreads the buckets of its scenario over a time window, in order
of time, and for each draws a key, an id and a payload, and signs it. A
payload of the `allow` bucket may be a link of a chain, what is known of the
chain being carried from one receipt to the next.
-/

namespace OpenTerms

namespace Py

namespace Corpus

open Json

/-! ## The scenario -/

/-- What a receipt of the corpus is there for: `BUCKET_ORDER`. -/
inductive Bucket where
  | modelTraining
  | maxAmount
  | urlOffList
  | urlBlocked
  | argsDebug
  | dailyLimit
  | escalationOnly
  | toolOffList
  | postStateMismatch
  | stress
  | allow
  deriving DecidableEq

/-- `BUCKET_ORDER`. -/
def bucketOrder : List Bucket :=
  [.modelTraining, .maxAmount, .urlOffList, .urlBlocked, .argsDebug, .dailyLimit, .escalationOnly,
    .toolOffList, .postStateMismatch, .stress, .allow]

/-- A UTC `datetime`: microseconds from the first of January of year 1 on,
to the end of year 9999. -/
structure DateTime where
  micros : ℕ
  inRange : micros < Calendar.millis * 1000

/-- `when + dt.timedelta(milliseconds=ms)`. -/
def DateTime.addMs (t : DateTime) (ms : ℤ) : Except CorpusErr DateTime :=
  if h : 0 ≤ t.micros + ms * 1000 ∧ t.micros + ms * 1000 < Calendar.millis * 1000 then
    .ok ⟨(t.micros + ms * 1000).toNat, by omega⟩
  else .error .overflowError

/-- `scenario["amounts"]`. -/
structure Amounts where
  maxAmountMin : ℤ
  maxAmountMax : ℤ
  stressMin : ℤ
  stressMax : ℤ
  dailyLimitPerReceipt : ℤ
  escalationOnlyMin : ℤ
  escalationOnlyMax : ℤ
  allowMax : ℤ

/-- An entry of `scenario["keys"]`. -/
structure KeyEntry where
  kid : PyStr
  share : Double

/-- `scenario.json`, the ends of its time window parsed. -/
structure Scenario where
  seed : ℤ
  workspaceId : PyStr
  count : ℤ
  start : DateTime
  finish : DateTime
  keys : List KeyEntry
  issuer : PyStr
  agents : List PyStr
  toolsAllowed : List PyStr
  toolsOffList : List PyStr
  toolDebug : PyStr
  termsUrlsAllowed : List PyStr
  termsUrlOffList : PyStr
  termsUrlBlocked : PyStr
  buckets : Bucket → ℤ
  amounts : Amounts

/-! ## Keys -/

/-- `n.to_bytes(size, "big")`. -/
def toBytesBig : ℕ → ℕ → Bytes
  | 0, _ => []
  | size + 1, n => Fin.ofNat 0x100 (n / 0x100 ^ size) :: toBytesBig size n

/-- `derive_key_seed`. -/
def deriveKeySeed (crypto : Crypto) (masterSeed : ℤ) (kid : PyStr) : Except CorpusErr Bytes := do
  raiseWhen (masterSeed < 0 ∨ 2 ^ 64 ≤ masterSeed) .overflowError
  let kidBytes ← ofPy (encodeUtf8 kid)
  .ok (crypto.sha256 (lit "openterms-corpus-key-derivation-v1" ++ 0 ::
    toBytesBig 8 masterSeed.toNat ++ 0 :: kidBytes))

/-- The loop of `make_keys`, `keys` the dict so far. -/
def makeKeysFrom (crypto : Crypto) (master : ℤ) :
    List KeyEntry → List (PyStr × (Bytes × KeyEntry)) →
      Except CorpusErr (List (PyStr × (Bytes × KeyEntry)))
  | [], keys => .ok keys
  | entry :: entries, keys => do
    let seedBytes ← deriveKeySeed crypto master entry.kid
    makeKeysFrom crypto master entries (set entry.kid (seedBytes, entry) keys)

/-- `make_keys`: a key under each id, the last one of its id. -/
def makeKeys (crypto : Crypto) (scenario : Scenario) :
    Except CorpusErr (List (PyStr × (Bytes × KeyEntry))) :=
  makeKeysFrom crypto scenario.seed scenario.keys []

/-! ## Times -/

/-- `to_iso_z`. -/
def toIsoZ (t : DateTime) : PyStr := Calendar.isoText (t.micros / 1000)

/-- `build_bucket_assignments`. -/
def buildBucketAssignments (scenario : Scenario) : Except CorpusErr (List Bucket) :=
  let out := bucketOrder.flatMap fun bucket =>
    List.replicate (scenario.buckets bucket).toNat bucket
  if out.length ≠ scenario.count then
    .error (.py (.valueError (lit "bucket counts sum to " ++ decimal out.length
      ++ lit " but scenario.count is " ++ decimal scenario.count)))
  else .ok out

/-- `int(x)` of a finite float. -/
def truncated (x : ℚ) : ℤ := if 0 ≤ x then ⌊x⌋ else ⌈x⌉

/-- `int(delta.total_seconds() * 1000)`, of so many microseconds. Both the
division by a million and the product are rounded. -/
def totalMs (micros : ℤ) : ℤ :=
  match (Double.ofRat (micros / 1000000)).rat? with
  | some seconds => truncated (((Double.ofRat (seconds * 1000)).rat?).getD 0)
  | none => 0

/-- How far into the window a receipt lies: the `i`th of `n`, in the
bucket, `dailyCount` ones of `daily_limit` being before it. -/
def offsetMs (total : ℤ) (n i dailyCount : ℕ) : Bucket → ℤ
  | .dailyLimit =>
    let dayIdx := if dailyCount % 2 = 0 then 5 else 18
    let hour := dailyCount / 2 * 2
    ((dayIdx * 86400000 + hour * 3600000 : ℕ) : ℤ)
  | _ => (i * total) / max ((n : ℤ) - 1) 1

/-- The loop of `assign_timestamps`. -/
def timestampsFrom (start : DateTime) (total : ℤ) (n : ℕ) :
    List Bucket → ℕ → ℕ → Except CorpusErr (List (DateTime × Bucket))
  | [], _, _ => .ok []
  | bucket :: buckets, i, dailyCount => do
    let t ← start.addMs (offsetMs total n i dailyCount bucket)
    let rest ← timestampsFrom start total n buckets (i + 1)
      (if bucket = .dailyLimit then dailyCount + 1 else dailyCount)
    .ok ((t, bucket) :: rest)

/-- `assign_timestamps`: the buckets with their times, sorted by time. -/
def assignTimestamps (scenario : Scenario) (buckets : List Bucket) :
    Except CorpusErr (List (DateTime × Bucket)) := do
  let total := totalMs (scenario.finish.micros - scenario.start.micros)
  let paired ← timestampsFrom scenario.start total buckets.length buckets 0 0
  .ok (paired.insertionSort fun p q => p.1.micros ≤ q.1.micros)

/-! ## A payload -/

/-- What a bucket decides of a payload. -/
structure Draft where
  actionType : PyStr
  amount : ℤ
  termsUrl : PyStr
  toolId : Option PyStr
  includeCommitments : Bool := true
  includeChain : Bool := false
  postStateHash : Option PyStr := none

def anyAction : List PyStr := ["api_call", "data_access", "purchase", "custom"].map lit

def unpaidAction : List PyStr := ["api_call", "data_access", "custom"].map lit

/-- The branches of `build_receipt_payload`. -/
def draft (scenario : Scenario) : Bucket → Script Draft
  | .modelTraining => do
    let amount ← randrange 100 500000
    let termsUrl ← pick scenario.termsUrlsAllowed
    let toolId ← pick scenario.toolsAllowed
    pure { actionType := lit "model_training", amount, termsUrl, toolId := some toolId }
  | .maxAmount => do
    let actionType ← pick anyAction
    let amount ← randrange scenario.amounts.maxAmountMin (scenario.amounts.maxAmountMax + 1)
    let termsUrl ← pick scenario.termsUrlsAllowed
    let toolId ← pick scenario.toolsAllowed
    pure { actionType, amount, termsUrl, toolId := some toolId }
  | .urlOffList => do
    let actionType ← pick anyAction
    let amount ← randrange 0 (scenario.amounts.allowMax + 1)
    let toolId ← pick scenario.toolsAllowed
    pure { actionType, amount, termsUrl := scenario.termsUrlOffList, toolId := some toolId }
  | .urlBlocked => do
    let actionType ← pick anyAction
    let amount ← randrange 0 (scenario.amounts.allowMax + 1)
    let toolId ← pick scenario.toolsAllowed
    pure { actionType, amount, termsUrl := scenario.termsUrlBlocked, toolId := some toolId }
  | .argsDebug => do
    let actionType ← pick unpaidAction
    let amount ← randrange 0 (scenario.amounts.allowMax + 1)
    let termsUrl ← pick scenario.termsUrlsAllowed
    pure { actionType, amount, termsUrl, toolId := some scenario.toolDebug }
  | .dailyLimit => do
    let actionType ← pick (["api_call", "purchase"].map lit)
    let termsUrl ← pick scenario.termsUrlsAllowed
    let toolId ← pick scenario.toolsAllowed
    pure { actionType, amount := scenario.amounts.dailyLimitPerReceipt, termsUrl,
           toolId := some toolId }
  | .escalationOnly => do
    let actionType ← pick anyAction
    let amount ← randrange scenario.amounts.escalationOnlyMin
      (scenario.amounts.escalationOnlyMax + 1)
    let termsUrl ← pick scenario.termsUrlsAllowed
    let toolId ← pick scenario.toolsAllowed
    pure { actionType, amount, termsUrl, toolId := some toolId }
  | .toolOffList => do
    let actionType ← pick unpaidAction
    let amount ← randrange 0 (scenario.amounts.allowMax + 1)
    let termsUrl ← pick scenario.termsUrlsAllowed
    let toolId ← pick scenario.toolsOffList
    pure { actionType, amount, termsUrl, toolId := some toolId }
  | .postStateMismatch => do
    let actionType ← pick unpaidAction
    let amount ← randrange 0 (scenario.amounts.allowMax + 1)
    let termsUrl ← pick scenario.termsUrlsAllowed
    let toolId ← pick scenario.toolsAllowed
    let postStateHash ← deterministicHex 32
    pure { actionType, amount, termsUrl, toolId := some toolId,
           postStateHash := some postStateHash }
  | .stress => do
    let amount ← randrange scenario.amounts.stressMin (scenario.amounts.stressMax + 1)
    let toolId ← pick scenario.toolsAllowed
    pure { actionType := lit "model_training", amount, termsUrl := scenario.termsUrlOffList,
           toolId := some toolId }
  | .allow => do
    let actionType ← pick anyAction
    let amount ← randrange 0 (scenario.amounts.allowMax + 1)
    let termsUrl ← pick scenario.termsUrlsAllowed
    let omitted ← chance 5
    let toolId ← (if omitted then pure none else do
      let toolId ← pick scenario.toolsAllowed
      pure (some toolId))
    let includeChain ← chance 18
    pure { actionType, amount, termsUrl, toolId, includeCommitments := !omitted, includeChain }

/-- A commitment to the tool, if there is one. -/
def toolCommitment : Option PyStr → PyDict
  | some toolId => [(lit "tool_id", .str toolId)]
  | none => []

/-- The commitments of a payload. -/
def commitments (d : Draft) : Script PyDict :=
  if d.includeCommitments then do
    let out := toolCommitment d.toolId
    let withArgs ← chance 50
    let out ← (if withArgs then do
      let argsHash ← deterministicHex 32
      pure (set (lit "args_hash") (.str argsHash) out)
    else pure out)
    match d.postStateHash with
    | some postStateHash => pure (set (lit "post_state_hash") (.str postStateHash) out)
    | none => do
      let withStates ← chance 15
      if withStates then do
        let preStateHash ← deterministicHex 32
        let out := set (lit "pre_state_hash") (.str preStateHash) out
        pure (set (lit "post_state_hash") (.str (List.replicate 64 (chr '0'))) out)
      else pure out
  else pure []

/-! ## Chains -/

/-- `chain_state`, while it is active. -/
structure Chain where
  parentReceiptId : PyStr
  chainId : PyStr
  depth : ℕ
  originatingAgent : PyStr
  deriving DecidableEq

/-- A link of a chain after the first. -/
def linkDict (chain : Chain) : PyDict :=
  [(lit "parent_receipt_id", .str chain.parentReceiptId), (lit "chain_id", .str chain.chainId),
    (lit "chain_depth", .num (.int chain.depth)),
    (lit "originating_agent", .str chain.originatingAgent)]

/-- The first link of a chain. -/
def rootDict (chainId agentId : PyStr) : PyDict :=
  [(lit "chain_id", .str chainId), (lit "chain_depth", .num (.int 0)),
    (lit "originating_agent", .str agentId)]

/-- A payload's place in a chain: in the one that is active, up to a depth,
or else in one of its own. -/
def chainStep (receiptId agentId : PyStr) (chain : Option Chain) : Script (PyDict × Chain) :=
  match chain.filter (·.depth < 3) with
  | some c =>
    pure (linkDict c, { c with parentReceiptId := receiptId, depth := c.depth + 1 })
  | none => do
    let suffix ← deterministicHex 4
    let chainId := lit "chain-" ++ suffix
    pure (rootDict chainId agentId,
      { parentReceiptId := receiptId, chainId, depth := 1, originatingAgent := agentId })

/-- The members under `action_context.ors`, and the chain from there on. -/
def orsMembers (d : Draft) (receiptId agentId : PyStr) (chain : Option Chain) :
    Script (PyDict × Option Chain) := do
  let out ← commitments d
  let ors : PyDict := if out ≠ [] then [(lit "commitments", .obj out)] else []
  if d.includeChain then do
    let (link, next) ← chainStep receiptId agentId chain
    pure (set (lit "chain") (.obj link) ors, some next)
  else pure (ors, none)

/-- The members every payload has. -/
def basePayload (scenario : Scenario) (d : Draft) (agentId termsHash receiptId : PyStr)
    (t createdAt : DateTime) : PyDict :=
  [(lit "workspace_id", .str scenario.workspaceId), (lit "agent_id", .str agentId),
    (lit "action_type", .str d.actionType), (lit "terms_url", .str d.termsUrl),
    (lit "terms_hash", .str termsHash), (lit "timestamp", .str (toIsoZ t)),
    (lit "pricing_version", .str (lit "2026-q2")), (lit "receipt_id", .str receiptId),
    (lit "amount_charged", .num (.int d.amount)), (lit "created_at", .str (toIsoZ createdAt)),
    (lit "issuer", .str scenario.issuer)]

/-- A payload with its action context, unless that is empty. -/
def withContext (ors payload : PyDict) : PyDict :=
  if ors ≠ [] then set (lit "action_context") (.obj [(lit "ors", .obj ors)]) payload else payload

/-- `build_receipt_payload`, and the chain from there on. -/
def buildReceiptPayload (scenario : Scenario) (bucket : Bucket) (t : DateTime)
    (receiptId : PyStr) (chain : Option Chain) : Script (PyDict × Option Chain) := do
  let agentId ← pick scenario.agents
  let includeProvider ← chance 20
  let includeRequestBinding ← chance 10
  let includeV02Fields ← chance 5
  let d ← draft scenario bucket
  let termsHash ← deterministicHex 32
  let createdAt ← liftM (t.addMs 1)
  let payload := basePayload scenario d agentId termsHash receiptId t createdAt
  let (ors, next) ← orsMembers d receiptId agentId chain
  let payload := withContext ors payload
  let payload := if includeProvider then
    set (lit "provider") (.obj [(lit "origin", .str (lit "https://api.openai.com")),
      (lit "provider_id", .str (lit "openai"))]) payload else payload
  let payload ← (if includeRequestBinding then do
    let nonce ← deterministicHex 16
    pure (set (lit "request_binding") (.obj [(lit "provider_nonce", .str nonce),
      (lit "binding_method", .str (lit "provider_nonce"))]) payload)
  else pure payload)
  let payload := if includeV02Fields then
    set (lit "ors_version") (.str (lit "0.2")) payload else payload
  pure (payload, next)

/-! ## The corpus -/

variable [Ucd]

/-- The loop of `main`. -/
def receiptsFrom (crypto : Crypto) (scenario : Scenario)
    (keys : List (PyStr × (Bytes × KeyEntry))) :
    List (DateTime × Bucket) → Option Chain → Script (List PyDict)
  | [], _ => pure []
  | (t, bucket) :: pairs, chain => do
    let kid ← choices (names keys) (keys.map fun key => key.2.2.share)
    let receiptId ← deterministicUuidV4
    let (payload, next) ← buildReceiptPayload scenario bucket t receiptId chain
    match get? kid keys with
    | none => throw (.py .keyError)
    | some (sk, _) => do
      let signed ← liftM (ofPy (signReceipt crypto payload (.privateKey sk) kid))
      let rest ← receiptsFrom crypto scenario keys pairs next
      pure (signed :: rest)

/-- `main`, up to the decisions: the receipts and the JWKS. -/
def generate (crypto : Crypto) (scenario : Scenario) : Script (List PyDict × PyDict) := do
  let keys ← liftM (makeKeys crypto scenario)
  let jwks := buildJwks (keys.map fun key => (crypto.publicKey key.2.1, key.1))
  let buckets ← liftM (buildBucketAssignments scenario)
  let pairs ← liftM (assignTimestamps scenario buckets)
  let receipts ← receiptsFrom crypto scenario keys pairs none
  pure (receipts, jwks)

end Corpus

end Py

end OpenTerms
