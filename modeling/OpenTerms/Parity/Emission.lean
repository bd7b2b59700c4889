import OpenTerms.Parity.Interchange
import OpenTerms.Parity.PostAction

/-!
# One emission, two clients

The same call is made of both clients, its strings and data those of a
document. They build one receipt (`receiptDoc`), from the same strings and
the same fresh ones, unless an empty string is given: Python's `or` takes
it for none, `??` does not. Where Python's client posts, TypeScript's posts
to the same address under the same headers, and whichever body arrives is
read as the same signed receipt, which passes both verifiers.
-/

namespace OpenTerms

namespace Parity

open Json Utf16 Prog

/-! ## The call -/

/-- A client, its strings those of a document. -/
structure Sender where
  baseUrl : JsStr
  workspaceId : JsStr
  keyId : JsStr
  agentId : Option JsStr
  apiKey : Option JsStr

def Sender.py (s : Sender) (privateKey : Py.PrivateKeyInput) (timeout : ℤ) :
    Py.Ingest.IngestClient where
  baseUrl := decode s.baseUrl
  workspaceId := decode s.workspaceId
  keyId := decode s.keyId
  privateKey := privateKey
  agentId := s.agentId.map decode
  apiKey := s.apiKey.map decode
  timeout := timeout

def Sender.ts (s : Sender) (seed : Bytes) (timeoutMs : ℤ) : Ts.Ingest.IngestClient where
  baseUrl := s.baseUrl
  workspaceId := s.workspaceId
  keyId := s.keyId
  privateKey := seed
  agentId := s.agentId
  apiKey := s.apiKey
  timeoutMs := timeoutMs

/-- The arguments of one call of `emit_receipt`. -/
structure Call where
  actionType : JsStr
  termsUrl : JsStr
  termsHash : JsStr
  pricingVersion : JsStr
  amountCharged : ℤ
  agentId : Option JsStr
  receiptId : Option JsStr
  timestamp : Option JsStr
  createdAt : Option JsStr
  idempotencyKey : Option JsStr
  actionContext : Option (List (JsStr × Doc))
  extra : Option (List (JsStr × Doc))

/-- Members without tuples, as Python's client takes them. -/
def objMembers (ms : List (JsStr × Doc)) : Py.ObjDict := Py.valMembers (Py.ofMembers ms)

def Call.py (c : Call) : Py.Ingest.Emission where
  actionType := decode c.actionType
  termsUrl := decode c.termsUrl
  termsHash := decode c.termsHash
  pricingVersion := decode c.pricingVersion
  amountCharged := c.amountCharged
  agentId := c.agentId.map decode
  timestamp := c.timestamp.map decode
  createdAt := c.createdAt.map decode
  idempotencyKey := c.idempotencyKey.map decode
  extra := c.extra.map objMembers

def Call.ts (c : Call) : Ts.Ingest.EmitOptions where
  actionType := c.actionType
  termsUrl := c.termsUrl
  termsHash := c.termsHash
  pricingVersion := some c.pricingVersion
  amountCharged := some (.ofInt c.amountCharged)
  agentId := c.agentId
  timestamp := c.timestamp
  createdAt := c.createdAt
  idempotencyKey := c.idempotencyKey
  extra := c.extra.map Ts.ofMembers

/-- A call no string of which stands for an absent one, and whose data has
no name twice and no member JavaScript has of its own. -/
structure Call.Plain (c : Call) : Prop where
  agentId : c.agentId ≠ some []
  receiptId : c.receiptId ≠ some []
  timestamp : c.timestamp ≠ some []
  createdAt : c.createdAt ≠ some []
  actionContext : ∀ ms ∈ c.actionContext, UniqueNames (.obj ms) ∧ Lacks Ts.protoName (.obj ms)
  extra : ∀ ms ∈ c.extra, UniqueNames (.obj ms) ∧ Lacks Ts.protoName (.obj ms)

/-- The agent a call is made for, where there is one. -/
def agentOf (s : Sender) (c : Call) : Option JsStr := Ts.Ingest.given (c.agentId.or s.agentId)

/-! ## The receipt -/

/-- The receipt of a call, for an agent, a time and an id. -/
def receiptDoc (s : Sender) (c : Call) (agent ts rid : JsStr) : List (JsStr × Doc) :=
  let receipt : List (JsStr × Doc) :=
    [(lit "workspace_id", .str s.workspaceId), (lit "agent_id", .str agent),
      (lit "action_type", .str c.actionType), (lit "terms_url", .str c.termsUrl),
      (lit "terms_hash", .str c.termsHash), (lit "timestamp", .str ts),
      (lit "pricing_version", .str c.pricingVersion), (lit "receipt_id", .str rid),
      (lit "amount_charged", .num (.int c.amountCharged)),
      (lit "created_at", .str (c.createdAt.getD ts))]
  let receipt := match c.actionContext with
    | some ctx => set (lit "action_context") (.obj ctx) receipt
    | none => receipt
  merged (fun v => decide (v ≠ .null)) receipt (c.extra.getD [])

variable {s : Sender} {c : Call} {agent ts rid : JsStr}

/-- A string is given to both clients or to neither. -/
theorem given_map_decode (o : Option JsStr) :
    Py.Ingest.given (o.map decode) = (Ts.Ingest.given o).map decode := by
  cases o with
  | none => rfl
  | some us =>
    by_cases hnil : us = []
    · subst hnil
      rfl
    · have hne : decode us ≠ [] := fun h => hnil (decode_eq_nil_iff.mp h)
      simp [Py.Ingest.given, Ts.Ingest.given, Option.filter, hnil, hne]

/-- A string that is not empty is given. -/
theorem given_eq_self {o : Option JsStr} (h : o ≠ some []) : Ts.Ingest.given o = o := by
  cases o with
  | none => rfl
  | some us =>
    have hne : us ≠ [] := fun hnil => h (by rw [hnil])
    simp [Ts.Ingest.given, hne]

theorem objMembers_eq (ms : List (JsStr × Doc)) :
    objMembers ms = ms.map (mapMember decode fun l => Py.Atom.num (Py.loadNumber l)) := by
  unfold objMembers Py.valMembers Py.ofMembers
  rw [List.map_map]
  refine List.map_congr_left fun m _ => Prod.ext rfl ?_
  exact map_map _ _ _ _ m.2

/-- **Python's receipt.** -/
theorem py_receipt (hc : c.Plain) (privateKey : Py.PrivateKeyInput) (timeout : ℤ) :
    (s.py privateKey timeout).receipt c.py (c.actionContext.map objMembers) (decode agent)
        (decode ts) (decode rid)
      = objMembers (receiptDoc s c agent ts rid) := by
  have hlit : ∀ k ∈ ["workspace_id", "agent_id", "action_type", "terms_url", "terms_hash",
      "timestamp", "pricing_version", "receipt_id", "amount_charged", "created_at",
      "action_context"], (lit k : PyStr) = decode (lit k) := fun k hk => by
    have hascii : ∀ k ∈ ["workspace_id", "agent_id", "action_type", "terms_url", "terms_hash",
        "timestamp", "pricing_version", "receipt_id", "amount_charged", "created_at",
        "action_context"], Ascii k := by decide
    exact (decode_lit (hascii k hk)).symm
  have hcreated : (Py.Ingest.given (c.createdAt.map decode)).getD (decode ts)
      = decode (c.createdAt.getD ts) := by
    rw [given_map_decode, given_eq_self hc.createdAt]
    cases c.createdAt <;> rfl
  have hkeep (v : Doc) : decide (v ≠ .null)
      = Py.Obj.isNotNone (v.map decode fun l => Py.Atom.num (Py.loadNumber l)) := by
    unfold Py.Obj.isNotNone
    cases v <;> rfl
  have hextra : (c.extra.map objMembers).getD []
      = (c.extra.getD []).map (mapMember decode fun l => Py.Atom.num (Py.loadNumber l)) := by
    cases c.extra with
    | none => rfl
    | some ms => exact objMembers_eq ms
  unfold Py.Ingest.IngestClient.receipt receiptDoc
  rw [objMembers_eq, map_merged decode_injective hkeep]
  change merged Py.Obj.isNotNone _ ((c.extra.map objMembers).getD []) = _
  rw [hextra]
  refine congrArg (merged _ · _) ?_
  simp only [List.forall_mem_cons, List.not_mem_nil, IsEmpty.forall_iff, implies_true,
    and_true] at hlit
  obtain ⟨h1, h2, h3, h4, h5, h6, h7, h8, h9, h10, h11⟩ := hlit
  cases c.actionContext with
  | none =>
    simp only [Option.map_none, Call.py, Sender.py, hcreated, List.map_cons, List.map_nil, mapMember,
      map_str, map_num, Py.loadNumber, h1, h2, h3, h4, h5, h6, h7, h8, h9, h10]
  | some ctx =>
    simp only [Option.map_some, Call.py, Sender.py, hcreated, map_set decode_injective,
      List.map_cons, List.map_nil, mapMember, map_str, map_num, map_obj, objMembers_eq,
      Py.loadNumber, h1, h2, h3, h4, h5, h6, h7, h8, h9, h10, h11]

/-- **TypeScript's receipt.** -/
theorem ts_receipt (hc : c.Plain) (seed : Bytes) (timeoutMs : ℤ) :
    (s.ts seed timeoutMs).receipt c.ts (c.actionContext.map Ts.ofMembers) agent ts rid
      = Ts.ofMembers (receiptDoc s c agent ts rid) := by
  have hkeep (v : Doc) : decide (v ≠ .null) = Ts.isNotNull (v.map id Ts.parseNumber) := by
    unfold Ts.isNotNull
    cases v <;> rfl
  have hextra : (c.extra.map Ts.ofMembers).getD []
      = (c.extra.getD []).map (mapMember id Ts.parseNumber) := by
    cases c.extra <;> rfl
  have hproto : Ts.protoName ∉ names ((c.extra.map Ts.ofMembers).getD []) := by
    rw [hextra, names_map_mapMember, List.map_id]
    intro hmem
    obtain ⟨v, hv⟩ := mem_names.mp hmem
    cases hx : c.extra with
    | none => simp [hx] at hv
    | some ms =>
      rw [hx, Option.getD_some] at hv
      exact (every_obj.mp (hc.extra ms hx).2 _ hv).1 rfl
  unfold Ts.Ingest.IngestClient.receipt receiptDoc Ts.ofMembers
  rw [map_merged Function.injective_id hkeep]
  change Ts.Ingest.mergeExtra _ ((c.extra.map Ts.ofMembers).getD []) = _
  rw [mergeExtra_eq _ hproto, hextra]
  refine congrArg (merged _ · _) ?_
  cases c.actionContext with
  | none => rfl
  | some ctx =>
    rw [map_set Function.injective_id]
    exact congrArg (fun v => set _ v _) (Ts.ofDoc_obj ctx).symm

/-! ## Who posts what -/

/-- The receipt signed, as Python's client signs it. -/
theorem py_sign_iff [Ucd] {libs : Py.Ingest.Libs} {privateKey : Py.PrivateKeyInput} {timeout : ℤ}
    {r : List (JsStr × Doc)} {signed : Py.ObjDict} :
    (s.py privateKey timeout).sign libs (objMembers r) = .ok signed
      ↔ ∃ signed', PySigns libs.crypto r privateKey s.keyId signed' ∧ signed = Py.valMembers signed' := by
  unfold Py.Ingest.IngestClient.sign PySigns objMembers
  simp only [bind_eq_ok_iff, Py.obj_buildPayload_valMembers]
  constructor
  · rintro ⟨_, ⟨payload, hp, rfl⟩, hsign⟩
    obtain ⟨signed', hsign', rfl⟩ := Py.obj_signReceipt_valMembers.mp hsign
    exact ⟨signed', ⟨payload, hp, hsign'⟩, rfl⟩
  · rintro ⟨signed', ⟨payload, hp, hsign'⟩, rfl⟩
    exact ⟨_, ⟨payload, hp, rfl⟩, Py.obj_signReceipt_valMembers.mpr ⟨signed', hsign', rfl⟩⟩

/-- And as TypeScript's does. -/
theorem ts_sign_iff {crypto : Crypto} {seed : Bytes} {timeoutMs : ℤ} {r : List (JsStr × Doc)}
    {signed : Ts.JsObject} :
    (s.ts seed timeoutMs).sign crypto (Ts.ofMembers r) = .ok signed
      ↔ TsSigns crypto r seed s.keyId signed := by
  unfold Ts.Ingest.IngestClient.sign TsSigns
  exact bind_eq_ok_iff

theorem encode_lit {t : String} (h : Ascii t) : encode (lit t) = lit t := by
  rw [← decode_lit h, encode_decode]

section Post

variable [Ucd] {X : Type} {AnsX : X → Type} {libs : Py.Ingest.Libs}

/-- What Python's client asks for before it posts: the time and the id it
was not given. -/
def pyAsks (c : Call) (now id : Py.Ingest.Stamp) : List (Performed (Py.Ingest.Ans AnsX)) :=
  (if c.timestamp = none then [⟨.utcnowIso, now⟩] else [])
    ++ if c.receiptId = none then [⟨.uuid4, id⟩] else []

/-- And TypeScript's, which is answered alike. -/
def tsAsks (c : Call) (now id : Py.Ingest.Stamp) : List (Performed Ts.Ingest.Ans) :=
  (if c.timestamp = none then [⟨.utcNowIso, encode now.text⟩] else [])
    ++ if c.receiptId = none then [⟨.randomUuid, encode id.text⟩] else []

omit [Ucd] in
theorem decode_stamp (stamp : Py.Ingest.Stamp) : decode (encode stamp.text) = stamp.text := by
  refine decode_encode fun c hc => ?_
  have := stamp.ascii c hc
  omega

/-- Python's client posts the request, where it is answered so. -/
def PyEmits (AnsX : X → Type) (libs : Py.Ingest.Libs) (s : Sender) (c : Call) (privateKey : Py.PrivateKeyInput)
    (timeout : ℤ) (now id : Py.Ingest.Stamp) (request : Py.Ingest.Request) : Prop :=
  ∃ reply, ((s.py privateKey timeout).emitReceipt libs c.py (c.actionContext.map objMembers)
      (c.receiptId.map decode) : Py.Ingest.IngestM AnsX _).Runs
    (pyAsks c now id ++ [⟨.urlopen request, reply⟩]) (Py.Ingest.readReply libs reply)

/-- TypeScript's client posts the request, where it is answered so. -/
def TsEmits (crypto : Crypto) (s : Sender) (c : Call) (seed : Bytes) (timeoutMs : ℤ)
    (now id : Py.Ingest.Stamp) (request : Ts.Ingest.Request) : Prop :=
  ∃ reply, ((s.ts seed timeoutMs).emitReceipt crypto c.ts (c.actionContext.map Ts.ofMembers)
      c.receiptId : Ts.Ingest.IngestM _).Runs
    (tsAsks c now id ++ [⟨.fetch request, reply⟩]) (Ts.Ingest.readReply timeoutMs reply)

/-- The receipt of a call whose fresh strings are these. -/
def Call.receipt (s : Sender) (c : Call) (agent : JsStr) (now id : Py.Ingest.Stamp) :
    List (JsStr × Doc) :=
  receiptDoc s c agent (c.timestamp.getD (encode now.text)) (c.receiptId.getD (encode id.text))

omit [Ucd] in
/-- Both clients settle on one agent. -/
theorem py_agent (hc : c.Plain) (s : Sender) :
    (Py.Ingest.given (c.agentId.map decode)).or (Py.Ingest.given (s.agentId.map decode))
      = (agentOf s c).map decode := by
  rw [given_map_decode, given_map_decode, given_eq_self hc.agentId]
  unfold agentOf
  cases hgiven : c.agentId with
  | none => rfl
  | some us =>
    have hne : us ≠ [] := fun h => hc.agentId (by rw [hgiven, h])
    simp [Ts.Ingest.given, hne]

/-- **What Python's client posts, and when.** -/
theorem pyEmits_iff (hc : c.Plain) {privateKey : Py.PrivateKeyInput} {timeout : ℤ}
    {now id : Py.Ingest.Stamp} {request : Py.Ingest.Request} :
    PyEmits AnsX libs s c privateKey timeout now id request
      ↔ ∃ agent signed, agentOf s c = some agent
        ∧ PySigns libs.crypto (c.receipt s agent now id) privateKey s.keyId signed
        ∧ request = (s.py privateKey timeout).request (Py.valMembers signed)
            (c.idempotencyKey.map decode) := by
  -- after the answers what is left is to sign and to post
  have hpost {agent ts rid : PyStr} {reply : Py.Ingest.Reply} :
      (liftM (Py.Ingest.liftPy ((s.py privateKey timeout).sign libs
          ((s.py privateKey timeout).receipt c.py (c.actionContext.map objMembers) agent ts rid)))
        >>= fun signed => (s.py privateKey timeout).post libs signed (c.idempotencyKey.map decode)
          : Py.Ingest.IngestM AnsX _).Runs [⟨.urlopen request, reply⟩] (Py.Ingest.readReply libs reply)
        ↔ ∃ signed, (s.py privateKey timeout).sign libs
            ((s.py privateKey timeout).receipt c.py (c.actionContext.map objMembers) agent ts rid)
              = .ok signed
          ∧ request = (s.py privateKey timeout).request signed (c.idempotencyKey.map decode) := by
    cases (s.py privateKey timeout).sign libs
        ((s.py privateKey timeout).receipt c.py (c.actionContext.map objMembers) agent ts rid) with
    | error err =>
      refine iff_of_false ?_ ?_
      · rintro ⟨htrace, -⟩
        cases htrace
      · rintro ⟨signed, h, -⟩
        cases h
    | ok signed =>
      constructor
      · rintro ⟨ans, rest, htrace, hrun⟩
        obtain ⟨h, rfl⟩ := List.cons.inj htrace
        cases h
        exact ⟨signed, rfl, rfl⟩
      · rintro ⟨_, h, rfl⟩
        obtain rfl := Except.ok.inj h
        exact ⟨reply, [], rfl, rfl, rfl⟩
  have hasks {agent : JsStr} {reply : Py.Ingest.Reply} :
      (do
        let ts ← Py.Ingest.orFresh (c.timestamp.map decode) Py.Ingest.utcnowIso
        let rid ← Py.Ingest.orFresh (c.receiptId.map decode) Py.Ingest.uuid4
        let signed ← liftM (Py.Ingest.liftPy ((s.py privateKey timeout).sign libs
          ((s.py privateKey timeout).receipt c.py (c.actionContext.map objMembers) (decode agent)
            ts rid)))
        (s.py privateKey timeout).post libs signed (c.idempotencyKey.map decode)
          : Py.Ingest.IngestM AnsX _).Runs
          (pyAsks c now id ++ [⟨.urlopen request, reply⟩]) (Py.Ingest.readReply libs reply)
        ↔ ∃ signed, (s.py privateKey timeout).sign libs (objMembers (c.receipt s agent now id))
              = .ok signed
          ∧ request = (s.py privateKey timeout).request signed (c.idempotencyKey.map decode) := by
    unfold Call.receipt pyAsks Py.Ingest.orFresh
    rw [given_map_decode, given_eq_self hc.timestamp, given_map_decode, given_eq_self hc.receiptId,
      ← py_receipt hc]
    cases c.timestamp with
    | none =>
      cases c.receiptId with
      | none =>
        rw [Option.getD_none, Option.getD_none, decode_stamp, decode_stamp]
        exact runs_perform_cons.trans (runs_perform_cons.trans hpost)
      | some rid =>
        rw [Option.getD_none, Option.getD_some, decode_stamp]
        exact runs_perform_cons.trans hpost
    | some ts =>
      cases c.receiptId with
      | none =>
        rw [Option.getD_some, Option.getD_none, decode_stamp]
        exact runs_perform_cons.trans hpost
      | some rid => exact hpost
  unfold PyEmits Py.Ingest.IngestClient.emitReceipt
  have hagent : (Py.Ingest.given c.py.agentId).or
      (Py.Ingest.given (s.py privateKey timeout).agentId) = (agentOf s c).map decode :=
    py_agent hc s
  rw [hagent]
  cases agentOf s c with
  | none =>
    refine iff_of_false ?_ ?_
    · rintro ⟨reply, htrace, -⟩
      simp at htrace
    · rintro ⟨agent, signed, h, -⟩
      cases h
  | some agent =>
    constructor
    · rintro ⟨reply, hrun⟩
      obtain ⟨signed, hsign, rfl⟩ := hasks.mp hrun
      obtain ⟨signed', hsign', rfl⟩ := py_sign_iff.mp hsign
      exact ⟨agent, signed', rfl, hsign', rfl⟩
    · rintro ⟨_, signed', h, hsign', rfl⟩
      obtain rfl := Option.some.inj h
      exact ⟨.raised [], hasks.mpr ⟨_, py_sign_iff.mpr ⟨signed', hsign', rfl⟩, rfl⟩⟩

omit [Ucd] in
/-- **What TypeScript's client posts, and when.** -/
theorem tsEmits_iff (hc : c.Plain) {crypto : Crypto} {seed : Bytes} {timeoutMs : ℤ}
    {now id : Py.Ingest.Stamp} {request : Ts.Ingest.Request} :
    TsEmits crypto s c seed timeoutMs now id request
      ↔ ∃ agent signed, agentOf s c = some agent
        ∧ TsSigns crypto (c.receipt s agent now id) seed s.keyId signed
        ∧ request = (s.ts seed timeoutMs).request signed c.idempotencyKey := by
  have hpost {agent ts rid : JsStr} {reply : Ts.Ingest.Reply} :
      (liftM (Ts.Ingest.liftTs ((s.ts seed timeoutMs).sign crypto
          ((s.ts seed timeoutMs).receipt c.ts (c.actionContext.map Ts.ofMembers) agent ts rid)))
        >>= fun signed => (s.ts seed timeoutMs).post signed c.idempotencyKey
          : Ts.Ingest.IngestM _).Runs [⟨.fetch request, reply⟩] (Ts.Ingest.readReply timeoutMs reply)
        ↔ ∃ signed, (s.ts seed timeoutMs).sign crypto
            ((s.ts seed timeoutMs).receipt c.ts (c.actionContext.map Ts.ofMembers) agent ts rid)
              = .ok signed
          ∧ request = (s.ts seed timeoutMs).request signed c.idempotencyKey := by
    cases (s.ts seed timeoutMs).sign crypto
        ((s.ts seed timeoutMs).receipt c.ts (c.actionContext.map Ts.ofMembers) agent ts rid) with
    | error err =>
      refine iff_of_false ?_ ?_
      · rintro ⟨htrace, -⟩
        cases htrace
      · rintro ⟨signed, h, -⟩
        cases h
    | ok signed =>
      constructor
      · rintro ⟨ans, rest, htrace, hrun⟩
        obtain ⟨h, rfl⟩ := List.cons.inj htrace
        cases h
        exact ⟨signed, rfl, rfl⟩
      · rintro ⟨_, h, rfl⟩
        obtain rfl := Except.ok.inj h
        exact ⟨reply, [], rfl, rfl, rfl⟩
  have hasks {agent : JsStr} {reply : Ts.Ingest.Reply} :
      (do
        let ts ← Ts.Ingest.orFresh c.timestamp Ts.Ingest.utcNowIso
        let rid ← Ts.Ingest.orFresh c.receiptId Ts.Ingest.randomUuid
        let signed ← liftM (Ts.Ingest.liftTs ((s.ts seed timeoutMs).sign crypto
          ((s.ts seed timeoutMs).receipt c.ts (c.actionContext.map Ts.ofMembers) agent ts rid)))
        (s.ts seed timeoutMs).post signed c.idempotencyKey : Ts.Ingest.IngestM _).Runs
          (tsAsks c now id ++ [⟨.fetch request, reply⟩]) (Ts.Ingest.readReply timeoutMs reply)
        ↔ ∃ signed, (s.ts seed timeoutMs).sign crypto (Ts.ofMembers (c.receipt s agent now id))
              = .ok signed
          ∧ request = (s.ts seed timeoutMs).request signed c.idempotencyKey := by
    unfold Call.receipt tsAsks Ts.Ingest.orFresh
    rw [← ts_receipt hc]
    cases c.timestamp with
    | none =>
      cases c.receiptId with
      | none => exact runs_perform_cons.trans (runs_perform_cons.trans hpost)
      | some rid => exact runs_perform_cons.trans hpost
    | some ts =>
      cases c.receiptId with
      | none => exact runs_perform_cons.trans hpost
      | some rid => exact hpost
  unfold TsEmits Ts.Ingest.IngestClient.emitReceipt
  have hagent : Ts.Ingest.given (c.ts.agentId.or (s.ts seed timeoutMs).agentId) = agentOf s c := rfl
  rw [hagent]
  cases agentOf s c with
  | none =>
    refine iff_of_false ?_ ?_
    · rintro ⟨reply, htrace, -⟩
      simp at htrace
    · rintro ⟨agent, signed, h, -⟩
      cases h
  | some agent =>
    constructor
    · rintro ⟨reply, hrun⟩
      obtain ⟨signed, hsign, rfl⟩ := hasks.mp hrun
      exact ⟨agent, signed, rfl, ts_sign_iff.mp hsign, rfl⟩
    · rintro ⟨_, signed, h, hsign, rfl⟩
      obtain rfl := Option.some.inj h
      exact ⟨.timeout, hasks.mpr ⟨signed, ts_sign_iff.mpr hsign, rfl⟩⟩

/-! ## One receipt on the wire -/

omit [Ucd] in
/-- The receipt of a plain call is plain. -/
theorem plain_receipt (hc : c.Plain) (now id : Py.Ingest.Stamp) :
    UniqueNames (.obj (c.receipt s agent now id))
      ∧ Lacks Ts.protoName (.obj (c.receipt s agent now id)) := by
  have hextra : UniqueNames (.obj (c.extra.getD [])) ∧ Lacks Ts.protoName (.obj (c.extra.getD [])) := by
    cases hx : c.extra with
    | none => exact ⟨by decide, by simp [Lacks]⟩
    | some ms => exact hc.extra ms hx
  have hbase {a b d e f g h i j : JsStr} {z : ℤ} : UniqueNames (.obj
        [(lit "workspace_id", (.str a : Doc)), (lit "agent_id", .str b), (lit "action_type", .str d),
          (lit "terms_url", .str e), (lit "terms_hash", .str f), (lit "timestamp", .str g),
          (lit "pricing_version", .str h), (lit "receipt_id", .str i),
          (lit "amount_charged", .num (.int z)), (lit "created_at", .str j)])
      ∧ Lacks Ts.protoName (.obj
        [(lit "workspace_id", (.str a : Doc)), (lit "agent_id", .str b), (lit "action_type", .str d),
          (lit "terms_url", .str e), (lit "terms_hash", .str f), (lit "timestamp", .str g),
          (lit "pricing_version", .str h), (lit "receipt_id", .str i),
          (lit "amount_charged", .num (.int z)), (lit "created_at", .str j)]) := by
    have hnames : (["workspace_id", "agent_id", "action_type", "terms_url", "terms_hash",
        "timestamp", "pricing_version", "receipt_id", "amount_charged", "created_at"].map
          lit : List JsStr).Nodup := by decide
    have hproto : ∀ k ∈ (["workspace_id", "agent_id", "action_type", "terms_url", "terms_hash",
        "timestamp", "pricing_version", "receipt_id", "amount_charged", "created_at"].map
          lit : List JsStr), k ≠ Ts.protoName := by decide
    simp only [List.map_cons, List.map_nil, List.forall_mem_cons, List.not_mem_nil,
      IsEmpty.forall_iff, implies_true, and_true] at hproto
    refine ⟨uniqueNames_obj.mpr ⟨hnames, by simp [UniqueNames]⟩, ?_⟩
    unfold Lacks
    simpa using hproto
  unfold Call.receipt receiptDoc
  have hctx := hc.actionContext
  cases hx : c.actionContext with
  | none =>
    exact ⟨UniqueNames.merged hbase.1 (uniqueNames_obj.mp hextra.1).2,
      Every.merged hbase.2 hextra.2⟩
  | some ctx =>
    obtain ⟨hunique, hlacks⟩ := hctx ctx hx
    exact ⟨UniqueNames.merged (UniqueNames.set hunique hbase.1) (uniqueNames_obj.mp hextra.1).2,
      Every.merged (Every.set (by decide) hlacks hbase.2) hextra.2⟩

/-- Two requests to one address with the same headers. -/
def SameTarget (request : Py.Ingest.Request) (request' : Ts.Ingest.Request) : Prop :=
  request'.url = encode request.url
    ∧ request'.headers = request.headers.map fun h => (encode h.1, encode h.2)

omit [Ucd] in
/-- Both clients post to one address, with the same headers. -/
theorem sameTarget_request {privateKey : Py.PrivateKeyInput} {timeout : ℤ} {seed : Bytes}
    {timeoutMs : ℤ} (signed : Py.ObjDict) (signed' : Ts.JsObject) :
    SameTarget ((s.py privateKey timeout).request signed (c.idempotencyKey.map decode))
      ((s.ts seed timeoutMs).request signed' c.idempotencyKey) := by
  have hheader (name before : String) (hname : Ascii name) (hbefore : Ascii before)
      (o : Option JsStr) :
      ((Ts.Ingest.given o).map fun key => ((lit name : JsStr), lit before ++ key)).toList
        = ((Py.Ingest.given (o.map decode)).map fun key =>
            ((lit name : PyStr), lit before ++ key)).toList.map fun h => (encode h.1, encode h.2) := by
    rw [given_map_decode]
    cases Ts.Ingest.given o with
    | none => rfl
    | some key =>
      simp only [Option.map_some, Option.toList_some, List.map_cons, List.map_nil, encode_append,
        encode_lit hname, encode_lit hbefore, encode_decode]
  have hkey := hheader "Authorization" "Bearer " (by decide) (by decide) s.apiKey
  have hidem := hheader "Idempotency-Key" "" (by decide) (by decide) c.idempotencyKey
  refine ⟨?_, ?_⟩
  · change s.baseUrl ++ lit "/v1/receipts/ingest" = encode (decode s.baseUrl ++ lit "/v1/receipts/ingest")
    have hpath : Ascii "/v1/receipts/ingest" := by decide
    rw [encode_append, encode_decode, encode_lit hpath]
  · unfold Py.Ingest.IngestClient.request Ts.Ingest.IngestClient.request
    dsimp only
    rw [List.map_append, List.map_append]
    refine congrArg₂ _ (congrArg₂ _ ?_ hkey) hidem
    simp only [List.map_cons, List.map_nil, encode_lit (by decide : Ascii "Content-Type"),
      encode_lit (by decide : Ascii "application/json"), encode_lit (by decide : Ascii "Accept")]

/-- **One emission, two clients.** Given the same call and the same fresh
strings, Python's client posts exactly where TypeScript's does and Python's
canonicalizer takes the payload. Then both post one signed receipt, to one
address under the same headers, and it travels: either body is read as that
receipt in both languages, and is valid to both verifiers. -/
theorem clients_post_one_receipt (kp : KeyPair libs.crypto) {privateKey : Py.PrivateKeyInput}
    (hkey : privateKey.seed = kp.seed) (hc : c.Plain) {timeout timeoutMs : ℤ}
    {now id : Py.Ingest.Stamp} :
    ((∃ request, PyEmits AnsX libs s c privateKey timeout now id request)
      ↔ (∃ request, TsEmits libs.crypto s c kp.seed timeoutMs now id request)
        ∧ ∃ agent q, agentOf s c = some agent ∧ docPayload (c.receipt s agent now id) = .ok q
          ∧ PyClean (.obj q)) ∧
    ∀ request, PyEmits AnsX libs s c privateKey timeout now id request →
      ∃ signed request', request.signed = objMembers signed
        ∧ TsEmits libs.crypto s c kp.seed timeoutMs now id request'
        ∧ request'.signed = Ts.ofMembers signed
        ∧ SameTarget request request'
        ∧ request.body = Py.dumps (.obj (Py.ofMembers signed))
        ∧ Travels libs.crypto (libs.crypto.publicKey kp.seed) s.keyId signed := by
  have hsigns {agent : JsStr} := @pySigns_iff_tsSigns libs.crypto (c.receipt s agent now id) s.keyId
    _ kp privateKey hkey (plain_receipt hc now id).1 (plain_receipt hc now id).2
  refine ⟨?_, ?_⟩
  · simp only [pyEmits_iff hc, tsEmits_iff hc]
    constructor
    · rintro ⟨_, agent, signed, hagent, hsign, rfl⟩
      obtain ⟨⟨signed', hts⟩, q, hq, hclean⟩ := hsigns.mp ⟨signed, hsign⟩
      exact ⟨⟨_, agent, signed', hagent, hts, rfl⟩, agent, q, hagent, hq, hclean⟩
    · rintro ⟨⟨_, agent, signed, hagent, hsign, rfl⟩, agent', q, hagent', hq, hclean⟩
      obtain rfl := Option.some.inj (hagent.symm.trans hagent')
      obtain ⟨signed', hpy⟩ := hsigns.mpr ⟨⟨signed, hsign⟩, q, hq, hclean⟩
      exact ⟨_, agent, signed', hagent, hpy, rfl⟩
  · intro request hrequest
    obtain ⟨agent, signed, hagent, hsign, rfl⟩ := (pyEmits_iff hc).mp hrequest
    obtain ⟨s', rfl, hts, htravels⟩ := travels_of_pySigns kp hkey (plain_receipt hc now id).1
      (plain_receipt hc now id).2 hsign
    refine ⟨s', (s.ts kp.seed timeoutMs).request (Ts.ofMembers s') c.idempotencyKey, rfl,
      (tsEmits_iff hc).mpr ⟨agent, _, hagent, hts, rfl⟩, rfl, sameTarget_request _ _, ?_, htravels⟩
    exact Py.obj_dumps_valMembers _

end Post

section Sample

attribute [local instance] Ucd.allPrintable

def sampleSender : Sender where
  baseUrl := lit "http://localhost:3000"
  workspaceId := lit "w"
  keyId := lit "k1"
  agentId := some (lit "agent")
  apiKey := some (lit "secret")

/-- A call that is given neither time nor id. -/
def sampleCall : Call where
  actionType := lit "api_call"
  termsUrl := lit "https://terms.acme.com"
  termsHash := lit "00"
  pricingVersion := lit "v1"
  amountCharged := 250
  agentId := none
  receiptId := none
  timestamp := none
  createdAt := none
  idempotencyKey := none
  actionContext := some [(lit "tool", .str [0xE9])]
  extra := some [(lit "issuer", .null), (lit "ors_version", .str (lit "0.2"))]

theorem plain_sampleCall : sampleCall.Plain where
  agentId := by decide
  receiptId := by decide
  timestamp := by decide
  createdAt := by decide
  actionContext ms h := by
    cases h
    exact ⟨by decide, by unfold Lacks; decide⟩
  extra ms h := by
    cases h
    exact ⟨by decide, by unfold Lacks; decide⟩

/-- An emission both clients post. -/
theorem clients_post_one_receipt_sample :
    ∃ request signed request', request.signed = objMembers signed
      ∧ TsEmits Sample.crypto sampleSender sampleCall Sample.seed 10000 Py.Ingest.Sample.now
        Py.Ingest.Sample.now request'
      ∧ request'.signed = Ts.ofMembers signed ∧ SameTarget request request' := by
  obtain ⟨signed, hsign⟩ : ∃ signed, PySigns Sample.crypto (sampleCall.receipt sampleSender
      (lit "agent") Py.Ingest.Sample.now Py.Ingest.Sample.now) (.bytes Sample.seed) (lit "k1")
      signed := by
    have hok : (Py.buildPayload (Py.ofMembers (sampleCall.receipt sampleSender (lit "agent")
          Py.Ingest.Sample.now Py.Ingest.Sample.now)) >>= fun payload =>
        Py.signReceipt Sample.crypto payload (.bytes Sample.seed) (decode (lit "k1"))).isOk = true := by
      decide +kernel
    obtain ⟨signed, hsigned⟩ := succeeds_of_isOk hok
    exact ⟨signed, bind_eq_ok_iff.mp hsigned⟩
  have hemits : PyEmits (fun _ : Empty => Empty) Py.Ingest.Sample.libs sampleSender sampleCall
      (.bytes Sample.seed) 10 Py.Ingest.Sample.now Py.Ingest.Sample.now _ :=
    (pyEmits_iff plain_sampleCall).mpr ⟨lit "agent", signed, rfl, hsign, rfl⟩
  obtain ⟨s, request', hs, hts, hs', htarget, -, -⟩ :=
    (clients_post_one_receipt Sample.keyPair rfl plain_sampleCall).2 _ hemits
  exact ⟨_, s, request', hs, hts, hs', htarget⟩

end Sample

end Parity

end OpenTerms
