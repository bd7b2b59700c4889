import OpenTerms.LangChain.Pairing

/-!
# The terms two receipts of a run bind

A start binds the terms of its tool; an end does not know the tool and
binds the terms the handler was made with. Agent and action type are those
of the handler in both.
-/

namespace OpenTerms

namespace LangChain

open Json Py Py.Ingest OpenTerms.System

/-- The handler after these calls of `set_tool_terms`. -/
def OpenTermsCallbackHandler.configured (self : OpenTermsCallbackHandler)
    (overrides : List (PyStr × Terms)) : OpenTermsCallbackHandler :=
  overrides.foldl (fun self o => self.setToolTerms o.1 o.2) self

/-- The terms the last of these calls set for the tool. -/
def lastOverride (toolName : PyStr) (overrides : List (PyStr × Terms)) : Option Terms :=
  overrides.foldl (fun last o => if o.1 = toolName then some o.2 else last) none

section

variable {self : OpenTermsCallbackHandler} {overrides : List (PyStr × Terms)}

/-- Only the terms of tools are configured. -/
theorem configured_eq : self.configured overrides
    = { self with perToolTerms := (self.configured overrides).perToolTerms } := by
  unfold OpenTermsCallbackHandler.configured
  induction overrides generalizing self with
  | nil => rfl
  | cons o overrides ih =>
    rw [List.foldl_cons]
    exact ih

/-- The terms of a tool are those of the last call for it. -/
theorem termsFor_configured (hself : self.perToolTerms = []) (toolName : PyStr) :
    (self.configured overrides).termsFor toolName
      = (lastOverride toolName overrides).getD self.defaults := by
  have hget : ∀ (self : OpenTermsCallbackHandler) (last : Option Terms),
      get? toolName self.perToolTerms = last →
        get? toolName (overrides.foldl (fun self o => self.setToolTerms o.1 o.2) self).perToolTerms
          = overrides.foldl (fun last o => if o.1 = toolName then some o.2 else last) last := by
    induction overrides with
    | nil => exact fun self last h => h
    | cons o overrides ih =>
      intro self last h
      rw [List.foldl_cons, List.foldl_cons]
      refine ih _ _ ?_
      show get? toolName (Json.set o.1 o.2 self.perToolTerms) = _
      rw [get?_set, h]
  have hperTool : get? toolName (self.configured overrides).perToolTerms
      = lastOverride toolName overrides := by
    refine hget self none ?_
    rw [hself]
    rfl
  unfold OpenTermsCallbackHandler.termsFor
  rw [hperTool, configured_eq]
  rfl

end

section

variable [Ucd] {Out ι : Type} [DecidableEq ι] {self : OpenTermsCallbackHandler} {libs : Libs}
variable {strOf : Out → Except Exc PyStr}

/-- What a receipt of the handler binds. -/
theorem OpenTermsCallbackHandler.Signed.binds {terms : Terms} {ctx signed : ObjDict} {rid : PyStr}
    (h : self.Signed libs terms ctx rid signed) :
    ∃ agent, self.agent = some agent ∧ get? (lit "agent_id") signed = some (.str agent)
      ∧ get? (lit "action_type") signed = some (.str (lit "tool_call"))
      ∧ get? (lit "terms_url") signed = some (.str terms.termsUrl)
      ∧ get? (lit "terms_hash") signed = some (.str terms.termsHash) := by
  obtain ⟨agent, ts, hagent, hsign⟩ := h
  have hrequired {k : PyStr} (hk : k ∈ signedRequired) := (get?_sign hsign).1 hk
  rw [receipt_eq rfl] at hrequired
  refine ⟨agent, hagent, ?_, ?_, ?_, ?_⟩
  · rw [hrequired (by decide)]
    rfl
  · rw [hrequired (by decide)]
    rfl
  · rw [hrequired (by decide)]
    rfl
  · rw [hrequired (by decide)]
    rfl

/-- A pre-action receipt binds the terms of its tool. -/
theorem signed_of_start {c : State Out ι} (hrec : Recorded (self.Does libs strOf) Ended c.history)
    {i : ι} {serialized : PyVal} {inputStr : PyStr} {runId : Option RunId} {inputs : Option ObjDict}
    {request : Request} {reply : Reply}
    (h : .performed i (.toolStart serialized inputStr runId inputs) ⟨.urlopen request, reply⟩
      ∈ c.history) :
    ∃ x : Stamp, self.Signed libs (self.termsFor (extractToolName serialized))
      (toolContext (extractToolName serialized) inputStr inputs) x.text request.signed := by
  obtain ⟨newer, older, hhist⟩ := List.append_of_mem h
  rw [hhist] at hrec
  obtain ⟨trace, -, hdoes⟩ := hrec.append.1
  cases runId with
  | none => exact hdoes.elim
  | some r =>
    obtain ⟨x, stamp, -, hsigned⟩ := hdoes
    exact ⟨x, hsigned⟩

/-- A post-action receipt binds the terms the handler was made with. -/
theorem signed_of_end {c : State Out ι} (hrec : Recorded (self.Does libs strOf) Ended c.history)
    {j : ι} {output : Out} {runId : Option RunId} {request : Request} {reply : Reply}
    (h : .performed j (.toolEnd output runId) ⟨.urlopen request, reply⟩ ∈ c.history) :
    ∃ (p : PendingReceipt) (hash : PyStr), self.Signed libs self.defaults
      [(lit "post_state_hash", .str hash)] p.receiptId.text request.signed := by
  obtain ⟨newer, older, hhist⟩ := List.append_of_mem h
  rw [hhist] at hrec
  obtain ⟨trace, -, hdoes⟩ := hrec.append.1
  cases runId with
  | none => exact hdoes.elim
  | some r =>
    obtain ⟨-, p, stamp, text, hash, -, -, -, hsigned⟩ := hdoes
    exact ⟨p, hash, hsigned⟩

/-- **The terms two receipts bind.** Of a pre-action and a post-action
receipt, the agent and the action type are the same; the terms are if the
last call of `set_tool_terms` for the tool, if any, set those the handler
was made with. -/
theorem terms_agree_iff {overrides : List (PyStr × Terms)} (hself : self.perToolTerms = [])
    {c : State Out ι}
    (h : ((self.configured overrides).system libs strOf).Reaches Given (.start fun _ => none) c)
    {i j : ι} {serialized : PyVal} {inputStr : PyStr} {runId runId' : Option RunId}
    {inputs : Option ObjDict} {output : Out} {pre post : Request} {reply reply' : Reply}
    (hpre : .performed i (.toolStart serialized inputStr runId inputs) ⟨.urlopen pre, reply⟩
      ∈ c.history)
    (hpost : .performed j (.toolEnd output runId') ⟨.urlopen post, reply'⟩ ∈ c.history) :
    get? (lit "agent_id") post.signed = get? (lit "agent_id") pre.signed
      ∧ get? (lit "action_type") post.signed = get? (lit "action_type") pre.signed
      ∧ (get? (lit "terms_url") post.signed = get? (lit "terms_url") pre.signed
          ∧ get? (lit "terms_hash") post.signed = get? (lit "terms_hash") pre.signed
        ↔ ∀ terms, lastOverride (extractToolName serialized) overrides = some terms →
          terms = self.defaults) := by
  have hrec := recorded (fun _ _ h => h) h
  obtain ⟨x, hsigned⟩ := signed_of_start hrec hpre
  obtain ⟨p, hash, hsigned'⟩ := signed_of_end hrec hpost
  obtain ⟨agent, hagent, hid, haction, hurl, hhash⟩ := hsigned.binds
  obtain ⟨agent', hagent', hid', haction', hurl', hhash'⟩ := hsigned'.binds
  cases hagent.symm.trans hagent'
  refine ⟨hid'.trans hid.symm, haction'.trans haction.symm, ?_⟩
  rw [hurl, hhash, hurl', hhash', termsFor_configured hself, configured_eq]
  simp only [Option.some.injEq, Json.str.injEq]
  show self.defaults.termsUrl = _ ∧ self.defaults.termsHash = _ ↔ _
  cases lastOverride (extractToolName serialized) overrides with
  | none => simp
  | some terms =>
    rw [Option.getD_some]
    constructor
    · rintro ⟨hurl, hhash⟩ terms' hterms
      cases hterms
      cases terms
      cases hdefaults : self.defaults
      rw [hdefaults] at hurl hhash
      cases hurl
      cases hhash
      rfl
    · intro hall
      rw [hall terms rfl]
      exact ⟨rfl, rfl⟩

end

namespace Sample

open OpenTerms.Py.Ingest.Sample

attribute [local instance] Ucd.allPrintable

/-- A run of the tool `search`, started and ended. -/
def searchRun : List (Move (Callback Unit) Bool Moment) :=
  let step := .step true (moment id2)
  [.call true (.toolStart (.obj [(lit "name", .str (lit "search"))]) (lit "in") (some run) none),
    .step true (moment id1), step, step, step, step, .call true (.toolEnd () (some run)), step, step,
    step]

def searchTerms : Terms := ⟨lit "https://search.com/terms", lit "t2"⟩

abbrev searchHandler := handler.configured [(lit "search", searchTerms)]

/-- A pre-action receipt, with the tool it is of. -/
def preAction : Event (Ans PendingAns) Exc Unit (Callback Unit) Bool → Option (PyVal × ObjDict)
  | .performed _ (.toolStart serialized _ _ _) ⟨.urlopen request, _⟩ =>
    some (serialized, request.signed)
  | _ => none

def postAction : Event (Ans PendingAns) Exc Unit (Callback Unit) Bool → Option ObjDict
  | .performed _ (.toolEnd _ _) ⟨.urlopen request, _⟩ => some request.signed
  | _ => none

theorem preAction_spec {h : Record Unit Bool} {serialized : PyVal} {signed : ObjDict}
    (hfound : h.findSome? preAction = some (serialized, signed)) :
    ∃ i inputStr runId inputs request reply,
      .performed i (.toolStart serialized inputStr runId inputs) ⟨.urlopen request, reply⟩ ∈ h
        ∧ request.signed = signed := by
  obtain ⟨e, hmem, he⟩ := List.exists_of_findSome?_eq_some hfound
  match e with
  | .performed i (.toolStart serialized' inputStr runId inputs) ⟨.urlopen request, reply⟩ =>
    cases he
    exact ⟨i, inputStr, runId, inputs, request, reply, hmem, rfl⟩

theorem postAction_spec {h : Record Unit Bool} {signed : ObjDict}
    (hfound : h.findSome? postAction = some signed) :
    ∃ i output runId request reply,
      .performed i (.toolEnd output runId) ⟨.urlopen request, reply⟩ ∈ h
        ∧ request.signed = signed := by
  obtain ⟨e, hmem, he⟩ := List.exists_of_findSome?_eq_some hfound
  match e with
  | .performed i (.toolEnd output runId) ⟨.urlopen request, reply⟩ =>
    cases he
    exact ⟨i, output, runId, request, reply, hmem, rfl⟩

/-- The two receipts on record are of one id, the first is of this tool, and
they have these URLs of terms. -/
def compared (tool : PyStr) (url url' : PyObj) (h : Record Unit Bool) : Bool :=
  match h.findSome? preAction, h.findSome? postAction with
  | some pre, some post =>
    extractToolName pre.1 = tool && get? (lit "receipt_id") post = get? (lit "receipt_id") pre.2
      && get? (lit "terms_url") pre.2 = some url && get? (lit "terms_url") post = some url'
  | _, _ => false

theorem compared_spec {h : Record Unit Bool} {tool : PyStr} {url url' : PyObj}
    (hcompared : compared tool url url' h = true) :
    ∃ i serialized inputStr runId inputs pre reply j output runId' post reply',
      .performed i (.toolStart serialized inputStr runId inputs) ⟨.urlopen pre, reply⟩ ∈ h
      ∧ .performed j (.toolEnd output runId') ⟨.urlopen post, reply'⟩ ∈ h
      ∧ extractToolName serialized = tool
      ∧ get? (lit "receipt_id") post.signed = get? (lit "receipt_id") pre.signed
      ∧ get? (lit "terms_url") pre.signed = some url
      ∧ get? (lit "terms_url") post.signed = some url' := by
  unfold compared at hcompared
  split at hcompared
  · rename_i pre post hpre hpost
    obtain ⟨serialized, signed⟩ := pre
    obtain ⟨i, inputStr, runId, inputs, pre, reply, hmem, rfl⟩ := preAction_spec hpre
    obtain ⟨j, output, runId', post, reply', hmem', rfl⟩ := postAction_spec hpost
    simp only [Bool.and_eq_true, decide_eq_true_eq] at hcompared
    obtain ⟨⟨⟨htool, hid⟩, hurl⟩, hurl'⟩ := hcompared
    exact ⟨i, serialized, inputStr, runId, inputs, pre, reply, j, output, runId', post, reply', hmem,
      hmem', htool, hid, hurl, hurl'⟩
  · cases hcompared

/-- The run of `search`: one id, two terms. -/
theorem search_run : ∃ c : State Unit Bool,
    (searchHandler.system libs strOf).Reaches Orderly (.start fun _ => none) c
      ∧ compared (lit "search") (.str searchTerms.termsUrl) (.str handler.termsUrl) c.history
        = true := by
  have hrun : (((searchHandler.system libs strOf).run orderly (.start fun _ => none) searchRun).map
      fun c => compared (lit "search") (.str searchTerms.termsUrl) (.str handler.termsUrl) c.history)
        = some true := by decide +kernel
  obtain ⟨c, hc, hcompared⟩ := Option.map_eq_some_iff.mp hrun
  exact ⟨c, reaches_of_run orderly_spec hc, hcompared⟩

/-- The two receipts of a `search` with terms of its own name one agent and
one action, and not one terms. -/
theorem terms_agree_sample : ∃ (serialized : PyVal) (pre post : Request),
    extractToolName serialized = lit "search"
      ∧ get? (lit "agent_id") post.signed = get? (lit "agent_id") pre.signed
      ∧ get? (lit "action_type") post.signed = get? (lit "action_type") pre.signed
      ∧ ¬ (get? (lit "terms_url") post.signed = get? (lit "terms_url") pre.signed
          ∧ get? (lit "terms_hash") post.signed = get? (lit "terms_hash") pre.signed) := by
  obtain ⟨c, hreach, hcompared⟩ := search_run
  obtain ⟨i, serialized, inputStr, runId, inputs, pre, reply, j, output, runId', post, reply', hpre,
    hpost, htool, -⟩ := compared_spec hcompared
  obtain ⟨hagent, haction, hterms⟩ :=
    terms_agree_iff rfl (hreach.mono fun _ _ h => h.1) hpre hpost
  refine ⟨serialized, pre, post, htool, hagent, haction, fun hsame => ?_⟩
  have hoverride : lastOverride (extractToolName serialized) [(lit "search", searchTerms)]
      = some searchTerms := by
    rw [htool]
    rfl
  exact absurd (congrArg Terms.termsUrl (hterms.mp hsame searchTerms hoverride)) (by decide)

/-- The receipts of a run of a tool with terms of its own bind two terms. -/
theorem terms_differ : ¬ ∀ (overrides : List (PyStr × Terms)) (c : State Unit Bool),
    ((handler.configured overrides).system libs strOf).Reaches Orderly (.start fun _ => none) c →
      ∀ i serialized inputStr runId inputs pre reply j output runId' post reply',
        .performed i (.toolStart serialized inputStr runId inputs) ⟨.urlopen pre, reply⟩
          ∈ c.history →
        .performed j (.toolEnd output runId') ⟨.urlopen post, reply'⟩ ∈ c.history →
        get? (lit "receipt_id") post.signed = get? (lit "receipt_id") pre.signed →
        get? (lit "terms_url") post.signed = get? (lit "terms_url") pre.signed := by
  intro h
  obtain ⟨c, hreach, hcompared⟩ := search_run
  obtain ⟨i, serialized, inputStr, runId, inputs, pre, reply, j, output, runId', post, reply', hpre,
    hpost, -, hid, hurl, hurl'⟩ := compared_spec hcompared
  have hsame := h _ c hreach _ _ _ _ _ _ _ _ _ _ _ _ hpre hpost hid
  rw [hurl, hurl'] at hsame
  exact absurd hsame (by decide)

end Sample

end LangChain

end OpenTerms
