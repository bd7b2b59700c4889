import OpenTerms.CrewAi.Transparency
import OpenTerms.LangChain.Pairing
import OpenTerms.Parity.PostAction
import OpenTerms.Py.Policy.Engine

/-!
# What the clients emit and what the engine reads

The engine looks for a tool and for the state after an action under
`ors.commitments` of the context. The adapters put the tool at the top of
the context, and so does `emit_post_action_receipt` with the hash. An
emitted receipt commits to nothing but what the caller's own context does
(`resolvePath_posted`), so an allow list fires on every pre-action
receipt, and no assertion on a hash the client was given
(`emitted_fires_iff`).
-/

namespace OpenTerms

open Json Prog Py Py.Ingest

/-! ## Emissions -/

section

variable {X : Type} {AnsX : X → Type} {α : Type}

/-- A run of the program posts the request. -/
def Posts (p : IngestM AnsX α) (request : Request) : Prop :=
  ∃ trace reply r, p.Runs trace r ∧ ⟨.urlopen request, reply⟩ ∈ trace

/-- A run of the program posts the request before the program does anything
besides emissions. -/
def PostsFirst (p : IngestM AnsX α) (request : Request) : Prop :=
  ∃ before after reply r, p.Runs (before ++ ⟨.urlopen request, reply⟩ :: after) r
    ∧ ∀ x ∈ before, ∀ o, x.op ≠ .own o

/-- The receipt of a request, as JSON has it. -/
def receiptOf (request : Request) : PyDict := untupleMembers request.signed

/-- Every request posted has the property. -/
def EachPosted (P : Request → Prop) : List (Performed (Ans AnsX)) → Op X → Prop
  | _, .urlopen request => P request
  | _, _ => True

/-- So has every request posted before anything besides emissions. -/
def EachPostedFirst (P : Request → Prop) : List (Performed (Ans AnsX)) → Op X → Prop
  | before, .urlopen request => (∀ x ∈ before, ∀ o, x.op ≠ .own o) → P request
  | _, _ => True

theorem Performs.posts {P : Request → Prop} {p : IngestM AnsX α} {request : Request}
    (h : Performs (EachPosted P) p []) (hposts : Posts p request) : P request := by
  obtain ⟨trace, reply, r, hruns, hmem⟩ := hposts
  obtain ⟨before, after, rfl⟩ := List.append_of_mem hmem
  exact h.at hruns

theorem Performs.postsFirst {P : Request → Prop} {p : IngestM AnsX α} {request : Request}
    (h : Performs (EachPostedFirst P) p []) (hposts : PostsFirst p request) : P request := by
  obtain ⟨before, after, reply, r, hruns, hfirst⟩ := hposts
  refine h.at hruns fun x hx => hfirst x ?_
  rw [List.append_nil] at hx
  exact List.mem_reverse.mp hx

end

section

variable [Ucd] {libs : Libs} {request : Request}

/-- **A start** posts the receipt of its context. -/
theorem onToolStart_posts {handler : LangChain.OpenTermsCallbackHandler} {serialized : PyVal}
    {inputStr : PyStr} {runId : Option LangChain.RunId} {inputs : Option ObjDict}
    (h : Posts (handler.onToolStart libs serialized inputStr runId inputs) request) :
    Posted handler.client libs (handler.emission (handler.termsFor (LangChain.extractToolName serialized)))
      (some (LangChain.toolContext (LangChain.extractToolName serialized) inputStr inputs))
      request := by
  refine Performs.posts ?_ h
  unfold LangChain.OpenTermsCallbackHandler.onToolStart
  refine Performs.bind ?_ fun rid tr => ?_
  · cases runId with
    | none => exact performs_perform.mpr ⟨trivial, fun _ => performs_done⟩
    | some rid => exact performs_done
  · refine performs_perform.mpr ⟨trivial, fun receiptId => Performs.tryCatch ?_ fun err tr => ?_⟩
    · refine Performs.bind (performs_emitReceipt (fun _ => trivial) (fun _ => trivial)
        fun _ _ hposted => hposted) fun resp tr => ?_
      exact performs_perform.mpr ⟨trivial, fun _ => performs_done⟩
    · cases err with
      | ingest err =>
        refine performs_perform.mpr ⟨trivial, fun _ => ?_⟩
        dsimp only
        split <;> exact performs_done
      | _ => exact performs_done

/-- **A wrapped call** posts the receipt of its context before the function
is called. What comes after the call is posted after it. -/
theorem wrapper_posts {R : Type} {config : CrewAi.OpenTermsToolConfig}
    {strOf : R → Except Exc PyStr} {func : CrewAi.Tool} {toolName : Option PyStr}
    {args : List PyVal} {kwargs : PyDict}
    (h : PostsFirst (CrewAi.wrapper config libs strOf func toolName args kwargs) request) :
    Posted config.client libs config.emission
      (some (CrewAi.actionContext func toolName args kwargs)) request := by
  refine Performs.postsFirst ?_ h
  unfold CrewAi.wrapper
  rw [op_bind, performs_perform]
  refine ⟨trivial, fun receiptId => ?_⟩
  refine Performs.bind (Performs.tryCatch ?_ fun err tr => ?_) fun hash tr => ?_
  · exact Performs.bind (performs_emitReceipt (fun _ => trivial) (fun _ => trivial)
      fun _ _ hposted _ => hposted) fun resp tr => performs_done
  · cases err with
    | ingest err =>
      dsimp only
      split <;> exact performs_done
    | _ => exact performs_done
  · rw [op_bind, performs_perform]
    refine ⟨trivial, fun outcome => ?_⟩
    refine performs_of_forall (D := fun tr => ∃ x ∈ tr, ∃ o, x.op = .own o) ?_ ?_ ?_
    · rintro tr x ⟨y, hy, o, ho⟩
      exact ⟨y, List.mem_cons_of_mem _ hy, o, ho⟩
    · rintro tr o ⟨y, hy, o', ho⟩
      cases o with
      | urlopen request => exact fun hfirst => absurd ho (hfirst y hy o')
      | _ => trivial
    · exact ⟨_, List.mem_cons_self, _, rfl⟩

/-- **A post-action emission** posts the receipt of the hash. -/
theorem emitPostActionReceipt_posts {X : Type} {AnsX : X → Type} {client : IngestClient}
    {e : Emission} {rid hash : PyStr}
    (h : Posts (client.emitPostActionReceipt libs e rid hash : IngestM AnsX _) request) :
    Posted client libs { e with extra := (postActionContext hash e.extra).2 }
      (some (postActionContext hash e.extra).1) request := by
  refine Performs.posts ?_ h
  exact performs_emitReceipt (fun _ => trivial) (fun _ => trivial) fun _ _ hposted => hposted

end

/-! ## The two rules -/

/-- A rule that lets these tools through. -/
structure AllowsTools (R : Rule) (A : List PyStr) : Prop where
  type_eq : R.type = .toolIdAllowlist
  allowed_eq : get? (lit "allowed") R.parameters = some (.arr (A.map .str))

/-- A rule that asserts the hash of the state, its field and its `applies_to`
the default ones. -/
structure AssertsState (R : Rule) (expected : PyStr) : Prop where
  type_eq : R.type = .postStateAssertion
  expected_eq : get? (lit "expected_hash") R.parameters = some (.str expected)
  field_eq : (get? (lit "field") R.parameters).getD (.str postStateHashPath)
    = .str postStateHashPath
  appliesTo_eq : (get? (lit "applies_to") R.parameters).getD (.str (lit "post_action_only"))
    = .str (lit "post_action_only")

section

variable [Ucd] {R : Rule} {receipt aggregates : PyDict}

omit [Ucd] in
theorem mapM_asStr (A : List PyStr) : (A.map Json.str : List PyVal).mapM asStr = some A := by
  induction A with
  | nil => rfl
  | cons s A ih =>
    rw [List.map_cons, List.mapM_cons, asStr, ih]
    rfl

/-- An allow list fires unless the receipt commits to a tool on it. -/
theorem fires_toolIdAllowlist_iff {A : List PyStr} (hR : AllowsTools R A) :
    Fires R receipt aggregates ↔ ∀ t ∈ A, resolvePath receipt toolIdPath ≠ .str t := by
  have hallowed : requireList R.parameters (lit "allowed") R.id = .ok A := by
    rw [requireList, requireParam, hR.allowed_eq]
    simp only [ok_bind, asStrList, mapM_asStr]
  have hin : isIn (resolvePath receipt toolIdPath) A = true
      ↔ ∃ t ∈ A, resolvePath receipt toolIdPath = .str t := by
    simp only [isIn, List.any_eq_true, pyEq_str_right, decide_eq_true_eq]
  unfold Fires ruleSays
  rw [hR.type_eq]
  dsimp only
  rw [evalToolIdAllowlist, hallowed, ok_bind]
  dsimp only
  by_cases hnull : resolvePath receipt toolIdPath = .null
  · rw [if_pos hnull, hnull]
    exact iff_of_true ⟨_, rfl, rfl⟩ fun t _ h => by cases h
  · rw [if_neg hnull]
    by_cases h : ∃ t ∈ A, resolvePath receipt toolIdPath = .str t
    · rw [hin.mpr h]
      refine iff_of_false ?_ fun hall => ?_
      · rintro ⟨result, hresult, hfired⟩
        obtain rfl := Except.ok.inj hresult
        cases hfired
      · obtain ⟨t, ht, heq⟩ := h
        exact hall t ht heq
    · rw [Bool.eq_false_iff.mpr (mt hin.mp h)]
      exact iff_of_true ⟨_, rfl, rfl⟩ fun t ht heq => h ⟨t, ht, heq⟩

/-- An assertion fires on a commitment to something else. -/
theorem fires_postStateAssertion_iff {expected : PyStr} (hR : AssertsState R expected) :
    Fires R receipt aggregates
      ↔ resolvePath receipt postStateHashPath ≠ .null
        ∧ resolvePath receipt postStateHashPath ≠ .str expected := by
  have hmode : oneOf AppliesTo.text [.postActionOnly, .always] (.str (lit "post_action_only"))
      = some .postActionOnly := by decide
  have hparams : postStateParams R = .ok (postStateHashPath, .str expected, .postActionOnly) := by
    unfold postStateParams
    dsimp only
    rw [hR.appliesTo_eq, hmode, getD, hR.expected_eq, hR.field_eq]
    rfl
  unfold Fires ruleSays
  rw [hR.type_eq]
  dsimp only
  rw [evalPostStateAssertion, hparams, ok_bind]
  dsimp only
  have hstr : (Json.str expected : PyVal) ≠ .null := (by simp)
  by_cases hnull : resolvePath receipt postStateHashPath = .null
  · rw [if_pos hnull]
    refine iff_of_false ?_ fun h => h.1 hnull
    rintro ⟨result, hresult, hfired⟩
    obtain rfl := Except.ok.inj hresult
    cases hfired
  · rw [if_neg hnull, if_neg hstr, pyEq_str_right]
    by_cases heq : resolvePath receipt postStateHashPath = .str expected
    · rw [decide_eq_true heq]
      refine iff_of_false ?_ fun h => h.2 heq
      rintro ⟨result, hresult, hfired⟩
      obtain rfl := Except.ok.inj hresult
      cases hfired
    · rw [decide_eq_false heq]
      exact iff_of_true ⟨_, rfl, rfl⟩ ⟨hnull, heq⟩

end

/-! ## What an emitted receipt commits to -/

/-- What a context commits to by a name. -/
def committed (name : PyStr) (context : PyVal) : PyVal :=
  walkPath [lit "ors", lit "commitments", name] context

/-- The paths of the engine go through the context. -/
theorem resolvePath_context (receipt : PyDict) :
    resolvePath receipt toolIdPath
        = committed (lit "tool_id") (getD (lit "action_context") receipt)
      ∧ resolvePath receipt postStateHashPath
        = committed (lit "post_state_hash") (getD (lit "action_context") receipt) := by
  have htool : toolIdPath.splitOn (chr '.')
      = [lit "action_context", lit "ors", lit "commitments", lit "tool_id"] := by decide
  have hstate : postStateHashPath.splitOn (chr '.')
      = [lit "action_context", lit "ors", lit "commitments", lit "post_state_hash"] := by
    decide
  have hwalk (name : PyStr) :
      walkPath [lit "action_context", lit "ors", lit "commitments", name] (.obj receipt)
        = committed name (getD (lit "action_context") receipt) :=
    walkPath_obj _ _ receipt
  constructor
  · rw [resolvePath, if_neg (by decide), htool, hwalk]
  · rw [resolvePath, if_neg (by decide), hstate, hwalk]

/-- What the context in `extra` commits to, under the name of the hash. -/
def ownCommitment (extra : Option ObjDict) : PyVal :=
  committed (lit "post_state_hash")
    (untuple ((extra.bind (get? (lit "action_context"))).getD .null))

section

variable [Ucd] {libs : Libs} {client : IngestClient} {e : Emission} {request : Request}

/-- The context of a posted receipt. -/
theorem getD_receiptOf (hextra : ∀ ms ∈ e.extra, (names ms).Nodup) {ctx : ObjDict}
    (h : Posted client libs e (some ctx) request) :
    getD (lit "action_context") (receiptOf request)
      = untuple (((e.extra.bind (get? (lit "action_context"))).filter Obj.isNotNone).getD
          (.obj ctx)) := by
  obtain ⟨agent, ts, rid, hsign⟩ := h
  rw [getD, receiptOf, untupleMembers, get?_map_graftMember, Parity.py_get?_context hextra hsign]
  generalize (e.extra.bind (get? (lit "action_context"))).filter Obj.isNotNone = v
  cases v <;> rfl

/-- **A tool call** commits to no tool. -/
theorem committed_tool (he : e.extra = none) {tool : PyStr} {args : PyObj}
    (h : Posted client libs e (some [(lit "tool_id", .str tool), (lit "args", args)]) request) :
    resolvePath (receiptOf request) toolIdPath = .null := by
  have hcontext := getD_receiptOf (by simp [he]) h
  rw [he] at hcontext
  rw [(resolvePath_context _).1, hcontext]
  rfl

/-- **A post-action receipt** commits to what the caller's own context
does. -/
theorem committed_state (hextra : ∀ ms ∈ e.extra, (names ms).Nodup) {hash : PyStr}
    (h : Posted client libs { e with extra := (postActionContext hash e.extra).2 }
      (some (postActionContext hash e.extra).1) request) :
    resolvePath (receiptOf request) postStateHashPath = ownCommitment e.extra := by
  have hleft : ∀ ms ∈ (postActionContext hash e.extra).2, (names ms).Nodup := by
    unfold postActionContext
    split
    · exact fun ms hms => (Parity.forall_dropped (p := fun _ => True)
        (fun ms hms => ⟨hextra ms hms, fun _ _ => trivial⟩) ms hms).1
    · exact hextra
  rw [(resolvePath_context _).2, getD_receiptOf hleft h]
  unfold ownCommitment postActionContext
  split
  · rename_i ms hms
    -- a context of the caller's keeps its commitments
    have hne : (lit "post_state_hash" : PyStr) ≠ lit "ors" := by decide
    dsimp only
    rw [Parity.get?_dropped, hms]
    unfold committed
    simp only [Option.filter_none, Option.getD_none, Option.getD_some, untuple_obj, walkPath,
      untupleMembers, get?_map_graftMember, get?_set, if_neg hne]
  · rename_i hnot
    dsimp only
    cases hv : e.extra.bind (get? (lit "action_context")) with
    | none => rfl
    | some v =>
      cases v with
      | obj ms => exact absurd hv (hnot ms)
      | num x => cases x <;> rfl
      | null | bool | str | arr => rfl

/-- **When the engine reads what the clients emit.** An allow list fires on
every tool call the adapters report, so it is right about the tools it does
not have. An assertion sees the caller's own commitment, whatever hash the
client was given. -/
theorem emitted_fires_iff (libs : Libs) :
    (∀ (handler : LangChain.OpenTermsCallbackHandler) (serialized : PyVal) (inputStr : PyStr)
        (runId : Option LangChain.RunId) (inputs : Option ObjDict) (request : Request) (R : Rule)
        (A : List PyStr) (aggregates : PyDict),
      AllowsTools R A → Posts (handler.onToolStart libs serialized inputStr runId inputs) request →
      ((Fires R (receiptOf request) aggregates ↔ LangChain.extractToolName serialized ∉ A)
        ↔ LangChain.extractToolName serialized ∉ A))
    ∧ (∀ (Result : Type) (config : CrewAi.OpenTermsToolConfig) (strOf : Result → Except Exc PyStr)
        (func : CrewAi.Tool) (toolName : Option PyStr) (args : List PyVal) (kwargs : PyDict)
        (request : Request) (R : Rule) (A : List PyStr) (aggregates : PyDict),
      AllowsTools R A →
      PostsFirst (CrewAi.wrapper config libs strOf func toolName args kwargs) request →
      ((Fires R (receiptOf request) aggregates ↔ CrewAi.displayName func toolName ∉ A)
        ↔ CrewAi.displayName func toolName ∉ A))
    ∧ ∀ (X : Type) (AnsX : X → Type) (client : IngestClient) (e : Emission) (rid hash : PyStr)
        (request : Request) (R : Rule) (expected : PyStr) (aggregates : PyDict),
      AssertsState R expected → (∀ ms ∈ e.extra, (names ms).Nodup) →
      Posts (client.emitPostActionReceipt libs e rid hash : IngestM AnsX _) request →
      ((Fires R (receiptOf request) aggregates ↔ hash ≠ expected)
        ↔ (hash ≠ expected ↔
          ownCommitment e.extra ≠ .null ∧ ownCommitment e.extra ≠ .str expected)) := by
  have always {R : Rule} {A : List PyStr} {aggregates receipt : PyDict} {tool : PyStr}
      (hR : AllowsTools R A) (hnone : resolvePath receipt toolIdPath = .null) :
      (Fires R receipt aggregates ↔ tool ∉ A) ↔ tool ∉ A := by
    refine iff_true_left ((fires_toolIdAllowlist_iff hR).mpr fun t _ h => ?_)
    cases hnone.symm.trans h
  refine ⟨?_, ?_, ?_⟩
  · intro handler serialized inputStr runId inputs request R A aggregates hR hposts
    exact always hR (committed_tool rfl (onToolStart_posts hposts))
  · intro Result config strOf func toolName args kwargs request R A aggregates hR hposts
    exact always hR (committed_tool rfl (wrapper_posts hposts))
  · intro X AnsX client e rid hash request R expected aggregates hR hextra hposts
    rw [fires_postStateAssertion_iff hR,
      committed_state hextra (emitPostActionReceipt_posts hposts)]
    exact Iff.comm

end

section Sample

open OpenTerms.Py.Ingest.Sample

attribute [local instance] Ucd.allPrintable

section

variable {X : Type} {AnsX : X → Type} {α : Type}

/-- Every request is accepted. -/
def answer (own : (x : X) → AnsX x) : (o : Op X) → Ans AnsX o
  | .uuid4 | .utcnowIso => now
  | .urlopen _ => accepted
  | .own x => own x

/-- The request posted before anything besides emissions is done. -/
def firstPosted : List (Performed (Ans AnsX)) → Option Request
  | [] => none
  | ⟨.urlopen request, _⟩ :: _ => some request
  | ⟨.own _, _⟩ :: _ => none
  | ⟨.uuid4, _⟩ :: rest | ⟨.utcnowIso, _⟩ :: rest => firstPosted rest

theorem firstPosted_spec {trace : List (Performed (Ans AnsX))} {request : Request}
    (h : firstPosted trace = some request) : ∃ before after reply,
      trace = before ++ ⟨.urlopen request, reply⟩ :: after ∧ ∀ x ∈ before, ∀ o, x.op ≠ .own o := by
  induction trace with
  | nil => cases h
  | cons x trace ih =>
    have later {o : Op X} {ans : Ans AnsX o} (hop : ∀ o', o ≠ .own o')
        (h : firstPosted trace = some request) : ∃ before after reply,
          (⟨o, ans⟩ : Performed (Ans AnsX)) :: trace
              = before ++ ⟨.urlopen request, reply⟩ :: after
            ∧ ∀ x ∈ before, ∀ o, x.op ≠ .own o := by
      obtain ⟨before, after, reply, rfl, hbefore⟩ := ih h
      exact ⟨_ :: before, after, reply, rfl, List.forall_mem_cons.mpr ⟨hop, hbefore⟩⟩
    obtain ⟨o, ans⟩ := x
    cases o with
    | urlopen request' =>
      obtain rfl := Option.some.inj h
      exact ⟨[], trace, ans, rfl, nofun⟩
    | own o => cases h
    | uuid4 => exact later nofun h
    | utcnowIso => exact later nofun h

theorem postsFirst_of_firstPosted {own : (x : X) → AnsX x} {p : IngestM AnsX α} {request : Request}
    (h : firstPosted (p.play (answer own)).1 = some request) :
    PostsFirst p request ∧ Posts p request := by
  obtain ⟨before, after, reply, htrace, hbefore⟩ := firstPosted_spec h
  have hruns := runs_play (answer own) p
  rw [htrace] at hruns
  exact ⟨⟨before, after, reply, _, hruns, hbefore⟩,
    _, reply, _, hruns, List.mem_append_right _ List.mem_cons_self⟩

theorem exists_postsFirst {own : (x : X) → AnsX x} {p : IngestM AnsX α}
    (h : (firstPosted (p.play (answer own)).1).isSome = true) :
    ∃ request, PostsFirst p request ∧ Posts p request := by
  obtain ⟨request, hfirst⟩ := Option.isSome_iff_exists.mp h
  exact ⟨request, postsFirst_of_firstPosted hfirst⟩

end

def allowRule (A : List PyStr) : Rule where
  id := lit "tools"
  type := .toolIdAllowlist
  outcome := .deny
  parameters := [(lit "allowed", .arr (A.map .str))]

def stateRule (expected : PyStr) : Rule where
  id := lit "state"
  type := .postStateAssertion
  outcome := .deny
  parameters := [(lit "expected_hash", .str expected)]

theorem allowsTools_allowRule (A : List PyStr) : AllowsTools (allowRule A) A := ⟨rfl, rfl⟩

theorem assertsState_stateRule (expected : PyStr) : AssertsState (stateRule expected) expected :=
  ⟨rfl, rfl, rfl, rfl⟩

/-- A call of the tool `search`, as LangChain reports it. -/
def searchStart : LangChain.HandlerM Unit :=
  LangChain.Sample.handler.onToolStart libs (.obj [(lit "name", .str (lit "search"))]) (lit "in")
    (some (lit "r1")) none

/-- A call of the tool `search`, wrapped for CrewAI. -/
def searchCall : CrewAi.WrapperM Unit Unit :=
  CrewAi.wrapper CrewAi.Sample.config libs CrewAi.Sample.strOf CrewAi.Sample.tool none
    [.str (lit "x")] []

/-- A post-action emission. -/
def stateEmission (e : Emission) : IngestM (fun _ : Unit => Unit) IngestResponse :=
  client.emitPostActionReceipt libs e (lit "id-1") (lit "h1")

/-- A context that commits to the state itself. -/
def committing : Emission :=
  Parity.pyEmission (.obj [(lit "ors", .obj [(lit "commitments",
    .obj [(lit "post_state_hash", .str (lit "h1"))])])])

/-- What a handler without runs is answered. -/
def noRuns : (op : LangChain.PendingOp) → LangChain.PendingAns op
  | .set _ _ => ()
  | .pop _ => none

theorem searchStart_posts : ∃ request, Posts searchStart request := by
  obtain ⟨request, -, hposts⟩ := @exists_postsFirst _ _ _ noRuns searchStart (by decide +kernel)
  exact ⟨request, hposts⟩

theorem searchCall_posts : ∃ request, PostsFirst searchCall request := by
  obtain ⟨request, hposts, -⟩ := @exists_postsFirst _ _ _ (fun _ => .ok ()) searchCall
    (by decide +kernel)
  exact ⟨request, hposts⟩

theorem stateEmission_posts (e : Emission)
    (h : (firstPosted ((stateEmission e).play (answer fun _ => ())).1).isSome = true) :
    ∃ request, Posts (stateEmission e) request := by
  obtain ⟨request, -, hposts⟩ := @exists_postsFirst _ _ _ (fun _ => ()) (stateEmission e) h
  exact ⟨request, hposts⟩

/-- A tool that is not on the list is reported, and so is a hash that the
caller's context has too. -/
theorem emitted_fires_sample :
    (∃ request, Posts searchStart request
        ∧ (Fires (allowRule [lit "read"]) (receiptOf request) []
          ↔ LangChain.extractToolName (.obj [(lit "name", .str (lit "search"))]) ∉ [lit "read"]))
      ∧ (∃ request, PostsFirst searchCall request
        ∧ (Fires (allowRule [lit "read"]) (receiptOf request) []
          ↔ CrewAi.displayName CrewAi.Sample.tool none ∉ [lit "read"]))
      ∧ ∃ request, Posts (stateEmission committing) request
        ∧ (Fires (stateRule (lit "h2")) (receiptOf request) []
          ↔ (lit "h1" : PyStr) ≠ lit "h2") := by
  obtain ⟨hstart, hcall, hstate⟩ := emitted_fires_iff libs
  refine ⟨?_, ?_, ?_⟩
  · obtain ⟨request, hposts⟩ := searchStart_posts
    exact ⟨request, hposts, (hstart _ _ _ _ _ request _ _ []
      (allowsTools_allowRule [lit "read"]) hposts).mpr (by decide)⟩
  · obtain ⟨request, hposts⟩ := searchCall_posts
    exact ⟨request, hposts, (hcall _ _ _ _ _ _ _ request _ _ []
      (allowsTools_allowRule [lit "read"]) hposts).mpr (by decide)⟩
  · obtain ⟨request, hposts⟩ := stateEmission_posts committing (by decide +kernel)
    have hextra : ∀ ms ∈ committing.extra, (names ms).Nodup := by
      rintro ms ⟨⟩
      exact List.nodup_singleton _
    exact ⟨request, hposts, (hstate _ _ _ _ _ _ request _ _ []
      (assertsState_stateRule (lit "h2")) hextra hposts).mpr (by decide)⟩

/-- An allow list fires on a call of the one tool it has, and an assertion
does not on another hash. -/
theorem emissions_misread :
    (∃ request, Posts searchStart request
        ∧ LangChain.extractToolName (.obj [(lit "name", .str (lit "search"))]) ∈ [lit "search"]
        ∧ Fires (allowRule [lit "search"]) (receiptOf request) [])
      ∧ (∃ request, PostsFirst searchCall request
        ∧ CrewAi.displayName CrewAi.Sample.tool none ∈ [lit "search"]
        ∧ Fires (allowRule [lit "search"]) (receiptOf request) [])
      ∧ ∃ request,
        Posts (stateEmission CrewAi.Sample.config.emission) request
        ∧ (lit "h1" : PyStr) ≠ lit "h2"
        ∧ ¬ Fires (stateRule (lit "h2")) (receiptOf request) [] := by
  refine ⟨?_, ?_, ?_⟩
  · obtain ⟨request, hposts⟩ := searchStart_posts
    have hnone := committed_tool rfl (onToolStart_posts hposts)
    refine ⟨request, hposts, by decide, ?_⟩
    refine (fires_toolIdAllowlist_iff (allowsTools_allowRule _)).mpr fun t _ h => ?_
    cases hnone.symm.trans h
  · obtain ⟨request, hposts⟩ := searchCall_posts
    have hnone := committed_tool rfl (wrapper_posts hposts)
    refine ⟨request, hposts, by decide, ?_⟩
    refine (fires_toolIdAllowlist_iff (allowsTools_allowRule _)).mpr fun t _ h => ?_
    cases hnone.symm.trans h
  · obtain ⟨request, hposts⟩ :=
      stateEmission_posts CrewAi.Sample.config.emission (by decide +kernel)
    have hnone := committed_state (fun _ h => by cases h) (emitPostActionReceipt_posts hposts)
    refine ⟨request, hposts, by decide, fun h => ?_⟩
    exact ((fires_postStateAssertion_iff (assertsState_stateRule _)).mp h).1 hnone

end Sample

end OpenTerms
