import OpenTerms.CrewAi.Wrapper
import OpenTerms.LangChain.Returns
import OpenTerms.Py.Ingest.Sample

/-!
# What a wrapped function shows of the wrapper

The wrapper is transparent in a run in which the function is called once,
as it was, and its outcome is the wrapper's. Without `strict` the wrapper
still lets through whatever an emission raises that is no `IngestError`,
and whatever the text of the result raises. `Undisturbed` is when nothing
of the kind comes up, and it is exact (`transparent_iff`).
-/

namespace OpenTerms

namespace CrewAi

open Json Py Py.Ingest Prog

section

variable {R : Type}

/-- The function is called once, with the arguments of the call, and the
wrapper ends as it does. -/
def Transparent (args : List PyVal) (kwargs : PyDict) (trace : List (Performed (Ans (FuncAns R))))
    (r : Except Exc R) : Prop :=
  ∃ (before after : List (Performed (Ans (FuncAns R)))) (outcome : Except Exc R),
    trace = before ++ ⟨.own ⟨args, kwargs⟩, outcome⟩ :: after
    ∧ (∀ x ∈ before ++ after, ∀ call, x.op ≠ .own call) ∧ r = outcome

/-- The text of a result can be hashed, or the exception it raises is one
the wrapper catches. -/
def Described (strOf : R → Except Exc PyStr) (result : R) : Prop :=
  match strOf result with
  | .ok text => NoSurrogate text
  | .error (.ingest _) => True
  | .error _ => False

/-- **When nothing gets through**: the client can emit the receipt of the
call, every reply met is handled, and where a post-action receipt is due
the result has a text that can be hashed. -/
structure Undisturbed (config : OpenTermsToolConfig) (libs : Libs) (strOf : R → Except Exc PyStr)
    (func : Tool) (toolName : Option PyStr) (args : List PyVal) (kwargs : PyDict)
    (trace : List (Performed (Ans (FuncAns R)))) : Prop where
  emits : Emits config.client config.emission (actionContext func toolName args kwargs)
  handled : ∀ request reply, ⟨.urlopen request, reply⟩ ∈ trace → reply.Handled libs
  described : config.emitPostAction = true →
    (∃ request reply, ⟨.urlopen request, reply⟩ ∈ trace ∧ reply.hash libs ≠ .null) →
      ∀ result, ⟨.own ⟨args, kwargs⟩, .ok result⟩ ∈ trace → Described strOf result

variable {config : OpenTermsToolConfig} {libs : Libs} {strOf : R → Except Exc PyStr}
variable {func : Tool} {toolName : Option PyStr} {args : List PyVal} {kwargs : PyDict}
variable {trace : List (Performed (Ans (FuncAns R)))}

theorem plain_emission (config : OpenTermsToolConfig) : config.emission.Plain := ⟨rfl, rfl, rfl, rfl⟩

/-- The wrapper ends as the call it made. -/
theorem Transparent.mem {r : Except Exc R} (h : Transparent args kwargs trace r) :
    ⟨.own ⟨args, kwargs⟩, r⟩ ∈ trace := by
  obtain ⟨before, after, outcome, rfl, -, rfl⟩ := h
  exact List.mem_append_right _ List.mem_cons_self

/-- Where the function is not called the wrapper shows. -/
theorem not_transparent {r : Except Exc R} (h : ∀ x ∈ trace, ∀ call, x.op ≠ .own call) :
    ¬ Transparent args kwargs trace r := fun ht => h _ ht.mem _ rfl

variable [Ucd]

/-- How the receipt before the call ends. -/
theorem before_runs (hstrict : config.strict = false) {ctx : ObjDict} (x : Stamp)
    {r : Except Exc PyVal} (h : (config.before libs ctx x.text).Runs trace r) :
    (Emits config.client config.emission ctx ∧ ∃ stamp request reply,
        trace = [⟨.utcnowIso, stamp⟩, ⟨.urlopen request, reply⟩]
        ∧ ((reply.Handled libs ∧ r = .ok (reply.hash libs))
          ∨ (¬ reply.Handled libs ∧ ∃ err, r = .error err)))
      ∨ (¬ Emits config.client config.emission ctx ∧ (∀ y ∈ trace, y.op = .utcnowIso)
        ∧ ∃ err, r = .error err) := by
  unfold OpenTermsToolConfig.before at h
  rw [hstrict] at h
  rcases guarded_runs (plain_emission config) x.nonempty x.ascii
    (by rintro resp tr r ⟨-, rfl⟩; exact ⟨_, rfl⟩) h with
    ⟨hemits, stamp, request, reply, after, rfl, hend⟩ | hnot
  · refine .inl ⟨hemits, stamp, request, reply, ?_⟩
    rcases hend with ⟨resp, hread, rfl, rfl⟩ | ⟨err, hread, rfl, rfl⟩ | ⟨hnot, rfl, herr⟩
    · exact ⟨rfl, .inl ⟨handled_of_ok hread, by rw [canonicalHash_of_readReply hread]⟩⟩
    · exact ⟨rfl, .inl ⟨handled_of_ingestError hread, by rw [hash_of_ingestError hread]⟩⟩
    · exact ⟨rfl, .inr ⟨hnot, herr⟩⟩
  · exact .inr hnot

/-- How the receipt after the call ends. -/
theorem after_runs (hstrict : config.strict = false) {ctx : ObjDict}
    (hemits : Emits config.client config.emission ctx) (x : Stamp) {result : R}
    {r : Except Exc Unit} (h : (config.after libs strOf x.text result).Runs trace r) :
    (Described strOf result ∧ (∀ y ∈ trace, ∀ call, y.op ≠ .own call)
        ∧ (r = .ok () ↔ ∀ request reply, ⟨.urlopen request, reply⟩ ∈ trace → reply.Handled libs))
      ∨ (¬ Described strOf result ∧ trace = [] ∧ ∃ err, r = .error err) := by
  unfold OpenTermsToolConfig.after at h
  rw [hstrict] at h
  unfold Described
  cases hstr : strOf result with
  | error e =>
    rw [hstr] at h
    cases e with
    | ingest err =>
      obtain ⟨rfl, rfl⟩ := h
      exact .inl ⟨trivial, (by simp), iff_of_true rfl (by simp)⟩
    | _ =>
      obtain ⟨rfl, rfl⟩ := h
      exact .inr ⟨id, rfl, _, rfl⟩
  | ok text =>
    rw [hstr] at h
    cases hbytes : encodeUtf8 text with
    | error err =>
      rw [lift_eq, done_ok_bind, hbytes] at h
      obtain ⟨rfl, rfl⟩ := h
      refine .inr ⟨fun hok => ?_, rfl, _, rfl⟩
      obtain ⟨bytes, hok⟩ := encodeUtf8_isOk_iff.mpr hok
      cases hbytes.symm.trans hok
    | ok bytes =>
      rw [lift_eq, done_ok_bind, hbytes, lift_eq, liftPy, done_ok_bind,
        emitPostActionReceipt_eq (plain_emission config)] at h
      refine .inl ⟨encodeUtf8_isOk_iff.mp ⟨bytes, hbytes⟩, ?_⟩
      rcases guarded_runs (plain_emission config) x.nonempty x.ascii
        (by rintro resp tr r ⟨-, rfl⟩; exact ⟨_, rfl⟩) h with
        ⟨-, stamp, request, reply, after, rfl, hend⟩ | ⟨hnot, -, -⟩
      · have hreply : (∀ request' reply', (⟨.urlopen request', reply'⟩ : Performed (Ans (FuncAns R)))
              ∈ [⟨.utcnowIso, stamp⟩, ⟨.urlopen request, reply⟩] → reply'.Handled libs)
            ↔ reply.Handled libs := by
          constructor
          · exact fun h => h request reply (by simp)
          · intro h request' reply' hmem
            rcases List.mem_cons.mp hmem with heq | hmem
            · cases heq
            · cases List.mem_singleton.mp hmem
              exact h
        have hops : ∀ y ∈ ([⟨.utcnowIso, stamp⟩, ⟨.urlopen request, reply⟩] :
            List (Performed (Ans (FuncAns R)))), ∀ call, y.op ≠ .own call := by
          simp
        rcases hend with ⟨resp, hread, rfl, rfl⟩ | ⟨err, hread, rfl, rfl⟩ | ⟨hnot, rfl, err, rfl⟩
        · exact ⟨hops, iff_of_true rfl (hreply.mpr (handled_of_ok hread))⟩
        · exact ⟨hops, iff_of_true rfl (hreply.mpr (handled_of_ingestError hread))⟩
        · exact ⟨hops, iff_of_false (by simp) (mt hreply.mp hnot)⟩
      · exact absurd (hemits.postAction _) hnot

omit [Ucd]

/-! ## A run that reaches the call -/

/-- What has happened where the function was called: the id, the time, the
request and its reply come first. -/
def reached (x stamp : Stamp) (request : Request) (reply : Reply) (call : FuncCall)
    (outcome : Except Exc R) (rest : List (Performed (Ans (FuncAns R)))) :
    List (Performed (Ans (FuncAns R))) :=
  ⟨.uuid4, x⟩ :: ⟨.utcnowIso, stamp⟩ :: ⟨.urlopen request, reply⟩ :: ⟨.own call, outcome⟩ :: rest

section

variable {x stamp : Stamp} {request : Request} {reply : Reply} {call : FuncCall}
variable {outcome : Except Exc R} {rest : List (Performed (Ans (FuncAns R)))}

theorem mem_reached_urlopen {request' : Request} {reply' : Reply} :
    (⟨.urlopen request', reply'⟩ : Performed (Ans (FuncAns R)))
        ∈ reached x stamp request reply call outcome rest
      ↔ (request' = request ∧ reply' = reply) ∨ ⟨.urlopen request', reply'⟩ ∈ rest := by
  unfold reached
  simp only [List.mem_cons]
  constructor
  · rintro (h | h | h | h | h)
    · cases h
    · cases h
    · cases h
      exact .inl ⟨rfl, rfl⟩
    · cases h
    · exact .inr h
  · rintro (⟨rfl, rfl⟩ | h)
    · exact .inr (.inr (.inl rfl))
    · exact .inr (.inr (.inr (.inr h)))

/-- The call is not made again. -/
theorem mem_reached_own (hops : ∀ y ∈ rest, ∀ call, y.op ≠ .own call) {r : Except Exc R} :
    (⟨.own call, r⟩ : Performed (Ans (FuncAns R))) ∈ reached x stamp request reply call outcome rest
      ↔ r = outcome := by
  unfold reached
  simp only [List.mem_cons]
  constructor
  · rintro (h | h | h | h | h)
    · cases h
    · cases h
    · cases h
    · cases h
      rfl
    · exact absurd rfl (hops _ h _)
  · rintro rfl
    exact .inr (.inr (.inr (.inl rfl)))

/-- Then it is transparent if it ends as the call. -/
theorem transparent_reached (hops : ∀ y ∈ rest, ∀ call, y.op ≠ .own call) {r : Except Exc R} :
    Transparent args kwargs (reached x stamp request reply ⟨args, kwargs⟩ outcome rest) r
      ↔ r = outcome := by
  refine ⟨fun h => (mem_reached_own hops).mp h.mem, ?_⟩
  rintro rfl
  refine ⟨[⟨.uuid4, x⟩, ⟨.utcnowIso, stamp⟩, ⟨.urlopen request, reply⟩], rest, r, rfl, ?_, rfl⟩
  simpa using hops

end

variable [Ucd]

/-- **In a run without `strict` the wrapper is transparent** exactly where
nothing gets through. -/
theorem transparent_iff (hstrict : config.strict = false) {r : Except Exc R}
    (h : (wrapper config libs strOf func toolName args kwargs).Runs trace r) :
    Transparent args kwargs trace r
      ↔ Undisturbed config libs strOf func toolName args kwargs trace := by
  unfold wrapper at h
  rw [op_bind, runs_perform] at h
  obtain ⟨x, rest, rfl, h⟩ := h
  rcases runs_bind.mp h with ⟨err, hbefore, rfl⟩ | ⟨hash, _, _, hbefore, hcalls, rfl⟩
  · -- the receipt before the call raises, and there is no call
    rcases before_runs hstrict x hbefore with
      ⟨-, stamp, request, reply, rfl, ⟨-, hr⟩ | ⟨hnot, -⟩⟩ | ⟨hnot, hops, -⟩
    · cases hr
    · refine iff_of_false (not_transparent (by simp)) fun hfits => hnot (hfits.handled request reply ?_)
      simp
    · refine iff_of_false (not_transparent fun y hy call => ?_) fun hfits => hnot hfits.emits
      rcases List.mem_cons.mp hy with rfl | hy
      · exact nofun
      · rw [hops y hy]
        exact nofun
  · rcases before_runs hstrict x hbefore with
      ⟨hemits, stamp, request, reply, rfl, ⟨hreply, hr⟩ | ⟨-, err, hr⟩⟩ | ⟨-, -, err, hr⟩
    · obtain rfl := Except.ok.inj hr
      rw [op_bind, runs_perform] at hcalls
      obtain ⟨outcome, rest, rfl, hrest⟩ := hcalls
      change Transparent args kwargs (reached x stamp request reply ⟨args, kwargs⟩ outcome rest) r
        ↔ Undisturbed config libs strOf func toolName args kwargs
          (reached x stamp request reply ⟨args, kwargs⟩ outcome rest)
      have hhandled (hrest : ∀ request' reply', ⟨.urlopen request', reply'⟩ ∈ rest →
          reply'.Handled libs) : ∀ request' reply', ⟨.urlopen request', reply'⟩
            ∈ reached x stamp request reply ⟨args, kwargs⟩ outcome rest → reply'.Handled libs := by
        intro request' reply' hmem
        rcases mem_reached_urlopen.mp hmem with ⟨rfl, rfl⟩ | hmem
        · exact hreply
        · exact hrest request' reply' hmem
      have hnone : ∀ y ∈ ([] : List (Performed (Ans (FuncAns R)))), ∀ call, y.op ≠ .own call := nofun
      cases outcome with
      | error err =>
        -- the function raises
        obtain ⟨rfl, rfl⟩ := hrest
        refine iff_of_true ((transparent_reached hnone).mpr rfl) ⟨hemits, hhandled nofun, ?_⟩
        intro _ _ result hmem
        cases (mem_reached_own hnone).mp hmem
      | ok result =>
        rw [lift_eq, done_ok_bind] at hrest
        by_cases hdue : config.emitPostAction = true ∧ reply.hash libs ≠ .null
        · rw [if_pos hdue] at hrest
          have hfirst : ∃ request' reply', ⟨.urlopen request', reply'⟩
              ∈ reached x stamp request reply ⟨args, kwargs⟩ (.ok result) rest
              ∧ reply'.hash libs ≠ .null :=
            ⟨request, reply, mem_reached_urlopen.mpr (.inl ⟨rfl, rfl⟩), hdue.2⟩
          rcases runs_bind.mp hrest with ⟨err, hafter, rfl⟩ | ⟨_, _, _, hafter, ⟨rfl, rfl⟩, rfl⟩
          · rcases after_runs hstrict hemits x hafter with
              ⟨-, hops, hreplies⟩ | ⟨hnot, rfl, -⟩
            · refine iff_of_false (fun ht => ?_) fun hfits => ?_
              · cases (transparent_reached hops).mp ht
              · have hall := hreplies.mpr fun request' reply' hmem =>
                  hfits.handled request' reply' (mem_reached_urlopen.mpr (.inr hmem))
                cases hall
            · refine iff_of_false (fun ht => ?_) fun hfits => hnot ?_
              · cases (transparent_reached hnone).mp ht
              · exact hfits.described hdue.1 hfirst result ((mem_reached_own hnone).mpr rfl)
          · rw [List.append_nil] at *
            rcases after_runs hstrict hemits x hafter with
              ⟨hdescribed, hops, hreplies⟩ | ⟨-, -, err, hr⟩
            · refine iff_of_true ((transparent_reached hops).mpr rfl)
                ⟨hemits, hhandled (hreplies.mp rfl), fun _ _ result' hmem => ?_⟩
              cases (mem_reached_own hops).mp hmem
              exact hdescribed
            · cases hr
        · rw [if_neg hdue] at hrest
          obtain ⟨rfl, rfl⟩ := hrest
          refine iff_of_true ((transparent_reached hnone).mpr rfl) ⟨hemits, hhandled nofun, ?_⟩
          rintro hpost ⟨request', reply', hmem, hhash⟩
          rcases mem_reached_urlopen.mp hmem with ⟨rfl, rfl⟩ | hmem
          · exact absurd ⟨hpost, hhash⟩ hdue
          · cases hmem
    · cases hr
    · cases hr

/-- **Without `strict` an adapter leaves its tool alone** exactly where
nothing gets through: the wrapper of a function shows nothing but the
function, and a callback returns. -/
theorem adapters_undisturbed_iff (libs : Libs) (R Out : Type) :
    (∀ (config : OpenTermsToolConfig) (strOf : R → Except Exc PyStr) (func : Tool)
        (toolName : Option PyStr) (args : List PyVal) (kwargs : PyDict)
        (trace : List (Performed (Ans (FuncAns R)))) (r : Except Exc R),
      config.strict = false → (wrapper config libs strOf func toolName args kwargs).Runs trace r →
        (Transparent args kwargs trace r
          ↔ Undisturbed config libs strOf func toolName args kwargs trace))
    ∧ ∀ (self : LangChain.OpenTermsCallbackHandler) (strOf : Out → Except Exc PyStr)
        (callback : LangChain.Callback Out) (trace : List (Performed (Ans LangChain.PendingAns)))
        (r : Except Exc Unit),
      self.strict = false → (self.run libs strOf callback).Runs trace r →
        (r = .ok () ↔ self.Returns libs strOf callback trace) :=
  ⟨fun _ _ _ _ _ _ _ _ hstrict h => transparent_iff hstrict h,
    fun _ _ _ _ _ hstrict h => LangChain.returns_iff hstrict h⟩

end

/-! ## A call -/

namespace Sample

open OpenTerms.Py.Ingest.Sample

def config : OpenTermsToolConfig where
  client := client
  agentId := lit "a1"
  termsUrl := lit "https://example.com/terms"
  termsHash := lit "t1"
  emitPostAction := true
  strict := false

/-- A function of one parameter. -/
def tool : Tool where
  name := some (lit "search")
  signature := some [⟨lit "query", .positionalOrKeyword⟩]

/-- Every request is accepted, and the function returns. -/
def answer : (o : Op FuncCall) → Ans (FuncAns Unit) o
  | .uuid4 | .utcnowIso => now
  | .urlopen _ => accepted
  | .own _ => .ok ()

def strOf : Unit → Except Exc PyStr := fun _ => .ok (lit "done")

section

attribute [local instance] Ucd.allPrintable

/-- The call with one argument. -/
def call (arg : PyVal) : List (Performed (Ans (FuncAns Unit))) × Except Exc Unit :=
  (wrapper config libs strOf tool none [arg] []).play answer

theorem accepted_handled : accepted.Handled libs := by
  have hread : (readReply libs accepted).toOption.isSome = true := by decide
  cases h : readReply libs accepted with
  | ok resp => exact handled_of_ok h
  | error err =>
    rw [h] at hread
    cases hread

/-- With a text for an argument nothing gets through. -/
theorem transparent_text :
    Transparent [.str (lit "x")] [] (call (.str (lit "x"))).1 (call (.str (lit "x"))).2 := by
  refine ((adapters_undisturbed_iff libs Unit Unit).1 config strOf tool none _ _ _ _ rfl
    (runs_play answer _)).mpr ⟨?_, fun request reply hmem => ?_, fun _ _ result _ => ?_⟩
  · have hplain {s : String} (hs : Utf16.Ascii s) : BmpName (lit s) ∧ NoSurrogate (lit s) :=
      ⟨fun c hc => by have := Utf16.lit_ascii hs c hc; omega, noSurrogate_ascii (Utf16.lit_ascii hs)⟩
    refine ⟨lit "a1", by decide, by decide, ⟨_, rfl⟩, ?_, ?_⟩
    · -- the context: the name of the tool and the one argument
      have hargs : Signable (.obj [(lit "query", .str (lit "x"))]) := by
        refine (signable_obj ?_ ?_).mpr ?_
        · exact List.forall_mem_singleton.mpr (hplain (by decide))
        · exact List.forall_mem_singleton.mpr nofun
        · exact List.forall_mem_singleton.mpr (signable_str.mpr (hplain (by decide)).2)
      have hcontext : actionContext tool none [.str (lit "x")] []
          = [(lit "tool_id", .str (lit "search")), (lit "args", .obj [(lit "query", .str (lit "x"))])] :=
        rfl
      rw [hcontext]
      refine (signable_obj ?_ ?_).mpr ?_
      · exact List.forall_mem_cons.mpr ⟨hplain (by decide),
          List.forall_mem_singleton.mpr (hplain (by decide))⟩
      · exact List.forall_mem_cons.mpr ⟨nofun, List.forall_mem_singleton.mpr nofun⟩
      · exact List.forall_mem_cons.mpr ⟨signable_str.mpr (hplain (by decide)).2,
          List.forall_mem_singleton.mpr hargs⟩
    · have hlit : ∀ s ∈ ["w1", "a1", "tool_call", "https://example.com/terms", "t1", "v1"],
          Utf16.Ascii s := by decide
      intro s hs
      obtain ⟨t, ht, rfl⟩ : ∃ t ∈ ["w1", "a1", "tool_call", "https://example.com/terms", "t1", "v1"],
          lit t = s := List.mem_map.mp hs
      exact (hplain (hlit t ht)).2
  · rw [show reply = accepted from mem_play hmem]
    exact accepted_handled
  · exact noSurrogate_ascii (Utf16.lit_ascii (by decide))

/-- An event that is the call of the function. -/
def isCall (x : Performed (Ans (FuncAns Unit))) : Bool :=
  match x.op with
  | .own _ => true
  | _ => false

/-- A `float` for an argument raises before the function is called. -/
theorem float_argument : ∃ trace r,
    (wrapper config libs strOf tool none [.num (.float (.fin 1))] []).Runs trace r
      ∧ ¬ Transparent [.num (.float (.fin 1))] [] trace r := by
  refine ⟨_, _, runs_play answer _, not_transparent fun x hx call' hop => ?_⟩
  have hnone : ((call (.num (.float (.fin 1)))).1.all fun x => !isCall x) = true := by decide
  have hx' := List.all_eq_true.mp hnone x hx
  rw [isCall, hop] at hx'
  cases hx'

end

end Sample

end CrewAi

end OpenTerms
