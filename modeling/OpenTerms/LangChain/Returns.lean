import OpenTerms.LangChain.Callbacks
import OpenTerms.Py.Ingest.Outcome

/-!
# When a callback returns

Without `strict` a callback returns unless the emission it makes raises
something other than an `IngestError`, or the text of an output cannot be
hashed. `Returns` says which answers and which inputs that leaves, and it
is exact (`returns_iff`).
-/

namespace OpenTerms

namespace LangChain

open Json Py Py.Ingest Prog

variable {Out : Type}

/-- **When nothing gets through a callback.** A start emits, and its reply is
handled. So does an end that took a receipt and has a post-action receipt
to emit, and the text of its output can be hashed. An error emits
nothing. -/
def OpenTermsCallbackHandler.Returns [Ucd] (self : OpenTermsCallbackHandler) (libs : Libs)
    (strOf : Out → Except Exc PyStr) :
    Callback Out → List (Performed (Ans PendingAns)) → Prop
  | .toolStart serialized inputStr _ inputs, trace =>
    Emits self.client (self.emission (self.termsFor (extractToolName serialized)))
        (toolContext (extractToolName serialized) inputStr inputs)
      ∧ ∀ request reply, ⟨.urlopen request, reply⟩ ∈ trace → reply.Handled libs
  | .toolEnd output (some rid), trace =>
    self.emitPostAction = true → (∃ p, ⟨.own (.pop rid), some p⟩ ∈ trace) →
      (∃ text, strOf output = .ok text ∧ NoSurrogate text)
      ∧ Emits self.client (self.emission self.defaults) []
      ∧ ∀ request reply, ⟨.urlopen request, reply⟩ ∈ trace → reply.Handled libs
  | .toolEnd _ none, _ | .toolError _, _ => True

variable [Ucd] {self : OpenTermsCallbackHandler} {libs : Libs} {strOf : Out → Except Exc PyStr}
variable {trace : List (Performed (Ans PendingAns))} {r : Except Exc Unit}

omit [Ucd] in
theorem plain_emission (self : OpenTermsCallbackHandler) (terms : Terms) :
    (self.emission terms).Plain := ⟨rfl, rfl, rfl, rfl⟩

omit [Ucd] in
/-- What sets an entry returns. -/
theorem runs_setPending {rid : RunId} {p : PendingReceipt} (h : (setPending rid p).Runs trace r) :
    trace = [⟨.own (.set rid p), ()⟩] ∧ r = .ok () := by
  obtain ⟨_, _, rfl, rfl, rfl⟩ := h
  exact ⟨rfl, rfl⟩

/-- A start, once it has its id. -/
theorem onToolStart_returns (hstrict : self.strict = false) {rid : RunId} {terms : Terms}
    {ctx : ObjDict} (x : Stamp)
    (h : (exceptIngestError
      (do
        let resp ← self.client.emitReceipt libs (self.emission terms) (some ctx) (some x.text)
        setPending rid ⟨x, resp.canonicalHash⟩)
      fun err => do
        setPending rid ⟨x, .null⟩
        if self.strict then throw (.ingest err) else pure () : HandlerM Unit).Runs trace r) :
    r = .ok () ↔ Emits self.client (self.emission terms) ctx
      ∧ ∀ request reply, ⟨.urlopen request, reply⟩ ∈ trace → reply.Handled libs := by
  rw [hstrict] at h
  rcases guarded_runs (plain_emission self terms) x.nonempty x.ascii
    (by intro resp tr r hrun; exact ⟨_, (runs_setPending hrun).2⟩) h with
    ⟨hemits, stamp, request, reply, after, rfl, hend⟩ | ⟨hnot, -, err, rfl⟩
  · have hmem {set : PendingOp} {ans : PendingAns set} (hreply : reply.Handled libs)
        {request' : Request} {reply' : Reply} (h : (⟨.urlopen request', reply'⟩ :
          Performed (Ans PendingAns)) ∈ [⟨.utcnowIso, stamp⟩, ⟨.urlopen request, reply⟩, ⟨.own set, ans⟩]) :
        reply'.Handled libs := by
      simp only [List.mem_cons, List.not_mem_nil, or_false] at h
      rcases h with h | h | h
      · cases h
      · cases h
        exact hreply
      · cases h
    rcases hend with ⟨resp, hread, hset⟩ | ⟨err, hread, hset⟩ | ⟨hnot, rfl, err, rfl⟩
    · obtain ⟨rfl, rfl⟩ := runs_setPending hset
      exact iff_of_true rfl ⟨hemits, fun _ _ => hmem (handled_of_ok hread)⟩
    · rcases runs_bind.mp hset with ⟨_, hrun, rfl⟩ | ⟨_, _, _, hrun, ⟨rfl, rfl⟩, rfl⟩
      · cases (runs_setPending hrun).2
      · obtain ⟨rfl, -⟩ := runs_setPending hrun
        exact iff_of_true rfl ⟨hemits, fun _ _ => hmem (handled_of_ingestError hread)⟩
    · exact iff_of_false nofun fun h => hnot (h.2 request reply (by simp))
  · exact iff_of_false nofun fun h => hnot h.1

omit [Ucd] in
/-- Whatever can be signed, the empty context can. -/
theorem emits_postAction_iff {client : IngestClient} {e : Emission} (bytes : Bytes) :
    Emits client e [(lit "post_state_hash", .str (hex bytes))] ↔ Emits client e [] := by
  have hempty : Signable (.obj []) :=
    (@signable_obj [] (List.forall_mem_nil _) (List.forall_mem_nil _)).mpr (List.forall_mem_nil _)
  constructor
  · rintro ⟨agent, hagent, hkey, hsk, -, htexts⟩
    exact ⟨agent, hagent, hkey, hsk, hempty, htexts⟩
  · exact fun h => h.postAction bytes

/-- An end that took a receipt. -/
theorem emitPending_returns (hstrict : self.strict = false) {output : Out} {p : PendingReceipt}
    (h : (self.emitPending libs strOf output p).Runs trace r) :
    r = .ok () ↔ (∃ text, strOf output = .ok text ∧ NoSurrogate text)
      ∧ Emits self.client (self.emission self.defaults) []
      ∧ ∀ request reply, ⟨.urlopen request, reply⟩ ∈ trace → reply.Handled libs := by
  unfold OpenTermsCallbackHandler.emitPending at h
  rw [hstrict] at h
  cases hstr : strOf output with
  | error err =>
    rw [hstr] at h
    obtain ⟨rfl, rfl⟩ := h
    exact iff_of_false nofun fun h => by obtain ⟨⟨text, hok, -⟩, -⟩ := h; cases hok
  | ok text =>
    rw [hstr, lift_eq, done_ok_bind] at h
    cases hbytes : encodeUtf8 text with
    | error err =>
      rw [hbytes] at h
      obtain ⟨rfl, rfl⟩ := h
      refine iff_of_false nofun fun h => ?_
      obtain ⟨⟨text', hok, htext⟩, -⟩ := h
      cases hok
      obtain ⟨bytes, hok⟩ := encodeUtf8_isOk_iff.mpr htext
      cases hbytes.symm.trans hok
    | ok bytes =>
      rw [hbytes, lift_eq, liftPy, done_ok_bind, emitPostActionReceipt_eq (plain_emission self _)] at h
      have htext : ∃ text', Except.ok text = Except.ok (ε := Exc) text' ∧ NoSurrogate text' :=
        ⟨text, rfl, encodeUtf8_isOk_iff.mp ⟨bytes, hbytes⟩⟩
      rw [and_iff_right htext, ← emits_postAction_iff (libs.crypto.sha256 bytes)]
      rcases guarded_runs (plain_emission self _) p.receiptId.nonempty p.receiptId.ascii
        (by rintro resp tr r ⟨-, rfl⟩; exact ⟨_, rfl⟩) h with
        ⟨hemits, stamp, request, reply, after, rfl, hend⟩ | ⟨hnot, -, err, rfl⟩
      · have hmem (hreply : reply.Handled libs) {request' : Request} {reply' : Reply}
            (h : (⟨.urlopen request', reply'⟩ : Performed (Ans PendingAns))
              ∈ [⟨.utcnowIso, stamp⟩, ⟨.urlopen request, reply⟩]) : reply'.Handled libs := by
          rcases List.mem_cons.mp h with h | h
          · cases h
          · cases List.mem_singleton.mp h
            exact hreply
        rcases hend with ⟨resp, hread, rfl, rfl⟩ | ⟨err, hread, rfl, rfl⟩ | ⟨hnot, rfl, err, rfl⟩
        · exact iff_of_true rfl ⟨hemits, fun _ _ => hmem (handled_of_ok hread)⟩
        · exact iff_of_true rfl ⟨hemits, fun _ _ => hmem (handled_of_ingestError hread)⟩
        · exact iff_of_false nofun fun h => hnot (h.2 request reply (by simp))
      · exact iff_of_false nofun fun h => hnot h.1

omit [Ucd] in
/-- What comes first and is no request has no reply. -/
theorem replies_cons {y : Performed (Ans PendingAns)} (hy : ∀ request, y.op ≠ .urlopen request) :
    (∀ request reply, ⟨.urlopen request, reply⟩ ∈ trace → reply.Handled libs)
      ↔ ∀ request reply, ⟨.urlopen request, reply⟩ ∈ y :: trace → reply.Handled libs := by
  constructor
  · intro h request reply hmem
    rcases List.mem_cons.mp hmem with rfl | hmem
    · exact absurd rfl (hy request)
    · exact h request reply hmem
  · exact fun h request reply hmem => h request reply (List.mem_cons_of_mem _ hmem)

/-- **In a run without `strict` a callback returns** exactly where nothing
gets through. -/
theorem returns_iff (hstrict : self.strict = false) {callback : Callback Out}
    (h : (self.run libs strOf callback).Runs trace r) :
    r = .ok () ↔ self.Returns libs strOf callback trace := by
  cases callback with
  | toolStart serialized inputStr runId inputs =>
    unfold OpenTermsCallbackHandler.run OpenTermsCallbackHandler.onToolStart runIdOr at h
    cases runId with
    | some rid =>
      dsimp only at h
      rw [pure_eq, done_ok_bind, op_bind, runs_perform] at h
      obtain ⟨x, rest, rfl, h⟩ := h
      refine (onToolStart_returns hstrict x h).trans (and_congr_right fun _ => ?_)
      exact replies_cons (by exact nofun)
    | none =>
      dsimp only at h
      rw [op_bind, perform_bind, runs_perform] at h
      obtain ⟨y, rest, rfl, h⟩ := h
      rw [pure_eq, done_ok_bind, op_bind, runs_perform] at h
      obtain ⟨x, rest, rfl, h⟩ := h
      refine (onToolStart_returns hstrict x h).trans (and_congr_right fun _ => ?_)
      exact (replies_cons (by exact nofun)).trans (replies_cons (by exact nofun))
  | toolEnd output runId =>
    cases runId with
    | none =>
      obtain ⟨rfl, rfl⟩ := h
      exact iff_of_true rfl trivial
    | some rid =>
      unfold OpenTermsCallbackHandler.run OpenTermsCallbackHandler.onToolEnd at h
      dsimp only at h
      rw [op_bind, runs_perform] at h
      obtain ⟨taken, rest, rfl, h⟩ := h
      by_cases hpost : self.emitPostAction = true
      · rw [if_pos hpost] at h
        cases taken with
        | none =>
          obtain ⟨rfl, rfl⟩ := h
          refine iff_of_true rfl fun _ hmem => ?_
          obtain ⟨p, hmem⟩ := hmem
          cases List.mem_singleton.mp hmem
        | some p =>
          have htaken : ∃ p', (⟨.own (.pop rid), some p'⟩ : Performed (Ans PendingAns))
              ∈ ⟨.own (.pop rid), some p⟩ :: rest := ⟨p, List.mem_cons_self⟩
          refine (emitPending_returns hstrict h).trans ?_
          change _ ↔ (_ → _ → _)
          rw [forall_prop_of_true hpost, forall_prop_of_true htaken]
          refine and_congr_right fun _ => and_congr_right fun _ => ?_
          exact replies_cons (by exact nofun)
      · rw [if_neg hpost] at h
        obtain ⟨rfl, rfl⟩ := h
        exact iff_of_true rfl fun hpost' => absurd hpost' hpost
  | toolError runId =>
    refine iff_of_true ?_ trivial
    cases runId with
    | none => exact h.2.symm
    | some rid =>
      obtain ⟨_, _, -, -, rfl⟩ := h
      rfl

end LangChain

end OpenTerms
