import OpenTerms.Common.Places
import OpenTerms.Common.Threads
import OpenTerms.LangChain.Callbacks
import OpenTerms.Py.Ingest.Sample

/-!
# Pre- and post-action receipts of a run

The callbacks of one handler, made by any number of callers and
interleaved at will, share the pending receipts. The locked sections are
atomic. `Paired` says what holds of every record: each post-action receipt
carries the id its run's own start generated (`own`), no id is posted
twice (`once`), and what is pending is what the newest locked section on
each run left (`keys`, `leak`).

A section decides, not a post: once an end has taken its entry, it posts
whatever other callbacks of the run do in the meantime.
-/

namespace OpenTerms

namespace LangChain

open Json Py Py.Ingest Prog OpenTerms.System

/-! ## The system -/

/-- What comes in from outside at a move. -/
structure Moment where
  uuid : Stamp
  iso : Stamp
  reply : Reply

/-- The receipts pending. -/
abbrev Pending := RunId → Option PendingReceipt

/-- What the operations do to the receipts pending. -/
def handle (pending : Pending) (input : Moment) : (o : Op PendingOp) → Ans PendingAns o × Pending
  | .uuid4 => (input.uuid, pending)
  | .utcnowIso => (input.iso, pending)
  | .urlopen _ => (input.reply, pending)
  | .own (.set rid receipt) => ((), Function.update pending rid (some receipt))
  | .own (.pop rid) => (pending rid, Function.update pending rid none)

section

variable [Ucd] {Out : Type}

/-- The callbacks of a handler over what is pending. -/
def OpenTermsCallbackHandler.system (self : OpenTermsCallbackHandler) (libs : Libs)
    (strOf : Out → Except Exc PyStr) :
    System (Op PendingOp) (Ans PendingAns) Exc Unit (Callback Out) Pending Moment where
  body := self.run libs strOf
  handle := handle

end

abbrev Record (Out ι : Type) := List (Event (Ans PendingAns) Exc Unit (Callback Out) ι)

abbrev State (Out ι : Type) :=
  Config (Op PendingOp) (Ans PendingAns) Exc Unit (Callback Out) ι Pending

/-- A callback that starts the run. -/
def Starts {Out : Type} (r : RunId) : Callback Out → Prop
  | .toolStart _ _ runId _ => runId = some r
  | _ => False

/-- A callback that ends the run, well or with an error. -/
def Closes {Out : Type} (r : RunId) : Callback Out → Prop
  | .toolStart .. => False
  | .toolEnd _ runId => runId = some r
  | .toolError runId => runId = some r

variable {Out ι : Type}

/-- What a locked section on the run leaves; `none` of any other event. -/
def sectionOn (r : RunId) :
    Event (Ans PendingAns) Exc Unit (Callback Out) ι → Option (Option PendingReceipt)
  | .performed _ _ ⟨.own (.set rid receipt), _⟩ => if rid = r then some (some receipt) else none
  | .performed _ _ ⟨.own (.pop rid), _⟩ => if rid = r then some none else none
  | _ => none

/-- What the newest locked section on the run left. -/
def left (r : RunId) (h : Record Out ι) : Option PendingReceipt := (h.findSome? (sectionOn r)).join

variable [DecidableEq ι]

/-- The newest locked section on the run is that of a start of it, and set
a receipt with the id which that start generated. -/
def Held (r : RunId) (p : PendingReceipt) (h : Record Out ι) : Prop :=
  ∃ newer older j k trace, h = newer ++ .performed j k ⟨.own (.set r p), ()⟩ :: older
    ∧ Starts r k ∧ lastCall j older = some (k, trace) ∧ ⟨.uuid4, p.receiptId⟩ ∈ trace
    ∧ ∀ e ∈ newer, sectionOn r e = none

/-- The ids of the post-action receipts on record. -/
def posted : Record Out ι → List PyObj
  | [] => []
  | .performed _ (.toolEnd _ _) ⟨.urlopen request, _⟩ :: h =>
    (get? (lit "receipt_id") request.signed).toList ++ posted h
  | _ :: h => posted h

section

variable [Ucd]

/-- Callbacks have a run id, and `uuid4` gives none twice. -/
def Given (c : State Out ι) : Move (Callback Out) ι Moment → Prop
  | .call _ k => k.runId ≠ none
  | .step _ input =>
    ∀ j k x, .performed j k ⟨.uuid4, x⟩ ∈ c.history → x.text ≠ input.uuid.text

/-- **What pairs the receipts.** -/
structure Paired (c : State Out ι) : Prop where
  /-- A post-action receipt of a run has the id of the receipt its end took,
  and that is one of the run's own start: between the two sections there is
  none on that run, and so no end or error came and went. -/
  own : ∀ newer older i output r request reply,
    c.history = newer ++ .performed i (.toolEnd output (some r)) ⟨.urlopen request, reply⟩ :: older →
    ∃ p between before,
      older = between ++ .performed i (.toolEnd output (some r)) ⟨.own (.pop r), some p⟩ :: before
      ∧ get? (lit "receipt_id") request.signed = some (.str p.receiptId.text)
      ∧ Held r p before
  /-- No id is posted twice. -/
  once : (posted c.history).Nodup
  /-- What is pending is what the starts of runs have set and no end or error
  has taken. -/
  keys : ∀ r p, c.shared r = some p ↔ Held r p c.history
  /-- A callback that returns has been through its section; a start unless
  it raised what is no `IngestError`. -/
  ended : ∀ newer older i k result, c.history = newer ++ .returned i k result :: older →
    ∃ trace, lastCall i older = some (k, trace) ∧ Ended k trace result
  /-- An end or an error of a run that came and went performed a section on
  the run in between. -/
  seen : ∀ newer between older i k k' result r,
    c.history = newer ++ .returned i k result :: (between ++ older) → .called i k' ∈ between →
    Closes r k → ∃ e ∈ between, sectionOn r e ≠ none
  /-- Where nothing is under way and each start of a run that returned was
  followed by an end or an error of it, the run is not pending. -/
  leak : (∀ i, c.threads i = none) → ∀ r,
    (∀ newer older j k result, c.history = newer ++ .returned j k result :: older → Starts r k →
      ∃ i' k', Closes r k' ∧ .called i' k' ∈ newer) →
    c.shared r = none

/-! ## Sections -/

variable {self : OpenTermsCallbackHandler} {libs : Libs} {strOf : Out → Except Exc PyStr}
variable {May : State Out ι → Move (Callback Out) ι Moment → Prop}
variable {c : State Out ι}

omit [DecidableEq ι] [Ucd] in
theorem sectionOn_eq_some {r : RunId} {p : PendingReceipt}
    {e : Event (Ans PendingAns) Exc Unit (Callback Out) ι} (h : sectionOn r e = some (some p)) :
    ∃ j k, e = .performed j k ⟨.own (.set r p), ()⟩ := by
  match e with
  | .performed j k ⟨.own (.set rid receipt), x⟩ =>
    simp only [sectionOn] at h
    split_ifs at h with hrid
    cases h
    subst hrid
    exact ⟨j, k, rfl⟩
  | .performed j k ⟨.own (.pop rid), x⟩ =>
    simp only [sectionOn] at h
    split_ifs at h with hrid
    cases h
  | .performed j k ⟨.uuid4, x⟩ => cases h
  | .performed j k ⟨.utcnowIso, x⟩ => cases h
  | .performed j k ⟨.urlopen request, x⟩ => cases h
  | .called j k => cases h
  | .returned j k result => cases h

omit [DecidableEq ι] [Ucd] in
/-- What was left was set, and no section on the run came after. -/
theorem left_eq_some_iff {r : RunId} {p : PendingReceipt} {h : Record Out ι} :
    left r h = some p ↔ ∃ newer older j k, h = newer ++ .performed j k ⟨.own (.set r p), ()⟩ :: older
      ∧ ∀ e ∈ newer, sectionOn r e = none := by
  unfold left
  rw [Option.join_eq_some_iff, List.findSome?_eq_some_iff]
  constructor
  · rintro ⟨newer, e, older, rfl, he, hnewer⟩
    obtain ⟨j, k, rfl⟩ := sectionOn_eq_some he
    exact ⟨newer, older, j, k, rfl, hnewer⟩
  · rintro ⟨newer, older, j, k, rfl, hnewer⟩
    exact ⟨newer, _, older, rfl, if_pos rfl, hnewer⟩

omit [DecidableEq ι] [Ucd] in
theorem left_cons (r : RunId) (e : Event (Ans PendingAns) Exc Unit (Callback Out) ι)
    (h : Record Out ι) : left r (e :: h) = (sectionOn r e).getD (left r h) := by
  unfold left
  rw [List.findSome?_cons]
  cases sectionOn r e <;> rfl

/-- **What is pending** is what the newest sections left. -/
theorem shared_eq (h : (self.system libs strOf).Reaches May (.start fun _ => none) c) :
    ∀ r, c.shared r = left r c.history := by
  refine h.invariant (fun d => ∀ r, d.shared r = left r d.history) ?_ ?_ ?_ fun _ => rfl
  · intro d i k _ hd
    exact hd
  · intro d i input k trace o next _ _ hd r
    match o with
    | .uuid4 => exact hd r
    | .utcnowIso => exact hd r
    | .urlopen request => exact hd r
    | .own (.set rid receipt) =>
      rw [System.perform, left_cons]
      show Function.update d.shared rid (some receipt) r
        = (if rid = r then some (some receipt) else none).getD (left r d.history)
      by_cases hr : rid = r
      · subst hr
        rw [Function.update_self, if_pos rfl, Option.getD_some]
      · rw [Function.update_of_ne (Ne.symm hr), if_neg hr, Option.getD_none, hd r]
    | .own (.pop rid) =>
      rw [System.perform, left_cons]
      show Function.update d.shared rid none r
        = (if rid = r then some none else none).getD (left r d.history)
      by_cases hr : rid = r
      · subst hr
        rw [Function.update_self, if_pos rfl, Option.getD_some]
      · rw [Function.update_of_ne (Ne.symm hr), if_neg hr, Option.getD_none, hd r]
  · intro d i k trace result _ hd
    exact hd

/-- A pop is answered by what was left. -/
theorem popped_eq (h : (self.system libs strOf).Reaches May (.start fun _ => none) c) :
    ∀ newer older i k r taken,
      c.history = newer ++ .performed i k ⟨.own (.pop r), taken⟩ :: older → taken = left r older := by
  induction h with
  | refl =>
    intro newer older i k r taken hhist
    cases newer <;> cases hhist
  | move hd _ hm ih =>
    intro newer older i k r taken hhist
    obtain ⟨j, k', rfl, -, rfl⟩ | ⟨j, input, k', trace, o, next, rfl, -, rfl⟩
      | ⟨j, input, k', trace, result, rfl, -, rfl⟩ := move_cases hm
    · cases newer with
      | nil => cases hhist
      | cons e newer => exact ih newer older i k r taken (List.cons.inj hhist).2
    · cases newer with
      | nil =>
        cases hhist
        exact shared_eq hd r
      | cons e newer => exact ih newer older i k r taken (List.cons.inj hhist).2
    · cases newer with
      | nil => cases hhist
      | cons e newer => exact ih newer older i k r taken (List.cons.inj hhist).2

/-- Every callback does what it does, and ends as it ends. -/
theorem recorded (hmay : ∀ d m, May d m → Given d m)
    (h : (self.system libs strOf).Reaches May (.start fun _ => none) c) :
    Recorded (self.Does libs strOf) Ended c.history :=
  h.records_allowed fun d i k hk => run_does k (hmay d (.call i k) hk)

/-! ## Where what is left comes from -/

/-- A set is that of a start of the run, of the id it generated. -/
theorem starts_of_set (hrec : Recorded (self.Does libs strOf) Ended c.history) {r : RunId}
    {p : PendingReceipt} {newer older : Record Out ι} {j : ι} {k : Callback Out}
    (hhist : c.history = newer ++ .performed j k ⟨.own (.set r p), ()⟩ :: older) :
    Starts r k ∧ ∃ trace, lastCall j older = some (k, trace) ∧ ⟨.uuid4, p.receiptId⟩ ∈ trace := by
  rw [hhist] at hrec
  obtain ⟨trace, hlast, hdoes⟩ := hrec.append.1
  match k with
  | .toolStart serialized inputStr (some r') inputs =>
    obtain ⟨rfl, request, reply, stamp, rfl⟩ := hdoes
    exact ⟨rfl, _, hlast, by simp⟩
  | .toolStart serialized inputStr none inputs => exact hdoes.elim
  | .toolEnd output runId =>
    cases runId with
    | none => exact hdoes.elim
    | some r' => exact hdoes.elim
  | .toolError runId =>
    cases runId with
    | none => exact hdoes.elim
    | some r' => exact hdoes.elim

/-- What is left on a part of the record is held there. -/
theorem left_eq_some_iff_held (hrec : Recorded (self.Does libs strOf) Ended c.history)
    {recent h : Record Out ι} (hhist : c.history = recent ++ h) {r : RunId} {p : PendingReceipt} :
    left r h = some p ↔ Held r p h := by
  rw [left_eq_some_iff]
  constructor
  · rintro ⟨newer, older, j, k, rfl, hnewer⟩
    obtain ⟨hstarts, trace, hlast, hmem⟩ :=
      starts_of_set hrec (hhist.trans (List.append_assoc ..).symm)
    exact ⟨newer, older, j, k, trace, rfl, hstarts, hlast, hmem, hnewer⟩
  · rintro ⟨newer, older, j, k, trace, rfl, -, -, -, hnewer⟩
    exact ⟨newer, older, j, k, rfl, hnewer⟩

/-- **Own.** -/
theorem own (hrec : Recorded (self.Does libs strOf) Ended c.history)
    (h : (self.system libs strOf).Reaches May (.start fun _ => none) c)
    {newer older : Record Out ι} {i : ι} {output : Out} {r : RunId} {request : Request}
    {reply : Reply} (hhist : c.history
      = newer ++ .performed i (.toolEnd output (some r)) ⟨.urlopen request, reply⟩ :: older) :
    ∃ p between before,
      older = between ++ .performed i (.toolEnd output (some r)) ⟨.own (.pop r), some p⟩ :: before
      ∧ get? (lit "receipt_id") request.signed = some (.str p.receiptId.text)
      ∧ Held r p before := by
  have hhead := hrec
  rw [hhist] at hhead
  obtain ⟨⟨trace, hlast, hdoes⟩, holder⟩ := hhead.append
  obtain ⟨-, p, stamp, text, hash, rfl, -, -, agent, ts, -, hsign⟩ := hdoes
  have htrace : lastCall i older = some (.toolEnd output (some r),
      [⟨.utcnowIso, stamp⟩] ++ ⟨.own (.pop r), some p⟩ :: []) := hlast
  obtain ⟨between, before, rfl, -⟩ := performed_of_lastCall holder htrace
  have hpop : c.history = (newer ++ .performed i (.toolEnd output (some r)) ⟨.urlopen request, reply⟩
      :: between) ++ .performed i (.toolEnd output (some r)) ⟨.own (.pop r), some p⟩ :: before := by
    rw [hhist, List.append_assoc, List.cons_append]
  refine ⟨p, between, before, rfl, (get?_signed_receipt rfl hsign).1, ?_⟩
  have hleft := popped_eq h _ _ _ _ _ _ hpop
  rw [List.append_cons] at hpop
  exact (left_eq_some_iff_held hrec hpop).mp hleft.symm

/-- **Ended.** -/
theorem ended (hrec : Recorded (self.Does libs strOf) Ended c.history) {newer older : Record Out ι}
    {i : ι} {k : Callback Out} {result : Except Exc Unit}
    (hhist : c.history = newer ++ .returned i k result :: older) :
    ∃ trace, lastCall i older = some (k, trace) ∧ Ended k trace result := by
  rw [hhist] at hrec
  exact hrec.append.1

/-- An end or an error of a run that came and went performed a section on the
run in between. -/
theorem section_of_closed (hrec : Recorded (self.Does libs strOf) Ended c.history)
    {newer between older : Record Out ι} {i : ι} {k k' : Callback Out} {result : Except Exc Unit}
    {r : RunId} (hhist : c.history = newer ++ .returned i k result :: (between ++ older))
    (hcall : .called i k' ∈ between) (hk : Closes r k) :
    ∃ e ∈ between, sectionOn r e ≠ none := by
  obtain ⟨trace, hlast, hended⟩ := ended hrec hhist
  rw [lastCall_append hcall] at hlast
  have hpopped : ∃ taken, ⟨.own (.pop r), taken⟩ ∈ trace := by
    match k with
    | .toolEnd output runId =>
      cases hk
      exact hended
    | .toolError runId =>
      cases hk
      exact hended
  obtain ⟨taken, hmem⟩ := hpopped
  obtain ⟨k'', he⟩ := mem_of_lastCall hlast hmem
  refine ⟨_, he, ?_⟩
  rw [sectionOn, if_pos rfl]
  exact Option.some_ne_none _

/-! ## Nothing leaks -/

/-- A call that has not been through its section. -/
def Untouched (trace : List (Performed (Ans PendingAns))) : Prop :=
  ∀ o ans, ⟨.own o, ans⟩ ∉ trace

/-- A run that is pending is being started, or was started, and each end or
error that came since is still to perform its section. -/
def Open (r : RunId) (c : State Out ι) : Prop :=
  (∃ i t, c.threads i = some t ∧ Starts r t.call)
    ∨ ∃ newer older j k result, c.history = newer ++ .returned j k result :: older ∧ Starts r k
      ∧ ∀ i' k', Closes r k' → .called i' k' ∈ newer →
        ∃ t, c.threads i' = some t ∧ Closes r t.call ∧ Untouched t.trace

/-- An end or an error that has not been through its section performs just
that. -/
theorem pop_of_untouched {k : Callback Out} {trace : List (Performed (Ans PendingAns))}
    {o : Op PendingOp} {r : RunId} (hk : Closes r k) (htrace : Untouched trace)
    (hdoes : self.Does libs strOf k trace o) : o = .own (.pop r) := by
  match k, o with
  | .toolEnd output runId, o =>
    cases hk
    match o with
    | .own (.pop rid) =>
      obtain ⟨rfl, -⟩ := hdoes
      rfl
    | .utcnowIso =>
      obtain ⟨p, rfl⟩ := hdoes
      exact absurd List.mem_cons_self (htrace _ _)
    | .urlopen request =>
      obtain ⟨-, p, stamp, text, hash, rfl, -⟩ := hdoes
      exact absurd (List.mem_cons_of_mem _ List.mem_cons_self) (htrace _ _)
    | .uuid4 => exact hdoes.elim
    | .own (.set rid receipt) => exact hdoes.elim
  | .toolError runId, o =>
    cases hk
    match o with
    | .own (.pop rid) =>
      obtain ⟨rfl, -⟩ := hdoes
      rfl
    | .utcnowIso => exact hdoes.elim
    | .urlopen request => exact hdoes.elim
    | .uuid4 => exact hdoes.elim
    | .own (.set rid receipt) => exact hdoes.elim

omit [DecidableEq ι] [Ucd] in
/-- And has not returned. -/
theorem not_untouched_of_ended {k : Callback Out} {trace : List (Performed (Ans PendingAns))}
    {result : Except Exc Unit} {r : RunId} (hk : Closes r k) (hended : Ended k trace result) :
    ¬ Untouched trace := by
  match k with
  | .toolEnd output runId =>
    cases hk
    obtain ⟨taken, hmem⟩ := hended
    exact fun htrace => htrace _ _ hmem
  | .toolError runId =>
    cases hk
    obtain ⟨taken, hmem⟩ := hended
    exact fun htrace => htrace _ _ hmem

/-- A set is performed by a start of its run. -/
theorem starts_of_does_set {k : Callback Out} {trace : List (Performed (Ans PendingAns))} {r : RunId}
    {p : PendingReceipt} (hdoes : self.Does libs strOf k trace (.own (.set r p))) : Starts r k := by
  match k with
  | .toolStart serialized inputStr (some r') inputs =>
    obtain ⟨rfl, -⟩ := hdoes
    rfl
  | .toolStart serialized inputStr none inputs => exact hdoes.elim
  | .toolEnd output (some r') => exact hdoes.elim
  | .toolEnd output none => exact hdoes.elim
  | .toolError (some r') => exact hdoes.elim
  | .toolError none => exact hdoes.elim

omit [DecidableEq ι] [Ucd] in
theorem not_closes_of_starts {k : Callback Out} {r r' : RunId} (hk : Starts r k) :
    ¬ Closes r' k := by
  match k with
  | .toolStart serialized inputStr runId inputs => exact fun h => h

section

variable {d : State Out ι} {i : ι}
variable {k : Callback Out} {trace : List (Performed (Ans PendingAns))} {r : RunId}

/-- A call that begins leaves a run open. -/
theorem Open.begin (hopen : Open r d) (hi : d.threads i = none) :
    Open r ((self.system libs strOf).begin d i k) := by
  have hthreads {j : ι} {t : Thread (Op PendingOp) (Ans PendingAns) Exc Unit (Callback Out)}
      (hj : d.threads j = some t) : ((self.system libs strOf).begin d i k).threads j = some t := by
    have hne : j ≠ i := by
      rintro rfl
      cases hi.symm.trans hj
    exact (Function.update_of_ne hne ..).trans hj
  rcases hopen with ⟨j, t, hj, ht⟩ | ⟨newer, older, j, kj, result, hhist, hstarts, hclosed⟩
  · exact .inl ⟨j, t, hthreads hj, ht⟩
  · refine .inr ⟨.called i k :: newer, older, j, kj, result, congrArg (_ :: ·) hhist, hstarts,
      fun i' k' hk' hmem => ?_⟩
    rcases List.mem_cons.mp hmem with heq | hmem
    · cases heq
      exact ⟨_, Function.update_self .., hk', fun _ _ h => by cases h⟩
    · obtain ⟨t, ht, hclosed⟩ := hclosed i' k' hk' hmem
      exact ⟨t, hthreads ht, hclosed⟩

/-- An operation leaves a run open that is not one of an end or error of it
still to perform its section. -/
theorem Open.perform {o : Op PendingOp} {next : Ans PendingAns o → HandlerM Unit} {input : Moment}
    (hopen : Open r d) (hi : d.threads i = some ⟨k, trace, .perform o next⟩)
    (hk : Closes r k → ¬ Untouched trace) :
    Open r ((self.system libs strOf).perform d i k trace input o next) := by
  rcases hopen with ⟨j, t, hj, ht⟩ | ⟨newer, older, j, kj, result, hhist, hstarts, hclosed⟩
  · by_cases hji : j = i
    · subst hji
      cases hi.symm.trans hj
      exact .inl ⟨j, _, Function.update_self .., ht⟩
    · exact .inl ⟨j, t, (Function.update_of_ne hji ..).trans hj, ht⟩
  · refine .inr ⟨_ :: newer, older, j, kj, result, congrArg (_ :: ·) hhist, hstarts,
      fun i' k' hk' hmem => ?_⟩
    rcases List.mem_cons.mp hmem with heq | hmem
    · cases heq
    · obtain ⟨t, ht, hcall, huntouched⟩ := hclosed i' k' hk' hmem
      have hne : i' ≠ i := by
        rintro rfl
        cases hi.symm.trans ht
        exact hk hcall huntouched
      exact ⟨t, (Function.update_of_ne hne ..).trans ht, hcall, huntouched⟩

omit [Ucd] in
/-- A call that returns leaves a run open. -/
theorem Open.finish {result : Except Exc Unit} (hopen : Open r d)
    (hi : d.threads i = some ⟨k, trace, .done result⟩) (hended : Ended k trace result) :
    Open r (Config.finish d i k result) := by
  rcases hopen with ⟨j, t, hj, ht⟩ | ⟨newer, older, j, kj, result', hhist, hstarts, hclosed⟩
  · by_cases hji : j = i
    · subst hji
      cases hi.symm.trans hj
      exact .inr ⟨[], _, j, k, result, rfl, ht, fun _ _ _ h => by cases h⟩
    · exact .inl ⟨j, t, (Function.update_of_ne hji ..).trans hj, ht⟩
  · refine .inr ⟨_ :: newer, older, j, kj, result', congrArg (_ :: ·) hhist, hstarts,
      fun i' k' hk' hmem => ?_⟩
    rcases List.mem_cons.mp hmem with heq | hmem
    · cases heq
    · obtain ⟨t, ht, hcall, huntouched⟩ := hclosed i' k' hk' hmem
      have hne : i' ≠ i := by
        rintro rfl
        cases hi.symm.trans ht
        exact not_untouched_of_ended hcall hended huntouched
      exact ⟨t, (Function.update_of_ne hne ..).trans ht, hcall, huntouched⟩

end

/-- **A run that is pending is open.** -/
theorem open_of_pending (hmay : ∀ d m, May d m → Given d m)
    (h : (self.system libs strOf).Reaches May (.start fun _ => none) c) :
    ∀ r, c.shared r ≠ none → Open r c := by
  have hkeeping : Keeping (fun d : State Out ι => ∀ r, d.shared r ≠ none → Open r d) (self.Does libs strOf)
      (fun _ _ _ => True) Ended c := by
    refine h.keeps ?_ ?_ ?_ ⟨fun r hr => absurd rfl hr, fun _ _ h => by cases h⟩
    · intro d i k _ hk hi hd
      exact ⟨fun r hr => (hd.inv r hr).begin hi, run_does k (hmay d (.call i k) hk)⟩
    · intro d i input k trace o next _ _ hi hd hdoes
      refine ⟨fun r hr => ?_, trivial⟩
      -- a set opens its run, a pop leaves nothing pending
      match o with
      | .own (.set rid receipt) =>
        have hstarts := starts_of_does_set hdoes
        by_cases hrid : r = rid
        · subst hrid
          exact .inl ⟨i, _, Function.update_self .., hstarts⟩
        · have hpend : d.shared r ≠ none := fun hnone =>
            hr ((Function.update_of_ne hrid ..).trans hnone)
          exact (hd.inv r hpend).perform hi fun hk => absurd hk (not_closes_of_starts hstarts)
      | .own (.pop rid) =>
        by_cases hrid : r = rid
        · subst hrid
          exact absurd (Function.update_self ..) hr
        · have hpend : d.shared r ≠ none := fun hnone =>
            hr ((Function.update_of_ne hrid ..).trans hnone)
          refine (hd.inv r hpend).perform hi fun hk htrace => ?_
          cases pop_of_untouched hk htrace hdoes
          exact hrid rfl
      | .uuid4 =>
        refine (hd.inv r hr).perform hi fun hk htrace => ?_
        cases pop_of_untouched hk htrace hdoes
      | .utcnowIso =>
        refine (hd.inv r hr).perform hi fun hk htrace => ?_
        cases pop_of_untouched hk htrace hdoes
      | .urlopen request =>
        refine (hd.inv r hr).perform hi fun hk htrace => ?_
        cases pop_of_untouched hk htrace hdoes
    · intro d i input k trace result _ _ hi hd hended r hr
      exact (hd.inv r hr).finish hi hended
  exact hkeeping.inv

/-- **Leak.** -/
theorem leak (hmay : ∀ d m, May d m → Given d m)
    (h : (self.system libs strOf).Reaches May (.start fun _ => none) c)
    (hidle : ∀ i, c.threads i = none) {r : RunId}
    (hclosed : ∀ newer older j k result, c.history = newer ++ .returned j k result :: older →
      Starts r k → ∃ i' k', Closes r k' ∧ .called i' k' ∈ newer) :
    c.shared r = none := by
  by_contra hr
  rcases open_of_pending hmay h r hr with ⟨i, t, hi, -⟩
    | ⟨newer, older, j, k, result, hhist, hstarts, hwaiting⟩
  · cases (hidle i).symm.trans hi
  · obtain ⟨i', k', hk', hmem⟩ := hclosed newer older j k result hhist hstarts
    obtain ⟨t, ht, -⟩ := hwaiting i' k' hk' hmem
    cases (hidle i').symm.trans ht

/-! ## Nothing is posted twice -/

/-- The id a callback under way has generated or taken, and neither set nor
posted. -/
def carried : Callback Out → List (Performed (Ans PendingAns)) → Option PyObj
  | _, ⟨.uuid4, x⟩ :: _ => some (.str x.text)
  | _, ⟨.own (.pop _), taken⟩ :: _ => taken.map fun p => .str p.receiptId.text
  | _, ⟨.own (.set ..), _⟩ :: _ => none
  | k, ⟨.utcnowIso, _⟩ :: trace => carried k trace
  | .toolEnd .., ⟨.urlopen _, _⟩ :: _ => none
  | k, ⟨.urlopen _, _⟩ :: trace => carried k trace
  | _, [] => none

/-- The ids that are pending, and those that are carried. -/
def holds (c : State Out ι) : RunId ⊕ ι → Option PyObj
  | .inl r => (c.shared r).map fun p => .str p.receiptId.text
  | .inr i => (c.threads i).bind fun t => carried t.call t.trace

/-- The ids on record. -/
def Generated (h : Record Out ι) (x : PyObj) : Prop :=
  ∃ j k y, .performed j k ⟨.uuid4, y⟩ ∈ h ∧ x = .str y.text

/-- Each id is in one place, or was posted once. -/
def SoleIds (d : State Out ι) : Prop := Sole (posted d.history) (Generated d.history) (holds d)

section

variable {d : State Out ι} {i : ι} {k : Callback Out} {trace : List (Performed (Ans PendingAns))}
variable {rest : HandlerM Unit} {input : Moment} {e : Event (Ans PendingAns) Exc Unit (Callback Out) ι}

omit [DecidableEq ι] [Ucd] in
theorem Generated.cons {h : Record Out ι} {x : PyObj} (hx : Generated h x) : Generated (e :: h) x := by
  obtain ⟨j, k, y, hmem, rfl⟩ := hx
  exact ⟨j, k, y, List.mem_cons_of_mem _ hmem, rfl⟩

omit [Ucd] in
/-- What is held, where the call of one caller changes and nothing is
pending that was not. -/
theorem holds_update {shared : Pending} {history : Record Out ι}
    (t : Option (Thread (Op PendingOp) (Ans PendingAns) Exc Unit (Callback Out)))
    (hshared : shared = d.shared) :
    holds ⟨shared, Function.update d.threads i t, history⟩
      = Function.update (holds d) (.inr i) (t.bind fun t => carried t.call t.trace) := by
  subst hshared
  funext place
  match place with
  | .inl r => rw [Function.update_of_ne (by simp)]; rfl
  | .inr j =>
    by_cases hj : j = i
    · subst hj
      rw [Function.update_self]
      simp only [holds, Function.update_self]
    · rw [Function.update_of_ne (by simpa using hj)]
      simp only [holds, Function.update_of_ne hj]

omit [Ucd] in
/-- And where the entry of one run changes too. -/
theorem holds_update_run {r : RunId} {entry : Option PendingReceipt} {history : Record Out ι}
    (t : Option (Thread (Op PendingOp) (Ans PendingAns) Exc Unit (Callback Out))) :
    holds ⟨Function.update d.shared r entry, Function.update d.threads i t, history⟩
      = Function.update (Function.update (holds d) (.inr i) (t.bind fun t => carried t.call t.trace))
        (.inl r) (entry.map fun p => .str p.receiptId.text) := by
  funext place
  match place with
  | .inl r' =>
    by_cases hr : r' = r
    · subst hr
      rw [Function.update_self]
      simp only [holds, Function.update_self]
    · rw [Function.update_of_ne (by simpa using hr), Function.update_of_ne (by simp)]
      simp only [holds, Function.update_of_ne hr]
  | .inr j =>
    rw [Function.update_of_ne (by simp)]
    by_cases hj : j = i
    · subst hj
      rw [Function.update_self]
      simp only [holds, Function.update_self]
    · rw [Function.update_of_ne (by simpa using hj)]
      simp only [holds, Function.update_of_ne hj]

omit [DecidableEq ι] [Ucd] in
theorem holds_caller (hi : d.threads i = some ⟨k, trace, rest⟩) :
    holds d (.inr i) = carried k trace := by
  simp only [holds, hi, Option.bind_some]

omit [Ucd] in
theorem SoleIds.begin_or_finish (h : SoleIds d)
    {t : Option (Thread (Op PendingOp) (Ans PendingAns) Exc Unit (Callback Out))}
    (ht : (t.bind fun t => carried t.call t.trace) = none) (he : posted (e :: d.history) = posted d.history) :
    SoleIds ⟨d.shared, Function.update d.threads i t, e :: d.history⟩ := by
  unfold SoleIds
  rw [holds_update t rfl, ht]
  dsimp only
  rw [he]
  exact (h.drop _).mono fun _ => Generated.cons

/-- **An operation keeps the ids apart.** -/
theorem SoleIds.perform {o : Op PendingOp} {next : Ans PendingAns o → HandlerM Unit}
    (h : SoleIds d) (hi : d.threads i = some ⟨k, trace, .perform o next⟩)
    (hfresh : ∀ j k x, .performed j k ⟨.uuid4, x⟩ ∈ d.history → x.text ≠ input.uuid.text)
    (hdoes : self.Does libs strOf k trace o) :
    SoleIds ((self.system libs strOf).perform d i k trace input o next) := by
  have hcaller := holds_caller hi
  unfold SoleIds
  match o with
  | .uuid4 =>
    have hnew : ¬ Generated d.history (.str input.uuid.text) := by
      rintro ⟨j, k', y, hmem, heq⟩
      exact hfresh j k' y hmem (Json.str.inj heq).symm
    have hholds : holds ((self.system libs strOf).perform d i k trace input .uuid4 next)
        = Function.update (holds d) (.inr i) (some (.str input.uuid.text)) := by
      exact (holds_update (some _) rfl).trans (congrArg _ (by cases k <;> rfl))
    have hposted : posted ((self.system libs strOf).perform d i k trace input .uuid4 next).history
        = posted d.history := by cases k <;> rfl
    rw [hholds, hposted]
    refine (h.put hnew (.inr i)).mono fun y hy => ?_
    rcases hy with rfl | hy
    · exact ⟨i, k, input.uuid, List.mem_cons_self, rfl⟩
    · exact hy.cons
  | .utcnowIso =>
    have hholds : holds ((self.system libs strOf).perform d i k trace input .utcnowIso next)
        = holds d := by
      refine (holds_update (some _) rfl).trans ?_
      rw [Function.update_eq_self_iff, hcaller]
      cases k <;> rfl
    have hposted : posted ((self.system libs strOf).perform d i k trace input .utcnowIso next).history
        = posted d.history := by cases k <;> rfl
    rw [hholds, hposted]
    exact h.mono fun _ => Generated.cons
  | .urlopen request =>
    match k with
    | .toolStart serialized inputStr runId inputs =>
      have hholds : holds ((self.system libs strOf).perform d i
          (.toolStart serialized inputStr runId inputs) trace input (.urlopen request) next)
          = holds d := by
        refine (holds_update (some _) rfl).trans ?_
        rw [Function.update_eq_self_iff, hcaller]
        rfl
      show Sole (posted d.history) _ _
      rw [hholds]
      exact h.mono fun _ => Generated.cons
    | .toolEnd output (some r) =>
      -- the id goes from the caller onto the record
      obtain ⟨-, p, stamp, text, hash, rfl, -, -, agent, ts, -, hsign⟩ := hdoes
      have hholds : holds ((self.system libs strOf).perform d i (.toolEnd output (some r))
          [⟨.utcnowIso, stamp⟩, ⟨.own (.pop r), some p⟩] input (.urlopen request) next)
          = Function.update (holds d) (.inr i) none := holds_update (some _) rfl
      have hposted : posted ((self.system libs strOf).perform d i (.toolEnd output (some r))
          [⟨.utcnowIso, stamp⟩, ⟨.own (.pop r), some p⟩] input (.urlopen request) next).history
          = .str p.receiptId.text :: posted d.history :=
        congrArg (fun id => Option.toList id ++ posted d.history) (get?_signed_receipt rfl hsign).1
      rw [hholds, hposted]
      exact (h.letGo hcaller).mono fun _ => Generated.cons
  | .own (.set rid receipt) =>
    match k with
    | .toolStart serialized inputStr (some r) inputs =>
      obtain ⟨rfl, request, reply, stamp, rfl⟩ := hdoes
      have hholds : holds ((self.system libs strOf).perform d i
          (.toolStart serialized inputStr (some rid) inputs)
          [⟨.urlopen request, reply⟩, ⟨.utcnowIso, stamp⟩, ⟨.uuid4, receipt.receiptId⟩] input
          (.own (.set rid receipt)) next)
          = Function.update (Function.update (holds d) (.inr i) none) (.inl rid)
            (holds d (.inr i)) := by
        rw [hcaller]
        exact holds_update_run (some _)
      show Sole (posted d.history) _ _
      rw [hholds]
      exact (h.move _ _).mono fun _ => Generated.cons
  | .own (.pop rid) =>
    have hholds : holds ((self.system libs strOf).perform d i k trace input (.own (.pop rid)) next)
        = Function.update (Function.update (holds d) (.inl rid) none) (.inr i)
          (holds d (.inl rid)) := by
      rw [Function.update_comm (by simp)]
      refine (holds_update_run (some _)).trans ?_
      refine congrArg (fun v => Function.update (Function.update (holds d) (.inr i) v) _ none) ?_
      cases k <;> rfl
    have hposted : posted ((self.system libs strOf).perform d i k trace input (.own (.pop rid))
        next).history = posted d.history := by cases k <;> rfl
    rw [hholds, hposted]
    exact (h.move _ _).mono fun _ => Generated.cons

end

/-- **Once.** -/
theorem once (hmay : ∀ d m, May d m → Given d m)
    (h : (self.system libs strOf).Reaches May (.start fun _ => none) c) :
    (posted c.history).Nodup := by
  have hkeeping : Keeping SoleIds (self.Does libs strOf) (fun _ _ _ => True) Ended c := by
    refine h.keeps ?_ ?_ ?_ ⟨?_, fun _ _ h => by cases h⟩
    · intro d i k _ hk hi hd
      exact ⟨hd.inv.begin_or_finish rfl (by rfl), run_does k (hmay d (.call i k) hk)⟩
    · intro d i input k trace o next _ hk hi hd hdoes
      exact ⟨hd.inv.perform hi (hmay d (.step i input) hk) hdoes, trivial⟩
    · intro d i input k trace result _ _ hi hd hended
      exact hd.inv.begin_or_finish rfl (by rfl)
    · refine ⟨List.nodup_nil, fun x hx => (by cases hx), fun place x hx => ?_⟩
      match place with
      | .inl r => cases hx
      | .inr i => cases hx
  exact hkeeping.inv.nodup

/-- **The receipts of a run are paired**, over every record. -/
theorem paired (h : (self.system libs strOf).Reaches Given (.start fun _ => none) c) : Paired c := by
  have hmay : ∀ (d : State Out ι) m, Given d m → Given d m := fun _ _ h => h
  have hrec := recorded hmay h
  refine ⟨fun newer older i output r request reply hhist => own hrec h hhist, once hmay h, ?_,
    fun newer older i k result hhist => ended hrec hhist,
    fun newer between older i k k' result r hhist hcall hk => section_of_closed hrec hhist hcall hk,
    fun hidle r hclosed => leak hmay h hidle hclosed⟩
  intro r p
  rw [shared_eq h r]
  exact left_eq_some_iff_held hrec (List.nil_append _).symm

/-! ## One run -/

/-- The order callbacks come in: a run is started that is neither pending nor
under way, and ended, well or not, once its start has returned or raised an
`IngestError`. -/
def Orderly (c : State Out ι) (m : Move (Callback Out) ι Moment) : Prop :=
  Given c m ∧ match m with
    | .call _ k => ∀ r,
      (Starts r k → c.shared r = none ∧ ∀ i t, c.threads i = some t → t.call.runId ≠ some r)
        ∧ (Closes r k → (∀ i t, c.threads i = some t → ¬ Starts r t.call)
          ∧ ∃ j k' result, .returned j k' result ∈ c.history ∧ Starts r k'
            ∧ (result = .ok () ∨ ∃ err, result = .error (.ingest err)))
    | .step .. => True

end

namespace Sample

open OpenTerms.Py.Ingest.Sample

attribute [local instance] Ucd.allPrintable

def handler : OpenTermsCallbackHandler where
  client := client
  agentId := lit "a1"
  termsUrl := lit "https://x.com/terms"
  termsHash := lit "t1"
  emitPostAction := true
  strict := false
  perToolTerms := []

def strOf (_ : Unit) : Except Exc PyStr := .ok (lit "done")

abbrev handlerSystem := handler.system libs strOf

def run : RunId := lit "r1"

/-- A moment, with the id `uuid4` would give. -/
def moment (uuid : Stamp) : Moment := ⟨uuid, now, accepted⟩

def id1 : Stamp := stamp "id-1" (by decide) (by decide)

def id2 : Stamp := stamp "id-2" (by decide) (by decide)

/-- One caller starts the run and ends it. Before the post-action receipt is
posted another reports an error of it. -/
def errorBeforePost : List (Move (Callback Unit) Bool Moment) :=
  let step := fun i => .step i (moment id2)
  [.call true (.toolStart (.obj []) (lit "in") (some run) none), .step true (moment id1), step true,
    step true, step true, step true, .call true (.toolEnd () (some run)), step true, step true,
    .call false (.toolError (some run)), step false, step false, step true]

/-- Whether a callback of these two callers is under way. -/
def underWay (p : Callback Unit → Bool) (c : State Unit Bool) : Bool :=
  [true, false].any fun i => (c.threads i).any fun t => p t.call

def startsRun (r : RunId) : Callback Unit → Bool
  | .toolStart _ _ runId _ => runId = some r
  | _ => false

def startReturned (r : RunId) : Event (Ans PendingAns) Exc Unit (Callback Unit) Bool → Bool
  | .returned _ k (.ok ()) => startsRun r k
  | _ => false

def generated (h : Record Unit Bool) : List PyStr :=
  h.filterMap fun
    | .performed _ _ ⟨.uuid4, x⟩ => some x.text
    | _ => none

/-- `Orderly`, of two callers. -/
def orderly (c : State Unit Bool) : Move (Callback Unit) Bool Moment → Bool
  | .call _ k =>
    match k.runId with
    | none => false
    | some r =>
      if startsRun r k then (c.shared r).isNone && !underWay (fun k' => k'.runId = some r) c
      else !underWay (startsRun r) c && c.history.any (startReturned r)
  | .step _ input => input.uuid.text ∉ generated c.history

theorem startsRun_iff {r : RunId} {k : Callback Unit} : startsRun r k = true ↔ Starts r k := by
  match k with
  | .toolStart serialized inputStr runId inputs => exact decide_eq_true_iff
  | .toolEnd output runId => exact iff_of_false Bool.false_ne_true fun h => h
  | .toolError runId => exact iff_of_false Bool.false_ne_true fun h => h

theorem not_underWay {p : Callback Unit → Bool} {c : State Unit Bool} (h : (!underWay p c) = true) :
    ∀ i t, c.threads i = some t → p t.call = false := by
  intro i t hi
  rw [Bool.not_eq_true', underWay, List.any_eq_false] at h
  have hany := h i (by cases i <;> simp)
  rw [hi] at hany
  exact Bool.eq_false_iff.mpr hany

theorem runId_of_starts {r : RunId} {k : Callback Unit} (hk : Starts r k) : k.runId = some r := by
  match k with
  | .toolStart serialized inputStr runId inputs => exact hk

theorem runId_of_closes {r : RunId} {k : Callback Unit} (hk : Closes r k) :
    k.runId = some r ∧ startsRun r k = false := by
  match k with
  | .toolEnd output runId => exact ⟨hk, rfl⟩
  | .toolError runId => exact ⟨hk, rfl⟩

theorem orderly_spec (c : State Unit Bool) (m : Move (Callback Unit) Bool Moment)
    (h : orderly c m = true) : Orderly c m := by
  match m with
  | .step i input =>
    refine ⟨fun j k x hmem heq => ?_, trivial⟩
    have hnot : input.uuid.text ∉ generated c.history := of_decide_eq_true h
    exact hnot (List.mem_filterMap.mpr ⟨_, hmem, congrArg some heq⟩)
  | .call i k =>
    simp only [orderly] at h
    cases hk : k.runId with
    | none =>
      rw [hk] at h
      cases h
    | some r =>
      rw [hk] at h
      dsimp only at h
      have hgiven : k.runId ≠ none := by
        rw [hk]
        exact Option.some_ne_none r
      refine ⟨hgiven, fun r' => ⟨fun hstarts => ?_, fun hcloses => ?_⟩⟩
      · cases hk.symm.trans (runId_of_starts hstarts)
        rw [if_pos (startsRun_iff.mpr hstarts), Bool.and_eq_true] at h
        refine ⟨Option.isNone_iff_eq_none.mp h.1, fun i t hi hr => ?_⟩
        have hother := not_underWay h.2 i t hi
        exact of_decide_eq_false hother hr
      · cases hk.symm.trans (runId_of_closes hcloses).1
        rw [(runId_of_closes hcloses).2, if_neg Bool.false_ne_true, Bool.and_eq_true] at h
        refine ⟨fun i t hi hstarts => ?_, ?_⟩
        · have hother := not_underWay h.1 i t hi
          rw [startsRun_iff.mpr hstarts] at hother
          cases hother
        · obtain ⟨e, hmem, he⟩ := List.any_eq_true.mp h.2
          match e with
          | .returned j k' (.ok ()) => exact ⟨j, k', _, hmem, startsRun_iff.mp he, .inl rfl⟩

/-- The receipts posted, with whether they are post-action receipts. -/
def posts (h : Record Unit Bool) : List (Bool × ObjDict) :=
  h.filterMap fun
    | .performed _ (.toolStart ..) ⟨.urlopen request, _⟩ => some (false, request.signed)
    | .performed _ (.toolEnd ..) ⟨.urlopen request, _⟩ => some (true, request.signed)
    | _ => none

/-- The pairing holds where one caller starts the run and ends it, and
another reports an error before the post. -/
theorem paired_sample : ∃ c : State Unit Bool, Paired c ∧ (posts c.history).length = 2 := by
  have hrun : ((handlerSystem.run orderly (.start fun _ => none) errorBeforePost).map
      fun c => (posts c.history).length) = some 2 := by decide +kernel
  obtain ⟨c, hc, hlength⟩ := Option.map_eq_some_iff.mp hrun
  have hreach := reaches_of_run orderly_spec hc
  exact ⟨c, paired (hreach.mono fun _ _ h => h.1), hlength⟩

/-- A post-action receipt of the run whose error was just seen. -/
def postedAfterError : Record Unit Bool → Option (Bool × RunId × Request × Reply × Bool)
  | .performed i (.toolEnd () (some r)) ⟨.urlopen request, reply⟩
      :: .returned j (.toolError (some r')) (.ok ()) :: _ =>
    if r = r' then some (i, r, request, reply, j) else none
  | _ => none

/-- An end that has taken its entry posts after an error of the run came and
went. -/
theorem posts_after_error : ¬ ∀ c : State Unit Bool,
    handlerSystem.Reaches Orderly (.start fun _ => none) c →
      ∀ newer between older i j r request reply result,
        c.history = newer ++ .performed i (.toolEnd () (some r)) ⟨.urlopen request, reply⟩ ::
          (between ++ .returned j (.toolError (some r)) result :: older) →
        ∃ i' k, Starts r k ∧ .called i' k ∈ between := by
  intro h
  have hrun : ((handlerSystem.run orderly (.start fun _ => none) errorBeforePost).bind
      fun c => (postedAfterError c.history).map fun _ => ()) = some () := by decide +kernel
  obtain ⟨c, hc, hposted⟩ := Option.bind_eq_some_iff.mp hrun
  obtain ⟨⟨i, r, request, reply, j⟩, hposted, -⟩ := Option.map_eq_some_iff.mp hposted
  have hhist : ∃ older, c.history = .performed i (.toolEnd () (some r)) ⟨.urlopen request, reply⟩
      :: .returned j (.toolError (some r)) (.ok ()) :: older := by
    unfold postedAfterError at hposted
    split at hposted
    · rename_i heq
      split_ifs at hposted with hr
      cases hposted
      subst hr
      exact ⟨_, heq⟩
    · cases hposted
  obtain ⟨older, hhist⟩ := hhist
  obtain ⟨i', k, -, hmem⟩ :=
    h c (reaches_of_run orderly_spec hc) [] [] older i j r request reply (.ok ()) hhist
  cases hmem

end Sample

end LangChain

end OpenTerms
