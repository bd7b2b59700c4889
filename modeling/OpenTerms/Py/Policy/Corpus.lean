import OpenTerms.Py.Policy.Spec
import OpenTerms.Py.Verification

/-!
# `scripts/generate_corpus.py`: the decisions of a log

`evaluate_corpus` evaluates a log of receipts one by one, with the amount
charged earlier on the same UTC day as the aggregate of the policy's
first `daily_limit` rule. That rule sees the day's total
(`fires_dailyLimit_iff`). Any other one is looked up
under an id of its own, for which the snapshot has nothing, and sees each
receipt alone; so does the first one if its id is not a string. When the
limits hold all the same is `cumulative_iff`.
-/

namespace OpenTerms

namespace Py

namespace Corpus

open Json

/-- A receipt of the log: signed, its timestamp a UTC date and a time of
day, its amount an integer. -/
structure LogReceipt where
  receipt : PyDict
  day : PyStr
  time : PyStr
  amountCharged : ℤ
  canonicalHash : PyVal
  length_day : day.length = 10
  timestamp_eq : get? (lit "timestamp") receipt = some (.str (day ++ (chr 'T' :: time)))
  amount_eq : get? (lit "amount_charged") receipt = some (.num (.int amountCharged))
  hash_eq : get? (lit "canonical_hash") receipt = some canonicalHash

/-- `r["timestamp"]`. -/
def LogReceipt.timestamp (r : LogReceipt) : PyStr := r.day ++ (chr 'T' :: r.time)

/-- `utc_day_of`. -/
def utcDayOf (text : PyStr) : PyStr := text.take 10

/-- The first ten characters of a timestamp are its date. -/
theorem utcDayOf_timestamp (r : LogReceipt) : utcDayOf r.timestamp = r.day :=
  List.take_left' r.length_day

/-- The dict of one aggregate. A key that is no string is no rule's id,
and a list or a dict is no key. -/
def aggregateOf (prior : ℤ) : PyVal → Except PyErr PyDict
  | .str ruleId => .ok [(ruleId, .num (.int prior))]
  | .arr _ | .obj _ => .error .typeError
  | _ => .ok []

/-- The loop of `compute_daily_aggregates`, `perDay` the totals so far. -/
def dailyAggregates (ruleId : PyVal) :
    List LogReceipt → List (PyStr × ℤ) → Except PyErr (List PyDict)
  | [], _ => .ok []
  | r :: rs, perDay => do
    let day := utcDayOf r.timestamp
    let prior := (get? day perDay).getD 0
    let aggregate ← aggregateOf prior ruleId
    let out ← dailyAggregates ruleId rs (set day (prior + r.amountCharged) perDay)
    .ok (aggregate :: out)

/-- `compute_daily_aggregates`. -/
def computeDailyAggregates (receipts : List LogReceipt) (ruleId : PyVal) :
    Except PyErr (List PyDict) :=
  dailyAggregates ruleId receipts []

/-- The loop of `find_rule_id`. -/
def firstRuleId (ruleType : PyStr) : List PyVal → Except PyErr PyVal
  | [] => .error .keyError
  | r :: rs => do
    let type ← subscript (lit "type") r
    if pyEq type (.str ruleType) then subscript (lit "id") r else firstRuleId ruleType rs

/-- `find_rule_id`. -/
def findRuleId (policy : PyDict) (ruleType : PyStr) : Except PyErr PyVal := do
  let rules ← subscript (lit "rules") (.obj policy)
  let items ← iterate rules
  firstRuleId ruleType items

/-- An entry of the corpus's decisions. -/
structure CorpusDecision extends Decision where
  receiptHash : PyVal
  deriving DecidableEq

section

variable [Ucd] {T : Type} [LT T] [DecidableLT T] [Zero T] [Add T]

/-- The loop of `evaluate_corpus`, over the receipts and their aggregates,
with what the clock shows during each evaluation. -/
def decisions (policy : PyDict) (budgetSeconds : T) :
    List (LogReceipt × PyDict) → Stream' (Stream' T) → Except PyErr (List CorpusDecision)
  | [], _ => .ok []
  | (r, agg) :: rest, clocks => do
    let decision ← evaluate r.receipt (.dict policy) (some agg) budgetSeconds none clocks.head
    let ds ← decisions policy budgetSeconds rest clocks.tail
    .ok ({ decision with receiptHash := r.canonicalHash } :: ds)

/-- `evaluate_corpus`. The source's budget is 0.1 seconds a receipt. -/
def evaluateCorpus (receipts : List LogReceipt) (policy : PyDict) (budgetSeconds : T)
    (clocks : Stream' (Stream' T)) : Except PyErr (List CorpusDecision) := do
  let ruleId ← findRuleId policy (lit "daily_limit")
  let aggs ← computeDailyAggregates receipts ruleId
  decisions policy budgetSeconds (receipts.zip aggs) clocks

end

/-! ## The totals -/

/-- The sum of the amounts charged on a day. -/
def totalOn (day : PyStr) (rs : List LogReceipt) : ℤ :=
  ((rs.filter (·.day = day)).map LogReceipt.amountCharged).sum

theorem totalOn_concat (day : PyStr) (rs : List LogReceipt) (r : LogReceipt) :
    totalOn day (rs ++ [r]) = totalOn day rs + if r.day = day then r.amountCharged else 0 := by
  unfold totalOn
  rw [List.filter_append, List.map_append, List.sum_append]
  by_cases h : r.day = day
  · simp [h]
  · simp [h]

/-- A receipt brings its day's total up by its amount. -/
theorem totalOn_take_succ {receipts : List LogReceipt} {i : ℕ} {r : LogReceipt}
    (hr : receipts[i]? = some r) :
    totalOn r.day (receipts.take (i + 1)) = totalOn r.day (receipts.take i) + r.amountCharged := by
  rw [List.take_add_one, hr, Option.toList_some, totalOn_concat, if_pos rfl]

/-- What the aggregates of a receipt are, where they are any. -/
def snapshot (ruleId : PyVal) (prior : ℤ) : PyDict :=
  match ruleId with
  | .str id => [(id, .num (.int prior))]
  | _ => []

/-- A value that can be a key. -/
def Hashable (v : PyVal) : Prop := (∀ xs, v ≠ .arr xs) ∧ ∀ ms, v ≠ .obj ms

theorem aggregateOf_eq_ok_iff {prior : ℤ} {ruleId : PyVal} {agg : PyDict} :
    aggregateOf prior ruleId = .ok agg ↔ Hashable ruleId ∧ agg = snapshot ruleId prior := by
  unfold Hashable
  cases ruleId <;> simp [aggregateOf, snapshot, eq_comm]

/-- **The snapshots of a log**: each is the total of the receipts before,
on the day of the receipt. The loop keeps in `perDay` the totals of what
it has passed. -/
theorem dailyAggregates_eq_ok_iff {ruleId : PyVal} {rs done : List LogReceipt}
    {perDay : List (PyStr × ℤ)} {aggs : List PyDict}
    (hday : ∀ day, (get? day perDay).getD 0 = totalOn day done) :
    dailyAggregates ruleId rs perDay = .ok aggs
      ↔ (rs = [] ∨ Hashable ruleId)
        ∧ aggs = rs.mapIdx fun i r => snapshot ruleId (totalOn r.day (done ++ rs.take i)) := by
  induction rs generalizing done perDay aggs with
  | nil => simp [dailyAggregates, eq_comm]
  | cons r rs ih =>
    have hnext (day : PyStr) : (get? day (set r.day ((get? r.day perDay).getD 0 + r.amountCharged)
        perDay)).getD 0 = totalOn day (done ++ [r]) := by
      rw [get?_set, totalOn_concat, hday]
      by_cases h : r.day = day
      · subst h
        rw [if_pos rfl, if_pos rfl, Option.getD_some]
      · rw [if_neg h, if_neg h, hday, add_zero]
    rw [dailyAggregates, utcDayOf_timestamp]
    constructor
    · intro h
      obtain ⟨agg, hagg, h⟩ := bind_eq_ok_iff.mp h
      obtain ⟨out, hout, h⟩ := bind_eq_ok_iff.mp h
      obtain rfl := Except.ok.inj h
      obtain ⟨hhash, rfl⟩ := aggregateOf_eq_ok_iff.mp hagg
      obtain ⟨-, rfl⟩ := (ih hnext).mp hout
      refine ⟨.inr hhash, ?_⟩
      rw [List.mapIdx_cons, hday]
      simp only [List.take_zero, List.append_nil, List.take_succ_cons, List.append_assoc,
        List.singleton_append]
    · rintro ⟨hhash, rfl⟩
      have hhash := hhash.resolve_left (List.cons_ne_nil _ _)
      refine bind_eq_ok_iff.mpr ⟨_, aggregateOf_eq_ok_iff.mpr ⟨hhash, rfl⟩, ?_⟩
      refine bind_eq_ok_iff.mpr ⟨_, (ih hnext).mpr ⟨.inr hhash, rfl⟩, ?_⟩
      rw [List.mapIdx_cons, hday]
      simp only [List.take_zero, List.append_nil, List.take_succ_cons, List.append_assoc,
        List.singleton_append]

/-! ## The rule looked up -/

section

variable [Ucd]

omit [Ucd] in
/-- No two rule types are written alike. -/
theorem ruleText_injective {t t' : RuleType} (h : (lit t.text : PyStr) = lit t'.text) : t = t' := by
  have hnodup : (validRuleTypes.map fun t => (lit t.text : PyStr)).Nodup := by decide
  exact List.inj_on_of_nodup_map hnodup (mem_validRuleTypes t) (mem_validRuleTypes t') h

theorem firstRuleId_ok {raws : List PyVal} {rules : List Rule}
    (h : raws.mapM Rule.fromDict = .ok rules) {type : RuleType}
    (hrule : ∃ R ∈ rules, R.type = type) :
    ∃ ruleId, firstRuleId (lit type.text) raws = .ok ruleId := by
  induction raws generalizing rules with
  | nil =>
    obtain rfl := Except.ok.inj h
    obtain ⟨R, hR, -⟩ := hrule
    cases hR
  | cons raw raws ih =>
    rw [List.mapM_cons] at h
    obtain ⟨rule, hraw, h⟩ := bind_eq_ok_iff.mp h
    obtain ⟨rest, hrest, h⟩ := bind_eq_ok_iff.mp h
    obtain rfl := Except.ok.inj h
    obtain ⟨ms, id, rfl, htype, -, -, hid, -⟩ := ruleFromDict_eq_ok hraw
    rw [firstRuleId, subscript, htype, ok_bind, pyEq_str_right]
    by_cases hsame : rule.type = type
    · subst hsame
      rw [decide_eq_true rfl, if_pos rfl, subscript, hid]
      exact ⟨id, rfl⟩
    · have hne : (Json.str (lit rule.type.text) : PyVal) ≠ .str (lit type.text) :=
        fun h => hsame (ruleText_injective (Json.str.inj h))
      rw [decide_eq_false hne, if_neg Bool.false_ne_true]
      obtain ⟨R, hR, hRtype⟩ := hrule
      rcases List.mem_cons.mp hR with rfl | hR
      · exact absurd hRtype hsame
      · exact ih hrest ⟨R, hR, hRtype⟩

/-- A policy with a rule of a type has an id to look it up by. -/
theorem findRuleId_ok {policy : PyDict} {pol : Policy} (hpol : Policy.fromDict policy = .ok pol)
    {type : RuleType} (hrule : ∃ R ∈ pol.rules, R.type = type) :
    ∃ ruleId, findRuleId policy (lit type.text) = .ok ruleId := by
  unfold Policy.fromDict at hpol
  dsimp only at hpol
  unfold findRuleId subscript
  dsimp only
  cases hrules : get? (lit "rules") policy with
  | none =>
    rw [hrules] at hpol
    obtain rfl := Except.ok.inj hpol
    obtain ⟨R, hR, -⟩ := hrule
    cases hR
  | some raw =>
    rw [hrules] at hpol
    cases raw with
    | arr raws =>
      obtain ⟨rules, hrules, hpol⟩ := bind_eq_ok_iff.mp hpol
      obtain rfl := Except.ok.inj hpol
      exact firstRuleId_ok hrules hrule
    | null | bool | num | str | obj => cases hpol

/-! ## What a rule says under a snapshot -/

/-- A rule that limits the total of a UTC day. -/
structure LimitsDay (R : Rule) (threshold : ℤ) : Prop where
  type_eq : R.type = .dailyLimit
  window_eq : (get? (lit "window") R.parameters).getD (.str (lit "utc_day")) = .str (lit "utc_day")
  threshold_eq : get? (lit "threshold") R.parameters = some (.num (.int threshold))

/-- **The evaluator's own addition.** -/
theorem fires_dailyLimit_iff {R : Rule} {threshold prior : ℤ} (hR : LimitsDay R threshold)
    (r : LogReceipt) {aggregates : PyDict}
    (hprior : (get? R.id aggregates).getD (.num (.int 0)) = .num (.int prior)) :
    Fires R r.receipt aggregates ↔ threshold < prior + r.amountCharged := by
  have hthreshold : requireInt R.parameters (lit "threshold") R.id = .ok threshold := by
    rw [requireInt, requireParam, hR.threshold_eq]
    rfl
  have hwindow : ¬ (oneOf id validDailyWindows (.str (lit "utc_day"))).isNone = true := by
    decide
  have hamount : amount r.receipt R.id = .ok r.amountCharged := by
    rw [amount, getD, r.amount_eq]
    rfl
  unfold Fires ruleSays
  rw [hR.type_eq]
  dsimp only
  rw [evalDailyLimit, hthreshold, ok_bind, hR.window_eq, hprior]
  dsimp only
  rw [raiseWhen_neg hwindow, ok_bind]
  simp only [asInt]
  rw [hamount, ok_bind]
  by_cases h : threshold < prior + r.amountCharged
  · rw [if_pos h]
    exact iff_of_true ⟨_, rfl, rfl⟩ h
  · rw [if_neg h]
    refine iff_of_false ?_ h
    rintro ⟨result, hresult, hfired⟩
    obtain rfl := Except.ok.inj hresult
    cases hfired

omit [Ucd] in
/-- What a snapshot holds for a rule. -/
theorem get?_snapshot (id : PyStr) (ruleId : PyVal) (prior : ℤ) :
    (get? id (snapshot ruleId prior)).getD (.num (.int 0))
      = .num (.int (if ruleId = .str id then prior else 0)) := by
  cases ruleId with
  | str s =>
    rw [snapshot, get?_cons]
    by_cases h : s = id
    · subst h
      simp
    · have hne : (Json.str s : PyVal) ≠ .str id := fun heq => h (Json.str.inj heq)
      rw [if_neg h, if_neg hne]
      rfl
  | null | bool | num | arr | obj => rfl

/-- Which total a snapshot holds does not decide whether a rule returns. -/
theorem ruleSays_isOk_iff (R : Rule) (receipt : PyDict) (ruleId : PyVal) (prior : ℤ) :
    Succeeds (ruleSays R receipt (snapshot ruleId prior)) ↔ Succeeds (ruleSays R receipt []) := by
  have hdaily {aggregates aggregates' : PyDict} {p p' : ℤ}
      (hp : (get? R.id aggregates).getD (.num (.int 0)) = .num (.int p))
      (hp' : (get? R.id aggregates').getD (.num (.int 0)) = .num (.int p'))
      (h : Succeeds (evalDailyLimit R receipt aggregates)) :
      Succeeds (evalDailyLimit R receipt aggregates') := by
    obtain ⟨result, h⟩ := h
    obtain ⟨threshold, hthreshold, h⟩ := bind_eq_ok_iff.mp h
    dsimp only at h
    obtain ⟨hwindow, h⟩ := check_eq_ok_iff.mp h
    rw [hp] at h
    obtain ⟨a, ha, -⟩ := bind_eq_ok_iff.mp h
    rw [evalDailyLimit, hthreshold, ok_bind]
    dsimp only
    rw [hwindow, ok_bind, hp']
    simp only [asInt]
    rw [ha, ok_bind]
    split <;> exact ⟨_, rfl⟩
  have hsnapshot := get?_snapshot R.id ruleId prior
  unfold ruleSays
  cases R.type
  case dailyLimit => exact ⟨hdaily hsnapshot rfl, hdaily rfl hsnapshot⟩
  all_goals exact Iff.rfl

end

/-! ## The decisions -/

section

variable [Ucd] {T : Type} [LT T] [DecidableLT T] [Zero T] [Add T]
variable {policy : PyDict} {pol : Policy} {budgetSeconds : T} {clocks : Stream' (Stream' T)}

/-- The entry of a receipt evaluated under a snapshot. -/
def corpusDecision (pol : Policy) (r : LogReceipt) (aggregates : PyDict) : CorpusDecision :=
  { decisionOf r.receipt pol none (Trail.entries (firing r.receipt aggregates) pol.rules) with
    receiptHash := r.canonicalHash }

/-- At most every rule is reported. -/
theorem length_triggeredRules_le (pol : Policy) (r : LogReceipt) (aggregates : PyDict) :
    (corpusDecision pol r aggregates).triggeredRules.length ≤ pol.rules.length :=
  (List.length_map _).trans_le (List.length_filterMap_le _ _)

/-- The loop evaluates each receipt under its own snapshot. -/
theorem decisions_eq_ok_iff (hpol : Policy.fromDict policy = .ok pol)
    (hbudget : ¬ 0 < budgetSeconds) {log : List (LogReceipt × PyDict)} {ds : List CorpusDecision} :
    decisions policy budgetSeconds log clocks = .ok ds
      ↔ (∀ p ∈ log, ∀ R ∈ pol.rules, Succeeds (ruleSays R p.1.receipt p.2))
        ∧ ds = log.map fun p => corpusDecision pol p.1 p.2 := by
  have hcoerce : coercePolicy (.dict policy) = .ok pol := hpol
  induction log generalizing clocks ds with
  | nil => simp [decisions, eq_comm]
  | cons p log ih =>
    rw [List.forall_mem_cons, List.map_cons]
    constructor
    · intro h
      obtain ⟨D, hD, h⟩ := bind_eq_ok_iff.mp h
      obtain ⟨rest, hrest, h⟩ := bind_eq_ok_iff.mp h
      obtain rfl := Except.ok.inj h
      obtain ⟨hall, rfl⟩ := (evaluate_eq_ok_iff hcoerce hbudget).mp hD
      obtain ⟨hlog, rfl⟩ := ih.mp hrest
      exact ⟨⟨hall, hlog⟩, rfl⟩
    · rintro ⟨⟨hall, hlog⟩, rfl⟩
      exact bind_eq_ok_iff.mpr ⟨_, (evaluate_eq_ok_iff hcoerce hbudget).mpr ⟨hall, rfl⟩,
        bind_eq_ok_iff.mpr ⟨_, ih.mpr ⟨hlog, rfl⟩, rfl⟩⟩

omit [Ucd] in
/-- A list beside what is made of it by place. -/
theorem zip_mapIdx {α β : Type} (xs : List α) (f : ℕ → α → β) :
    xs.zip (xs.mapIdx f) = xs.mapIdx fun i x => (x, f i x) :=
  List.ext_getElem (by simp) fun i _ _ => by simp

/-- **What the script returns, and when**: a decision for each receipt,
under the total before it, where every rule of the policy can be
evaluated on every receipt. -/
theorem evaluateCorpus_eq_ok_iff {ruleId : PyVal} {receipts : List LogReceipt}
    {ds : List CorpusDecision} (hpol : Policy.fromDict policy = .ok pol)
    (hbudget : ¬ 0 < budgetSeconds)
    (hfirst : findRuleId policy (lit "daily_limit") = .ok ruleId) :
    evaluateCorpus receipts policy budgetSeconds clocks = .ok ds
      ↔ (receipts = [] ∨ Hashable ruleId)
        ∧ (∀ r ∈ receipts, ∀ R ∈ pol.rules, Succeeds (ruleSays R r.receipt []))
        ∧ ds = receipts.mapIdx fun i r =>
          corpusDecision pol r (snapshot ruleId (totalOn r.day (receipts.take i))) := by
  have haggs {aggs : List PyDict} : computeDailyAggregates receipts ruleId = .ok aggs
      ↔ (receipts = [] ∨ Hashable ruleId)
        ∧ aggs = receipts.mapIdx fun i r =>
          snapshot ruleId (totalOn r.day (receipts.take i)) :=
    @dailyAggregates_eq_ok_iff ruleId receipts [] [] aggs fun _ => rfl
  have hlog (f : ℕ → LogReceipt → ℤ) :
      (∀ p ∈ receipts.mapIdx fun i r => (r, snapshot ruleId (f i r)),
          ∀ R ∈ pol.rules, Succeeds (ruleSays R p.1.receipt p.2))
        ↔ ∀ r ∈ receipts, ∀ R ∈ pol.rules, Succeeds (ruleSays R r.receipt []) := by
    constructor
    · intro h r hr R hR
      obtain ⟨i, hi, rfl⟩ := List.getElem_of_mem hr
      exact (ruleSays_isOk_iff R _ _ _).mp (h _ (List.mem_mapIdx.mpr ⟨i, hi, rfl⟩) R hR)
    · intro h p hp R hR
      obtain ⟨i, hi, rfl⟩ := List.mem_mapIdx.mp hp
      exact (ruleSays_isOk_iff R _ _ _).mpr (h _ (List.getElem_mem hi) R hR)
  unfold evaluateCorpus
  rw [hfirst, ok_bind]
  constructor
  · intro h
    obtain ⟨aggs, hcompute, h⟩ := bind_eq_ok_iff.mp h
    obtain ⟨hhash, rfl⟩ := haggs.mp hcompute
    obtain ⟨hall, rfl⟩ := (decisions_eq_ok_iff hpol hbudget).mp h
    rw [zip_mapIdx] at hall ⊢
    refine ⟨hhash, (hlog _).mp hall, ?_⟩
    exact List.ext_getElem (by simp) fun i _ _ => by simp
  · rintro ⟨hhash, hall, rfl⟩
    refine bind_eq_ok_iff.mpr ⟨_, haggs.mpr ⟨hhash, rfl⟩, ?_⟩
    rw [zip_mapIdx]
    refine (decisions_eq_ok_iff hpol hbudget).mpr ⟨(hlog _).mpr hall, ?_⟩
    exact List.ext_getElem (by simp) fun i _ _ => by simp

/-! ## Cumulative limits -/

/-- The limits of a UTC day are enforced over the log. -/
def Cumulative (pol : Policy) (receipts : List LogReceipt) (ds : List CorpusDecision) : Prop :=
  ∀ (i : ℕ) (r : LogReceipt) (d : CorpusDecision), receipts[i]? = some r → ds[i]? = some d →
    ∀ R ∈ pol.rules, ∀ threshold, LimitsDay R threshold →
      (R.id ∈ d.triggeredRules ↔ threshold < totalOn r.day (receipts.take (i + 1)))

/-- Another rule of the same id fires. -/
def Shadowed (pol : Policy) (R : Rule) (receipt aggregates : PyDict) : Prop :=
  ∃ R' ∈ pol.rules, R' ≠ R ∧ R'.id = R.id ∧ Fires R' receipt aggregates

/-- Where a limit is enforced on a receipt, `before` what came before it.
The rule looked up by its id, a string, sees the total of the day; for any
other rule the receipt's amount by itself must be over the threshold
exactly where the total is. -/
structure Enforced (pol : Policy) (ruleId : PyVal) (R : Rule) (threshold : ℤ)
    (before : List LogReceipt) (r : LogReceipt) : Prop where
  first : ruleId = .str R.id →
    Shadowed pol R r.receipt (snapshot ruleId (totalOn r.day before)) →
      threshold < totalOn r.day before + r.amountCharged
  other : ruleId ≠ .str R.id →
    (threshold < totalOn r.day before + r.amountCharged
      ↔ threshold < r.amountCharged
        ∨ Shadowed pol R r.receipt (snapshot ruleId (totalOn r.day before)))

/-- **One limit on one receipt.** -/
theorem mem_corpusDecision_iff {ruleId : PyVal} {R : Rule} {threshold : ℤ} (hR : R ∈ pol.rules)
    (hlimit : LimitsDay R threshold) (before : List LogReceipt) (r : LogReceipt) :
    (R.id ∈ (corpusDecision pol r (snapshot ruleId (totalOn r.day before))).triggeredRules
        ↔ threshold < totalOn r.day before + r.amountCharged)
      ↔ Enforced pol ruleId R threshold before r := by
  have hfires := fires_dailyLimit_iff hlimit r
    (get?_snapshot R.id ruleId (totalOn r.day before))
  have hmem : R.id ∈ (corpusDecision pol r (snapshot ruleId (totalOn r.day before))).triggeredRules
      ↔ Fires R r.receipt (snapshot ruleId (totalOn r.day before))
        ∨ Shadowed pol R r.receipt (snapshot ruleId (totalOn r.day before)) := by
    refine mem_triggered_iff.trans ⟨?_, ?_⟩
    · rintro ⟨R', hR', hid, hfired⟩
      by_cases heq : R' = R
      · exact .inl (heq ▸ hfired)
      · exact .inr ⟨R', hR', heq, hid, hfired⟩
    · rintro (hfired | ⟨R', hR', -, hid, hfired⟩)
      · exact ⟨R, hR, rfl, hfired⟩
      · exact ⟨R', hR', hid, hfired⟩
  rw [hmem, hfires]
  by_cases hid : ruleId = .str R.id
  · rw [if_pos hid]
    constructor
    · exact fun h => ⟨fun _ hshadowed => h.mp (.inr hshadowed), fun hne => absurd hid hne⟩
    · exact fun h => ⟨fun hover => hover.elim (fun hfired => hfired) (h.first hid), .inl⟩
  · rw [if_neg hid, zero_add]
    constructor
    · exact fun h => ⟨fun heq => absurd heq hid, fun _ => h.symm⟩
    · exact fun h => (h.other hid).symm

/-- **When the corpus enforces its daily limits.** -/
theorem cumulative_iff {receipts : List LogReceipt} (hpol : Policy.fromDict policy = .ok pol)
    (hdaily : ∃ R ∈ pol.rules, R.type = .dailyLimit) (hbudget : ¬ 0 < budgetSeconds) :
    ∃ ruleId, findRuleId policy (lit "daily_limit") = .ok ruleId
      ∧ (Succeeds (evaluateCorpus receipts policy budgetSeconds clocks)
        ↔ (receipts = [] ∨ Hashable ruleId)
          ∧ ∀ r ∈ receipts, ∀ R ∈ pol.rules, Succeeds (ruleSays R r.receipt []))
      ∧ ∀ ds, evaluateCorpus receipts policy budgetSeconds clocks = .ok ds →
        ds.length = receipts.length
          ∧ (Cumulative pol receipts ds
            ↔ ∀ (i : ℕ) (r : LogReceipt), receipts[i]? = some r →
              ∀ R ∈ pol.rules, ∀ threshold, LimitsDay R threshold →
                Enforced pol ruleId R threshold (receipts.take i) r) := by
  obtain ⟨ruleId, hfirst⟩ := findRuleId_ok hpol hdaily
  have hok {ds : List CorpusDecision} :=
    @evaluateCorpus_eq_ok_iff _ T _ _ _ _ policy pol budgetSeconds clocks ruleId receipts ds hpol
      hbudget hfirst
  refine ⟨ruleId, hfirst, ⟨?_, ?_⟩, fun ds h => ?_⟩
  · rintro ⟨ds, h⟩
    obtain ⟨hhash, hall, -⟩ := hok.mp h
    exact ⟨hhash, hall⟩
  · rintro ⟨hhash, hall⟩
    exact ⟨_, hok.mpr ⟨hhash, hall, rfl⟩⟩
  · obtain ⟨-, -, rfl⟩ := hok.mp h
    refine ⟨List.length_mapIdx, ?_⟩
    unfold Cumulative
    constructor
    · intro hcumulative i r hr R hR threshold hlimit
      have hd := hcumulative i r _ hr (by rw [List.getElem?_mapIdx, hr, Option.map_some]) R hR
        threshold hlimit
      rw [totalOn_take_succ hr] at hd
      exact (mem_corpusDecision_iff hR hlimit _ r).mp hd
    · intro henforced i r d hr hd R hR threshold hlimit
      rw [List.getElem?_mapIdx, hr, Option.map_some] at hd
      obtain rfl := Option.some.inj hd
      rw [totalOn_take_succ hr]
      exact (mem_corpusDecision_iff hR hlimit _ r).mpr (henforced i r hr R hR threshold hlimit)

end

section Sample

attribute [local instance] Ucd.allPrintable

/-- A receipt of one morning. -/
def sampleReceipt (amount : ℤ) : LogReceipt where
  receipt := [(lit "timestamp", .str (lit "2026-05-04T09:30:00.000Z")),
    (lit "amount_charged", .num (.int amount)), (lit "canonical_hash", .str (lit "00"))]
  day := lit "2026-05-04"
  time := lit "09:30:00.000Z"
  amountCharged := amount
  canonicalHash := .str (lit "00")
  length_day := by decide
  timestamp_eq := rfl
  amount_eq := rfl
  hash_eq := rfl

/-- A policy of daily limits, by their ids and thresholds. -/
def limitsPolicy (limits : List (String × ℤ)) : PyDict :=
  [(lit "version", .str (lit "v1")),
    (lit "rules", .arr (limits.map fun l => .obj [(lit "id", .str (lit l.1)),
      (lit "type", .str (lit "daily_limit")), (lit "outcome", .str (lit "deny")),
      (lit "parameters", .obj [(lit "threshold", .num (.int l.2))])]))]

/-- The rule of a limit. -/
def limitRule (l : String × ℤ) : Rule :=
  { id := lit l.1, type := .dailyLimit, outcome := .deny,
    parameters := [(lit "threshold", .num (.int l.2))] }

theorem limitsDay_limitRule (l : String × ℤ) : LimitsDay (limitRule l) l.2 where
  type_eq := rfl
  window_eq := rfl
  threshold_eq := rfl

/-- Two receipts of 60 come to 120. A limit of 100 that is the policy's
second is not reported. -/
theorem second_limit_missed :
    Policy.fromDict (limitsPolicy [("total", 1000), ("agent", 100)])
        = .ok { version := lit "v1", rules := [limitRule ("total", 1000), limitRule ("agent", 100)] }
      ∧ ∃ ds, evaluateCorpus [sampleReceipt 60, sampleReceipt 60]
          (limitsPolicy [("total", 1000), ("agent", 100)]) (0 : ℕ) (Stream'.const (Stream'.const 0))
            = .ok ds
        ∧ ¬ Cumulative
          { version := lit "v1", rules := [limitRule ("total", 1000), limitRule ("agent", 100)] }
          [sampleReceipt 60, sampleReceipt 60] ds := by
  refine ⟨rfl, _, rfl, fun h => ?_⟩
  have hsecond := h 1 (sampleReceipt 60) _ rfl rfl (limitRule ("agent", 100))
    (List.mem_cons_of_mem _ List.mem_cons_self) 100 (limitsDay_limitRule _)
  have hmem := hsecond.mpr (by decide)
  revert hmem
  decide

/-- One limit of 100 is enforced over the same receipts. -/
theorem one_limit_enforced :
    ∃ ds, evaluateCorpus [sampleReceipt 60, sampleReceipt 60] (limitsPolicy [("agent", 100)])
        (0 : ℕ) (Stream'.const (Stream'.const 0)) = .ok ds
      ∧ Cumulative { version := lit "v1", rules := [limitRule ("agent", 100)] }
        [sampleReceipt 60, sampleReceipt 60] ds := by
  have hpol : Policy.fromDict (limitsPolicy [("agent", 100)])
      = .ok { version := lit "v1", rules := [limitRule ("agent", 100)] } := rfl
  obtain ⟨ruleId, hfirst, -, hcumulative⟩ :=
    @cumulative_iff _ ℕ _ _ _ _ _ _ 0 (Stream'.const (Stream'.const 0))
      [sampleReceipt 60, sampleReceipt 60] hpol ⟨_, List.mem_cons_self, rfl⟩ (by decide)
  obtain rfl : .str (lit "agent") = ruleId := Except.ok.inj hfirst
  refine ⟨_, rfl, (hcumulative _ rfl).2.mpr fun i r _ R hR threshold _ => ?_⟩
  obtain rfl := List.mem_singleton.mp hR
  refine ⟨fun _ => ?_, fun hne => absurd rfl hne⟩
  rintro ⟨R', hR', hne, -⟩
  exact absurd (List.mem_singleton.mp hR') hne

end Sample

end Corpus

end Py

end OpenTerms
