import OpenTerms.Py.Policy.Generated

/-!
# What the checks find

The checks of `validate_corpus` are of two kinds. Those of the signatures,
of the decisions and of the chains no corpus that was generated fails, as
long as no two receipts have one id; so one passes exactly when its
outcomes are spread, its rules fire and its hashes differ as they should
(`validate_generated`).
-/

namespace OpenTerms

namespace Py

namespace Corpus

open Json

/-! ## Single checks -/

theorem checkDistribution_eq_ok_iff {counts : List (DecisionOutcome × ℕ)} {n : ℕ}
    {goals : List (DecisionOutcome × Double)} (hgoals : goals ≠ []) :
    checkDistribution counts n goals = .ok ()
      ↔ n ≠ 0 ∧ ∀ p ∈ goals, outOfTolerance ((get? p.1 counts).getD 0) n p.2 = false := by
  induction goals with
  | nil => exact absurd rfl hgoals
  | cons p goals ih =>
    obtain ⟨k, frac⟩ := p
    rw [checkDistribution, check_eq_ok_iff, check_eq_ok_iff, raiseWhen_eq_ok_iff,
      raiseWhen_eq_ok_iff, Bool.not_eq_true, List.forall_mem_cons]
    by_cases hrest : goals = []
    · subst hrest
      simp [checkDistribution]
    · rw [ih hrest]
      tauto

/-- The rule fires ten times. -/
def FiresEnough (ds : List CorpusDecision) (rule : PyVal) : Prop :=
  ∃ id, subscript (lit "id") rule = .ok (.str id)
    ∧ 10 ≤ (ds.flatMap fun d => d.triggeredRules).countP (· = id)

theorem checkFirings_eq_ok_iff {ds : List CorpusDecision} {rules : List PyVal} :
    checkFirings (counter (ds.flatMap fun d => d.triggeredRules)) rules = .ok ()
      ↔ ∀ rule ∈ rules, FiresEnough ds rule := by
  induction rules with
  | nil => simp [checkFirings]
  | cons rule rules ih =>
    rw [checkFirings, List.forall_mem_cons, ← ih]
    simp only [bind_eq_ok_iff, raised_eq_ok_iff, raiseWhen_eq_ok_iff, exists_and_left,
      FiresEnough]
    constructor
    · rintro ⟨ruleId, hid, times, htimes, hten, -, hrest⟩
      refine ⟨?_, hrest⟩
      cases ruleId with
      | str id =>
        obtain rfl := Except.ok.inj htimes
        rw [get?_counter] at hten
        exact ⟨id, hid, by omega⟩
      | arr | obj => cases htimes
      | null | bool | num =>
        obtain rfl := Except.ok.inj htimes
        exact absurd (by omega : (0 : ℕ) < 10) hten
    · rintro ⟨⟨id, hid, hten⟩, hrest⟩
      refine ⟨.str id, hid, _, rfl, ?_, (), hrest⟩
      rw [get?_counter]
      omega

/-- Every receipt has a string under the key. -/
theorem keyed_eq {k : PyStr} {log : List LogReceipt} {text : LogReceipt → PyStr}
    (h : ∀ l ∈ log, get? k l.receipt = some (.str (text l))) :
    keyed k log = .ok (log.map fun l => .str (text l)) := by
  unfold keyed
  induction log with
  | nil => rfl
  | cons l log ih =>
    rw [List.forall_mem_cons] at h
    rw [List.mapM_cons, ih h.2]
    simp only [subscript, h.1]
    rfl

/-- Where no string is there twice, its place is the one it has. -/
theorem indexOf_eq {ids : List PyStr} (hids : ids.Nodup) {i : ℕ} {s : PyStr}
    (hs : ids[i]? = some s) : indexOf (.str s) (ids.map .str) = some i := by
  unfold indexOf
  generalize hfound : ((ids.map Json.str).zipIdx.filter fun p => pyEq p.1 (.str s)) = found
  have hall : ∀ p ∈ found, p.2 = i := by
    intro p hp
    rw [← hfound, List.mem_filter, List.mem_zipIdx_iff_getElem?, List.getElem?_map,
      Option.map_eq_some_iff] at hp
    obtain ⟨⟨t, ht, htext⟩, heq⟩ := hp
    rw [← htext, pyEq_str] at heq
    obtain rfl : s = t := Json.str.inj (of_decide_eq_true heq)
    have hlt : p.2 < ids.length := (List.getElem?_eq_some_iff.mp ht).1
    exact (List.getElem?_inj hlt hids).mp (ht.trans hs.symm)
  have hmem : (Json.str s, i) ∈ found := by
    rw [← hfound, List.mem_filter, List.mem_zipIdx_iff_getElem?, List.getElem?_map, hs, pyEq_str]
    exact ⟨rfl, decide_eq_true rfl⟩
  have hne : found ≠ [] := List.ne_nil_of_mem hmem
  rw [List.getLast?_eq_getLast_of_ne_nil hne, Option.map_some, hall _ (List.getLast_mem hne)]

/-! ## A corpus that was generated -/

section

variable [Ucd] {crypto : Crypto} {sc : Scenario} {keys : List (PyStr × (Bytes × KeyEntry))}
variable {pairs : List (DateTime × Bucket)} {out : List PyDict × PyDict} {log : List LogReceipt}

omit [Ucd] in
theorem verifyAll_ok {jwks : PyDict} (h : ∀ l ∈ log, ∃ kid hash,
    verifyReceipt crypto l.receipt jwks
      = .ok { valid := true, error := none, keyId := .str kid, canonicalHash := hash }) :
    verifyAll crypto jwks log = .ok () := by
  induction log with
  | nil => rfl
  | cons l log ih =>
    rw [List.forall_mem_cons] at h
    obtain ⟨⟨kid, hash, hl⟩, hrest⟩ := h
    rw [verifyAll, hl]
    exact ih hrest

/-- Every receipt of a corpus was signed. -/
theorem Made.signed_of_mem (h : Made crypto sc keys pairs out) {r : PyDict} (hr : r ∈ out.1) :
    ∃ p, Signed crypto sc keys p r := by
  obtain ⟨i, hi, rfl⟩ := List.getElem_of_mem hr
  exact ⟨_, h.signed.get (h.signed.length_eq ▸ hi) hi⟩

/-- What a signed receipt has under the keys that are counted. -/
theorem keyed_of_signed {p : DateTime × Bucket} {r : PyDict} (h : Signed crypto sc keys p r) :
    (∃ s, get? (lit "receipt_id") r = some (.str s))
      ∧ (∃ s, get? (lit "action_type") r = some (.str s))
      ∧ ∃ s, get? (lit "canonical_hash") r = some (.str s) := by
  obtain ⟨payload, sk, entry, kid, receiptId, chain, next, -, hpayload, hsign⟩ := h
  obtain ⟨actionType, haction⟩ := hpayload.actionType
  refine ⟨⟨receiptId, ?_⟩, ⟨actionType, ?_⟩, ?_⟩
  · exact (get?_signed hsign (Or.inl (by decide))).trans hpayload.receiptId_eq
  · exact (get?_signed hsign (Or.inl (by decide))).trans haction
  · obtain ⟨-, -, -, _, bytes, -, -, hr⟩ := signReceipt_eq_ok_iff.mp hsign
    refine ⟨hex (crypto.sha256 bytes), ?_⟩
    rw [hr, get?_withMetadata]
    rfl

/-- The string a receipt has under a key, if it has one. -/
def textUnder (k : PyStr) (r : PyDict) : PyStr :=
  match get? k r with
  | some (.str s) => s
  | _ => []

omit [Ucd] in
theorem textUnder_eq {k s : PyStr} {r : PyDict} (h : get? k r = some (.str s)) :
    get? k r = some (.str (textUnder k r)) := by
  rw [textUnder, h]

omit [Ucd] in
theorem parentOf_link {r link : PyDict} {chainId agent : PyStr} {depth : ℕ}
    (h : InChain r link chainId depth agent) :
    parentOf (.obj link) = .ok (getD (lit "parent_receipt_id") link) := by
  cases link with
  | nil => cases h.chainId_eq
  | cons m link => rfl

omit [Ucd] in
/-- **The chains hold together**: what a receipt calls its parent is the one
before. -/
theorem checkChains_ok {rs : List PyDict} (hrs : Linked none rs) {ids : List PyStr}
    (hids : ids.Nodup)
    (hread : ∀ (i : ℕ) (r : PyDict), rs[i]? = some r →
      ∃ s, get? (lit "receipt_id") r = some (Json.str s) ∧ ids[i]? = some s)
    {i : ℕ} (hlog : rs.drop i = log.map LogReceipt.receipt) :
    checkChains (ids.map .str) log i = .ok () := by
  induction log generalizing i with
  | nil => rfl
  | cons l log ih =>
    rw [List.map_cons] at hlog
    have hl : rs[i]? = some l.receipt := by
      rw [← List.head?_drop, hlog, List.head?_cons]
    have hrest : rs.drop (i + 1) = log.map LogReceipt.receipt := by
      rw [← List.tail_drop, hlog, List.tail_cons]
    rw [checkChains]
    cases hrs.get hl with
    | apart hnull =>
      rw [hnull]
      exact ih hrest
    | @root link chainId agent hroot hagent hparent =>
      have hnone : getD (lit "parent_receipt_id") link = .null := by rw [getD, hparent]; rfl
      rw [hroot.chain]
      simp only [raised, Except.mapError, ok_bind, parentOf_link hroot, hnone]
      exact ih hrest
    | @link p link link' chainId agent receiptId depth hprev hlink hp hdepth hid hparent =>
      -- the receipt before has the id, and no other one has
      cases i with
      | zero => cases hprev
      | succ i =>
        have hbefore : rs[i]? = some p := hprev
        obtain ⟨s, hs, hi⟩ := hread i p hbefore
        obtain rfl : s = receiptId := Json.str.inj (Option.some.inj (hs.symm.trans hid))
        have hsome : getD (lit "parent_receipt_id") link = .str s := by rw [getD, hparent]; rfl
        have hindex := indexOf_eq hids hi
        rw [hlink.chain]
        simp only [raised, Except.mapError, ok_bind, parentOf_link hlink, hsome]
        rw [if_pos (by simp), raiseWhen_neg (by simp [isHashable]), ok_bind,
          raiseWhen_neg (by simp [hindex]), ok_bind]
        exact ih hrest

variable {T : Type} [LT T] [DecidableLT T] [Zero T] [Add T]
variable {policy : PyDict} {pol : Policy} {budgetSeconds : T}

/-- What is asked of a corpus and its decisions beyond being made. -/
structure Acceptable (policy : PyDict) (log : List LogReceipt) (ds : List CorpusDecision) : Prop where
  nonempty : log ≠ []
  spread : ∀ p ∈ targets,
    outOfTolerance ((ds.map fun d => d.decision).countP (· = p.1)) log.length p.2 = false
  firings : ∀ rules, get? (lit "rules") policy = some (.arr rules) → ∀ rule ∈ rules,
    FiresEnough ds rule
  hashes : (log.map LogReceipt.canonicalHash).Nodup

omit [Ucd] in
/-- Hashes that are strings are told apart by what they are. -/
theorem pairwise_pyEq_iff {text : LogReceipt → PyStr}
    (h : ∀ l ∈ log, l.canonicalHash = .str (text l)) :
    ((log.map fun l => Json.str (text l)).Pairwise fun a b : PyVal => pyEq a b = false)
      ↔ (log.map LogReceipt.canonicalHash).Nodup := by
  rw [List.Nodup, List.pairwise_map, List.pairwise_map]
  refine List.Pairwise.iff_of_mem fun {l l'} hl hl' => ?_
  rw [h l hl, h l' hl', pyEq_str, decide_eq_false_iff_not, ne_comm]

/-- Reading the rules of a policy that is one. -/
theorem rules_of_fromDict (hpol : Policy.fromDict policy = .ok pol) {ruleId : PyVal}
    (hfirst : findRuleId policy (lit "daily_limit") = .ok ruleId) :
    ∃ rules, get? (lit "rules") policy = some (.arr rules) := by
  unfold Policy.fromDict at hpol
  dsimp only at hpol
  cases hrules : get? (lit "rules") policy with
  | none =>
    unfold findRuleId subscript at hfirst
    dsimp only at hfirst
    rw [hrules] at hfirst
    cases hfirst
  | some raw =>
    rw [hrules] at hpol
    cases raw with
    | arr rules => exact ⟨rules, rfl⟩
    | null | bool | num | str | obj => cases hpol

/-- **The checks of a generated corpus.** However the draws come out, and
whatever policy decides without a deadline, what `validate_corpus` has to
say against a corpus in which no id is there twice is that its outcomes are
not spread, its rules do not fire or its hashes do not differ as they
should: the receipts verify, the decisions are made again, and the chains
hold together. -/
theorem validate_generated (hcrypto : Standard crypto) (hpol : Policy.fromDict policy = .ok pol)
    (hbudget : ¬ 0 < budgetSeconds) : (generate crypto sc).Yields (Unmakable sc) fun out =>
      ∀ log : List LogReceipt, out.1 = log.map LogReceipt.receipt →
        (out.1.map (get? (lit "receipt_id"))).Nodup → ∀ ds clocks clocks',
          evaluateCorpus log policy budgetSeconds clocks = .ok ds →
            (Succeeds (validateCorpus crypto log ds out.2 policy budgetSeconds clocks')
              ↔ Acceptable policy log ds) := by
  refine yields_generate.imp ?_
  rintro out ⟨keys, pairs, hmade⟩ log hlog hids ds clocks clocks' hds
  have hsigned (l : LogReceipt) (hl : l ∈ log) : ∃ p, Signed crypto sc keys p l.receipt :=
    hmade.signed_of_mem (hlog ▸ List.mem_map_of_mem hl)
  have hread (k : PyStr) (hk : k ∈ ["receipt_id", "action_type", "canonical_hash"].map lit) :
      ∀ l ∈ log, get? k l.receipt = some (.str (textUnder k l.receipt)) := by
    intro l hl
    obtain ⟨p, hp⟩ := hsigned l hl
    obtain ⟨⟨s, hs⟩, ⟨s', hs'⟩, ⟨s'', hs''⟩⟩ := keyed_of_signed hp
    simp only [List.map_cons, List.map_nil, List.mem_cons, List.not_mem_nil, or_false] at hk
    rcases hk with rfl | rfl | rfl
    · exact textUnder_eq hs
    · exact textUnder_eq hs'
    · exact textUnder_eq hs''
  have hverify : verifyAll crypto out.2 log = .ok () := by
    refine verifyAll_ok fun l hl => ?_
    obtain ⟨p, hp⟩ := hsigned l hl
    exact hmade.verifies hcrypto hp
  obtain ⟨ruleId, hfirst, -⟩ := bind_eq_ok_iff.mp hds
  obtain ⟨rules, hrules⟩ := rules_of_fromDict hpol hfirst
  have hagain : evaluateCorpus log policy budgetSeconds clocks' = .ok ds :=
    (evaluateCorpus_eq_ok_iff hpol hbudget hfirst).mpr
      ((evaluateCorpus_eq_ok_iff hpol hbudget hfirst).mp hds)
  have hids' : (log.map fun l => textUnder (lit "receipt_id") l.receipt).Nodup := by
    have hsame : out.1.map (get? (lit "receipt_id"))
        = (log.map fun l => textUnder (lit "receipt_id") l.receipt).map fun s => some (.str s) := by
      rw [hlog, List.map_map, List.map_map]
      exact List.map_congr_left fun l hl => hread (lit "receipt_id") (by decide) l hl
    exact List.Nodup.of_map _ (hsame ▸ hids)
  have hchains : checkChains (log.map fun l => .str (textUnder (lit "receipt_id") l.receipt)) log 0
      = .ok () := by
    have hstart : out.1.drop 0 = log.map LogReceipt.receipt := hlog
    refine Eq.trans (congrArg (checkChains · log 0) List.map_map.symm)
      (checkChains_ok hmade.linked hids' (fun i r hr => ?_) hstart)
    rw [hlog, List.getElem?_map, Option.map_eq_some_iff] at hr
    obtain ⟨l, hl, rfl⟩ := hr
    refine ⟨_, hread _ (by decide) l (List.mem_of_getElem? hl), ?_⟩
    rw [List.getElem?_map, hl, Option.map_some]
  have hhash (l : LogReceipt) (hl : l ∈ log) :
      l.canonicalHash = .str (textUnder (lit "canonical_hash") l.receipt) :=
    Option.some.inj (l.hash_eq.symm.trans (hread _ (by decide) l hl))
  unfold validateCorpus
  rw [hverify, ok_bind, hagain, keyed_eq (hread _ (by decide)), keyed_eq (hread _ (by decide)),
    keyed_eq (hread _ (by decide))]
  simp only [raised_ok, ok_bind, subscript, hrules, iterate]
  rw [raiseWhen_neg (by simp), ok_bind, succeeds_check_iff, succeeds_check_iff, succeeds_check_iff,
    hchains, ok_bind, checkDistribution_eq_ok_iff (by simp [targets]), checkFirings_eq_ok_iff,
    raiseWhen_eq_ok_iff, not_not, pairwise_pyEq_iff hhash]
  simp only [get?_counter]
  constructor
  · rintro ⟨⟨hlength, hspread⟩, hfirings, hhashes, -⟩
    refine ⟨fun hnil => hlength (by rw [hnil]; rfl), hspread, fun rules' hrules' => ?_, hhashes⟩
    cases hrules.symm.trans hrules'
    exact hfirings
  · rintro ⟨hne, hspread, hfirings, hhashes⟩
    exact ⟨⟨fun hlength => hne (List.length_eq_zero_iff.mp hlength), hspread⟩,
      hfirings rules hrules, hhashes, succeeds_ok _⟩

end

section Sample

attribute [local instance] Ucd.allPrintable

/-- The sample corpus under a policy of one limit is evaluated, and does not
pass: its one receipt is too few for the rule to fire ten times. -/
theorem validate_generated_sample :
    ∃ out log ds, ((generate Sample.primitives Sample.scenario).play Sample.draws).2 = .ok out
      ∧ out.1 = log.map LogReceipt.receipt
      ∧ evaluateCorpus log (limitsPolicy [("agent", 100)]) (0 : ℕ)
          (Stream'.const (Stream'.const 0)) = .ok ds
      ∧ ∀ clocks', ¬ Succeeds (validateCorpus Sample.primitives log ds out.2
          (limitsPolicy [("agent", 100)]) (0 : ℕ) clocks') := by
  have hrun := Prog.runs_play Sample.draws (generate Sample.primitives Sample.scenario)
  have hpol : Policy.fromDict (limitsPolicy [("agent", 100)])
      = .ok { version := lit "v1", rules := [limitRule ("agent", 100)] } := rfl
  have hbudget : ¬ (0 : ℕ) < 0 := by decide
  have hends := validate_generated Sample.standard hpol hbudget _ _ hrun
  have hmade := yields_generate _ _ hrun
  have hseen : ((generate Sample.primitives Sample.scenario).play Sample.draws).2.toOption.map
      (fun out => (out.1.length,
        out.1.all fun r => (ruleSays (limitRule ("agent", 100)) r []).isOk)) = some (1, true) := by
    decide +kernel
  cases hout : ((generate Sample.primitives Sample.scenario).play Sample.draws).2 with
  | error e =>
    rw [hout] at hseen
    cases hseen
  | ok out =>
    rw [hout] at hends hmade hseen
    -- one receipt, on which the rule returns
    obtain ⟨hlength, hreturns⟩ := Prod.mk.inj (Option.some.inj hseen)
    obtain ⟨keys, pairs, hmade⟩ := hmade
    obtain ⟨r, hr⟩ := List.length_eq_one_iff.mp hlength
    obtain ⟨p, hsigned⟩ := hmade.signed_of_mem (hr ▸ List.mem_singleton_self r)
    obtain ⟨l, rfl, -⟩ := logReceipt_of_signed hsigned
    have hlog : out.1 = [l].map LogReceipt.receipt := hr
    have hsays : Succeeds (ruleSays (limitRule ("agent", 100)) l.receipt []) := by
      rw [hr, List.all_cons, List.all_nil, Bool.and_true] at hreturns
      exact succeeds_of_isOk hreturns
    have hds : evaluateCorpus [l] (limitsPolicy [("agent", 100)]) (0 : ℕ)
        (Stream'.const (Stream'.const 0)) = .ok _ :=
      (evaluateCorpus_eq_ok_iff hpol hbudget rfl).mpr ⟨.inr ⟨nofun, nofun⟩,
        List.forall_mem_singleton.mpr (List.forall_mem_singleton.mpr hsays), rfl⟩
    have hids : (out.1.map (get? (lit "receipt_id"))).Nodup := by
      rw [hr]
      exact List.nodup_singleton _
    refine ⟨out, [l], _, rfl, hlog, hds, fun clocks' hsucceeds => ?_⟩
    have haccepted := (hends [l] hlog hids _ _ clocks' hds).mp hsucceeds
    -- a rule would have to fire ten times, on one receipt
    obtain ⟨id, -, hten⟩ := haccepted.firings _ rfl _ List.mem_cons_self
    rw [List.mapIdx_singleton, List.flatMap_singleton] at hten
    have hfew := (hten.trans List.countP_le_length).trans (length_triggeredRules_le _ l _)
    exact absurd hfew (by decide)

end Sample

end Corpus

end Py

end OpenTerms
