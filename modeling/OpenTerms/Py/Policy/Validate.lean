import OpenTerms.Py.Ingest.Client
import OpenTerms.Py.Policy.Corpus
import OpenTerms.Py.Policy.Generate

/-!
# `scripts/generate_corpus.py`: the checks and the simulation

`validate_corpus` checks a corpus before it is written: every receipt
verifies, evaluating again gives the decisions there are, the outcomes are
spread as they should be, every rule fires often enough, no two receipts
have one hash, and what a chain calls a parent is an earlier receipt.
`compute_simulation_diffs` lists what a second policy decides otherwise.
-/

namespace OpenTerms

namespace Py

namespace Corpus

open Json

/-! ## Counting -/

/-- `Counter(xs)`. -/
def counter {α : Type} [DecidableEq α] (xs : List α) : List (α × ℕ) :=
  xs.foldl (fun c x => set x ((get? x c).getD 0 + 1) c) []

/-- **A counter counts.** -/
theorem get?_counter {α : Type} [DecidableEq α] (xs : List α) (k : α) :
    (get? k (counter xs)).getD 0 = xs.countP (· = k) := by
  have hfrom (c : List (α × ℕ)) :
      (get? k (xs.foldl (fun c x => set x ((get? x c).getD 0 + 1) c) c)).getD 0
        = (get? k c).getD 0 + xs.countP (· = k) := by
    induction xs generalizing c with
    | nil => rfl
    | cons x xs ih =>
      rw [List.foldl_cons, ih, get?_set, List.countP_cons]
      by_cases h : x = k
      · subst h
        rw [if_pos rfl, Option.getD_some, decide_eq_true rfl, if_pos rfl]
        omega
      · rw [if_neg h, decide_eq_false h, if_neg Bool.false_ne_true, Nat.add_zero]
  have hstart := hfrom []
  rwa [show (get? k ([] : List (α × ℕ))).getD 0 = 0 from rfl, Nat.zero_add] at hstart

/-! ## The checks -/

/-- What `validate_corpus` raises: its assertions, with what they name, or
what something it calls does. -/
inductive Invalid where
  | py (e : PyErr)
  | zeroDivision
  | lengths
  | signature (receiptId : PyVal) (error : Option VerifyError)
  | notReproduced (index : ℕ)
  | distribution (outcome : DecisionOutcome)
  | firings (ruleId : PyVal) (times : ℕ)
  | duplicateHash
  | chainParent (parentId : PyVal) (index : ℕ)

/-- What is raised below, raised here. -/
def raised {α : Type} (x : Except PyErr α) : Except Invalid α := x.mapError .py

@[simp] theorem raised_ok {α : Type} (a : α) : raised (.ok a) = .ok a := rfl

theorem raised_eq_ok_iff {α : Type} {x : Except PyErr α} {a : α} :
    raised x = .ok a ↔ x = .ok a := by
  cases x <;> simp [raised, Except.mapError]

/-- A value that can be a key. -/
def isHashable : PyVal → Bool
  | .arr _ | .obj _ => false
  | _ => true

/-- Signature verification. -/
def verifyAll (crypto : Crypto) (jwks : PyDict) : List LogReceipt → Except Invalid Unit
  | [] => .ok ()
  | r :: rs => do
    let result ← raised (verifyReceipt crypto r.receipt jwks)
    if result.valid then verifyAll crypto jwks rs
    else do
      let receiptId ← raised (subscript (lit "receipt_id") (.obj r.receipt))
      .error (.signature receiptId result.error)

/-- What is raised for decisions that are not the ones there are: the first
that differs, or that there are not as many. -/
def firstDifference : List CorpusDecision → List CorpusDecision → ℕ → Invalid
  | a :: as, b :: bs, i => if a = b then firstDifference as bs (i + 1) else .notReproduced i
  | _, _, _ => .lengths

/-- How the outcomes should be spread. -/
def targets : List (DecisionOutcome × Double) :=
  [(.allow, Double.ofRatio false 70 100), (.deny, Double.ofRatio false 20 100),
    (.escalate, Double.ofRatio false 10 100)]

/-- `abs(times / n - frac) > 0.05`, of finite floats. -/
def outOfTolerance (times n : ℕ) (frac : Double) : Bool :=
  match (Double.ofRatio false times n).rat?, frac.rat? with
  | some actual, some frac =>
    (Double.ofRatio false 5 100).lt (Double.ofRat |actual - frac|)
  | _, _ => false

/-- Distribution tolerance. -/
def checkDistribution (counts : List (DecisionOutcome × ℕ)) (n : ℕ) :
    List (DecisionOutcome × Double) → Except Invalid Unit
  | [] => .ok ()
  | (k, frac) :: rest => do
    raiseWhen (n = 0) .zeroDivision
    raiseWhen (outOfTolerance ((get? k counts).getD 0) n frac = true) (.distribution k)
    checkDistribution counts n rest

/-- `rule_firings.get(rule_id, 0)`. -/
def firingsOf (counts : List (PyStr × ℕ)) : PyVal → Except PyErr ℕ
  | .str id => .ok ((get? id counts).getD 0)
  | .arr _ | .obj _ => .error .typeError
  | _ => .ok 0

/-- Rule-firing minimums. -/
def checkFirings (counts : List (PyStr × ℕ)) : List PyVal → Except Invalid Unit
  | [] => .ok ()
  | rule :: rules => do
    let ruleId ← raised (subscript (lit "id") rule)
    let times ← raised (firingsOf counts ruleId)
    raiseWhen (times < 10) (.firings ruleId times)
    checkFirings counts rules

/-- What the receipts have under a key, each of them a key itself. -/
def keyed (k : PyStr) (receipts : List LogReceipt) : Except PyErr (List PyVal) :=
  receipts.mapM fun r => do
    let v ← subscript k (.obj r.receipt)
    raiseWhen (isHashable v = false) .typeError
    .ok v

/-- `{id: i for i, id in enumerate(ids)}[v]`: the last place it has. -/
def indexOf (v : PyVal) (ids : List PyVal) : Option ℕ :=
  (ids.zipIdx.filter fun p => pyEq p.1 v).getLast?.map Prod.snd

/-- What `validate_corpus` reads as the chain of a receipt:
`r.get("action_context", {}).get("ors", {}).get("chain")`, if the first of
these is a dict, and else `None`. -/
def chainOf (receipt : PyDict) : Except PyErr PyVal :=
  match get? (lit "action_context") receipt with
  | some (.obj context) =>
    match (get? (lit "ors") context).getD (.obj []) with
    | .obj ors => .ok (getD (lit "chain") ors)
    | _ => .error .attributeError
  | _ => .ok .null

/-- The parent a chain names, if it is not empty. -/
def parentOf : PyVal → Except PyErr PyVal
  | .obj [] => .ok .null
  | .obj chain => .ok (getD (lit "parent_receipt_id") chain)
  | v => if Ingest.truthy v then .error .attributeError else .ok .null

/-- Chain integrity. -/
def checkChains (ids : List PyVal) : List LogReceipt → ℕ → Except Invalid Unit
  | [], _ => .ok ()
  | r :: rs, i => do
    let chain ← raised (chainOf r.receipt)
    let parentId ← raised (parentOf chain)
    if parentId ≠ .null then do
      raiseWhen (isHashable parentId = false) (.py .typeError)
      raiseWhen (∀ j ∈ indexOf parentId ids, i ≤ j) (.chainParent parentId i)
    checkChains ids rs (i + 1)

/-- What is reported of a corpus. -/
structure Stats where
  outcomeCounts : List (DecisionOutcome × ℕ)
  ruleFirings : List (PyStr × ℕ)
  actionTypeCounts : List (PyVal × ℕ)

section

variable [Ucd] {T : Type} [LT T] [DecidableLT T] [Zero T] [Add T]

/-- `validate_corpus`. -/
def validateCorpus (crypto : Crypto) (receipts : List LogReceipt)
    (corpusDecisions : List CorpusDecision) (jwks policyV1 : PyDict) (budgetSeconds : T)
    (clocks : Stream' (Stream' T)) : Except Invalid Stats := do
  verifyAll crypto jwks receipts
  let reproduced ← raised (evaluateCorpus receipts policyV1 budgetSeconds clocks)
  raiseWhen (reproduced ≠ corpusDecisions) (firstDifference reproduced corpusDecisions 0)
  let outcomeCounts := counter (corpusDecisions.map fun d => d.decision)
  checkDistribution outcomeCounts receipts.length targets
  let ruleFirings := counter (corpusDecisions.flatMap fun d => d.triggeredRules)
  let rules ← raised (subscript (lit "rules") (.obj policyV1))
  let rules ← raised (iterate rules)
  checkFirings ruleFirings rules
  let hashes ← raised (keyed (lit "canonical_hash") receipts)
  raiseWhen (¬ hashes.Pairwise fun a b => pyEq a b = false) .duplicateHash
  let ids ← raised (keyed (lit "receipt_id") receipts)
  checkChains ids receipts 0
  let actionTypes ← raised (keyed (lit "action_type") receipts)
  .ok { outcomeCounts, ruleFirings, actionTypeCounts := counter actionTypes }

/-! ## The simulation -/

/-- What two policies decide on one receipt. -/
structure SimulationDiff where
  receiptHash : PyVal
  v1 : DecisionOutcome × List PyStr
  v2 : DecisionOutcome × List PyStr

/-- What a diff shows of a decision. -/
def CorpusDecision.shown (d : CorpusDecision) : DecisionOutcome × List PyStr :=
  (d.decision, d.triggeredRules)

/-- `compute_simulation_diffs`: the diffs, and how many there are of each
transition. -/
def computeSimulationDiffs (receipts : List LogReceipt) (v1Decisions : List CorpusDecision)
    (policyV2 : PyDict) (budgetSeconds : T) (clocks : Stream' (Stream' T)) :
    Except Invalid (List SimulationDiff × List ((DecisionOutcome × DecisionOutcome) × ℕ)) := do
  let v2Decisions ← raised (evaluateCorpus receipts policyV2 budgetSeconds clocks)
  raiseWhen (¬ (receipts.length = v1Decisions.length ∧ receipts.length = v2Decisions.length)) .lengths
  let diffs := ((receipts.zip (v1Decisions.zip v2Decisions)).filter fun p =>
    p.2.1.shown ≠ p.2.2.shown).map fun p => ⟨p.1.canonicalHash, p.2.1.shown, p.2.2.shown⟩
  .ok (diffs, counter (diffs.map fun d => (d.v1.1, d.v2.1)))

end

end Corpus

end Py

end OpenTerms
