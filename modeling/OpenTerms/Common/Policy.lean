import OpenTerms.Common.Text
import Mathlib.Data.List.MinMax
import Mathlib.Data.Multiset.Lattice

/-!
# The vocabulary of policies

The enumerations both SDKs declare, with the texts they are written as in
a policy document, and what an engine is for: `strictest`, the highest
outcome among those of the rules that fired. It is a supremum, so it does
not see the order of the rules, and more rules never lower it.
-/

namespace OpenTerms

/-- `DecisionOutcome`. -/
inductive DecisionOutcome where
  | allow
  | deny
  | escalate
  deriving DecidableEq

/-- `RuleType`. -/
inductive RuleType where
  | maxAmount
  | dailyLimit
  | actionTypeAllowlist
  | actionTypeDenylist
  | urlPrefixAllowlist
  | urlPrefixDenylist
  | escalationThreshold
  | toolIdAllowlist
  | argsPatternMatch
  | postStateAssertion
  deriving DecidableEq

/-- The operators of the pattern language. -/
inductive PatternOp where
  | equalsOp
  | prefixOp
  | suffixOp
  | containsOp
  | globOp
  deriving DecidableEq

/-- `mode` of an `args_pattern_match` rule. -/
inductive MatchMode where
  | any
  | all
  deriving DecidableEq

/-- `applies_to` of a `post_state_assertion` rule: whether it looks at a
receipt without the field. -/
inductive AppliesTo where
  | postActionOnly
  | always
  deriving DecidableEq

/-- How a policy writes an outcome. -/
def DecisionOutcome.text : DecisionOutcome → String
  | allow => "allow"
  | deny => "deny"
  | escalate => "escalate"

/-- How a policy writes a rule type. -/
def RuleType.text : RuleType → String
  | maxAmount => "max_amount"
  | dailyLimit => "daily_limit"
  | actionTypeAllowlist => "action_type_allowlist"
  | actionTypeDenylist => "action_type_denylist"
  | urlPrefixAllowlist => "url_prefix_allowlist"
  | urlPrefixDenylist => "url_prefix_denylist"
  | escalationThreshold => "escalation_threshold"
  | toolIdAllowlist => "tool_id_allowlist"
  | argsPatternMatch => "args_pattern_match"
  | postStateAssertion => "post_state_assertion"

/-- How a policy writes an operator. -/
def PatternOp.text : PatternOp → String
  | equalsOp => "equals"
  | prefixOp => "prefix"
  | suffixOp => "suffix"
  | containsOp => "contains"
  | globOp => "glob"

/-- How a policy writes a mode. -/
def MatchMode.text : MatchMode → String
  | any => "any"
  | all => "all"

/-- How a policy writes `applies_to`. -/
def AppliesTo.text : AppliesTo → String
  | postActionOnly => "post_action_only"
  | always => "always"

/-- `VALID_OUTCOMES`. -/
def validOutcomes : List DecisionOutcome := [.allow, .deny, .escalate]

/-- `VALID_RULE_TYPES`. -/
def validRuleTypes : List RuleType :=
  [.maxAmount, .dailyLimit, .actionTypeAllowlist, .actionTypeDenylist, .urlPrefixAllowlist,
    .urlPrefixDenylist, .escalationThreshold, .toolIdAllowlist, .argsPatternMatch,
    .postStateAssertion]

/-- `VALID_OPS`. -/
def validOps : List PatternOp := [.equalsOp, .prefixOp, .suffixOp, .containsOp, .globOp]

theorem mem_validRuleTypes (t : RuleType) : t ∈ validRuleTypes := by
  cases t <;> decide

/-! ## Precedence -/

namespace DecisionOutcome

/-- `_PRECEDENCE`: deny beats escalate beats allow. -/
def precedence : DecisionOutcome → ℕ
  | allow => 0
  | escalate => 1
  | deny => 2

theorem precedence_injective : Function.Injective precedence := by
  intro a b h
  cases a <;> cases b <;> first | rfl | cases h

/-- The order of strictness: `allow < escalate < deny`. -/
instance : LinearOrder DecisionOutcome := LinearOrder.lift' precedence precedence_injective

instance : OrderBot DecisionOutcome where
  bot := allow
  bot_le o := Nat.zero_le o.precedence

theorem le_deny (o : DecisionOutcome) : o ≤ deny := by cases o <;> decide

end DecisionOutcome

open DecisionOutcome

/-- The strictest of the outcomes, `allow` where there are none. -/
def strictest (os : List DecisionOutcome) : DecisionOutcome := (os : Multiset DecisionOutcome).sup

theorem le_strictest {os : List DecisionOutcome} {o : DecisionOutcome} (h : o ∈ os) :
    o ≤ strictest os :=
  Multiset.le_sup (Multiset.mem_coe.mpr h)

theorem strictest_le {os : List DecisionOutcome} {o : DecisionOutcome} :
    strictest os ≤ o ↔ ∀ a ∈ os, a ≤ o :=
  Multiset.sup_le

/-- The order of the rules does not matter. -/
theorem strictest_perm {os os' : List DecisionOutcome} (h : os.Perm os') :
    strictest os = strictest os' :=
  congrArg Multiset.sup (Multiset.coe_eq_coe.mpr h)

/-- More outcomes are no less strict. -/
theorem strictest_mono {os os' : List DecisionOutcome} (h : ∀ o ∈ os, o ∈ os') :
    strictest os ≤ strictest os' :=
  strictest_le.mpr fun o ho => le_strictest (h o ho)

/-- The strictest outcome is among them, unless it is the default. -/
theorem strictest_mem {os : List DecisionOutcome} (h : strictest os ≠ allow) :
    strictest os ∈ os := by
  by_contra hmem
  refine h (le_antisymm ?_ bot_le)
  induction os with
  | nil => exact le_rfl
  | cons o os ih =>
    have hsup : strictest (o :: os) = o ⊔ strictest os := Multiset.sup_cons o os
    rcases le_total o (strictest os) with hle | hle
    · rw [hsup, sup_eq_right.mpr hle] at hmem h ⊢
      exact ih h fun hin => hmem (List.mem_cons_of_mem _ hin)
    · rw [hsup, sup_eq_left.mpr hle] at hmem
      exact absurd List.mem_cons_self hmem

theorem strictest_eq_deny_iff {os : List DecisionOutcome} :
    strictest os = deny ↔ deny ∈ os := by
  constructor
  · intro h
    have hmem : strictest os ∈ os := strictest_mem (by rw [h]; decide)
    rwa [h] at hmem
  · intro h
    exact le_antisymm (le_deny _) (le_strictest h)

theorem strictest_eq_escalate_iff {os : List DecisionOutcome} :
    strictest os = escalate ↔ deny ∉ os ∧ escalate ∈ os := by
  constructor
  · intro h
    have hmem : strictest os ∈ os := strictest_mem (by rw [h]; decide)
    rw [h] at hmem
    refine ⟨fun hdeny => ?_, hmem⟩
    rw [strictest_eq_deny_iff.mpr hdeny] at h
    cases h
  · rintro ⟨hdeny, hmem⟩
    have hge := le_strictest hmem
    cases hs : strictest os with
    | allow => rw [hs] at hge; exact absurd hge (by decide)
    | deny => exact absurd (strictest_eq_deny_iff.mp hs) hdeny
    | escalate => rfl

theorem strictest_eq_allow_iff {os : List DecisionOutcome} :
    strictest os = allow ↔ deny ∉ os ∧ escalate ∉ os := by
  constructor
  · intro h
    refine ⟨fun hmem => ?_, fun hmem => ?_⟩
    · exact absurd (h ▸ le_strictest hmem) (by decide)
    · exact absurd (h ▸ le_strictest hmem) (by decide)
  · rintro ⟨hdeny, hescalate⟩
    cases hs : strictest os with
    | allow => rfl
    | deny => exact absurd (strictest_eq_deny_iff.mp hs) hdeny
    | escalate => exact absurd (strictest_eq_escalate_iff.mp hs).2 hescalate

/-- A first outcome of the highest precedence, as a loop that keeps the
best so far finds it, is the strictest. -/
theorem strictest_eq_of_argmax {os : List DecisionOutcome} {o : DecisionOutcome}
    (h : o ∈ os.argmax precedence) : strictest os = o :=
  le_antisymm (strictest_le.mpr fun _ ha => List.le_of_mem_argmax ha h)
    (le_strictest (List.argmax_mem h))

end OpenTerms
