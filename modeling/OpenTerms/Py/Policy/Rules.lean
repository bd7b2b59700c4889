import OpenTerms.Common.Clock
import OpenTerms.Py.Policy.Pattern
import OpenTerms.Py.Policy.Types

/-!
# `policy/rules.py`

The ten evaluators, with their parameter checks, defaults, error texts
and reasons, and the table that dispatches on the rule's type. Nine of
them are functions of the rule, the receipt and the aggregates;
`eval_args_pattern_match` also looks at the clock, before each pattern.
-/

namespace OpenTerms

namespace Py

open Json

/-! ## Results -/

/-- `RuleResult(fired=False)`. -/
def notFired : RuleResult := { fired := false, reason := [] }

/-- `RuleResult(fired=True, reason=...)`. -/
def fires (reason : PyStr) : RuleResult := { fired := true, reason := reason }

/-- `_VALID_DAILY_WINDOWS`. -/
def validDailyWindows : List String := ["utc_day", "rolling_24h"]

variable [Ucd]

/-! ## Parameters -/

/-- The `ValueError` of a rule, whose text begins with the rule's id. -/
def ruleError (ruleId text : PyStr) : PyErr :=
  .valueError (lit "Rule " ++ (reprStr ruleId ++ text))

/-- A parameter that must be there. -/
def requireParam (params : PyDict) (key ruleId : PyStr) : Except PyErr PyVal :=
  match get? key params with
  | some v => .ok v
  | none => .error (ruleError ruleId (lit " parameters missing '" ++ (key ++ lit "'")))

/-- The `int` a value is: a `bool` does not count. -/
def asInt : PyVal → Option ℤ
  | .num (.int z) => some z
  | _ => none

/-- `_require_int`. -/
def requireInt (params : PyDict) (key ruleId : PyStr) : Except PyErr ℤ := do
  let val ← requireParam params key ruleId
  match asInt val with
  | some z => .ok z
  | none => .error (ruleError ruleId
      (lit " parameter " ++ (reprStr key ++ lit " must be an integer")))

/-- The string a value is. -/
def asStr : PyVal → Option PyStr
  | .str s => some s
  | _ => none

/-- The list of strings a value is. -/
def asStrList : PyVal → Option (List PyStr)
  | .arr xs => xs.mapM asStr
  | _ => none

/-- `_require_list`. -/
def requireList (params : PyDict) (key ruleId : PyStr) : Except PyErr (List PyStr) := do
  let val ← requireParam params key ruleId
  match asStrList val with
  | some ss => .ok ss
  | none => .error (ruleError ruleId
      (lit " parameter " ++ (reprStr key ++ lit " must be a list of strings")))

/-- `_amount`. -/
def amount (receipt : PyDict) (ruleId : PyStr) : Except PyErr ℤ :=
  match asInt (getD (lit "amount_charged") receipt) with
  | some z => .ok z
  | none => .error (ruleError ruleId
      (lit ": receipt.amount_charged must be an integer (ORS minor units)"))

/-- `v in xs`, for a list of strings. -/
def isIn (v : PyVal) (xs : List PyStr) : Bool := xs.any fun s => pyEq v (.str s)

/-! ## Evaluators -/

def evalMaxAmount (rule : Rule) (receipt : PyDict) : Except PyErr RuleResult := do
  let threshold ← requireInt rule.parameters (lit "threshold") rule.id
  let amount ← amount receipt rule.id
  if threshold < amount then
    .ok (fires (lit "MAX_AMOUNT: amount_charged " ++ (decimal amount
      ++ (lit " exceeds threshold " ++ decimal threshold))))
  else .ok notFired

def evalDailyLimit (rule : Rule) (receipt aggregates : PyDict) : Except PyErr RuleResult := do
  let threshold ← requireInt rule.parameters (lit "threshold") rule.id
  let window := (get? (lit "window") rule.parameters).getD (.str (lit "utc_day"))
  raiseWhen ((oneOf id validDailyWindows window).isNone)
    (ruleError rule.id (lit ": window must be one of ('utc_day', 'rolling_24h'), got "
      ++ repr window))
  match asInt ((get? rule.id aggregates).getD (.num (.int 0))) with
  | none => .error (ruleError rule.id (lit ": aggregate value for this rule must be an integer"))
  | some priorTotal =>
    let amount ← amount receipt rule.id
    let total := priorTotal + amount
    if threshold < total then
      .ok (fires (lit "DAILY_LIMIT: cumulative amount " ++ (decimal total
        ++ (lit " in window " ++ (str window
          ++ (lit " exceeds threshold " ++ decimal threshold))))))
    else .ok notFired

def evalActionTypeAllowlist (rule : Rule) (receipt : PyDict) : Except PyErr RuleResult := do
  let allowed ← requireList rule.parameters (lit "allowed") rule.id
  let actionType := getD (lit "action_type") receipt
  if !isIn actionType allowed then
    .ok (fires (lit "ACTION_TYPE_ALLOWLIST: action_type " ++ (repr actionType
      ++ lit " is not on the allow list")))
  else .ok notFired

def evalActionTypeDenylist (rule : Rule) (receipt : PyDict) : Except PyErr RuleResult := do
  let denied ← requireList rule.parameters (lit "denied") rule.id
  let actionType := getD (lit "action_type") receipt
  if isIn actionType denied then
    .ok (fires (lit "ACTION_TYPE_DENYLIST: action_type " ++ (repr actionType
      ++ lit " is on the deny list")))
  else .ok notFired

/-- `_url_source`: the field and what the receipt holds there. -/
def urlSource (rule : Rule) (receipt : PyDict) : Except PyErr (PyStr × PyVal) :=
  match asStr ((get? (lit "source_field") rule.parameters).getD (.str (lit "terms_url"))) with
  | some sourceField => .ok (sourceField, resolvePath receipt sourceField)
  | none => .error (ruleError rule.id (lit ": source_field must be a string"))

def evalUrlPrefixAllowlist (rule : Rule) (receipt : PyDict) : Except PyErr RuleResult := do
  let allowed ← requireList rule.parameters (lit "allowed") rule.id
  let (field, value) ← urlSource rule receipt
  let text := (asStr value).getD []
  if !allowed.any (·.isPrefixOf text) then
    .ok (fires (lit "URL_PREFIX_ALLOWLIST: " ++ (field ++ (lit " " ++ (reprStr text
      ++ lit " does not match any allowed prefix")))))
  else .ok notFired

def evalUrlPrefixDenylist (rule : Rule) (receipt : PyDict) : Except PyErr RuleResult := do
  let denied ← requireList rule.parameters (lit "denied") rule.id
  let (field, value) ← urlSource rule receipt
  let text := (asStr value).getD []
  match denied.find? (·.isPrefixOf text) with
  | some p =>
    .ok (fires (lit "URL_PREFIX_DENYLIST: " ++ (field ++ (lit " " ++ (reprStr text
      ++ (lit " starts with denied prefix " ++ reprStr p))))))
  | none => .ok notFired

def evalEscalationThreshold (rule : Rule) (receipt : PyDict) : Except PyErr RuleResult := do
  let threshold ← requireInt rule.parameters (lit "threshold") rule.id
  let amount ← amount receipt rule.id
  if threshold ≤ amount then
    .ok (fires (lit "ESCALATION_THRESHOLD: amount_charged " ++ (decimal amount
      ++ (lit " meets escalation threshold " ++ decimal threshold))))
  else .ok notFired

/-- Where a receipt commits to the tool it ran. -/
def toolIdPath : PyStr := lit "action_context.ors.commitments.tool_id"

def evalToolIdAllowlist (rule : Rule) (receipt : PyDict) : Except PyErr RuleResult := do
  let allowed ← requireList rule.parameters (lit "allowed") rule.id
  let toolId := resolvePath receipt toolIdPath
  if toolId = .null then
    .ok (fires (lit "TOOL_ID_ALLOWLIST: tool_id absent from receipt commitments"))
  else if !isIn toolId allowed then
    .ok (fires (lit "TOOL_ID_ALLOWLIST: tool_id " ++ (repr toolId
      ++ lit " is not in the allow list")))
  else .ok notFired

/-! ### Patterns -/

/-- The body of the loop over the patterns, after its check of the
deadline: the path and the value of a pattern that matches. -/
def matchPattern (rule : Rule) (receipt : PyDict) : PyVal → Except PyErr (Option (PyStr × PyStr))
  | .obj pat =>
    match asStr (getD (lit "path") pat), asStr (getD (lit "value") pat) with
    | some path, some value =>
      match oneOf PatternOp.text validOps (getD (lit "op") pat) with
      | none => .error (ruleError rule.id
          (lit ": pattern.op must be one of ('equals', 'prefix', 'suffix', 'contains', 'glob'), got "
            ++ repr (getD (lit "op") pat)))
      | some op => do
        let hit ← matchOne (lit op.text) value (resolvePath receipt path)
        .ok (if hit then some (path, value) else none)
    | _, _ => .error (ruleError rule.id (lit ": pattern.path and pattern.value must be strings"))
  | _ => .error (ruleError rule.id (lit ": each pattern must be an object"))

section

variable {T : Type} [LT T] [DecidableLT T]

/-- The loop over the patterns: what matched, in order. -/
def matchPatterns (rule : Rule) (receipt : PyDict) (ctx : EvalContext T) :
    List PyVal → Timed T PyErr (List (PyStr × PyStr))
  | [] => pure []
  | pat :: pats => do
    Timed.checkDeadline .policyTimeout ctx.deadlineMonotonic
    let hit ← liftM (matchPattern rule receipt pat)
    let rest ← matchPatterns rule receipt ctx pats
    pure (hit.toList ++ rest)

/-- The patterns and the mode of an `args_pattern_match` rule. -/
def patternParams (rule : Rule) : Except PyErr (List PyVal × MatchMode) :=
  match getD (lit "patterns") rule.parameters with
  | .arr (pat :: pats) =>
    let mode := (get? (lit "mode") rule.parameters).getD (.str (lit "any"))
    match oneOf MatchMode.text [.any, .all] mode with
    | some m => .ok (pat :: pats, m)
    | none => .error (ruleError rule.id (lit ": mode must be 'any' or 'all', got " ++ repr mode))
  | _ => .error (ruleError rule.id (lit ": parameters.patterns must be a non-empty list"))

/-- What the matches come to. There is a pattern, so where the rule fires
something matched. -/
def patternResult (patterns : List PyVal) (mode : MatchMode) (hits : List (PyStr × PyStr)) :
    RuleResult :=
  let fired := match mode with
    | .any => decide (hits ≠ [])
    | .all => hits.length = patterns.length
  match fired, hits with
  | true, (path, value) :: _ =>
    fires (lit "ARGS_PATTERN_MATCH: pattern at " ++ (path ++ (lit " matched value "
      ++ (reprStr value ++ (lit " (mode=" ++ (lit mode.text ++ (lit ", matched="
        ++ (decimal hits.length ++ (lit "/" ++ (decimal patterns.length ++ lit ")"))))))))))
  | _, _ => notFired

def evalArgsPatternMatch (rule : Rule) (receipt : PyDict) (ctx : EvalContext T) :
    Timed T PyErr RuleResult := do
  let (patterns, mode) ← liftM (patternParams rule)
  let hits ← matchPatterns rule receipt ctx patterns
  pure (patternResult patterns mode hits)

end

/-! ### Post-state -/

/-- Where a receipt commits to the state after the action. -/
def postStateHashPath : PyStr := lit "action_context.ors.commitments.post_state_hash"

/-- The checks of `eval_post_state_assertion`, in their order:
`applies_to`, then `expected_hash`, then `field`. -/
def postStateParams (rule : Rule) : Except PyErr (PyStr × PyVal × AppliesTo) := do
  let expected := getD (lit "expected_hash") rule.parameters
  let appliesTo := (get? (lit "applies_to") rule.parameters).getD (.str (lit "post_action_only"))
  match oneOf AppliesTo.text [.postActionOnly, .always] appliesTo with
  | none => .error (ruleError rule.id
      (lit ": applies_to must be 'post_action_only' or 'always', got " ++ repr appliesTo))
  | some mode =>
    raiseWhen (expected ≠ .null ∧ (asStr expected).isNone)
      (ruleError rule.id (lit ": expected_hash must be a string or absent"))
    match asStr ((get? (lit "field") rule.parameters).getD (.str postStateHashPath)) with
    | some field => .ok (field, expected, mode)
    | none => .error (ruleError rule.id (lit ": field must be a string"))

def evalPostStateAssertion (rule : Rule) (receipt : PyDict) : Except PyErr RuleResult := do
  let (field, expected, appliesTo) ← postStateParams rule
  let actual := resolvePath receipt field
  if actual = .null then
    match appliesTo with
    | .postActionOnly => .ok notFired
    | .always => .ok (fires (lit "POST_STATE_ASSERTION: " ++ (field ++ lit " absent on receipt")))
  else if expected = .null then .ok notFired
  else if !pyEq actual expected then
    .ok (fires (lit "POST_STATE_ASSERTION: " ++ (field ++ (lit " " ++ (repr actual
      ++ (lit " does not equal expected " ++ repr expected))))))
  else .ok notFired

/-! ## Dispatch -/

section

variable {T : Type} [LT T] [DecidableLT T]

/-- `DISPATCH[rule.type](rule, receipt, ctx)`. -/
def applyRule (rule : Rule) (receipt : PyDict) (ctx : EvalContext T) : Timed T PyErr RuleResult :=
  match rule.type with
  | .maxAmount => liftM (evalMaxAmount rule receipt)
  | .dailyLimit => liftM (evalDailyLimit rule receipt ctx.aggregates)
  | .actionTypeAllowlist => liftM (evalActionTypeAllowlist rule receipt)
  | .actionTypeDenylist => liftM (evalActionTypeDenylist rule receipt)
  | .urlPrefixAllowlist => liftM (evalUrlPrefixAllowlist rule receipt)
  | .urlPrefixDenylist => liftM (evalUrlPrefixDenylist rule receipt)
  | .escalationThreshold => liftM (evalEscalationThreshold rule receipt)
  | .toolIdAllowlist => liftM (evalToolIdAllowlist rule receipt)
  | .argsPatternMatch => evalArgsPatternMatch rule receipt ctx
  | .postStateAssertion => liftM (evalPostStateAssertion rule receipt)

end

/-! ## Without the clock -/

/-- The loop over the patterns when nothing interrupts it. -/
def matchingPatterns (rule : Rule) (receipt : PyDict) :
    List PyVal → Except PyErr (List (PyStr × PyStr))
  | [] => .ok []
  | pat :: pats => do
    let hit ← matchPattern rule receipt pat
    let rest ← matchingPatterns rule receipt pats
    .ok (hit.toList ++ rest)

/-- `eval_args_pattern_match` when nothing interrupts it. -/
def argsPatternMatch (rule : Rule) (receipt : PyDict) : Except PyErr RuleResult := do
  let (patterns, mode) ← patternParams rule
  let hits ← matchingPatterns rule receipt patterns
  .ok (patternResult patterns mode hits)

/-- What a rule says of a receipt when nothing interrupts it. -/
def ruleSays (rule : Rule) (receipt aggregates : PyDict) : Except PyErr RuleResult :=
  match rule.type with
  | .maxAmount => evalMaxAmount rule receipt
  | .dailyLimit => evalDailyLimit rule receipt aggregates
  | .actionTypeAllowlist => evalActionTypeAllowlist rule receipt
  | .actionTypeDenylist => evalActionTypeDenylist rule receipt
  | .urlPrefixAllowlist => evalUrlPrefixAllowlist rule receipt
  | .urlPrefixDenylist => evalUrlPrefixDenylist rule receipt
  | .escalationThreshold => evalEscalationThreshold rule receipt
  | .toolIdAllowlist => evalToolIdAllowlist rule receipt
  | .argsPatternMatch => argsPatternMatch rule receipt
  | .postStateAssertion => evalPostStateAssertion rule receipt

/-! ## What a rule raises -/

/-- A `ValueError` that names the rule. -/
def NamesRule (ruleId : PyStr) (e : PyErr) : Prop := ∃ text, e = ruleError ruleId text

theorem namesRule (ruleId text : PyStr) : NamesRule ruleId (ruleError ruleId text) := ⟨text, rfl⟩

theorem raises_requireParam (params : PyDict) (key ruleId : PyStr) :
    Raises (NamesRule ruleId) (requireParam params key ruleId) := by
  unfold requireParam
  split
  · exact raises_ok _
  · exact raises_error (namesRule _ _)

theorem raises_requireInt (params : PyDict) (key ruleId : PyStr) :
    Raises (NamesRule ruleId) (requireInt params key ruleId) := by
  refine (raises_requireParam params key ruleId).bind fun v _ => ?_
  split
  · exact raises_ok _
  · exact raises_error (namesRule _ _)

theorem raises_requireList (params : PyDict) (key ruleId : PyStr) :
    Raises (NamesRule ruleId) (requireList params key ruleId) := by
  refine (raises_requireParam params key ruleId).bind fun v _ => ?_
  split
  · exact raises_ok _
  · exact raises_error (namesRule _ _)

theorem raises_amount (receipt : PyDict) (ruleId : PyStr) :
    Raises (NamesRule ruleId) (amount receipt ruleId) := by
  unfold amount
  split
  · exact raises_ok _
  · exact raises_error (namesRule _ _)

theorem raises_urlSource (rule : Rule) (receipt : PyDict) :
    Raises (NamesRule rule.id) (urlSource rule receipt) := by
  unfold urlSource
  split
  · exact raises_ok _
  · exact raises_error (namesRule _ _)

/-- The operator has been checked, so `match_one` does not raise. -/
theorem matchOne_text (op : PatternOp) (value : PyStr) (target : PyVal) :
    ∃ hit, matchOne (lit op.text) value target = .ok hit := by
  have hfind : (validOps.find? fun o => decide ((lit o.text : PyStr) = lit op.text)) = some op := by
    cases op <;> decide
  unfold matchOne
  rw [hfind]
  cases target <;> exact ⟨_, rfl⟩

theorem raises_matchPattern (rule : Rule) (receipt : PyDict) (pat : PyVal) :
    Raises (NamesRule rule.id) (matchPattern rule receipt pat) := by
  unfold matchPattern
  split
  · split
    · split
      · exact raises_error (namesRule _ _)
      · next op _ =>
        obtain ⟨hit, hhit⟩ := matchOne_text op _ _
        rw [hhit]
        exact raises_ok _
    · exact raises_error (namesRule _ _)
  · exact raises_error (namesRule _ _)

theorem raises_matchingPatterns (rule : Rule) (receipt : PyDict) (pats : List PyVal) :
    Raises (NamesRule rule.id) (matchingPatterns rule receipt pats) := by
  induction pats with
  | nil => exact raises_ok _
  | cons pat pats ih =>
    exact (raises_matchPattern rule receipt pat).bind fun _ _ => ih.bind fun _ _ => raises_ok _

theorem raises_patternParams (rule : Rule) : Raises (NamesRule rule.id) (patternParams rule) := by
  unfold patternParams
  split
  · dsimp only
    split
    · exact raises_ok _
    · exact raises_error (namesRule _ _)
  · exact raises_error (namesRule _ _)

theorem raises_postStateParams (rule : Rule) :
    Raises (NamesRule rule.id) (postStateParams rule) := by
  unfold postStateParams
  dsimp only
  split
  · exact raises_error (namesRule _ _)
  · refine (raises_raiseWhen (namesRule _ _)).bind fun _ _ => ?_
    split
    · exact raises_ok _
    · exact raises_error (namesRule _ _)

/-- A last step that decides whether the rule fires. -/
theorem raises_ite (ruleId : PyStr) (p : Prop) [Decidable p] (r : RuleResult) :
    Raises (NamesRule ruleId) (if p then .ok r else .ok notFired) := by
  split
  · exact raises_ok _
  · exact raises_ok _

/-- **Every error of a rule names the rule.** -/
theorem raises_ruleSays (rule : Rule) (receipt aggregates : PyDict) :
    Raises (NamesRule rule.id) (ruleSays rule receipt aggregates) := by
  unfold ruleSays
  cases rule.type
  case maxAmount =>
    refine (raises_requireInt _ _ _).bind fun _ _ => ?_
    exact (raises_amount _ _).bind fun _ _ => raises_ite _ _ _
  case dailyLimit =>
    refine (raises_requireInt _ _ _).bind fun _ _ => ?_
    refine (raises_raiseWhen (namesRule _ _)).bind fun _ _ => ?_
    split
    · exact raises_error (namesRule _ _)
    · exact (raises_amount _ _).bind fun _ _ => raises_ite _ _ _
  case actionTypeAllowlist =>
    exact (raises_requireList _ _ _).bind fun _ _ => raises_ite _ _ _
  case actionTypeDenylist =>
    exact (raises_requireList _ _ _).bind fun _ _ => raises_ite _ _ _
  case urlPrefixAllowlist =>
    refine (raises_requireList _ _ _).bind fun _ _ => ?_
    exact (raises_urlSource _ _).bind fun _ _ => raises_ite _ _ _
  case urlPrefixDenylist =>
    refine (raises_requireList _ _ _).bind fun _ _ => ?_
    refine (raises_urlSource _ _).bind fun _ _ => ?_
    dsimp only
    split
    · exact raises_ok _
    · exact raises_ok _
  case escalationThreshold =>
    refine (raises_requireInt _ _ _).bind fun _ _ => ?_
    exact (raises_amount _ _).bind fun _ _ => raises_ite _ _ _
  case toolIdAllowlist =>
    refine (raises_requireList _ _ _).bind fun _ _ => ?_
    dsimp only
    split
    · exact raises_ok _
    · exact raises_ite _ _ _
  case argsPatternMatch =>
    refine (raises_patternParams rule).bind fun _ _ => ?_
    exact (raises_matchingPatterns _ _ _).bind fun _ _ => raises_ok _
  case postStateAssertion =>
    refine (raises_postStateParams rule).bind fun _ _ => ?_
    dsimp only
    split
    · split
      · exact raises_ok _
      · exact raises_ok _
    · split
      · exact raises_ok _
      · exact raises_ite _ _ _

section

variable {T : Type} [LT T] [DecidableLT T] {rule : Rule} {receipt : PyDict} {ctx : EvalContext T}

theorem untimed_matchPatterns (hctx : ctx.deadlineMonotonic = none) (pats : List PyVal) :
    Timed.Untimed (matchPatterns rule receipt ctx pats) (matchingPatterns rule receipt pats) := by
  induction pats with
  | nil => exact Timed.untimed_pure []
  | cons pat pats ih =>
    rw [matchPatterns, hctx]
    refine Timed.Untimed.check ?_ _
    refine (Timed.untimed_lift _).bind fun hit _ => ?_
    exact ih.bind fun rest _ => Timed.untimed_pure _

/-- The deadline is checked before each pattern, and only there. -/
theorem cut_matchPatterns (pats : List PyVal) :
    Timed.Cut .policyTimeout (matchPatterns rule receipt ctx pats)
      (matchingPatterns rule receipt pats) := by
  induction pats with
  | nil => exact (Timed.untimed_pure []).cut _
  | cons pat pats ih =>
    rw [matchPatterns]
    refine Timed.Cut.check ?_ _
    refine ((Timed.untimed_lift _).cut _).bind fun hit _ => ?_
    exact ih.bind fun rest _ => (Timed.untimed_pure _).cut _

/-- **Without a deadline a rule does not look at the clock.** -/
theorem untimed_applyRule (hctx : ctx.deadlineMonotonic = none) :
    Timed.Untimed (applyRule rule receipt ctx) (ruleSays rule receipt ctx.aggregates) := by
  unfold applyRule ruleSays
  cases rule.type
  case argsPatternMatch =>
    refine (Timed.untimed_lift _).bind fun params _ => ?_
    exact (untimed_matchPatterns hctx params.1).bind fun hits _ => Timed.untimed_pure _
  all_goals exact Timed.untimed_lift _

/-- **Under a deadline a rule says what it says without one**, or raises
the timeout. -/
theorem cut_applyRule :
    Timed.Cut .policyTimeout (applyRule rule receipt ctx)
      (ruleSays rule receipt ctx.aggregates) := by
  unfold applyRule ruleSays
  cases rule.type
  case argsPatternMatch =>
    refine ((Timed.untimed_lift _).cut _).bind fun params _ => ?_
    exact (cut_matchPatterns params.1).bind fun hits _ => (Timed.untimed_pure _).cut _
  all_goals exact (Timed.untimed_lift _).cut _

end

end Py

end OpenTerms
