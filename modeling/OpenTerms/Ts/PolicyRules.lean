import OpenTerms.Common.Clock
import OpenTerms.Ts.PolicyPattern

/-!
# `policy_rules.ts`

The ten evaluators, with their parameter checks, defaults, error texts
and reasons, and the table that dispatches on the rule's type. The table
is an object, so a type that nobody checked may also name a function of
`Object.prototype` (`applyBuiltin`).
-/

namespace OpenTerms

namespace Ts

open Json

/-! ## Results -/

def notFired : RuleResult := { fired := false, reason := .json (.str []) }

def fires (reason : JsStr) : RuleResult := { fired := true, reason := .json (.str reason) }

/-- The characters `pyRepr` escapes. -/
def escapeQuoted (s : JsStr) : JsStr :=
  (s.flatMap fun u => if u = chr '\\' then [chr '\\', chr '\\'] else [u]).flatMap
    fun u => if u = chr '\'' then [chr '\\', chr '\''] else [u]

/-- `pyRepr`. -/
def pyRepr (v : JsAny) : Except TsErr JsStr :=
  match v with
  | .undefined => .ok (lit "None")
  | .json .null => .ok (lit "None")
  | .json (.str s) => .ok (lit "'" ++ (escapeQuoted s ++ lit "'"))
  | v => anyToStr v

/-- The error of a rule: its text begins with the rule's id, which is
made a string before the rest is. -/
def ruleError {α : Type} (ruleId : JsVal) (text : Except TsErr JsStr) : Except TsErr α := do
  let ruleText ← toStr ruleId
  let rest ← text
  .error (.error (lit "Rule '" ++ (ruleText ++ (lit "'" ++ rest))))

/-! ## Parameters -/

/-- `isInt`. -/
def asInt : JsAny → Option Double
  | .json (.num x) => if x.isInteger then some x else none
  | _ => none

/-- A parameter that must be there. -/
def requireParam (params : JsVal) (key : JsStr) (ruleId : JsVal) : Except TsErr JsAny := do
  let present ← hasKey params key
  if present then readProp params key
  else ruleError ruleId (.ok (lit " parameters missing '" ++ (key ++ lit "'")))

/-- `requireInt`. -/
def requireInt (params : JsVal) (key : JsStr) (ruleId : JsVal) : Except TsErr Double := do
  let val ← requireParam params key ruleId
  match asInt val with
  | some x => .ok x
  | none => ruleError ruleId (.ok (lit " parameter '" ++ (key ++ lit "' must be an integer")))

/-- The list of strings a value is. -/
def asStrList : JsAny → Option (List JsStr)
  | .json (.arr xs) => xs.mapM fun x => asStr (.json x)
  | _ => none

/-- `requireStringList`. -/
def requireStringList (params : JsVal) (key : JsStr) (ruleId : JsVal) :
    Except TsErr (List JsStr) := do
  let val ← requireParam params key ruleId
  match asStrList val with
  | some ss => .ok ss
  | none =>
    ruleError ruleId (.ok (lit " parameter '" ++ (key ++ lit "' must be a list of strings")))

/-- `receiptAmount`. -/
def receiptAmount (receipt : JsObject) (ruleId : JsVal) : Except TsErr Double :=
  match asInt (getProp receipt (lit "amount_charged")) with
  | some x => .ok x
  | none => ruleError ruleId
      (.ok (lit ": receipt.amount_charged must be an integer (ORS minor units)"))

/-- `typeof v === "string" && xs.includes(v)`. -/
def isIn (v : JsAny) (xs : List JsStr) : Bool :=
  match asStr v with
  | some s => s ∈ xs
  | none => false

/-! ## Evaluators -/

def evalMaxAmount (rule : Rule) (receipt : JsObject) : Except TsErr RuleResult := do
  let threshold ← requireInt rule.parameters (lit "threshold") rule.id
  let amount ← receiptAmount receipt rule.id
  if threshold.lt amount then
    .ok (fires (lit "MAX_AMOUNT: amount_charged " ++ (numberToString amount
      ++ (lit " exceeds threshold " ++ numberToString threshold))))
  else .ok notFired

/-- `VALID_DAILY_WINDOWS`. -/
def validDailyWindows : List String := ["utc_day", "rolling_24h"]

def evalDailyLimit (rule : Rule) (receipt aggregates : JsObject) : Except TsErr RuleResult := do
  let threshold ← requireInt rule.parameters (lit "threshold") rule.id
  let given ← readProp rule.parameters (lit "window")
  let window := orElse given (.str (lit "utc_day"))
  match oneOf id validDailyWindows window with
  | none => ruleError rule.id do
      let text ← anyToStr window
      .ok (lit ": window must be one of [\"utc_day\",\"rolling_24h\"], got '" ++ (text ++ lit "'"))
  | some windowText =>
    let key ← toStr rule.id
    match asInt (orElse (getProp aggregates key) (.num (.fin 0))) with
    | none => ruleError rule.id (.ok (lit ": aggregate value for this rule must be an integer"))
    | some prior =>
      let amount ← receiptAmount receipt rule.id
      let total := prior.add amount
      if threshold.lt total then
        .ok (fires (lit "DAILY_LIMIT: cumulative amount " ++ (numberToString total
          ++ (lit " in window " ++ (lit windowText
            ++ (lit " exceeds threshold " ++ numberToString threshold))))))
      else .ok notFired

def evalActionTypeAllowlist (rule : Rule) (receipt : JsObject) : Except TsErr RuleResult := do
  let allowed ← requireStringList rule.parameters (lit "allowed") rule.id
  let actionType := getProp receipt (lit "action_type")
  if !isIn actionType allowed then
    let text ← pyRepr actionType
    .ok (fires (lit "ACTION_TYPE_ALLOWLIST: action_type " ++ (text
      ++ lit " is not on the allow list")))
  else .ok notFired

def evalActionTypeDenylist (rule : Rule) (receipt : JsObject) : Except TsErr RuleResult := do
  let denied ← requireStringList rule.parameters (lit "denied") rule.id
  let actionType := getProp receipt (lit "action_type")
  if isIn actionType denied then
    let text ← pyRepr actionType
    .ok (fires (lit "ACTION_TYPE_DENYLIST: action_type " ++ (text
      ++ lit " is on the deny list")))
  else .ok notFired

/-- `urlSource`: the field and what the receipt holds there. -/
def urlSource (rule : Rule) (receipt : JsObject) : Except TsErr (JsStr × JsAny) := do
  let given ← readProp rule.parameters (lit "source_field")
  match asStr (orElse given (.str (lit "terms_url"))) with
  | some sourceField => .ok (sourceField, resolvePath receipt sourceField)
  | none => ruleError rule.id (.ok (lit ": source_field must be a string"))

/-- `pyRepr` of a string. -/
def reprStr (s : JsStr) : JsStr := lit "'" ++ (escapeQuoted s ++ lit "'")

def evalUrlPrefixAllowlist (rule : Rule) (receipt : JsObject) : Except TsErr RuleResult := do
  let allowed ← requireStringList rule.parameters (lit "allowed") rule.id
  let (field, value) ← urlSource rule receipt
  let text := (asStr value).getD []
  if !allowed.any (·.isPrefixOf text) then
    .ok (fires (lit "URL_PREFIX_ALLOWLIST: " ++ (field ++ (lit " " ++ (reprStr text
      ++ lit " does not match any allowed prefix")))))
  else .ok notFired

def evalUrlPrefixDenylist (rule : Rule) (receipt : JsObject) : Except TsErr RuleResult := do
  let denied ← requireStringList rule.parameters (lit "denied") rule.id
  let (field, value) ← urlSource rule receipt
  let text := (asStr value).getD []
  match denied.find? (·.isPrefixOf text) with
  | some p =>
    .ok (fires (lit "URL_PREFIX_DENYLIST: " ++ (field ++ (lit " " ++ (reprStr text
      ++ (lit " starts with denied prefix " ++ reprStr p))))))
  | none => .ok notFired

def evalEscalationThreshold (rule : Rule) (receipt : JsObject) : Except TsErr RuleResult := do
  let threshold ← requireInt rule.parameters (lit "threshold") rule.id
  let amount ← receiptAmount receipt rule.id
  if !amount.lt threshold then
    .ok (fires (lit "ESCALATION_THRESHOLD: amount_charged " ++ (numberToString amount
      ++ (lit " meets escalation threshold " ++ numberToString threshold))))
  else .ok notFired

/-- Where a receipt commits to the tool it ran. -/
def toolIdPath : JsStr := lit "action_context.ors.commitments.tool_id"

def evalToolIdAllowlist (rule : Rule) (receipt : JsObject) : Except TsErr RuleResult := do
  let allowed ← requireStringList rule.parameters (lit "allowed") rule.id
  let toolId := resolvePath receipt toolIdPath
  if nullish toolId then
    .ok (fires (lit "TOOL_ID_ALLOWLIST: tool_id absent from receipt commitments"))
  else if !isIn toolId allowed then
    let text ← pyRepr toolId
    .ok (fires (lit "TOOL_ID_ALLOWLIST: tool_id " ++ (text
      ++ lit " is not in the allow list")))
  else .ok notFired

/-! ### Patterns -/

/-- The body of the loop over the patterns, after its check of the
deadline: the path and the value of a pattern that matches. -/
def matchPattern (rule : Rule) (receipt : JsObject) : JsVal → Except TsErr (Option (JsStr × JsStr))
  | .obj p =>
    match asStr (getProp p (lit "path")), asStr (getProp p (lit "value")) with
    | some path, some value =>
      match oneOf PatternOp.text validOps (getProp p (lit "op")) with
      | none => ruleError rule.id do
          let text ← anyToStr (getProp p (lit "op"))
          .ok (lit ": pattern.op must be one of [\"equals\",\"prefix\",\"suffix\",\"contains\",\"glob\"], got '"
            ++ (text ++ lit "'"))
      | some op => do
        let hit ← matchOne (lit op.text) value (resolvePath receipt path)
        .ok (if hit then some (path, value) else none)
    | _, _ => ruleError rule.id (.ok (lit ": pattern.path and pattern.value must be strings"))
  | _ => ruleError rule.id (.ok (lit ": each pattern must be an object"))

/-- The patterns and the mode of an `args_pattern_match` rule. -/
def patternParams (rule : Rule) : Except TsErr (List JsVal × MatchMode) := do
  match ← readProp rule.parameters (lit "patterns") with
  | .json (.arr (pat :: pats)) =>
    let given ← readProp rule.parameters (lit "mode")
    let mode := orElse given (.str (lit "any"))
    match oneOf MatchMode.text [.any, .all] mode with
    | some m => .ok (pat :: pats, m)
    | none => ruleError rule.id do
        let text ← anyToStr mode
        .ok (lit ": mode must be 'any' or 'all', got '" ++ (text ++ lit "'"))
  | _ => ruleError rule.id (.ok (lit ": parameters.patterns must be a non-empty list"))

/-- What the matches come to. There is a pattern, so where the rule fires
something matched. -/
def patternResult (patterns : List JsVal) (mode : MatchMode) (hits : List (JsStr × JsStr)) :
    RuleResult :=
  let fired := match mode with
    | .any => decide (0 < hits.length)
    | .all => hits.length = patterns.length
  match fired, hits with
  | true, (path, value) :: _ =>
    fires (lit "ARGS_PATTERN_MATCH: pattern at " ++ (path ++ (lit " matched value "
      ++ (reprStr value ++ (lit " (mode=" ++ (lit mode.text ++ (lit ", matched="
        ++ (decimal hits.length ++ (lit "/" ++ (decimal patterns.length ++ lit ")"))))))))))
  | _, _ => notFired

section

variable {T : Type} [LT T] [DecidableLT T]

/-- The loop over the patterns: what matched, in order. -/
def matchPatterns (rule : Rule) (receipt : JsObject) (ctx : EvalContext T) :
    List JsVal → Timed T TsErr (List (JsStr × JsStr))
  | [] => pure []
  | pat :: pats => do
    Timed.checkDeadline .policyTimeoutError ctx.deadlineMonotonic
    let hit ← liftM (matchPattern rule receipt pat)
    let rest ← matchPatterns rule receipt ctx pats
    pure (hit.toList ++ rest)

def evalArgsPatternMatch (rule : Rule) (receipt : JsObject) (ctx : EvalContext T) :
    Timed T TsErr RuleResult := do
  let (patterns, mode) ← liftM (patternParams rule)
  let hits ← matchPatterns rule receipt ctx patterns
  pure (patternResult patterns mode hits)

end

/-! ### Post-state -/

/-- Where a receipt commits to the state after the action. -/
def postStateHashPath : JsStr := lit "action_context.ors.commitments.post_state_hash"

/-- The checks of `evalPostStateAssertion`, in their order: `applies_to`,
then `expected_hash`, then `field`. -/
def postStateParams (rule : Rule) : Except TsErr (JsStr × Option JsStr × AppliesTo) := do
  let givenField ← readProp rule.parameters (lit "field")
  let expected ← readProp rule.parameters (lit "expected_hash")
  let givenApplies ← readProp rule.parameters (lit "applies_to")
  let appliesTo := orElse givenApplies (.str (lit "post_action_only"))
  match oneOf AppliesTo.text [.postActionOnly, .always] appliesTo with
  | none => ruleError rule.id do
      let text ← anyToStr appliesTo
      .ok (lit ": applies_to must be 'post_action_only' or 'always', got '" ++ (text ++ lit "'"))
  | some mode =>
    if !nullish expected && (asStr expected).isNone then
      ruleError rule.id (.ok (lit ": expected_hash must be a string or absent"))
    else
      match asStr (orElse givenField (.str postStateHashPath)) with
      | some field => .ok (field, asStr expected, mode)
      | none => ruleError rule.id (.ok (lit ": field must be a string"))

def evalPostStateAssertion (rule : Rule) (receipt : JsObject) : Except TsErr RuleResult := do
  let (field, expected, appliesTo) ← postStateParams rule
  let actual := resolvePath receipt field
  if nullish actual then
    match appliesTo with
    | .postActionOnly => .ok notFired
    | .always => .ok (fires (lit "POST_STATE_ASSERTION: " ++ (field ++ lit " absent on receipt")))
  else
    match expected with
    | none => .ok notFired
    | some expected =>
      if actual ≠ .json (.str expected) then
        let text ← pyRepr actual
        .ok (fires (lit "POST_STATE_ASSERTION: " ++ (field ++ (lit " " ++ (text
          ++ (lit " does not equal expected " ++ reprStr expected))))))
      else .ok notFired

/-! ## Dispatch -/

/-- A function of `Object.prototype` called as an evaluator. `Object`
returns the rule it is given; the two that ask for a property make the
rule a key; a result without a `fired` does not fire. The others are no
functions, want a function, or return `undefined`. -/
def applyBuiltin (rule : Rule) : JsAny → Except TsErr RuleResult
  | .builtin .constructor =>
    .ok { fired := truthyAny (getProp rule.others (lit "fired")),
          reason := getProp rule.others (lit "reason") }
  | .builtin .toString | .builtin .toLocaleString | .builtin .valueOf | .builtin .isPrototypeOf =>
    .ok { fired := false, reason := .undefined }
  | .builtin .hasOwnProperty | .builtin .propertyIsEnumerable =>
    if lit "toString" ∈ names rule.others then .error .typeError
    else .ok { fired := false, reason := .undefined }
  | _ => .error .typeError

section

variable {T : Type} [LT T] [DecidableLT T]

/-- The evaluator of a rule type. -/
def evaluator (type : RuleType) (rule : Rule) (receipt : JsObject) (ctx : EvalContext T) :
    Timed T TsErr RuleResult :=
  match type with
  | .maxAmount => liftM (evalMaxAmount rule receipt)
  | .dailyLimit => liftM (evalDailyLimit rule receipt ctx.aggregates)
  | .actionTypeAllowlist => liftM (evalActionTypeAllowlist rule receipt)
  | .actionTypeDenylist => liftM (evalActionTypeDenylist rule receipt)
  | .urlPrefixAllowlist => liftM (evalUrlPrefixAllowlist rule receipt)
  | .urlPrefixDenylist => liftM (evalUrlPrefixDenylist rule receipt)
  | .escalationThreshold => liftM (evalEscalationThreshold rule receipt)
  | .toolIdAllowlist => liftM (evalToolIdAllowlist rule receipt)
  | .argsPatternMatch => evalArgsPatternMatch rule receipt ctx
  | .postStateAssertion => liftM (evalPostStateAssertion rule receipt)

/-- `DISPATCH[rule.type](rule, receipt, ctx)`: the type is made a
property key. -/
def applyRule (rule : Rule) (receipt : JsObject) (ctx : EvalContext T) :
    Timed T TsErr RuleResult := do
  let key ← liftM (toStr rule.type)
  match validRuleTypes.find? fun t => lit t.text = key with
  | some type => evaluator type rule receipt ctx
  | none => liftM (applyBuiltin rule (inherited key))

end

/-! ## Without the clock -/

/-- The loop over the patterns when nothing interrupts it. -/
def matchingPatterns (rule : Rule) (receipt : JsObject) :
    List JsVal → Except TsErr (List (JsStr × JsStr))
  | [] => .ok []
  | pat :: pats => do
    let hit ← matchPattern rule receipt pat
    let rest ← matchingPatterns rule receipt pats
    .ok (hit.toList ++ rest)

/-- `evalArgsPatternMatch` when nothing interrupts it. -/
def argsPatternMatch (rule : Rule) (receipt : JsObject) : Except TsErr RuleResult := do
  let (patterns, mode) ← patternParams rule
  let hits ← matchingPatterns rule receipt patterns
  .ok (patternResult patterns mode hits)

/-- What the evaluator of a rule type says of a receipt when nothing
interrupts it. -/
def typeSays (type : RuleType) (rule : Rule) (receipt aggregates : JsObject) :
    Except TsErr RuleResult :=
  match type with
  | .maxAmount => evalMaxAmount rule receipt
  | .dailyLimit => evalDailyLimit rule receipt aggregates
  | .actionTypeAllowlist => evalActionTypeAllowlist rule receipt
  | .actionTypeDenylist => evalActionTypeDenylist rule receipt
  | .urlPrefixAllowlist => evalUrlPrefixAllowlist rule receipt
  | .urlPrefixDenylist => evalUrlPrefixDenylist rule receipt
  | .escalationThreshold => evalEscalationThreshold rule receipt
  | .toolIdAllowlist => evalToolIdAllowlist rule receipt
  | .argsPatternMatch => argsPatternMatch rule receipt
  | .postStateAssertion => evalPostStateAssertion rule receipt

/-- What a rule says of a receipt when nothing interrupts it. -/
def ruleSays (rule : Rule) (receipt aggregates : JsObject) : Except TsErr RuleResult := do
  let key ← toStr rule.type
  match validRuleTypes.find? fun t => lit t.text = key with
  | some type => typeSays type rule receipt aggregates
  | none => applyBuiltin rule (inherited key)

/-! ## What a rule throws -/

/-- Not the exception of a deadline. -/
def NotTimeout (e : TsErr) : Prop := e ≠ .policyTimeoutError

theorem notTimeout_of_typeError (e : TsErr) (h : IsTypeError e) : NotTimeout e := by
  rw [h]
  exact nofun

theorem raises_text (v : JsAny) : Raises NotTimeout (anyToStr v) :=
  (raises_anyToStr v).imp notTimeout_of_typeError

theorem raises_ruleError {α : Type} (ruleId : JsVal) {text : Except TsErr JsStr}
    (h : Raises NotTimeout text) : Raises NotTimeout (ruleError ruleId text : Except TsErr α) := by
  refine ((raises_toStr ruleId).imp notTimeout_of_typeError).bind fun _ _ => ?_
  exact h.bind fun _ _ => raises_error nofun

theorem raises_readProp (v : JsVal) (k : JsStr) : Raises NotTimeout (readProp v k) := by
  cases v
  case null => exact raises_error nofun
  all_goals exact raises_ok _

theorem raises_hasKey (v : JsVal) (k : JsStr) : Raises NotTimeout (hasKey v k) := by
  cases v
  case obj | arr => exact raises_ok _
  all_goals exact raises_error nofun

theorem raises_requireParam (params : JsVal) (key : JsStr) (ruleId : JsVal) :
    Raises NotTimeout (requireParam params key ruleId) := by
  refine (raises_hasKey params key).bind fun _ _ => ?_
  split
  · exact raises_readProp _ _
  · exact raises_ruleError _ (raises_ok _)

theorem raises_requireInt (params : JsVal) (key : JsStr) (ruleId : JsVal) :
    Raises NotTimeout (requireInt params key ruleId) := by
  refine (raises_requireParam params key ruleId).bind fun _ _ => ?_
  split
  · exact raises_ok _
  · exact raises_ruleError _ (raises_ok _)

theorem raises_requireStringList (params : JsVal) (key : JsStr) (ruleId : JsVal) :
    Raises NotTimeout (requireStringList params key ruleId) := by
  refine (raises_requireParam params key ruleId).bind fun _ _ => ?_
  split
  · exact raises_ok _
  · exact raises_ruleError _ (raises_ok _)

theorem raises_receiptAmount (receipt : JsObject) (ruleId : JsVal) :
    Raises NotTimeout (receiptAmount receipt ruleId) := by
  unfold receiptAmount
  split
  · exact raises_ok _
  · exact raises_ruleError _ (raises_ok _)

theorem raises_pyRepr (v : JsAny) : Raises NotTimeout (pyRepr v) := by
  unfold pyRepr
  split
  · exact raises_ok _
  · exact raises_ok _
  · exact raises_ok _
  · exact raises_text _

theorem raises_urlSource (rule : Rule) (receipt : JsObject) :
    Raises NotTimeout (urlSource rule receipt) := by
  refine (raises_readProp _ _).bind fun _ _ => ?_
  split
  · exact raises_ok _
  · exact raises_ruleError _ (raises_ok _)

/-- A last step that decides whether the rule fires. -/
theorem raises_ite {p : Prop} [Decidable p] {x : Except TsErr RuleResult}
    (h : Raises NotTimeout x) : Raises NotTimeout (if p then x else .ok notFired) := by
  split
  · exact h
  · exact raises_ok _

theorem raises_matchOne (op value : JsStr) (target : JsAny) :
    Raises NotTimeout (matchOne op value target) := by
  unfold matchOne
  split
  · exact raises_error nofun
  · split
    · exact raises_ok _
    · exact (raises_text _).bind fun _ _ => raises_ok _

theorem raises_matchPattern (rule : Rule) (receipt : JsObject) (pat : JsVal) :
    Raises NotTimeout (matchPattern rule receipt pat) := by
  unfold matchPattern
  split
  · split
    · split
      · exact raises_ruleError _ ((raises_text _).bind fun _ _ => raises_ok _)
      · exact (raises_matchOne _ _ _).bind fun _ _ => raises_ok _
    · exact raises_ruleError _ (raises_ok _)
  · exact raises_ruleError _ (raises_ok _)

theorem raises_matchingPatterns (rule : Rule) (receipt : JsObject) (pats : List JsVal) :
    Raises NotTimeout (matchingPatterns rule receipt pats) := by
  induction pats with
  | nil => exact raises_ok _
  | cons pat pats ih =>
    exact (raises_matchPattern rule receipt pat).bind fun _ _ => ih.bind fun _ _ => raises_ok _

theorem raises_patternParams (rule : Rule) : Raises NotTimeout (patternParams rule) := by
  refine (raises_readProp _ _).bind fun _ _ => ?_
  split
  · refine (raises_readProp _ _).bind fun _ _ => ?_
    dsimp only
    split
    · exact raises_ok _
    · exact raises_ruleError _ ((raises_text _).bind fun _ _ => raises_ok _)
  · exact raises_ruleError _ (raises_ok _)

theorem raises_postStateParams (rule : Rule) : Raises NotTimeout (postStateParams rule) := by
  refine (raises_readProp _ _).bind fun _ _ => ?_
  refine (raises_readProp _ _).bind fun _ _ => ?_
  refine (raises_readProp _ _).bind fun _ _ => ?_
  dsimp only
  split
  · exact raises_ruleError _ ((raises_text _).bind fun _ _ => raises_ok _)
  · split
    · exact raises_ruleError _ (raises_ok _)
    · split
      · exact raises_ok _
      · exact raises_ruleError _ (raises_ok _)

theorem raises_typeSays (type : RuleType) (rule : Rule) (receipt aggregates : JsObject) :
    Raises NotTimeout (typeSays type rule receipt aggregates) := by
  unfold typeSays
  cases type
  case maxAmount | escalationThreshold =>
    refine (raises_requireInt _ _ _).bind fun _ _ => ?_
    exact (raises_receiptAmount _ _).bind fun _ _ => raises_ite (raises_ok _)
  case dailyLimit =>
    refine (raises_requireInt _ _ _).bind fun _ _ => ?_
    refine (raises_readProp _ _).bind fun _ _ => ?_
    dsimp only
    split
    · exact raises_ruleError _ ((raises_text _).bind fun _ _ => raises_ok _)
    · refine ((raises_toStr _).imp notTimeout_of_typeError).bind fun _ _ => ?_
      split
      · exact raises_ruleError _ (raises_ok _)
      · exact (raises_receiptAmount _ _).bind fun _ _ => raises_ite (raises_ok _)
  case actionTypeAllowlist | actionTypeDenylist =>
    refine (raises_requireStringList _ _ _).bind fun _ _ => ?_
    exact raises_ite ((raises_pyRepr _).bind fun _ _ => raises_ok _)
  case urlPrefixAllowlist =>
    refine (raises_requireStringList _ _ _).bind fun _ _ => ?_
    exact (raises_urlSource _ _).bind fun _ _ => raises_ite (raises_ok _)
  case urlPrefixDenylist =>
    refine (raises_requireStringList _ _ _).bind fun _ _ => ?_
    refine (raises_urlSource _ _).bind fun _ _ => ?_
    dsimp only
    split
    · exact raises_ok _
    · exact raises_ok _
  case toolIdAllowlist =>
    refine (raises_requireStringList _ _ _).bind fun _ _ => ?_
    dsimp only
    split
    · exact raises_ok _
    · exact raises_ite ((raises_pyRepr _).bind fun _ _ => raises_ok _)
  case argsPatternMatch =>
    refine (raises_patternParams rule).bind fun _ _ => ?_
    exact (raises_matchingPatterns _ _ _).bind fun _ _ => raises_ok _
  case postStateAssertion =>
    refine (raises_postStateParams rule).bind fun _ _ => ?_
    dsimp only
    split
    · split
      · exact raises_ok _
      · exact raises_ok _
    · split
      · exact raises_ok _
      · exact raises_ite ((raises_pyRepr _).bind fun _ _ => raises_ok _)

theorem raises_applyBuiltin (rule : Rule) (f : JsAny) : Raises NotTimeout (applyBuiltin rule f) := by
  unfold applyBuiltin
  split
  case h_1 | h_2 | h_3 | h_4 | h_5 => exact raises_ok _
  case h_6 | h_7 =>
    split
    · exact raises_error (by rintro ⟨⟩)
    · exact raises_ok _
  case h_8 => exact raises_error (by rintro ⟨⟩)

/-- **No rule throws the timeout by itself.** -/
theorem raises_ruleSays (rule : Rule) (receipt aggregates : JsObject) :
    Raises NotTimeout (ruleSays rule receipt aggregates) := by
  refine ((raises_toStr _).imp notTimeout_of_typeError).bind fun _ _ => ?_
  split
  · exact raises_typeSays _ _ _ _
  · exact raises_applyBuiltin _ _

section

variable {T : Type} [LT T] [DecidableLT T] {rule : Rule} {receipt : JsObject}
  {ctx : EvalContext T}

theorem untimed_matchPatterns (hctx : ctx.deadlineMonotonic = none) (pats : List JsVal) :
    Timed.Untimed (matchPatterns rule receipt ctx pats) (matchingPatterns rule receipt pats) := by
  induction pats with
  | nil => exact Timed.untimed_pure []
  | cons pat pats ih =>
    rw [matchPatterns, hctx]
    refine Timed.Untimed.check ?_ _
    refine (Timed.untimed_lift _).bind fun hit _ => ?_
    exact ih.bind fun rest _ => Timed.untimed_pure _

theorem untimed_evaluator (hctx : ctx.deadlineMonotonic = none) (type : RuleType) :
    Timed.Untimed (evaluator type rule receipt ctx) (typeSays type rule receipt ctx.aggregates) := by
  unfold evaluator typeSays
  cases type
  case argsPatternMatch =>
    refine (Timed.untimed_lift _).bind fun params _ => ?_
    exact (untimed_matchPatterns hctx params.1).bind fun hits _ => Timed.untimed_pure _
  all_goals exact Timed.untimed_lift _

/-- **Without a deadline a rule does not look at the clock.** -/
theorem untimed_applyRule (hctx : ctx.deadlineMonotonic = none) :
    Timed.Untimed (applyRule rule receipt ctx) (ruleSays rule receipt ctx.aggregates) := by
  refine (Timed.untimed_lift _).bind fun key _ => ?_
  split
  · exact untimed_evaluator hctx _
  · exact Timed.untimed_lift _

end

end Ts

end OpenTerms
