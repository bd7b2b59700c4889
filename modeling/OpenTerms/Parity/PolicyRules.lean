import OpenTerms.Parity.PolicyParams

/-!
# One rule in both engines

A rule of the document (`RuleDoc`) becomes a rule in each language, and
the two evaluators are compared on one receipt (`rule_parity`). They
check the same things in the same order, so both raise or neither does,
and they fire together, with two exceptions. The TypeScript evaluator
throws where it cannot print the value its reason quotes, and the URL
rules compare prefixes by code units there, by code points here.

The helpers below the evaluators are taken as they come: what is asked of
them (`HelpersAgree`) is that they give the same on the paths and
patterns the rule mentions.
-/

namespace OpenTerms

namespace Parity

open Json Utf16

/-! ## Rules of a document -/

/-- A rule as a document states it. -/
structure RuleDoc where
  id : JsStr
  type : RuleType
  outcome : DecisionOutcome
  parameters : Members

namespace RuleDoc

/-- The rule Python reads. -/
def toPy (r : RuleDoc) : Py.Rule :=
  { id := decode r.id, type := r.type, outcome := r.outcome,
    parameters := Py.ofMembers r.parameters }

/-- The rule TypeScript reads. -/
def toTs (r : RuleDoc) : Ts.Rule :=
  { id := .str r.id, type := .str (lit r.type.text), outcome := .str (lit r.outcome.text),
    parameters := .obj (Ts.ofMembers r.parameters), others := [] }

/-- A member of the parameters, or the default. -/
def param (r : RuleDoc) (k : String) (dflt : Doc) : Doc := (get? (lit k) r.parameters).getD dflt

/-- The receipt field a URL rule looks at. -/
def sourceField (r : RuleDoc) : Option JsStr := docStr (r.param "source_field" (.str (lit "terms_url")))

/-- The receipt field a `post_state_assertion` rule looks at. -/
def field (r : RuleDoc) : Option JsStr := docStr (r.param "field" (.str Ts.postStateHashPath))

/-- The hash a `post_state_assertion` rule compares with. -/
def expectedHash (r : RuleDoc) : Option JsStr := (get? (lit "expected_hash") r.parameters).bind docStr

/-- The path a rule states. -/
def path? (r : RuleDoc) : Option JsStr :=
  match r.type with
  | .urlPrefixAllowlist | .urlPrefixDenylist => (get? (lit "source_field") r.parameters).bind docStr
  | .postStateAssertion => (get? (lit "field") r.parameters).bind docStr
  | _ => none

end RuleDoc

/-- A pattern as a document states it. -/
structure PatternDoc where
  path : JsStr
  op : JsStr
  value : JsStr

/-- A pattern whose three members are strings. -/
def PatternDoc.read : Doc → Option PatternDoc
  | .obj p => do
    let path ← (get? (lit "path") p).bind docStr
    let op ← (get? (lit "op") p).bind docStr
    let value ← (get? (lit "value") p).bind docStr
    some ⟨path, op, value⟩
  | _ => none

/-- The patterns a rule states. -/
def RuleDoc.patterns (r : RuleDoc) : List Doc :=
  match r.type, get? (lit "patterns") r.parameters with
  | .argsPatternMatch, some (.arr ps) => ps
  | _, _ => []

/-! ## What is asked of the helpers -/

/-- One JSON value in both languages, `null` and `undefined` being one. -/
def SameValue (v : Py.PyVal) (w : Ts.JsAny) : Prop :=
  (v = .null ∧ Ts.nullish w = true) ∨ SameDoc (fun _ => True) v w

/-- A path resolves alike on a receipt. -/
def SamePath (receipt : Members) (path : JsStr) : Prop :=
  SameValue (Py.resolvePath (Py.ofMembers receipt) (decode path))
    (Ts.resolvePath (Ts.ofMembers receipt) path)

/-- `resolve_path` and `match_one` give the same on what a rule mentions. -/
structure HelpersAgree [Ucd] (receipt : Members) (r : RuleDoc) : Prop where
  paths : ∀ p, r.path? = some p → SamePath receipt p
  patterns : ∀ d ∈ r.patterns, ∀ q, PatternDoc.read d = some q → ∀ hit,
    Py.matchOne (decode q.op) (decode q.value)
        (Py.resolvePath (Py.ofMembers receipt) (decode q.path)) = .ok hit
      ↔ Ts.matchOne q.op q.value (Ts.resolvePath (Ts.ofMembers receipt) q.path) = .ok hit

theorem SameValue.cases {v : Py.PyVal} {w : Ts.JsAny} (h : SameValue v w) :
    (v = .null ∧ Ts.nullish w = true)
      ∨ ∃ d : Doc, d ≠ .null ∧ v = Py.ofDoc d ∧ w = .json (Ts.ofDoc d) ∧ Ts.nullish w = false := by
  rcases h with h | ⟨d, -, rfl, rfl⟩
  · exact Or.inl h
  · by_cases hd : d = .null
    · subst hd
      exact Or.inl ⟨rfl, rfl⟩
    · refine Or.inr ⟨d, hd, rfl, rfl, ?_⟩
      cases d with
      | null => exact absurd rfl hd
      | bool | num | str | arr | obj => rfl

/-- Along names that nothing is inherited under, the walks stay together. -/
theorem sameValue_walkPath {parts : List JsStr} (hparts : ∀ p ∈ parts, Ts.OwnName p)
    {v : Py.PyVal} {w : Ts.JsAny} (h : SameValue v w) :
    SameValue (Py.walkPath (parts.map decode) v) (Ts.walkPath parts w) := by
  induction parts generalizing v w with
  | nil => exact h
  | cons p parts ih =>
    rw [List.forall_mem_cons] at hparts
    rcases h.cases with ⟨rfl, hw⟩ | ⟨d, -, rfl, rfl, -⟩
    · refine Or.inl ⟨rfl, ?_⟩
      cases w with
      | undefined => rfl
      | json w =>
        cases w with
        | null => rfl
        | bool | num | str | arr | obj => cases hw
      | builtin f => cases hw
      | objectPrototype => cases hw
    · cases d with
      | obj ms =>
        rw [List.map_cons, Py.ofDoc_obj, Ts.ofDoc_obj, Py.walkPath, Ts.walkPath,
          Py.get?_ofMembers, Ts.getProp_eq hparts.1, Ts.hasProp_eq hparts.1, Ts.get?_ofMembers]
        cases hget : get? p ms with
        | none =>
          have hmem : p ∉ names (Ts.ofMembers ms) := by
            rw [← get?_eq_none_iff, Ts.get?_ofMembers, hget]
            rfl
          rw [decide_eq_false hmem]
          exact Or.inl ⟨rfl, rfl⟩
        | some d =>
          have hmem : p ∈ names (Ts.ofMembers ms) := by
            by_contra hnone
            rw [← get?_eq_none_iff, Ts.get?_ofMembers, hget] at hnone
            cases hnone
          rw [decide_eq_true hmem]
          exact ih hparts.2 (Or.inr ⟨d, trivial, rfl, rfl⟩)
      | null | bool | num | str | arr => exact Or.inl ⟨rfl, rfl⟩

/-- The paths the code itself names resolve alike on every receipt. -/
theorem samePath_lit {path : String} (hpath : Ascii path) (hne : lit path ≠ ([] : JsStr))
    (hsplit : (lit path : PyStr).splitOn (chr '.') = ((lit path : JsStr).splitOn (chr '.')).map decode)
    (hparts : ∀ p ∈ (lit path : JsStr).splitOn (chr '.'), Ts.OwnName p) (receipt : Members) :
    SamePath receipt (lit path) := by
  have hne' : (lit path : PyStr) ≠ [] := by
    intro h
    apply hne
    have hnil : decode (lit path) = decode [] := by
      rw [decode_lit hpath, h]
      rfl
    exact decode_injective hnil
  unfold SamePath Py.resolvePath Ts.resolvePath
  rw [decode_lit hpath, if_neg hne, if_neg hne', hsplit]
  exact sameValue_walkPath hparts (Or.inr ⟨.obj receipt, trivial, by rw [Py.ofDoc_obj],
    by rw [Ts.ofDoc_obj]⟩)

theorem samePath_termsUrl (receipt : Members) : SamePath receipt (lit "terms_url") :=
  samePath_lit (by decide) (by decide) (by decide) (by decide) receipt

theorem samePath_toolId (receipt : Members) : SamePath receipt Ts.toolIdPath :=
  samePath_lit (by decide) (by decide) (by decide) (by decide) receipt

theorem samePath_postState (receipt : Members) : SamePath receipt Ts.postStateHashPath :=
  samePath_lit (by decide) (by decide) (by decide) (by decide) receipt

/-! ## The outcome of one rule -/

/-- A value the TypeScript engine can print. -/
def Printable (v : Ts.JsAny) : Prop := ∃ text, Ts.pyRepr v = .ok text

/-- The value a rule's reason would quote is one TypeScript can print. -/
def Prints (receipt : Members) (r : RuleDoc) : Prop :=
  match r.type with
  | .actionTypeAllowlist => Printable (Ts.getProp (Ts.ofMembers receipt) (lit "action_type"))
  | .toolIdAllowlist => Printable (Ts.resolvePath (Ts.ofMembers receipt) Ts.toolIdPath)
  | .postStateAssertion =>
    r.expectedHash.isSome → ∀ p, r.field = some p →
      Printable (Ts.resolvePath (Ts.ofMembers receipt) p)
  | _ => True

/-- The text a URL rule tests, by code units. -/
def urlText (receipt : Members) (r : RuleDoc) : JsStr :=
  match r.sourceField with
  | some p => (Ts.asStr (Ts.resolvePath (Ts.ofMembers receipt) p)).getD []
  | none => []

/-- A prefix found by code units is found by code points: none that fits
ends inside a surrogate pair of the text, unless another fits as well. -/
def PrefixesAgree (receipt : Members) (r : RuleDoc) : Prop :=
  let agree (k : String) := ∀ us, listParam k r.parameters = some us →
    (∃ p ∈ us, p <+: urlText receipt r) → ∃ p ∈ us, decode p <+: decode (urlText receipt r)
  match r.type with
  | .urlPrefixAllowlist => agree "allowed"
  | .urlPrefixDenylist => agree "denied"
  | _ => True

/-- How the two evaluators of a rule can come out, where `prints` and
`prefixes` are the conditions under which they cannot part. -/
inductive RuleParity (prints prefixes : Prop) :
    Except Py.PyErr Py.RuleResult → Except Ts.TsErr Ts.RuleResult → Prop
  | raises (e : Py.PyErr) (e' : Ts.TsErr) : RuleParity prints prefixes (.error e) (.error e')
  | agrees (a : Py.RuleResult) (b : Ts.RuleResult) (hfired : a.fired = b.fired)
      (hprints : prints) (hprefixes : prefixes) : RuleParity prints prefixes (.ok a) (.ok b)
  | unprintable (a : Py.RuleResult) (e : Ts.TsErr) (h : ¬ prints) :
      RuleParity prints prefixes (.ok a) (.error e)
  | prefixesPart (a : Py.RuleResult) (b : Ts.RuleResult) (hfired : a.fired ≠ b.fired)
      (h : ¬ prefixes) : RuleParity prints prefixes (.ok a) (.ok b)

namespace RuleParity

variable {prints prefixes : Prop}

/-- Checks made alike come first. -/
theorem bind {α β : Type} {R : α → β → Prop} {x : Except Py.PyErr α} {y : Except Ts.TsErr β}
    {f : α → Except Py.PyErr Py.RuleResult} {g : β → Except Ts.TsErr Ts.RuleResult}
    (h : Alike R x y) (hf : ∀ a b, R a b → RuleParity prints prefixes (f a) (g b)) :
    RuleParity prints prefixes (x >>= f) (y >>= g) := by
  cases x with
  | error e =>
    cases y with
    | error e' => exact raises e e'
    | ok b => exact absurd h id
  | ok a =>
    cases y with
    | error e' => exact absurd h id
    | ok b => exact hf a b h

/-- Both fire, or neither does. -/
theorem ite {p q : Prop} [Decidable p] [Decidable q] (hpq : p ↔ q) {s : PyStr} {s' : JsStr}
    (hprints : prints) (hprefixes : prefixes) :
    RuleParity prints prefixes (if p then .ok (Py.fires s) else .ok Py.notFired)
      (if q then .ok (Ts.fires s') else .ok Ts.notFired) := by
  by_cases hp : p
  · rw [if_pos hp, if_pos (hpq.mp hp)]
    exact agrees _ _ rfl hprints hprefixes
  · rw [if_neg hp, if_neg (mt hpq.mpr hp)]
    exact agrees _ _ rfl hprints hprefixes

/-- Both fire, or neither does, and the reason quotes a value that prints
where neither fires. -/
theorem ite_print {p q : Prop} [Decidable p] [Decidable q] (hpq : p ↔ q) {v : Ts.JsAny}
    {s : PyStr} {reason : JsStr → JsStr} (hprints : prints ↔ Printable v)
    (hquiet : ¬ q → Printable v) (hprefixes : prefixes) :
    RuleParity prints prefixes (if p then .ok (Py.fires s) else .ok Py.notFired)
      (if q then (Ts.pyRepr v >>= fun text => .ok (Ts.fires (reason text)))
        else .ok Ts.notFired) := by
  by_cases hp : p
  · rw [if_pos hp, if_pos (hpq.mp hp)]
    cases hv : Ts.pyRepr v with
    | error e =>
      refine unprintable _ _ fun h => ?_
      obtain ⟨text, htext⟩ := hprints.mp h
      cases hv.symm.trans htext
    | ok text => exact agrees _ _ rfl (hprints.mpr ⟨text, hv⟩) hprefixes
  · have hq : ¬ q := mt hpq.mpr hp
    rw [if_neg hp, if_neg hq]
    exact agrees _ _ rfl (hprints.mpr (hquiet hq)) hprefixes

/-- A rule that does not fire on either side. -/
theorem notFired (hprints : prints) (hprefixes : prefixes) :
    RuleParity prints prefixes (.ok Py.notFired) (.ok Ts.notFired) :=
  agrees _ _ rfl hprints hprefixes

end RuleParity

end Parity

end OpenTerms
