import OpenTerms.Parity.Policy
import OpenTerms.Parity.Texts

/-!
# Rules as they stand in a document

`RawRule.read` asks for a rule's four members and for nothing else. Both
`from_dict` go on to check the same three of them (`RawRule.checked`) and
then make a text of the id, each in its own language: `str` always gives
one, `String` may throw. `coercePolicy` stops at the members.
-/

namespace OpenTerms

namespace Parity

open Json Utf16

/-- A document with the members of a rule, whatever they hold. -/
structure RawRule where
  id : Doc
  type : Doc
  outcome : Doc
  parameters : Doc
  others : Members

namespace RawRule

/-- The members a rule must have. -/
def fields : List String := ["id", "type", "outcome", "parameters"]

def read : Doc → Option RawRule
  | .obj ms => do
    let id ← get? (lit "id") ms
    let type ← get? (lit "type") ms
    let outcome ← get? (lit "outcome") ms
    let parameters ← get? (lit "parameters") ms
    some { id := id, type := type, outcome := outcome, parameters := parameters,
           others := ms.filter fun m => m.1 ∉ Ts.ruleFields }
  | _ => none

/-- What both `from_dict` check, and the rule they make under an id. -/
def checked (raw : RawRule) (id : JsStr) : Option RuleDoc := do
  let type ← docOneOf RuleType.text validRuleTypes raw.type
  let outcome ← docOneOf DecisionOutcome.text validOutcomes raw.outcome
  match raw.parameters with
  | .obj parameters => some { id := id, type := type, outcome := outcome, parameters := parameters }
  | _ => none

/-- The rule as `coercePolicy` lets it through. -/
def toTs (raw : RawRule) : Ts.Rule :=
  { id := Ts.ofDoc raw.id, type := Ts.ofDoc raw.type, outcome := Ts.ofDoc raw.outcome,
    parameters := Ts.ofDoc raw.parameters, others := Ts.ofMembers raw.others }

theorem read_obj {ms : Members} {raw : RawRule} (h : raw ∈ read (.obj ms)) :
    get? (lit "id") ms = some raw.id ∧ get? (lit "type") ms = some raw.type
      ∧ get? (lit "outcome") ms = some raw.outcome
      ∧ get? (lit "parameters") ms = some raw.parameters := by
  unfold read at h
  simp only [Option.bind_eq_bind, Option.mem_def, Option.bind_eq_some_iff, Option.some.injEq] at h
  obtain ⟨id, hid, type, htype, outcome, houtcome, parameters, hparameters, rfl⟩ := h
  exact ⟨hid, htype, houtcome, hparameters⟩

/-- A rule is read where none of its members is missing. -/
theorem isSome_read {ms : Members} :
    (read (.obj ms)).isSome ↔ ∀ k ∈ fields, (get? (lit k) ms).isSome := by
  unfold read fields
  simp only [List.forall_mem_cons, List.not_mem_nil, false_imp_iff, implies_true, and_true]
  cases get? (lit "id") ms with
  | none => simp
  | some id =>
    cases get? (lit "type") ms with
    | none => simp
    | some type =>
      cases get? (lit "outcome") ms with
      | none => simp
      | some outcome => cases get? (lit "parameters") ms <;> simp

theorem eq_obj_of_read {d : Doc} {raw : RawRule} (h : raw ∈ read d) : ∃ ms, d = .obj ms := by
  cases d with
  | obj ms => exact ⟨ms, rfl⟩
  | null | bool | num | str | arr => cases h

/-- What the checks settle of a rule. -/
theorem checked_eq_some {raw : RawRule} {id : JsStr} {r : RuleDoc} :
    r ∈ raw.checked id
      ↔ docOneOf RuleType.text validRuleTypes raw.type = some r.type
        ∧ docOneOf DecisionOutcome.text validOutcomes raw.outcome = some r.outcome
        ∧ raw.parameters = .obj r.parameters ∧ r.id = id := by
  obtain ⟨rid, rtype, routcome, rparameters⟩ := r
  unfold checked
  cases docOneOf RuleType.text validRuleTypes raw.type with
  | none => simp
  | some type =>
    cases docOneOf DecisionOutcome.text validOutcomes raw.outcome with
    | none => simp
    | some outcome =>
      cases hparameters : raw.parameters with
      | obj parameters =>
        simp only [Option.bind_eq_bind, Option.bind_some, Option.mem_def, Option.some.injEq,
          RuleDoc.mk.injEq, obj.injEq]
        grind
      | null | bool | num | str | arr => simp

end RawRule

/-- `String(v)`, where it does not throw. -/
def docText (d : Doc) : Option JsStr := (Ts.toStr (Ts.ofDoc d)).toOption

/-- The id Python gives a rule: `str(v)`. -/
def pyId [Ucd] (d : Doc) : JsStr := encode (Py.str (Py.ofDoc d))

theorem decode_pyId [Ucd] (d : Doc) : decode (pyId d) = Py.str (Py.ofDoc d) := by
  unfold pyId
  cases d with
  | str us =>
    rw [py_ofDoc_str, Py.str, encode_decode]
  | null | bool | num | arr | obj => exact decode_encode_repr _

/-! ## In Python -/

theorem py_contains {k : String} (hk : Ascii k) (ms : Members) :
    Py.contains (lit k) (.obj (Py.ofMembers ms)) = .ok (get? (lit k) ms).isSome := by
  rw [Py.contains]
  congr 1
  rw [Bool.eq_iff_iff, decide_eq_true_iff, ← not_iff_not, ← get?_eq_none_iff, py_get? hk]
  simp

theorem py_subscript {k : String} (hk : Ascii k) {ms : Members} {d : Doc}
    (hd : get? (lit k) ms = some d) :
    Py.subscript (lit k) (.obj (Py.ofMembers ms)) = .ok (Py.ofDoc d) := by
  rw [Py.subscript, py_get? hk, hd]
  rfl

theorem py_requireFields {ks : List String} (hks : ∀ k ∈ ks, Ascii k) (ms : Members) :
    Succeeds (Py.requireFields (.obj (Py.ofMembers ms)) (ks.map lit))
      ↔ ∀ k ∈ ks, (get? (lit k) ms).isSome := by
  induction ks with
  | nil => exact iff_of_true (succeeds_ok _) (by simp)
  | cons k ks ih =>
    rw [List.forall_mem_cons] at hks
    rw [List.map_cons, Py.requireFields, py_contains hks.1, ok_bind, List.forall_mem_cons,
      ← ih hks.2]
    refine (succeeds_bind_const fun _ _ => Iff.rfl).trans (and_congr_left' ?_)
    rw [succeeds_raiseWhen]
    simp [Option.isSome_iff_ne_none]

section

variable [Ucd]

/-- **What Python reads as a rule.** -/
theorem py_fromDict {d : Doc} {rule : Py.Rule} :
    Py.Rule.fromDict (Py.ofDoc d) = .ok rule
      ↔ ∃ raw ∈ RawRule.read d, ∃ r ∈ raw.checked (pyId raw.id), rule = r.toPy := by
  cases d with
  | null | bool | num | str | arr =>
    refine iff_of_false (fun h => ?_) (by simp [RawRule.read])
    obtain ⟨ms, id, hobj, -⟩ := Py.ruleFromDict_eq_ok h
    cases hobj
  | obj ms =>
    have hfields : Py.ruleFields = RawRule.fields.map lit := rfl
    have hreq := @py_requireFields RawRule.fields (by decide) ms
    rw [← RawRule.isSome_read, ← hfields] at hreq
    rw [Py.ofDoc_obj]
    cases hraw : RawRule.read (.obj ms) with
    | none =>
      rw [hraw] at hreq
      refine iff_of_false (fun h => ?_) (by simp)
      obtain ⟨_, hok, -⟩ := bind_eq_ok_iff.mp h
      simpa using hreq.mp ⟨_, hok⟩
    | some raw =>
      rw [hraw] at hreq
      obtain ⟨_, hok⟩ := hreq.mpr rfl
      obtain ⟨hid, htype, houtcome, hparameters⟩ := RawRule.read_obj hraw
      simp only [Option.mem_def, Option.some.injEq, exists_eq_left']
      unfold Py.Rule.fromDict RawRule.checked
      rw [hok, ok_bind, py_subscript (by decide) htype, ok_bind, py_oneOf (by decide)]
      cases docOneOf RuleType.text validRuleTypes raw.type with
      | none => exact iff_of_false (by simp) (by simp)
      | some type =>
        dsimp only
        rw [py_subscript (by decide) houtcome, ok_bind, py_oneOf (by decide)]
        cases docOneOf DecisionOutcome.text validOutcomes raw.outcome with
        | none => exact iff_of_false (by simp) (by simp)
        | some outcome =>
          dsimp only
          rw [py_subscript (by decide) hparameters, ok_bind]
          cases raw.parameters with
          | obj ps =>
            rw [Py.ofDoc_obj]
            dsimp only
            rw [py_subscript (by decide) hid, ok_bind]
            simp only [Option.bind_eq_bind, Option.bind_some, Option.some.injEq, exists_eq_left',
              Except.ok.injEq, RuleDoc.toPy, decode_pyId]
            exact eq_comm
          | null | bool | num | str | arr => exact iff_of_false (by simp [Py.ofDoc]) (by simp)

end

/-! ## In TypeScript -/

theorem ts_requireFields {ks : List String} (hks : ∀ k ∈ ks, Ts.OwnName (lit k)) (ms : Members) :
    Succeeds (Ts.requireFields (.obj (Ts.ofMembers ms)) (ks.map lit))
      ↔ ∀ k ∈ ks, (get? (lit k) ms).isSome := by
  induction ks with
  | nil => exact iff_of_true (succeeds_ok _) (by simp)
  | cons k ks ih =>
    rw [List.forall_mem_cons] at hks
    rw [List.map_cons, Ts.requireFields, ts_hasKey hks.1, ok_bind, List.forall_mem_cons,
      ← ih hks.2]
    refine (succeeds_bind_const fun _ _ => Iff.rfl).trans (and_congr_left' ?_)
    rw [succeeds_raiseWhen]
    simp [Option.isSome_iff_ne_none]

/-- What is no object has none of the fields. -/
theorem ts_requireFields_other {v : Ts.JsVal} (hv : ∀ ms, v ≠ .obj ms) :
    ¬ Succeeds (Ts.requireFields v Ts.ruleFields) := by
  unfold Ts.ruleFields Ts.requireFields
  cases v with
  | obj ms => exact absurd rfl (hv ms)
  | arr xs => exact not_succeeds_error _
  | null | bool | num | str => exact not_succeeds_error _

theorem ts_readProp {k : String} (hown : Ts.OwnName (lit k)) {ms : Members} {d : Doc}
    (hd : get? (lit k) ms = some d) :
    Ts.readProp (.obj (Ts.ofMembers ms)) (lit k) = .ok (.json (Ts.ofDoc d)) := by
  rw [Ts.readProp, ts_getProp hown, hd]

theorem ts_fieldsRefused {d : Doc} {t : Ts.Rule} (hd : ∀ ms, d ≠ .obj ms) :
    Ts.ruleFromDict (Ts.ofDoc d) ≠ .ok t := by
  intro h
  obtain ⟨_, hok, -⟩ := bind_eq_ok_iff.mp h
  refine ts_requireFields_other (fun ms hms => ?_) ⟨_, hok⟩
  cases d with
  | obj ms => exact hd ms rfl
  | null | bool | num | str | arr => cases hms

/-- **What `ruleFromDict` reads as a rule.** -/
theorem ts_ruleFromDict {d : Doc} {t : Ts.Rule} :
    Ts.ruleFromDict (Ts.ofDoc d) = .ok t
      ↔ ∃ raw ∈ RawRule.read d, ∃ id ∈ docText raw.id, ∃ r ∈ raw.checked id, t = r.toTs := by
  cases d with
  | null | bool | num | str | arr =>
    exact iff_of_false (ts_fieldsRefused (by simp)) (by simp [RawRule.read])
  | obj ms =>
    have hfields : Ts.ruleFields = RawRule.fields.map lit := rfl
    have hreq := @ts_requireFields RawRule.fields (by decide) ms
    rw [← RawRule.isSome_read, ← hfields] at hreq
    rw [Ts.ofDoc_obj]
    cases hraw : RawRule.read (.obj ms) with
    | none =>
      rw [hraw] at hreq
      refine iff_of_false (fun h => ?_) (by simp)
      obtain ⟨_, hok, -⟩ := bind_eq_ok_iff.mp h
      simpa using hreq.mp ⟨_, hok⟩
    | some raw =>
      rw [hraw] at hreq
      obtain ⟨_, hok⟩ := hreq.mpr rfl
      obtain ⟨hid, htype, houtcome, hparameters⟩ := RawRule.read_obj hraw
      simp only [Option.mem_def, Option.some.injEq, exists_eq_left']
      unfold Ts.ruleFromDict RawRule.checked
      rw [hok, ok_bind, ts_readProp (by decide) htype, ok_bind, ts_oneOf]
      cases docOneOf RuleType.text validRuleTypes raw.type with
      | none =>
        refine iff_of_false (fun h => ?_) (by simp)
        obtain ⟨_, -, h⟩ := bind_eq_ok_iff.mp h
        cases h
      | some type =>
        dsimp only
        rw [ts_readProp (by decide) houtcome, ok_bind, ts_oneOf]
        cases docOneOf DecisionOutcome.text validOutcomes raw.outcome with
        | none =>
          refine iff_of_false (fun h => ?_) (by simp)
          obtain ⟨_, -, h⟩ := bind_eq_ok_iff.mp h
          cases h
        | some outcome =>
          dsimp only
          rw [ts_readProp (by decide) hparameters, ok_bind]
          cases raw.parameters with
          | obj ps =>
            rw [Ts.ofDoc_obj]
            dsimp only
            rw [ts_readProp (by decide) hid, ok_bind]
            unfold docText
            cases htext : Ts.toStr (Ts.ofDoc raw.id) with
            | error e =>
              refine iff_of_false (fun h => ?_) (by simp [Except.toOption])
              obtain ⟨_, hok, -⟩ := bind_eq_ok_iff.mp h
              cases htext.symm.trans hok
            | ok text =>
              rw [Ts.anyToStr, htext, ok_bind]
              simp only [Option.bind_eq_bind, Option.bind_some, Option.some.injEq, exists_eq_left',
                Except.ok.injEq, RuleDoc.toTs, Except.toOption]
              exact eq_comm
          | null | bool | num | str | arr => exact iff_of_false (by simp [Ts.ofDoc]) (by simp)

/-- **What the probe lets through.** -/
theorem ts_probe (d : Doc) : Ts.Rule.probe (Ts.ofDoc d) = (RawRule.read d).map RawRule.toTs := by
  cases d with
  | obj ms =>
    rw [Ts.ofDoc_obj, Ts.Rule.probe, RawRule.read, Ts.get?_ofMembers, Ts.get?_ofMembers,
      Ts.get?_ofMembers, Ts.get?_ofMembers]
    have hothers : (Ts.ofMembers ms).filter (fun m => m.1 ∉ Ts.ruleFields)
        = Ts.ofMembers (ms.filter fun m => m.1 ∉ Ts.ruleFields) := by
      unfold Ts.ofMembers
      rw [List.filter_map]
      rfl
    rw [hothers]
    cases get? (lit "id") ms with
    | none => rfl
    | some id =>
      cases get? (lit "type") ms with
      | none => rfl
      | some type =>
        cases get? (lit "outcome") ms with
        | none => rfl
        | some outcome => cases get? (lit "parameters") ms <;> rfl
  | null | bool | num | str | arr => rfl

end Parity

end OpenTerms
