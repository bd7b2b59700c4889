import OpenTerms.Common.Alike
import OpenTerms.Parity.Canonical
import OpenTerms.Py.Policy.Rules
import OpenTerms.Ts.PolicyRules
import Mathlib.Data.List.Find

/-!
# Policy parameters on one document

Both engines read a rule's parameters out of the same document, by name,
with the same checks. A value is `SameDoc` when both languages hold the
same part of a document; the lemmas here say that the parameter checks
are alike: both raise, or both return the same integer, the same strings,
the same member of an enumeration.
-/

namespace OpenTerms

namespace Parity

open Json Utf16

/-- The members of an object of the document. -/
abbrev Members := List (JsStr × Doc)

/-! ## Values -/

/-- The two languages' values of one document. -/
def SameDoc (Q : Doc → Prop) (v : Py.PyVal) (w : Ts.JsAny) : Prop :=
  ∃ d, Q d ∧ v = Py.ofDoc d ∧ w = .json (Ts.ofDoc d)

/-- A document whose integers are safe and whose numbers are integers. -/
def SafeDoc (d : Doc) : Prop := Every Doc.SafeLit (fun _ => True) (fun _ => True) d

@[simp] theorem py_ofDoc_str (us : JsStr) : Py.ofDoc (.str us) = .str (decode us) := rfl

@[simp] theorem ts_ofDoc_str (us : JsStr) : Ts.ofDoc (.str us) = .str us := rfl

theorem py_ofDoc_arr (xs : List Doc) : Py.ofDoc (.arr xs) = .arr (xs.map Py.ofDoc) := map_arr _ _ xs

theorem ts_ofDoc_arr (xs : List Doc) : Ts.ofDoc (.arr xs) = .arr (xs.map Ts.ofDoc) := map_arr _ _ xs

/-- The string a document is. -/
def docStr : Doc → Option JsStr
  | .str us => some us
  | _ => none

theorem py_asStr (d : Doc) : Py.asStr (Py.ofDoc d) = (docStr d).map decode := by
  cases d <;> rfl

theorem ts_asStr (d : Doc) : Ts.asStr (.json (Ts.ofDoc d)) = docStr d := by
  cases d <;> rfl

/-- The strings a document lists. -/
def docStrs : Doc → Option (List JsStr)
  | .arr xs => xs.mapM docStr
  | _ => none

theorem py_asStrList (d : Doc) :
    Py.asStrList (Py.ofDoc d) = (docStrs d).map (List.map decode) := by
  cases d with
  | arr xs =>
    have hitems : (xs.map Py.ofDoc).mapM Py.asStr = (xs.mapM docStr).map (List.map decode) := by
      induction xs with
      | nil => rfl
      | cons x xs ih =>
        rw [List.map_cons, List.mapM_cons, List.mapM_cons, py_asStr, ih]
        cases docStr x with
        | none => rfl
        | some us => cases xs.mapM docStr <;> rfl
    rw [docStrs, ← hitems, py_ofDoc_arr]
    rfl
  | null | bool | num | str | obj => rfl

theorem ts_asStrList (d : Doc) : Ts.asStrList (.json (Ts.ofDoc d)) = docStrs d := by
  cases d with
  | arr xs =>
    have hitems : (xs.map Ts.ofDoc).mapM (fun x => Ts.asStr (.json x)) = xs.mapM docStr := by
      induction xs with
      | nil => rfl
      | cons x xs ih => rw [List.map_cons, List.mapM_cons, List.mapM_cons, ts_asStr, ih]
    rw [docStrs, ← hitems, ts_ofDoc_arr]
    rfl
  | null | bool | num | str | obj => rfl

/-- The integer a document is. -/
def docInt : Doc → Option ℤ
  | .num (.int z) => some z
  | _ => none

theorem py_asInt {d : Doc} (hd : SafeDoc d) : Py.asInt (Py.ofDoc d) = docInt d := by
  cases d with
  | num l =>
    obtain ⟨z, rfl, -⟩ := hd
    rfl
  | null | bool | str | arr | obj => rfl

theorem ts_asInt {d : Doc} (hd : SafeDoc d) :
    Ts.asInt (.json (Ts.ofDoc d)) = (docInt d).map fun z : ℤ => Double.fin (z : ℚ) := by
  cases d with
  | num l =>
    obtain ⟨z, rfl, hz⟩ := hd
    change Ts.asInt (.json (.num (Ts.parseNumber (.int z)))) = _
    rw [Ts.parseNumber_int hz]
    have hint : (Double.fin (z : ℚ)).isInteger = true := by
      simp [Double.isInteger, Double.rat?]
    simp only [Ts.asInt, hint, if_true, docInt, Option.map_some]
  | null | bool | str | arr | obj => rfl

theorem docInt_safe {d : Doc} {z : ℤ} (hd : SafeDoc d) (h : docInt d = some z) :
    z.natAbs ≤ 2 ^ 53 - 1 := by
  cases d with
  | num l =>
    obtain ⟨z', rfl, hz⟩ := hd
    obtain rfl := Option.some.inj h
    exact hz
  | null | bool | str | arr | obj => cases h

/-- A document is a string in one language as in the other. -/
theorem pyEq_decode (us : JsStr) (d : Doc) :
    Py.pyEq (Py.ofDoc d) (.str (decode us))
      = decide (Ts.JsAny.json (Ts.ofDoc d) = .json (.str us)) := by
  rw [Py.pyEq_str_right]
  cases d with
  | str vs =>
    simp only [py_ofDoc_str, ts_ofDoc_str, Json.str.injEq, Ts.JsAny.json.injEq,
      decode_injective.eq_iff]
  | null | bool | num | arr | obj => exact (decide_eq_false nofun).trans (decide_eq_false nofun).symm

theorem pyEq_text {t : String} (ht : Ascii t) (d : Doc) :
    Py.pyEq (Py.ofDoc d) (.str (lit t)) = decide (Ts.JsAny.json (Ts.ofDoc d) = .json (.str (lit t))) := by
  rw [← decode_lit ht]
  exact pyEq_decode (lit t) d

/-- **The same text, the same member of an enumeration.** -/
theorem oneOf_alike {α : Type} {text : α → String} {valid : List α}
    (htext : ∀ a ∈ valid, Ascii (text a)) (d : Doc) :
    Py.oneOf text valid (Py.ofDoc d) = Ts.oneOf text valid (.json (Ts.ofDoc d)) := by
  exact List.find?_congr fun a ha => pyEq_text (htext a ha) d

/-! ## Members -/

variable {k : String}

theorem py_get? (hk : Ascii k) (ms : Members) :
    get? (lit k) (Py.ofMembers ms) = (get? (lit k) ms).map Py.ofDoc := by
  rw [← decode_lit hk]
  exact Py.get?_ofMembers (lit k) ms

/-- A member, or the default, on both sides. -/
theorem py_getD (hk : Ascii k) (ms : Members) (dflt : Doc) :
    (get? (lit k) (Py.ofMembers ms)).getD (Py.ofDoc dflt)
      = Py.ofDoc ((get? (lit k) ms).getD dflt) := by
  rw [py_get? hk]
  cases get? (lit k) ms <;> rfl

theorem ts_getProp (hown : Ts.OwnName (lit k)) (ms : Members) :
    Ts.getProp (Ts.ofMembers ms) (lit k) = match get? (lit k) ms with
      | some d => .json (Ts.ofDoc d)
      | none => .undefined := by
  rw [Ts.getProp_eq hown, Ts.get?_ofMembers]
  cases get? (lit k) ms <;> rfl

/-- `??` on a member that is not `null`. -/
theorem ts_orElse (hown : Ts.OwnName (lit k)) {ms : Members}
    (hnull : get? (lit k) ms ≠ some .null) (dflt : Doc) :
    Ts.orElse (Ts.getProp (Ts.ofMembers ms) (lit k)) (Ts.ofDoc dflt)
      = .json (Ts.ofDoc ((get? (lit k) ms).getD dflt)) := by
  rw [ts_getProp hown]
  cases hget : get? (lit k) ms with
  | none => rfl
  | some d =>
    cases d with
    | null => exact absurd hget hnull
    | bool | num | str | arr | obj => rfl

theorem ts_hasKey (hown : Ts.OwnName (lit k)) (ms : Members) :
    Ts.hasKey (.obj (Ts.ofMembers ms)) (lit k) = .ok (get? (lit k) ms).isSome := by
  rw [Ts.hasKey, Ts.hasProp_eq hown]
  congr 1
  rw [Bool.eq_iff_iff, decide_eq_true_iff, ← not_iff_not, ← get?_eq_none_iff, Ts.get?_ofMembers]
  cases get? (lit k) ms <;> simp

/-! ## The checks of a parameter -/

variable {ms : Members} {pid : PyStr} {tid : Ts.JsVal}

/-- The errors of one rule. -/
theorem alike_ruleError {α β : Type} {R : α → β → Prop} (e : Py.PyErr) (text : Except Ts.TsErr JsStr) :
    Alike R (.error e : Except Py.PyErr α) (Ts.ruleError tid text : Except Ts.TsErr β) := by
  unfold Ts.ruleError
  cases Ts.toStr tid with
  | error e' => exact alike_error e e'
  | ok ruleText =>
    cases text with
    | error e' => exact alike_error e e'
    | ok t => exact alike_error e _

variable [Ucd]

/-- A required parameter. -/
theorem alike_requireParam (hk : Ascii k) (hown : Ts.OwnName (lit k)) :
    Alike (SameDoc fun d => get? (lit k) ms = some d)
      (Py.requireParam (Py.ofMembers ms) (lit k) pid)
      (Ts.requireParam (.obj (Ts.ofMembers ms)) (lit k) tid) := by
  unfold Py.requireParam Ts.requireParam
  rw [py_get? hk, ts_hasKey hown, ok_bind, Ts.readProp, ts_getProp hown]
  cases hget : get? (lit k) ms with
  | none => exact alike_ruleError _ _
  | some d => exact alike_ok ⟨d, rfl, rfl, rfl⟩

/-- A safe integer, as each language holds it. -/
def SameInt (z : ℤ) (x : Double) : Prop := z.natAbs ≤ 2 ^ 53 - 1 ∧ x = .fin z

/-- A required integer. -/
theorem alike_requireInt (hk : Ascii k) (hown : Ts.OwnName (lit k))
    (hsafe : ∀ m ∈ ms, SafeDoc m.2) :
    Alike SameInt (Py.requireInt (Py.ofMembers ms) (lit k) pid)
      (Ts.requireInt (.obj (Ts.ofMembers ms)) (lit k) tid) := by
  refine (alike_requireParam hk hown).bind fun v w hvw => ?_
  obtain ⟨d, hget, rfl, rfl⟩ := hvw
  have hd : SafeDoc d := hsafe _ (mem_of_get? hget)
  rw [py_asInt hd, ts_asInt hd]
  cases hz : docInt d with
  | none => exact alike_ruleError _ _
  | some z => exact alike_ok ⟨docInt_safe hd hz, rfl⟩

/-- The strings of a required list. -/
def listParam (k : String) (ms : Members) : Option (List JsStr) := (get? (lit k) ms).bind docStrs

/-- A required list of strings. -/
theorem alike_requireList (hk : Ascii k) (hown : Ts.OwnName (lit k)) :
    Alike (fun ss us => listParam k ms = some us ∧ ss = us.map decode)
      (Py.requireList (Py.ofMembers ms) (lit k) pid)
      (Ts.requireStringList (.obj (Ts.ofMembers ms)) (lit k) tid) := by
  refine (alike_requireParam hk hown).bind fun v w hvw => ?_
  obtain ⟨d, hget, rfl, rfl⟩ := hvw
  rw [py_asStrList, ts_asStrList]
  cases hus : docStrs d with
  | none => exact alike_ruleError _ _
  | some us =>
    refine alike_ok ⟨?_, rfl⟩
    rw [listParam, hget]
    exact hus

/-- The amount a receipt charges. -/
theorem alike_amount (hsafe : ∀ m ∈ ms, SafeDoc m.2) :
    Alike SameInt (Py.amount (Py.ofMembers ms) pid) (Ts.receiptAmount (Ts.ofMembers ms) tid) := by
  have hk : Ascii "amount_charged" := by decide
  have hown : Ts.OwnName (lit "amount_charged") := by decide
  unfold Py.amount Ts.receiptAmount Py.getD
  rw [py_get? hk, ts_getProp hown]
  cases hget : get? (lit "amount_charged") ms with
  | none => exact alike_ruleError _ _
  | some d =>
    have hd : SafeDoc d := hsafe _ (mem_of_get? hget)
    rw [Option.map_some, Option.getD_some, py_asInt hd, ts_asInt hd]
    cases hz : docInt d with
    | none => exact alike_ruleError _ _
    | some z => exact alike_ok ⟨docInt_safe hd hz, rfl⟩

/-! ## Membership -/

omit [Ucd] in
/-- `in` and `includes`, on one list of strings. -/
theorem isIn_alike (d : Doc) (us : List JsStr) :
    Py.isIn (Py.ofDoc d) (us.map decode) = Ts.isIn (.json (Ts.ofDoc d)) us := by
  unfold Py.isIn Ts.isIn
  rw [ts_asStr, List.any_map]
  have hitem (u : JsStr) : ((fun s => Py.pyEq (Py.ofDoc d) (.str s)) ∘ decode) u
      = decide (docStr d = some u) := by
    rw [Function.comp_apply, Py.pyEq_str_right]
    cases d with
    | str vs =>
      simp only [py_ofDoc_str, Json.str.injEq, decode_injective.eq_iff, docStr, Option.some.injEq]
    | null | bool | num | arr | obj =>
      exact (decide_eq_false nofun).trans (decide_eq_false nofun).symm
  rw [funext hitem]
  cases docStr d with
  | none => simp
  | some vs =>
    rw [Bool.eq_iff_iff, List.any_eq_true, decide_eq_true_iff]
    simp

end Parity

end OpenTerms
