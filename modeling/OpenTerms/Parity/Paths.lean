import OpenTerms.Common.Utf16Units
import OpenTerms.Parity.PolicyRules

/-!
# Paths in both languages

A path is walked along the members of nested objects. Python asks a dict
for its keys; TypeScript asks with `in`, which also knows the names every
object inherits from `Object.prototype`. The value a document holds at a
path (`valueAt`) is what Python returns on every receipt
(`py_resolvePath`). TypeScript returns it exactly when the walk does not
end on an inherited name (`resolvePath_iff`).
-/

namespace OpenTerms

namespace Parity

open Json Utf16

/-! ## What a document holds at a path -/

/-- The value at the end of a path, `null` where there is none. -/
def valueAt : List JsStr → Doc → Doc
  | [], d => d
  | part :: parts, .obj ms =>
    match get? part ms with
    | some d => valueAt parts d
    | none => .null
  | _ :: _, _ => .null

/-- The parts of a path left at the first object that has no member of
the next name. -/
def unmet : List JsStr → Doc → List JsStr
  | [], _ => []
  | part :: parts, .obj ms =>
    match get? part ms with
    | some d => unmet parts d
    | none => part :: parts
  | _ :: _, _ => []

/-- Names a walk from an object ends on although no object of the
document has them: one of `Object.prototype`, or `__proto__` and then the
name of a function of it. -/
def Inherits : List JsStr → Prop
  | [k] => ¬ Ts.OwnName k
  | [k, f] => k = Ts.protoName ∧ (Ts.builtinAt f).isSome
  | _ => False

instance : DecidablePred Inherits := fun parts =>
  match parts with
  | [] => inferInstanceAs (Decidable False)
  | [k] => inferInstanceAs (Decidable (¬ Ts.OwnName k))
  | [k, f] => inferInstanceAs (Decidable (k = Ts.protoName ∧ (Ts.builtinAt f).isSome))
  | _ :: _ :: _ :: _ => inferInstanceAs (Decidable False)

/-! ## Python -/

theorem py_walkPath (parts : List JsStr) (d : Doc) :
    Py.walkPath (parts.map decode) (Py.ofDoc d) = Py.ofDoc (valueAt parts d) := by
  induction parts generalizing d with
  | nil => rfl
  | cons part parts ih =>
    cases d with
    | obj ms =>
      rw [List.map_cons, Py.ofDoc_obj, Py.walkPath, Py.get?_ofMembers, valueAt]
      cases get? part ms with
      | none => rfl
      | some d => exact ih d
    | null | bool | num | str | arr => rfl

theorem decode_path (path : JsStr) :
    (decode path).splitOn (chr '.') = (path.splitOn (chr '.')).map decode := by
  have hdot : (chr '.' : CodePoint) = widen (chr '.') := by decide
  rw [hdot]
  exact decode_splitOn (by decide) path

theorem decode_eq_nil {us : JsStr} : decode us = [] ↔ us = [] :=
  decode_injective.eq_iff (b := [])

/-- The value at a path given as text. -/
def located (path : JsStr) (receipt : Members) : Doc :=
  if path = [] then .null else valueAt (path.splitOn (chr '.')) (.obj receipt)

/-- **Python reads the document.** -/
theorem py_resolvePath (path : JsStr) (receipt : Members) :
    Py.resolvePath (Py.ofMembers receipt) (decode path) = Py.ofDoc (located path receipt) := by
  unfold Py.resolvePath located
  by_cases hpath : path = []
  · rw [if_pos hpath, if_pos (decode_eq_nil.mpr hpath)]
    rfl
  · rw [if_neg hpath, if_neg (mt decode_eq_nil.mp hpath), decode_path, ← Py.ofDoc_obj]
    exact py_walkPath _ _

/-! ## TypeScript -/

/-- Nothing is read off a function. -/
theorem walkPath_builtin (part : JsStr) (parts : List JsStr) (f : Ts.Builtin) :
    Ts.walkPath (part :: parts) (.builtin f) = .json .null := by
  rw [Ts.walkPath]
  · exact fun ms h => by cases h
  · exact fun h => by cases h

/-- Nothing is read off `null`. -/
theorem walkPath_null (parts : List JsStr) : Ts.walkPath parts (.json .null) = .json .null := by
  cases parts with
  | nil => rfl
  | cons part parts =>
    rw [Ts.walkPath]
    · exact fun ms h => by cases h
    · exact fun h => by cases h

/-- From `Object.prototype` the walk ends on nothing, unless at once or
on a function. -/
theorem walkPath_prototype (parts : List JsStr) :
    Ts.walkPath parts .objectPrototype = .json .null
      ↔ parts ≠ [] ∧ ∀ f, parts = [f] → Ts.builtinAt f = none := by
  cases parts with
  | nil => exact ⟨fun h => (by cases h), fun h => absurd rfl h.1⟩
  | cons part parts =>
    rw [Ts.walkPath, Ts.prototypeProp, Ts.inherited]
    by_cases hproto : part = Ts.protoName
    · have hnone : Ts.builtinAt part = none := by
        rw [hproto]
        decide
      rw [if_pos hproto, if_pos (by simp), walkPath_null]
      refine ⟨fun _ => ⟨(by simp), fun f hf => ?_⟩, fun _ => rfl⟩
      obtain ⟨rfl, -⟩ := List.cons.inj hf
      exact hnone
    · rw [if_neg hproto, if_neg hproto]
      cases hf : Ts.builtinAt part with
      | none =>
        refine ⟨fun _ => ⟨(by simp), fun f hparts => ?_⟩, fun _ => by rfl⟩
        obtain ⟨rfl, -⟩ := List.cons.inj hparts
        exact hf
      | some f =>
        rw [if_pos (by simp)]
        cases parts with
        | nil =>
          refine ⟨fun h => (by cases h), fun h => ?_⟩
          have hnone := h.2 part rfl
          rw [hf] at hnone
          cases hnone
        | cons next parts =>
          rw [walkPath_builtin]
          exact ⟨fun _ => ⟨(by simp), fun f h => by cases h⟩, fun _ => rfl⟩

/-- What is read along names an object does not have. -/
theorem walkPath_absent {ms : Members} {part : JsStr} {parts : List JsStr}
    (hget : get? part ms = none) :
    Ts.walkPath (part :: parts) (.json (.obj (Ts.ofMembers ms))) = .json .null
      ↔ ¬ Inherits (part :: parts) := by
  have hmem : part ∉ names (Ts.ofMembers ms) := by
    rw [← get?_eq_none_iff, Ts.get?_ofMembers, hget]
    rfl
  have hprop : Ts.getProp (Ts.ofMembers ms) part = Ts.inherited part := by
    rw [Ts.getProp, Ts.get?_ofMembers, hget]
    rfl
  have hin : Ts.hasProp (Ts.ofMembers ms) part = decide (Ts.inherited part ≠ .undefined) := by
    unfold Ts.hasProp
    simp only [hmem, false_or]
  rw [Ts.walkPath, hin, hprop]
  by_cases hown : Ts.OwnName part
  · have hproto : part ≠ Ts.protoName := by
      rintro rfl
      revert hown
      decide
    rw [hown]
    refine ⟨fun _ => ?_, fun _ => rfl⟩
    cases parts with
    | nil => exact fun h => h hown
    | cons f parts =>
      cases parts with
      | nil => exact fun h => hproto h.1
      | cons => exact id
  · rw [if_pos (by simpa [Ts.OwnName] using hown)]
    -- the name is inherited: `__proto__`, or a function
    unfold Ts.inherited
    by_cases hproto : part = Ts.protoName
    · rw [if_pos hproto, walkPath_prototype]
      cases parts with
      | nil => exact ⟨fun h => absurd rfl h.1, fun h => absurd hown h⟩
      | cons f parts =>
        cases parts with
        | nil =>
          change _ ↔ ¬ (part = Ts.protoName ∧ (Ts.builtinAt f).isSome)
          rw [and_iff_right hproto, Option.not_isSome_iff_eq_none]
          refine ⟨fun h => h.2 f rfl, fun h => ⟨(by simp), fun g hg => ?_⟩⟩
          obtain ⟨rfl, -⟩ := List.cons.inj hg
          exact h
        | cons g parts => exact ⟨fun _ => id, fun _ => ⟨(by simp), fun g hg => by cases hg⟩⟩
    · rw [if_neg hproto]
      cases hf : Ts.builtinAt part with
      | none =>
        refine absurd ?_ hown
        unfold Ts.OwnName Ts.inherited
        rw [if_neg hproto, hf]
      | some f =>
        cases parts with
        | nil => exact ⟨fun h => (by cases h), fun h => absurd hown h⟩
        | cons next parts =>
          refine ⟨fun _ => ?_, fun _ => walkPath_builtin next parts f⟩
          cases parts with
          | nil => exact fun h => hproto h.1
          | cons => exact id

/-- **TypeScript reads the document** where no inherited name is met. By
induction on the path: as long as the names are members, both walks go
the same way. -/
theorem ts_walkPath (parts : List JsStr) (d : Doc) :
    Ts.walkPath parts (.json (Ts.ofDoc d)) = .json (Ts.ofDoc (valueAt parts d))
      ↔ ¬ Inherits (unmet parts d) := by
  induction parts generalizing d with
  | nil => exact ⟨fun _ => id, fun _ => rfl⟩
  | cons part parts ih =>
    cases d with
    | obj ms =>
      rw [Ts.ofDoc_obj, valueAt, unmet]
      cases hget : get? part ms with
      | none => exact walkPath_absent hget
      | some d =>
        have hts : get? part (Ts.ofMembers ms) = some (Ts.ofDoc d) := by
          rw [Ts.get?_ofMembers, hget]
          rfl
        have hmem : part ∈ names (Ts.ofMembers ms) := by
          by_contra hnone
          rw [get?_eq_none_iff.mpr hnone] at hts
          cases hts
        rw [Ts.walkPath, Ts.hasProp, Ts.getProp, hts, if_pos (by simp [hmem])]
        exact ih d
    | null | bool | num | str | arr => exact ⟨fun _ => id, fun _ => rfl⟩

/-- The parts of a path given as text that are left at the first object
without the next of them. -/
def leftOver (path : JsStr) (receipt : Members) : List JsStr :=
  if path = [] then [] else unmet (path.splitOn (chr '.')) (.obj receipt)

/-- TypeScript reads the value at a path given as text. -/
theorem ts_resolvePath (path : JsStr) (receipt : Members) :
    Ts.resolvePath (Ts.ofMembers receipt) path = .json (Ts.ofDoc (located path receipt))
      ↔ ¬ Inherits (leftOver path receipt) := by
  unfold Ts.resolvePath located leftOver
  by_cases hpath : path = []
  · rw [if_pos hpath, if_pos hpath, if_pos hpath]
    exact ⟨fun _ => id, fun _ => rfl⟩
  · rw [if_neg hpath, if_neg hpath, if_neg hpath, ← Ts.ofDoc_obj]
    exact ts_walkPath _ _

/-- **Both languages read the value the receipt holds at the path**, or
nothing where it holds none, exactly when the walk along the receipt's
own members does not stop before a name of `Object.prototype` that ends
the path, or before `__proto__` and the name of a function that ends it. -/
theorem resolvePath_iff (path : JsStr) (receipt : Members) :
    (Py.resolvePath (Py.ofMembers receipt) (decode path) = Py.ofDoc (located path receipt)
        ∧ Ts.resolvePath (Ts.ofMembers receipt) path = .json (Ts.ofDoc (located path receipt)))
      ↔ ¬ Inherits (leftOver path receipt) := by
  rw [and_iff_right (py_resolvePath path receipt)]
  exact ts_resolvePath path receipt

/-- An empty receipt has no `toString`: Python finds nothing there,
TypeScript the function of `Object.prototype`. -/
theorem resolvePath_toString :
    Py.resolvePath (Py.ofMembers []) (decode (lit "toString")) = .null
      ∧ Ts.resolvePath (Ts.ofMembers []) (lit "toString") = .builtin .toString := by
  decide

/-- A member of the name hides it. -/
example : Ts.resolvePath (Ts.ofMembers [(lit "toString", .str (lit "x"))]) (lit "toString")
    = .json (.str (lit "x")) := by decide

end Parity

end OpenTerms
