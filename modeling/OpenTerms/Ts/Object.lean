import OpenTerms.Common.Fallible
import OpenTerms.Common.JsonText
import OpenTerms.Ts.Verify

/-!
# Properties and conversions

What the policy engine meets of JavaScript beyond a value's own members:
the names an object inherits from `Object.prototype`, the operator `in`,
and conversion to a string, which is also how a value is made a property
key. An own member named `toString` hides the inherited function, and a
JSON value in its place is no function, so such an object has no text.
-/

namespace OpenTerms

namespace Ts

open Json

/-- The functions of `Object.prototype`. -/
inductive Builtin where
  | constructor
  | toString
  | toLocaleString
  | valueOf
  | hasOwnProperty
  | isPrototypeOf
  | propertyIsEnumerable
  | defineGetter
  | defineSetter
  | lookupGetter
  | lookupSetter
  deriving DecidableEq

/-- The name it is inherited under. -/
def Builtin.property : Builtin → String
  | constructor => "constructor"
  | toString => "toString"
  | toLocaleString => "toLocaleString"
  | valueOf => "valueOf"
  | hasOwnProperty => "hasOwnProperty"
  | isPrototypeOf => "isPrototypeOf"
  | propertyIsEnumerable => "propertyIsEnumerable"
  | defineGetter => "__defineGetter__"
  | defineSetter => "__defineSetter__"
  | lookupGetter => "__lookupGetter__"
  | lookupSetter => "__lookupSetter__"

/-- The name it gives itself: `constructor` is the function `Object`. -/
def Builtin.name : Builtin → String
  | constructor => "Object"
  | f => f.property

/-- All of them. -/
def builtins : List Builtin :=
  [.constructor, .toString, .toLocaleString, .valueOf, .hasOwnProperty, .isPrototypeOf,
    .propertyIsEnumerable, .defineGetter, .defineSetter, .lookupGetter, .lookupSetter]

/-- What reading a property may give. -/
inductive JsAny where
  | undefined
  | json (v : JsVal)
  | builtin (f : Builtin)
  | objectPrototype
  deriving DecidableEq

/-- The function inherited under a name. -/
def builtinAt (k : JsStr) : Option Builtin := builtins.find? fun f => lit f.property = k

/-- What an object inherits under a name: `__proto__` is the prototype
itself. -/
def inherited (k : JsStr) : JsAny :=
  if k = protoName then .objectPrototype
  else
    match builtinAt k with
    | some f => .builtin f
    | none => .undefined

theorem inherited_cases (k : JsStr) : inherited k = .undefined
    ∨ (∃ f, inherited k = .builtin f) ∨ inherited k = .objectPrototype := by
  unfold inherited
  by_cases hk : k = protoName
  · rw [if_pos hk]
    exact Or.inr (Or.inr rfl)
  · rw [if_neg hk]
    cases builtinAt k with
    | none => exact Or.inl rfl
    | some f => exact Or.inr (Or.inl ⟨f, rfl⟩)

/-- `o[k]`, of an object. -/
def getProp (ms : JsObject) (k : JsStr) : JsAny :=
  match get? k ms with
  | some v => .json v
  | none => inherited k

/-- `k in o`, of an object. -/
def hasProp (ms : JsObject) (k : JsStr) : Bool := k ∈ names ms ∨ inherited k ≠ .undefined

/-- `Object.prototype[k]`, whose own prototype is `null`. -/
def prototypeProp (k : JsStr) : JsAny := if k = protoName then .json .null else inherited k

/-- `v[k]`. Strings, numbers and arrays have none of the names asked for
here; `null` throws. -/
def readProp (v : JsVal) (k : JsStr) : Except TsErr JsAny :=
  match v with
  | .null => .error .typeError
  | .obj ms => .ok (getProp ms k)
  | _ => .ok .undefined

/-- `k in v`. Arrays have none of the names asked for here; what is no
object throws. -/
def hasKey (v : JsVal) (k : JsStr) : Except TsErr Bool :=
  match v with
  | .obj ms => .ok (hasProp ms k)
  | .arr _ => .ok false
  | _ => .error .typeError

/-- `v ?? d`. -/
def orElse (v : JsAny) (d : JsVal) : JsAny :=
  match v with
  | .undefined => .json d
  | .json .null => .json d
  | v => v

/-- `v === null || v === undefined`. -/
def nullish : JsAny → Bool
  | .undefined => true
  | .json .null => true
  | _ => false

/-- What `!v` is false of. -/
def truthyAny : JsAny → Bool
  | .undefined => false
  | .json v => truthy v
  | .builtin _ => true
  | .objectPrototype => true

/-- The string a value is. -/
def asStr : JsAny → Option JsStr
  | .json (.str s) => some s
  | _ => none

/-! ## Conversion to a string -/

mutual

/-- `String(v)`. -/
def toStr : JsVal → Except TsErr JsStr
  | .null => .ok (lit "null")
  | .bool true => .ok (lit "true")
  | .bool false => .ok (lit "false")
  | .num x => .ok (numberToString x)
  | .str s => .ok s
  | .arr xs => do
    let items ← itemTexts xs
    .ok (joinWith (lit ",") items)
  | .obj ms =>
    if lit "toString" ∈ names ms then .error .typeError else .ok (lit "[object Object]")

/-- The items as `join` writes them: nothing for `null`. -/
def itemTexts : List JsVal → Except TsErr (List JsStr)
  | [] => .ok []
  | .null :: xs => do
    let rest ← itemTexts xs
    .ok ([] :: rest)
  | x :: xs => do
    let text ← toStr x
    let rest ← itemTexts xs
    .ok (text :: rest)

end

/-- `String(v)`, of anything a property read gives. -/
def anyToStr : JsAny → Except TsErr JsStr
  | .undefined => .ok (lit "undefined")
  | .json v => toStr v
  | .builtin f => .ok (lit "function " ++ (lit f.name ++ lit "() \x7b [native code] \x7d"))
  | .objectPrototype => .ok (lit "[object Object]")

/-- The engine's `TypeError`. -/
def IsTypeError (e : TsErr) : Prop := e = .typeError

/-- Conversion throws a `TypeError` or nothing. -/
theorem raises_toStr (v : JsVal) : Raises IsTypeError (toStr v) := by
  induction v using treeInduct with
  | null => exact raises_ok _
  | bool b => cases b <;> exact raises_ok _
  | num x => exact raises_ok _
  | str s => exact raises_ok _
  | obj ms =>
    rw [toStr]
    split
    · exact raises_error rfl
    · exact raises_ok _
  | arr xs ih =>
    have items : Raises IsTypeError (itemTexts xs) := by
      induction xs with
      | nil => exact raises_ok _
      | cons x xs ihs =>
        rw [List.forall_mem_cons] at ih
        have rest := ihs ih.2
        unfold itemTexts
        split
        · exact raises_ok _
        · next heq =>
          obtain ⟨-, rfl⟩ := List.cons.inj heq
          exact rest.bind fun _ _ => raises_ok _
        · next heq =>
          obtain ⟨rfl, rfl⟩ := List.cons.inj heq
          exact ih.1.bind fun _ _ => rest.bind fun _ _ => raises_ok _
    rw [toStr]
    exact items.bind fun _ _ => raises_ok _

theorem raises_anyToStr (v : JsAny) : Raises IsTypeError (anyToStr v) := by
  cases v with
  | json v => exact raises_toStr v
  | undefined => exact raises_ok _
  | builtin f => exact raises_ok _
  | objectPrototype => exact raises_ok _

/-! ## Names nothing is inherited under -/

/-- A name that is not one of `Object.prototype`'s. -/
def OwnName (k : JsStr) : Prop := inherited k = .undefined

instance : DecidablePred OwnName := fun _ => decEq _ _

theorem getProp_eq {k : JsStr} (hk : OwnName k) (ms : JsObject) :
    getProp ms k = match get? k ms with
      | some v => .json v
      | none => .undefined := by
  unfold getProp
  rw [hk]

theorem hasProp_eq {k : JsStr} (hk : OwnName k) (ms : JsObject) :
    hasProp ms k = decide (k ∈ names ms) := by
  unfold hasProp
  rw [hk]
  simp

end Ts

end OpenTerms
