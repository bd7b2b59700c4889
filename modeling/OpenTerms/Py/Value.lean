import OpenTerms.Common.Double
import OpenTerms.Common.JsonParse
import OpenTerms.Common.Utf8

/-!
# Python values

What `json.loads` makes of a document: dicts, lists, strings, `bool`,
`int`, `float` and `None`. `pyEq` is `==`, which compares numbers of all
three numeric types by value; `repr` and `str` are the built-ins, up to
which characters beyond ASCII are printable, a table of the Unicode
character database that `Ucd` stands for.
-/

namespace OpenTerms

/-- What the interpreter's copy of the Unicode character database says. -/
class Ucd where
  /-- `str.isprintable` of one character beyond ASCII that is no surrogate. -/
  isPrintable : CodePoint → Bool

/-- A database in which everything prints. -/
@[reducible] def Ucd.allPrintable : Ucd := ⟨fun _ => true⟩

namespace Py

open Json

/-- A Python number: an `int` of any size, or a `float`, of which the
negative zero prints differently. -/
inductive PyNum where
  | int (z : ℤ)
  | float (x : Double)
  | negZero
  deriving DecidableEq

/-- A JSON-native Python value. -/
abbrev PyVal := Json PyStr PyNum

/-- The items of a `dict`, in insertion order. -/
abbrev PyDict := List (PyStr × PyVal)

/-- Why `_validate` refuses a value. -/
inductive Rejection where
  | nonBmpKey (k : PyStr)
  | unsafeInteger (z : ℤ)
  | floatValue (x : PyNum)
  deriving DecidableEq

/-- The exceptions of the modelled code. Those the interpreter raises
carry no text here. -/
inductive PyErr where
  | canonicalizationError (r : Rejection)
  | valueError (msg : PyStr)
  | unicodeEncodeError
  | binasciiError
  | typeError
  | attributeError
  | keyError
  | policyTimeout
  deriving DecidableEq

/-- What `except ValueError` catches: the class and its subclasses. -/
def PyErr.isValueError : PyErr → Bool
  | .canonicalizationError _ | .valueError _ | .unicodeEncodeError | .binasciiError => true
  | .typeError | .attributeError | .keyError | .policyTimeout => false

/-! ## Loading -/

/-- The number `json.loads` makes of a literal. -/
def loadNumber : Lit → PyNum
  | .int z => .int z
  | .dec neg m e =>
    let x := Double.ofDecimal neg m e
    if neg ∧ x = .fin 0 then .negZero else .float x

/-- The value `json.loads` makes of a document. -/
def ofDoc (d : Doc) : PyVal := d.map Utf16.decode loadNumber

/-- The dict of an object's members. -/
def ofMembers (ms : List (JsStr × Doc)) : PyDict := ms.map (mapMember Utf16.decode loadNumber)

theorem ofDoc_obj (ms : List (JsStr × Doc)) : ofDoc (.obj ms) = .obj (ofMembers ms) := map_obj _ _ ms

theorem get?_ofMembers (k : JsStr) (ms : List (JsStr × Doc)) :
    get? (Utf16.decode k) (ofMembers ms) = (get? k ms).map ofDoc :=
  get?_map_mapMember _ _ Utf16.decode_injective k ms

/-- `json.loads` of a text. -/
def loads (text : PyStr) : Option PyVal := (Doc.parse text).map ofDoc

/-- `json.loads` of UTF-8 bytes. -/
def loadsBytes (bytes : Bytes) : Option PyVal := (Utf8.decode bytes).bind loads

theorem uniqueNames_ofDoc {d : Doc} (h : UniqueNames d) : UniqueNames (ofDoc d) :=
  h.map loadNumber Utf16.decode_injective

/-- What is loaded has no name twice. -/
theorem uniqueNames_loads {text : PyStr} {v : PyVal} (h : loads text = some v) :
    UniqueNames v := by
  obtain ⟨d, hd, rfl⟩ := Option.map_eq_some_iff.mp h
  exact uniqueNames_ofDoc (Doc.uniqueNames_of_parse hd)

/-! ## Equality -/

/-- The number a value compares as: `True == 1`. -/
def numeric? : PyVal → Option PyNum
  | .bool b => some (.int b.toNat)
  | .num x => some x
  | _ => none

/-- The extended rational a number is, if it is one. -/
def PyNum.value? : PyNum → Option (WithBot (WithTop ℚ))
  | .int z => (Double.fin z).value?
  | .float x => x.value?
  | .negZero => (Double.fin 0).value?

/-- `==` on numbers: an `int` and a `float` compare exactly. -/
def PyNum.eq (x y : PyNum) : Bool :=
  match x.value?, y.value? with
  | some a, some b => decide (a = b)
  | _, _ => false

mutual

/-- `==`. -/
def pyEq : PyVal → PyVal → Bool
  | .null, .null => true
  | .str s, .str t => s = t
  | .arr xs, .arr ys => pyEqItems xs ys
  | .obj ms, .obj ns => ms.length = ns.length && pyEqMembers ms ns
  | .bool a, w => (numeric? w).any (PyNum.eq (.int a.toNat))
  | .num x, w => (numeric? w).any (PyNum.eq x)
  | _, _ => false

def pyEqItems : List PyVal → List PyVal → Bool
  | [], [] => true
  | x :: xs, y :: ys => pyEq x y && pyEqItems xs ys
  | _, _ => false

def pyEqMembers : PyDict → PyDict → Bool
  | [], _ => true
  | (k, v) :: ms, ns =>
    (match get? k ns with
      | some w => pyEq v w
      | none => false) && pyEqMembers ms ns

end

/-- Only a string equals a string. -/
@[simp] theorem pyEq_str (s : PyStr) (w : PyVal) : pyEq (.str s) w = decide (w = .str s) := by
  cases w <;> simp [pyEq, eq_comm]

@[simp] theorem pyEq_str_right (v : PyVal) (t : PyStr) :
    pyEq v (.str t) = decide (v = .str t) := by
  cases v <;> simp [pyEq, numeric?]

/-- `d.get(k)`: `None` where the name is absent. -/
def getD (k : PyStr) (ms : PyDict) : PyVal := (get? k ms).getD .null

theorem uniqueNames_getD {ms : PyDict} (h : UniqueNames (.obj ms)) (k : PyStr) :
    UniqueNames (getD k ms) := by
  unfold getD
  cases hget : get? k ms with
  | none => trivial
  | some v => exact (uniqueNames_obj.mp h).2 _ (mem_of_get? hget)

theorem pyEq_getD_str {k : PyStr} {ms : PyDict} {s : PyStr} :
    pyEq (getD k ms) (.str s) = decide (get? k ms = some (.str s)) := by
  rw [pyEq_str_right, getD]
  cases get? k ms <;> simp

/-! ## Texts -/

/-- `repr` of a float other than the negative zero. -/
def reprFloat : Double → PyStr
  | .nan => lit "nan"
  | .inf neg => lit (if neg then "-inf" else "inf")
  | .fin q =>
    if q = 0 then lit "0.0"
    else
      let p := Double.shortest |q|
      let ds := Nat.toDigits 10 p.1
      let n := p.2 + ds.length
      let sign := if q < 0 then ['-'] else []
      if -4 < n ∧ n ≤ 16 then
        ofChars (sign ++ (Double.fixedChars ds n
          ++ if (ds.length : ℤ) ≤ n then ".0".toList else []))
      else
        let e := Nat.toDigits 10 (n - 1).natAbs
        ofChars (sign ++ (Double.mantissaChars ds
          ++ 'e' :: (if n - 1 < 0 then '-' else '+')
            :: ((if e.length < 2 then ['0'] else []) ++ e)))

/-- `int.__repr__` and `float.__repr__`. -/
def reprNum : PyNum → PyStr
  | .int z => decimal z
  | .float x => reprFloat x
  | .negZero => lit "-0.0"

variable [Ucd]

/-- Whether `repr` writes a character as it is; it never does a surrogate. -/
def isPrintable (c : CodePoint) : Bool :=
  if c.val < 0x80 then 0x20 ≤ c.val && c.val < 0x7F
  else if Utf16.IsSurrogate c.val then false
  else Ucd.isPrintable c

/-- A character between the quotes `quote`. -/
def reprChar (quote c : CodePoint) : PyStr :=
  if c = quote ∨ c = chr '\\' then [chr '\\', c]
  else if c.val = 0x09 then lit "\\t"
  else if c.val = 0x0A then lit "\\n"
  else if c.val = 0x0D then lit "\\r"
  else if isPrintable c then [c]
  else if c.val ≤ 0xFF then ofChars ('\\' :: 'x' :: hexByteChars (Fin.ofNat _ c.val))
  else if c.val ≤ 0xFFFF then ofChars (unicodeEscape c.val)
  else ofChars ('\\' :: 'U' :: (hex4Chars (c.val / 0x10000) ++ hex4Chars (c.val % 0x10000)))

/-- `repr` of a string: single quotes, unless it holds one and no double
quote. -/
def reprStr (s : PyStr) : PyStr :=
  let quote : CodePoint := if chr '\'' ∈ s ∧ chr '"' ∉ s then chr '"' else chr '\''
  quote :: (s.flatMap (reprChar quote) ++ [quote])

mutual

/-- `repr`. -/
def repr : PyVal → PyStr
  | .null => lit "None"
  | .bool true => lit "True"
  | .bool false => lit "False"
  | .num x => reprNum x
  | .str s => reprStr s
  | .arr xs => chr '[' :: (joinWith (lit ", ") (reprItems xs) ++ [chr ']'])
  | .obj ms => chr '{' :: (joinWith (lit ", ") (reprMembers ms) ++ [chr '}'])

def reprItems : List PyVal → List PyStr
  | [] => []
  | x :: xs => repr x :: reprItems xs

def reprMembers : PyDict → List PyStr
  | [] => []
  | (k, v) :: ms => (reprStr k ++ (lit ": " ++ repr v)) :: reprMembers ms

end

/-- `str`. -/
def str : PyVal → PyStr
  | .str s => s
  | v => repr v

end Py

end OpenTerms
