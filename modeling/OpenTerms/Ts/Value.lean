import OpenTerms.Common.Double
import OpenTerms.Common.JsonParse
import OpenTerms.Common.Utf8

/-!
# JavaScript values

What `JSON.parse` makes of a text: objects by their own members, arrays,
strings, numbers, booleans and `null`. `JSON.parse` gives every member
its own property, `__proto__` included; assignment does not, since the
name is a setter on `Object.prototype` (`assign`).

Members are kept in the order they were added. That JavaScript lists
names like `0` and `17` before the others, in ascending order, is not
modelled.
-/

namespace OpenTerms

namespace Ts

open Json

/-- A JSON value as JavaScript holds it. -/
abbrev JsVal := Json JsStr Double

/-- The own properties of an object. -/
abbrev JsObject := List (JsStr × JsVal)

/-- Why `canonicalSerialize` refuses a value. -/
inductive Rejection where
  | nan
  | infinity
  | float (x : Double)
  | unsafeInteger (x : Double)
  | nonBmpKey (k : JsStr)
  deriving DecidableEq

/-- What the modelled code throws. The engine's own `TypeError` carries
no text here. -/
inductive TsErr where
  | canonicalizationError (r : Rejection)
  | error (msg : JsStr)
  | typeError
  | policyTimeoutError
  deriving DecidableEq

/-! ## Parsing -/

/-- The number `JSON.parse` makes of a literal. -/
def parseNumber : Lit → Double
  | .int z => .ofInt z
  | .dec neg m e => .ofDecimal neg m e

/-- The value `JSON.parse` makes of a document. -/
def ofDoc (d : Doc) : JsVal := d.map id parseNumber

/-- The object of a document's members. -/
def ofMembers (ms : List (JsStr × Doc)) : JsObject := ms.map (mapMember id parseNumber)

theorem ofDoc_obj (ms : List (JsStr × Doc)) : ofDoc (.obj ms) = .obj (ofMembers ms) := map_obj _ _ ms

theorem get?_ofMembers (k : JsStr) (ms : List (JsStr × Doc)) :
    get? k (ofMembers ms) = (get? k ms).map ofDoc :=
  get?_map_mapMember _ _ Function.injective_id k ms

/-- `JSON.parse`. -/
def jsonParse (text : JsStr) : Option JsVal := (Doc.parse (Utf16.decode text)).map ofDoc

theorem uniqueNames_ofDoc {d : Doc} (h : UniqueNames d) : UniqueNames (ofDoc d) :=
  h.map parseNumber Function.injective_id

/-- What is parsed has no name twice. -/
theorem uniqueNames_jsonParse {text : JsStr} {v : JsVal} (h : jsonParse text = some v) :
    UniqueNames v := by
  obtain ⟨d, hd, rfl⟩ := Option.map_eq_some_iff.mp h
  exact uniqueNames_ofDoc (Doc.uniqueNames_of_parse hd)

/-! ## Objects -/

/-- The name `Object.prototype` has a setter for. -/
def protoName : JsStr := lit "__proto__"

/-- `out[k] = v`. The setter of `__proto__` makes no property. -/
def assign (k : JsStr) (v : JsVal) (out : JsObject) : JsObject :=
  if k = protoName then out else set k v out

/-! ## Texts -/

/-- `Number::toString`. Below `2^53` the shortest decimal of an integer
is its numeral. -/
def numberToString : Double → JsStr
  | .nan => lit "NaN"
  | .inf neg => lit (if neg then "-Infinity" else "Infinity")
  | .fin q =>
    if q.den = 1 ∧ q.num.natAbs < 2 ^ 53 then decimal q.num
    else
      let p := Double.shortest |q|
      let ds := Nat.toDigits 10 p.1
      let n := p.2 + ds.length
      let sign := if q < 0 then ['-'] else []
      if -6 < n ∧ n ≤ 21 then ofChars (sign ++ Double.fixedChars ds n)
      else ofChars (sign ++ (Double.mantissaChars ds
        ++ 'e' :: (if n - 1 < 0 then '-' else '+') :: Nat.toDigits 10 (n - 1).natAbs))

/-- `JSON.stringify` of a string: by code points, lone surrogates
escaped. -/
def quoteJson (us : JsStr) : JsStr :=
  Utf16.encode (quoteWith wideWellFormed (Utf16.decode us))

/-- `TextEncoder.encode`: UTF-8, a lone surrogate as the replacement
character. -/
def textEncode (us : JsStr) : Bytes :=
  (Utf16.decode us).flatMap fun c =>
    Utf8.charBytes (if Utf16.IsSurrogate c.val then Fin.ofNat _ 0xFFFD else c)

theorem numberToString_intCast {z : ℤ} (hz : z.natAbs ≤ 2 ^ 53 - 1) :
    numberToString (.fin z) = decimal z := by
  have hsmall : ((z : ℚ).den = 1 ∧ (z : ℚ).num.natAbs < 2 ^ 53) := by
    rw [Rat.den_intCast, Rat.num_intCast]
    exact ⟨rfl, by omega⟩
  rw [numberToString, if_pos hsmall, Rat.num_intCast]

/-- Well-formed text is encoded as it is. -/
theorem textEncode_encode {s : PyStr} (h : ∀ c ∈ s, ¬ Utf16.IsSurrogate c.val) :
    textEncode (Utf16.encode s) = s.flatMap Utf8.charBytes := by
  unfold textEncode
  rw [Utf16.decode_encode h]
  exact List.flatMap_congr fun c hc => by rw [if_neg (h c hc)]

end Ts

end OpenTerms
