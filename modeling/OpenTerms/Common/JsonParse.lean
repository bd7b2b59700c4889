import OpenTerms.Common.JsonText

/-!
# JSON text, read

The RFC 8259 grammar as a recursive-descent reader of documents. A
string literal is read into UTF-16 code units, a raw character giving
the units of its code point and a `\u` escape its own unit; a number
into its literal; a repeated member name keeps its place and takes the
last value, as both `json.loads` and `JSON.parse` do.

The reader is fuelled, and `Doc.parse` gives it twice the length of the
text, which is enough for anything a writer produces (`JsonRoundTrip`).
-/

namespace OpenTerms

open Json Utf16

namespace Doc

/-- Insignificant whitespace. -/
def isWs (c : CodePoint) : Bool :=
  c.val = 0x20 || c.val = 0x09 || c.val = 0x0A || c.val = 0x0D

def skipWs (cs : PyStr) : PyStr := cs.dropWhile isWs

/-- What follows a fixed word. -/
def dropWord : List Char → PyStr → Option PyStr
  | [], cs => some cs
  | _ :: _, [] => none
  | w :: ws, c :: cs => if c = chr w then dropWord ws cs else none

/-! ## Strings -/

/-- The unit a two-character escape stands for. -/
def shortEscape (c : CodePoint) : Option CodeUnit :=
  if c = chr '"' then some (chr '"')
  else if c = chr '\\' then some (chr '\\')
  else if c = chr '/' then some (chr '/')
  else if c = chr 'b' then some (Fin.ofNat _ 0x08)
  else if c = chr 'f' then some (Fin.ofNat _ 0x0C)
  else if c = chr 'n' then some (Fin.ofNat _ 0x0A)
  else if c = chr 'r' then some (Fin.ofNat _ 0x0D)
  else if c = chr 't' then some (Fin.ofNat _ 0x09)
  else none

/-- The unit four hexadecimal digits stand for. -/
def hex4Val (a b c d : CodePoint) : Option CodeUnit :=
  match hexDigitVal a.val, hexDigitVal b.val, hexDigitVal c.val, hexDigitVal d.val with
  | some a, some b, some c, some d => some (Fin.ofNat _ (a * 0x1000 + b * 0x100 + c * 0x10 + d))
  | _, _, _, _ => none

/-- Units put before what the rest of a literal gives. -/
def prepend (us : JsStr) (r : Option (JsStr × PyStr)) : Option (JsStr × PyStr) :=
  r.map fun p => (us ++ p.1, p.2)

/-- A string literal from after its opening quote. -/
def scanString : PyStr → Option (JsStr × PyStr)
  | [] => none
  | c :: cs =>
    if c = chr '"' then some ([], cs)
    else if c = chr '\\' then
      match cs with
      | [] => none
      | e :: cs =>
        if e = chr 'u' then
          match cs with
          | h₁ :: h₂ :: h₃ :: h₄ :: cs =>
            match hex4Val h₁ h₂ h₃ h₄ with
            | some u => prepend [u] (scanString cs)
            | none => none
          | _ => none
        else
          match shortEscape e with
          | some u => prepend [u] (scanString cs)
          | none => none
    else if c.val < 0x20 then none
    else prepend (encodeChar c) (scanString cs)

/-! ## Numbers -/

/-- The leading digits, as their values. -/
def spanDigits : PyStr → List ℕ × PyStr
  | [] => ([], [])
  | c :: cs =>
    if IsDigit c.val then ((c.val - 0x30) :: (spanDigits cs).1, (spanDigits cs).2)
    else ([], c :: cs)

/-- The number digits spell. -/
def digitsVal (ds : List ℕ) : ℕ := ds.foldl (fun a d => 10 * a + d) 0

/-- A leading minus. -/
def scanMinus : PyStr → Bool × PyStr
  | [] => (false, [])
  | c :: cs => if c = chr '-' then (true, cs) else (false, c :: cs)

/-- A fraction, if the text has one. -/
def scanFrac : PyStr → Option (List ℕ × PyStr)
  | [] => some ([], [])
  | c :: cs =>
    if c = chr '.' then
      match spanDigits cs with
      | ([], _) => none
      | (ds, cs) => some (ds, cs)
    else some ([], c :: cs)

/-- An exponent, if the text has one. -/
def scanExp : PyStr → Option (Option ℤ × PyStr)
  | [] => some (none, [])
  | c :: cs =>
    if c = chr 'e' ∨ c = chr 'E' then
      let (neg, cs) := match cs with
        | [] => (false, [])
        | s :: cs => if s = chr '+' then (false, cs) else scanMinus (s :: cs)
      match spanDigits cs with
      | ([], _) => none
      | (ds, cs) => some (some (if neg then -digitsVal ds else digitsVal ds), cs)
    else some (none, c :: cs)

/-- The literal of the parts: an integer where there is neither fraction
nor exponent. -/
def mkLit (neg : Bool) (ds frac : List ℕ) : Option ℤ → Lit
  | some e => .dec neg (digitsVal (ds ++ frac)) (e - frac.length)
  | none =>
    match frac with
    | [] => .int (if neg then -digitsVal ds else digitsVal ds)
    | _ :: _ => .dec neg (digitsVal (ds ++ frac)) (-frac.length)

/-- A number literal. No leading zero. -/
def scanNumber (cs : PyStr) : Option (Lit × PyStr) :=
  let (neg, cs) := scanMinus cs
  match spanDigits cs with
  | ([], _) => none
  | (0 :: _ :: _, _) => none
  | (ds, cs) =>
    match scanFrac cs with
    | none => none
    | some (frac, cs) =>
      match scanExp cs with
      | none => none
      | some (e, cs) => some (mkLit neg ds frac e, cs)

/-! ## Values -/

mutual

/-- One value, whitespace before it skipped. -/
def parseValue : ℕ → PyStr → Option (Doc × PyStr)
  | 0, _ => none
  | fuel + 1, cs =>
    match skipWs cs with
    | [] => none
    | c :: cs =>
      if c = chr '"' then (scanString cs).map fun p => (.str p.1, p.2)
      else if c = chr '[' then
        match dropWord [']'] (skipWs cs) with
        | some cs => some (.arr [], cs)
        | none => (parseItems fuel cs).map fun p => (.arr p.1, p.2)
      else if c = chr '{' then
        match dropWord ['}'] (skipWs cs) with
        | some cs => some (.obj [], cs)
        | none => (parseMembers fuel cs []).map fun p => (.obj p.1, p.2)
      else if c = chr 'n' then (dropWord "ull".toList cs).map fun cs => (.null, cs)
      else if c = chr 't' then (dropWord "rue".toList cs).map fun cs => (.bool true, cs)
      else if c = chr 'f' then (dropWord "alse".toList cs).map fun cs => (.bool false, cs)
      else (scanNumber (c :: cs)).map fun p => (.num p.1, p.2)

/-- Items up to the closing bracket. -/
def parseItems : ℕ → PyStr → Option (List Doc × PyStr)
  | 0, _ => none
  | fuel + 1, cs =>
    match parseValue fuel cs with
    | none => none
    | some (v, cs) =>
      match skipWs cs with
      | [] => none
      | c :: cs =>
        if c = chr ',' then (parseItems fuel cs).map fun p => (v :: p.1, p.2)
        else if c = chr ']' then some ([v], cs)
        else none

/-- Members up to the closing brace, put into the object read so far. -/
def parseMembers : ℕ → PyStr → List (JsStr × Doc) → Option (List (JsStr × Doc) × PyStr)
  | 0, _, _ => none
  | fuel + 1, cs, ms =>
    match dropWord ['"'] (skipWs cs) with
    | none => none
    | some cs =>
      match scanString cs with
      | none => none
      | some (k, cs) =>
        match dropWord [':'] (skipWs cs) with
        | none => none
        | some cs =>
          match parseValue fuel cs with
          | none => none
          | some (v, cs) =>
            match skipWs cs with
            | [] => none
            | c :: cs =>
              if c = chr ',' then parseMembers fuel cs (set k v ms)
              else if c = chr '}' then some (set k v ms, cs)
              else none

end

/-- The document a text holds. -/
def parse (cs : PyStr) : Option Doc :=
  match parseValue (2 * cs.length + 2) cs with
  | none => none
  | some (d, rest) => if skipWs rest = [] then some d else none

/-! ## What is read has no name twice -/

theorem uniqueNames_parse_aux (fuel : ℕ) :
    (∀ cs d rest, parseValue fuel cs = some (d, rest) → UniqueNames d) ∧
    (∀ cs ds rest, parseItems fuel cs = some (ds, rest) → ∀ d ∈ ds, UniqueNames d) ∧
    (∀ cs ms ms' rest, UniqueNames (.obj ms) → parseMembers fuel cs ms = some (ms', rest) →
      UniqueNames (.obj ms')) := by
  induction fuel with
  | zero =>
    exact ⟨fun _ _ _ h => (by cases h), fun _ _ _ h => (by cases h), fun _ _ _ _ _ h => (by cases h)⟩
  | succ fuel ih =>
    obtain ⟨ihv, ihi, ihm⟩ := ih
    have hset {k : JsStr} {v : Doc} {ms : List (JsStr × Doc)} (hv : UniqueNames v)
        (hms : UniqueNames (.obj ms)) : UniqueNames (.obj (set k v ms)) := by
      rw [uniqueNames_obj] at hms ⊢
      refine ⟨nodup_names_set hms.1, fun m hm => ?_⟩
      rcases mem_of_mem_set hm with rfl | hm
      · exact hv
      · exact hms.2 m hm
    refine ⟨fun cs d rest h => ?_, fun cs ds rest h => ?_, fun cs ms ms' rest hms h => ?_⟩
    · rw [parseValue] at h
      split at h
      · cases h
      · split at h
        · obtain ⟨p, -, hp⟩ := Option.map_eq_some_iff.mp h
          obtain ⟨rfl, -⟩ := Prod.mk.inj hp
          trivial
        split at h
        · split at h
          · obtain ⟨rfl, -⟩ := Prod.mk.inj (Option.some.inj h)
            simp
          · obtain ⟨p, hi, hp⟩ := Option.map_eq_some_iff.mp h
            obtain ⟨rfl, -⟩ := Prod.mk.inj hp
            exact uniqueNames_arr.mpr (ihi _ _ _ hi)
        split at h
        · split at h
          · obtain ⟨rfl, -⟩ := Prod.mk.inj (Option.some.inj h)
            simp
          · obtain ⟨p, hm, hp⟩ := Option.map_eq_some_iff.mp h
            obtain ⟨rfl, -⟩ := Prod.mk.inj hp
            exact ihm _ _ _ _ (by simp) hm
        all_goals
          repeat' split at h
          all_goals
            obtain ⟨p, -, hp⟩ := Option.map_eq_some_iff.mp h
            obtain ⟨rfl, -⟩ := Prod.mk.inj hp
            trivial
    · rw [parseItems] at h
      split at h
      · cases h
      · next v cs' hv =>
        split at h
        · cases h
        · split at h
          · obtain ⟨p, hi, hp⟩ := Option.map_eq_some_iff.mp h
            obtain ⟨rfl, -⟩ := Prod.mk.inj hp
            exact List.forall_mem_cons.mpr ⟨ihv _ _ _ hv, ihi _ _ _ hi⟩
          · split at h
            · obtain ⟨rfl, -⟩ := Prod.mk.inj (Option.some.inj h)
              exact List.forall_mem_singleton.mpr (ihv _ _ _ hv)
            · cases h
    · rw [parseMembers] at h
      repeat' split at h
      all_goals try cases h
      · exact ihm _ _ _ _ (hset (ihv _ _ _ ‹_›) hms) h
      · exact hset (ihv _ _ _ ‹_›) hms

/-- **What is read is well formed**: no object has a name twice. -/
theorem uniqueNames_of_parse {cs : PyStr} {d : Doc} (h : parse cs = some d) : UniqueNames d := by
  rw [parse] at h
  split at h
  · cases h
  · next hv =>
    split at h
    · obtain rfl := Option.some.inj h
      exact (uniqueNames_parse_aux _).1 _ _ _ hv
    · cases h

end Doc

end OpenTerms
