import OpenTerms.Common.JsonOrder
import OpenTerms.Common.Utf16

/-!
# JSON text, written

A writer is a `Style`: how strings and numbers are spelled and what
separates members. Python's `json.dumps` and JavaScript's
`JSON.stringify` are styles over their own strings; `Doc.style` is the
one over documents. `write_map` relates two styles by relating their
strings and numbers, and is the only induction over a writer.

A document's strings are UTF-16 code units, since that is what a JSON
string literal denotes once its escapes are read, and its numbers are
literals: an integer, or a decimal.
-/

namespace OpenTerms

open Json Utf16

/-- A number literal. `dec neg m e` is `±m·10^e`, written with a fraction
or an exponent; the sign is kept apart for the literal `-0.0`. -/
inductive Lit where
  | int (z : ℤ)
  | dec (neg : Bool) (m : ℕ) (e : ℤ)
  deriving DecidableEq

/-- A JSON document. -/
abbrev Doc := Json JsStr Lit

/-! ## Writers -/

/-- The pieces with a separator between them: `sep.join(xs)`. -/
def joinWith {α : Type} (sep : List α) : List (List α) → List α
  | [] => []
  | x :: xs => x ++ xs.flatMap (sep ++ ·)

/-- How a writer spells strings, numbers and separators. -/
structure Style (S N : Type) (n : ℕ) where
  quote : S → List (Fin n)
  number : N → List (Fin n)
  comma : List (Fin n)
  colon : List (Fin n)

namespace Style

variable {S N : Type} {n : ℕ} [NeZero n] (w : Style S N n)

mutual

/-- The text of a tree, members in the order they stand. -/
def write : Json S N → List (Fin n)
  | .null => lit "null"
  | .bool true => lit "true"
  | .bool false => lit "false"
  | .num x => w.number x
  | .str s => w.quote s
  | .arr xs => chr '[' :: (joinWith w.comma (writeItems xs) ++ [chr ']'])
  | .obj ms => chr '{' :: (joinWith w.comma (writeMembers ms) ++ [chr '}'])

def writeItems : List (Json S N) → List (List (Fin n))
  | [] => []
  | x :: xs => write x :: writeItems xs

def writeMembers : List (S × Json S N) → List (List (Fin n))
  | [] => []
  | (k, v) :: ms => (w.quote k ++ (w.colon ++ write v)) :: writeMembers ms

end

/-- One member written. -/
def writeMember (m : S × Json S N) : List (Fin n) := w.quote m.1 ++ (w.colon ++ w.write m.2)

@[simp] theorem write_null : w.write .null = lit "null" := rfl
@[simp] theorem write_true : w.write (.bool true) = lit "true" := rfl
@[simp] theorem write_false : w.write (.bool false) = lit "false" := rfl
@[simp] theorem write_num (x : N) : w.write (.num x) = w.number x := rfl
@[simp] theorem write_str (s : S) : w.write (.str s) = w.quote s := rfl

theorem writeItems_eq (xs : List (Json S N)) : w.writeItems xs = xs.map w.write := by
  induction xs with
  | nil => rfl
  | cons x xs ih => rw [writeItems, ih]; rfl

theorem writeMembers_eq (ms : List (S × Json S N)) :
    w.writeMembers ms = ms.map w.writeMember := by
  induction ms with
  | nil => rfl
  | cons m ms ih => rw [writeMembers, ih]; rfl

@[simp] theorem write_arr (xs : List (Json S N)) :
    w.write (.arr xs) = chr '[' :: (joinWith w.comma (xs.map w.write) ++ [chr ']']) := by
  rw [write, writeItems_eq]

@[simp] theorem write_obj (ms : List (S × Json S N)) :
    w.write (.obj ms) = chr '{' :: (joinWith w.comma (ms.map w.writeMember) ++ [chr '}']) := by
  rw [write, writeMembers_eq]

theorem forall_mem_joinWith {α : Type} {p : α → Prop} {sep : List α} (hsep : ∀ c ∈ sep, p c)
    {xs : List (List α)} : (∀ c ∈ joinWith sep xs, p c) ↔ ∀ x ∈ xs, ∀ c ∈ x, p c := by
  cases xs with
  | nil => simp [joinWith]
  | cons x xs =>
    simp only [joinWith, List.forall_mem_append, List.mem_flatMap, List.forall_mem_cons]
    refine and_congr_right fun _ => ⟨fun h y hy c hc => ?_, ?_⟩
    · exact h c ⟨y, hy, List.mem_append_right _ hc⟩
    · rintro h c ⟨y, hy, hc⟩
      rcases List.mem_append.mp hc with hc | hc
      · exact hsep c hc
      · exact h y hy c hc

/-- **What a text is made of**: its characters are those of the pieces,
and punctuation. By induction on the tree. -/
theorem forall_mem_write {p : Fin n → Prop} (hascii : ∀ c : Char, c.toNat < 0x80 → p (chr c))
    (hcomma : ∀ c ∈ w.comma, p c) (hcolon : ∀ c ∈ w.colon, p c) {v : Json S N} :
    (∀ c ∈ w.write v, p c) ↔ Every (fun x => ∀ c ∈ w.number x, p c)
      (fun s => ∀ c ∈ w.quote s, p c) (fun k => ∀ c ∈ w.quote k, p c) v := by
  have word (s : String) (hs : ∀ c ∈ s.toList, c.toNat < 0x80) : ∀ c ∈ (lit s : List (Fin n)), p c := by
    rw [lit_eq hs]
    intro c hc
    obtain ⟨d, hd, rfl⟩ := List.mem_map.mp hc
    exact hascii d (hs d hd)
  induction v with
  | null => exact iff_of_true (word "null" (by simp)) trivial
  | bool b =>
    cases b with
    | true => exact iff_of_true (word "true" (by simp)) trivial
    | false => exact iff_of_true (word "false" (by simp)) trivial
  | num x => exact Iff.rfl
  | str s => exact Iff.rfl
  | arr xs ih =>
    rw [write_arr, every_arr, List.forall_mem_cons, List.forall_mem_append,
      forall_mem_joinWith hcomma, List.forall_mem_map]
    simp only [List.mem_singleton, forall_eq, hascii '[' (by decide), hascii ']' (by decide),
      true_and, and_true]
    exact forall₂_congr ih
  | obj ms ih =>
    rw [write_obj, every_obj, List.forall_mem_cons, List.forall_mem_append,
      forall_mem_joinWith hcomma, List.forall_mem_map]
    simp only [List.mem_singleton, forall_eq, hascii '{' (by decide), hascii '}' (by decide),
      true_and, and_true, writeMember, List.forall_mem_append]
    exact forall₂_congr fun m hm =>
      and_congr_right fun _ => (and_iff_right hcolon).trans (ih m hm)

end Style

/-! ## One style simulates another -/

section Simulation

variable {S S' N N' : Type} {n n' : ℕ} [NeZero n] [NeZero n']

/-- A change of alphabet that works piece by piece and keeps ASCII. -/
structure TextHom (h : List (Fin n) → List (Fin n')) : Prop where
  map_nil : h [] = []
  map_append : ∀ s t, h (s ++ t) = h s ++ h t
  map_ascii : ∀ cs : List Char, (∀ c ∈ cs, c.toNat < 0x80) → h (ofChars cs) = ofChars cs

theorem TextHom.id : TextHom (fun s : List (Fin n) => s) :=
  ⟨rfl, fun _ _ => rfl, fun _ _ => rfl⟩

theorem TextHom.encode : TextHom Utf16.encode :=
  ⟨encode_nil, encode_append, fun _ hcs => encode_ofChars hcs⟩

theorem TextHom.map_lit {h : List (Fin n) → List (Fin n')} (hh : TextHom h) (s : String)
    (hs : ∀ c ∈ s.toList, c.toNat < 0x80) : h (lit s) = lit s := by
  rw [lit_eq hs, lit_eq hs]
  exact hh.map_ascii s.toList hs

theorem TextHom.map_singleton {h : List (Fin n) → List (Fin n')} (hh : TextHom h) {c : Char}
    (hc : c.toNat < 0x80) : h [chr c] = [chr c] :=
  hh.map_ascii [c] (by simpa using hc)

theorem TextHom.map_cons {h : List (Fin n) → List (Fin n')} (hh : TextHom h) {c : Char}
    (hc : c.toNat < 0x80) (s : List (Fin n)) : h (chr c :: s) = chr c :: h s := by
  rw [← List.singleton_append, hh.map_append, hh.map_singleton hc]
  rfl

theorem TextHom.map_joinWith {h : List (Fin n) → List (Fin n')} (hh : TextHom h)
    (sep : List (Fin n)) (xs : List (List (Fin n))) :
    h (joinWith sep xs) = joinWith (h sep) (xs.map h) := by
  cases xs with
  | nil => exact hh.map_nil
  | cons x xs =>
    have htail : h (xs.flatMap (sep ++ ·)) = (xs.map h).flatMap (h sep ++ ·) := by
      induction xs with
      | nil => exact hh.map_nil
      | cons y ys ih =>
        rw [List.flatMap_cons, hh.map_append, hh.map_append, ih]
        rfl
    rw [joinWith, hh.map_append, htail]
    rfl

/-- **The simulation.** Where the pieces of two styles correspond along a
change of alphabet, so do the texts. By induction on the tree. -/
theorem Style.write_map {w : Style S N n} {w' : Style S' N' n'} {f : S → S'} {g : N → N'}
    {h : List (Fin n) → List (Fin n')} (hh : TextHom h) (hcomma : h w.comma = w'.comma)
    (hcolon : h w.colon = w'.colon) {v : Json S N}
    (hv : Every (fun x => w'.number (g x) = h (w.number x))
      (fun s => w'.quote (f s) = h (w.quote s)) (fun k => w'.quote (f k) = h (w.quote k)) v) :
    w'.write (v.map f g) = h (w.write v) := by
  induction v with
  | null => exact (hh.map_lit "null" (by simp)).symm
  | bool b =>
    cases b with
    | true => exact (hh.map_lit "true" (by simp)).symm
    | false => exact (hh.map_lit "false" (by simp)).symm
  | num x => exact hv
  | str s => exact hv
  | arr xs ih =>
    rw [every_arr] at hv
    have hxs : (xs.map (Json.map f g)).map w'.write = (xs.map w.write).map h := by
      rw [List.map_map, List.map_map]
      exact List.map_congr_left fun x hx => ih x hx (hv x hx)
    rw [map_arr, write_arr, write_arr, hxs, ← hcomma, ← hh.map_joinWith,
      hh.map_cons (by decide), hh.map_append, hh.map_singleton (by decide)]
  | obj ms ih =>
    rw [every_obj] at hv
    have hms : (ms.map (mapMember f g)).map w'.writeMember = (ms.map w.writeMember).map h := by
      rw [List.map_map, List.map_map]
      refine List.map_congr_left fun m hm => ?_
      simp only [Function.comp_apply, writeMember, mapMember]
      rw [ih m hm (hv m hm).2, (hv m hm).1, ← hcolon, hh.map_append, hh.map_append]
    rw [map_obj, write_obj, write_obj, hms, ← hcomma, ← hh.map_joinWith,
      hh.map_cons (by decide), hh.map_append, hh.map_singleton (by decide)]

end Simulation

/-! ## Strings and numbers of a document -/

/-- A `\uXXXX` escape. -/
def unicodeEscape (k : ℕ) : List Char := '\\' :: 'u' :: hex4Chars k

/-- The escapes every writer makes: the quote, the backslash and the
control characters. The rest is up to `wide`. -/
def quoteChar (wide : CodePoint → PyStr) (c : CodePoint) : PyStr :=
  if c = chr '"' then lit "\\\""
  else if c = chr '\\' then lit "\\\\"
  else if c.val = 0x08 then lit "\\b"
  else if c.val = 0x0C then lit "\\f"
  else if c.val = 0x0A then lit "\\n"
  else if c.val = 0x0D then lit "\\r"
  else if c.val = 0x09 then lit "\\t"
  else if c.val < 0x20 then ofChars (unicodeEscape c.val)
  else wide c

/-- A string between quotes. -/
def quoteWith (wide : CodePoint → PyStr) (s : PyStr) : PyStr :=
  chr '"' :: (s.flatMap (quoteChar wide) ++ [chr '"'])

/-- Characters as they are: `ensure_ascii=False`. -/
def wideRaw (c : CodePoint) : PyStr := [c]

/-- Characters as they are, lone surrogates escaped: what `JSON.stringify`
writes, so that its output is well formed. -/
def wideWellFormed (c : CodePoint) : PyStr :=
  if IsSurrogate c.val then ofChars (unicodeEscape c.val) else [c]

/-- The text of a number literal. -/
def Lit.text : Lit → PyStr
  | .int z => decimal z
  | .dec neg m e =>
    ofChars ((if neg then ['-'] else []) ++ (Nat.toDigits 10 m ++ 'e' :: decimalChars e))

/-- Canonical document text: compact, and well formed. -/
def Doc.style : Style JsStr Lit 0x110000 where
  quote us := quoteWith wideWellFormed (decode us)
  number := Lit.text
  comma := lit ","
  colon := lit ":"

theorem unicodeEscape_ascii (k : ℕ) : ∀ d ∈ unicodeEscape k, d.toNat < 0x80 := by
  have hdigit (j : ℕ) : (j % 16).digitChar.toNat < 0x80 := digitChar_lt _ (by omega)
  simp only [unicodeEscape, hex4Chars, List.forall_mem_cons, hdigit, List.not_mem_nil,
    IsEmpty.forall_iff, implies_true, and_true]
  decide

theorem ofChars_ascii {cs : List Char} (h : ∀ c ∈ cs, c.toNat < 0x80) :
    ∀ d ∈ (ofChars cs : PyStr), d.val < 0x80 := by
  intro d hd
  obtain ⟨c, hc, rfl⟩ := List.mem_map.mp hd
  have := h c hc
  rwa [chr_val (by omega)]

theorem quoteChar_ascii {c : CodePoint} (h : c.val < 0x80) :
    ∀ d ∈ quoteChar wideRaw c, d.val < 0x80 := by
  have escape (s : String) (hs : ∀ c ∈ s.toList, c.toNat < 0x80) :
      ∀ d ∈ (lit s : PyStr), d.val < 0x80 := by
    rw [lit_eq hs]
    exact ofChars_ascii hs
  rw [quoteChar]
  split
  · exact escape "\\\"" (by simp)
  split
  · exact escape "\\\\" (by simp)
  split
  · exact escape "\\b" (by simp)
  split
  · exact escape "\\f" (by simp)
  split
  · exact escape "\\n" (by simp)
  split
  · exact escape "\\r" (by simp)
  split
  · exact escape "\\t" (by simp)
  split
  · exact ofChars_ascii (unicodeEscape_ascii _)
  · exact List.forall_mem_singleton.mpr h

theorem quoteChar_wide {c : CodePoint} (h : ¬ c.val < 0x80) : quoteChar wideRaw c = [c] := by
  have hne {d : Char} (hd : d.toNat < 0x80) : c ≠ chr d := fun heq => by
    rw [heq, chr_val (by omega)] at h
    exact h hd
  rw [quoteChar, if_neg (hne (by decide)), if_neg (hne (by decide)), if_neg (by omega),
    if_neg (by omega), if_neg (by omega), if_neg (by omega), if_neg (by omega), if_neg (by omega)]
  rfl

/-- A quoted string is ASCII but for the string's own wide characters. -/
theorem forall_mem_quoteWith {p : CodePoint → Prop} (hascii : ∀ c : CodePoint, c.val < 0x80 → p c)
    (s : PyStr) : (∀ c ∈ quoteWith wideRaw s, p c) ↔ ∀ c ∈ s, p c := by
  have char (c : CodePoint) : (∀ d ∈ quoteChar wideRaw c, p d) ↔ p c := by
    by_cases hc : c.val < 0x80
    · exact iff_of_true (fun d hd => hascii d (quoteChar_ascii hc d hd)) (hascii c hc)
    · rw [quoteChar_wide hc]
      exact List.forall_mem_singleton
  have hquote : p (chr '"') := hascii _ (by decide)
  simp only [quoteWith, List.forall_mem_cons, List.forall_mem_append, List.mem_flatMap,
    List.mem_singleton, forall_eq, hquote, true_and, and_true]
  constructor
  · exact fun h c hc => (char c).mp fun d hd => h d ⟨c, hc, hd⟩
  · rintro h d ⟨c, hc, hd⟩
    exact (char c).mpr (h c hc) d hd

/-- Without surrogates the two ways of writing wide characters agree. -/
theorem quoteWith_wideWellFormed {s : PyStr} (h : ∀ c ∈ s, ¬ IsSurrogate c.val) :
    quoteWith wideWellFormed s = quoteWith wideRaw s := by
  have hflat : s.flatMap (quoteChar wideWellFormed) = s.flatMap (quoteChar wideRaw) := by
    refine List.flatMap_congr fun c hc => ?_
    have hw : wideWellFormed c = wideRaw c := if_neg (h c hc)
    rw [quoteChar, quoteChar, hw]
  rw [quoteWith, quoteWith, hflat]

theorem quoteChar_wellFormed (c : CodePoint) :
    ∀ d ∈ quoteChar wideWellFormed c, ¬ IsSurrogate d.val := by
  by_cases hc : IsSurrogate c.val
  · have hne {d : Char} (hd : d.toNat < 0x80) : c ≠ chr d := fun heq => by
      rw [heq, chr_val (by omega)] at hc
      omega
    rw [quoteChar, if_neg (hne (by decide)), if_neg (hne (by decide)), if_neg (by omega),
      if_neg (by omega), if_neg (by omega), if_neg (by omega), if_neg (by omega),
      if_neg (by omega), wideWellFormed, if_pos hc]
    intro d hd
    have := ofChars_ascii (unicodeEscape_ascii _) d hd
    omega
  · have hw : wideWellFormed c = wideRaw c := if_neg hc
    have hraw : quoteChar wideWellFormed c = quoteChar wideRaw c := by
      rw [quoteChar, quoteChar, hw]
    rw [hraw]
    by_cases hlow : c.val < 0x80
    · intro d hd
      have := quoteChar_ascii hlow d hd
      omega
    · rw [quoteChar_wide hlow]
      exact List.forall_mem_singleton.mpr hc

/-- Every character of a number literal is ASCII. -/
theorem Lit.text_ascii (l : Lit) : ∀ c ∈ l.text, c.val < 0x80 := by
  cases l with
  | int z => exact ofChars_ascii fun _ => decimalChars_lt
  | dec neg m e =>
    refine ofChars_ascii fun c hc => ?_
    rcases List.mem_append.mp hc with hc | hc
    · cases neg with
      | true => exact List.mem_singleton.mp hc ▸ by decide
      | false => cases hc
    rcases List.mem_append.mp hc with hc | hc
    · have := isDigit_of_mem_toDigits hc
      omega
    rcases List.mem_cons.mp hc with rfl | hc
    · decide
    · exact decimalChars_lt hc

/-- **Canonical document text is well formed.** -/
theorem Doc.write_wellFormed (d : Doc) : ∀ c ∈ Doc.style.write d, ¬ IsSurrogate c.val := by
  have hascii : ∀ c : Char, c.toNat < 0x80 → ¬ IsSurrogate (chr c : CodePoint).val := by
    intro c hc
    rw [chr_val (by omega)]
    omega
  have hcomma : ∀ c ∈ Doc.style.comma, ¬ IsSurrogate c.val :=
    List.forall_mem_singleton.mpr (hascii ',' (by decide))
  have hcolon : ∀ c ∈ Doc.style.colon, ¬ IsSurrogate c.val :=
    List.forall_mem_singleton.mpr (hascii ':' (by decide))
  have hquote (us : JsStr) : ∀ c ∈ Doc.style.quote us, ¬ IsSurrogate c.val := by
    change ∀ c ∈ quoteWith wideWellFormed (decode us), ¬ IsSurrogate c.val
    simp only [quoteWith, List.forall_mem_cons, List.forall_mem_append, List.mem_flatMap,
      List.mem_singleton, forall_eq, hascii '"' (by decide), true_and, not_false_eq_true, and_true]
    rintro c ⟨d, -, hd⟩
    exact quoteChar_wellFormed d c hd
  have hnumber (l : Lit) : ∀ c ∈ Doc.style.number l, ¬ IsSurrogate c.val := by
    intro c hc
    have := Lit.text_ascii l c hc
    omega
  refine (Doc.style.forall_mem_write hascii hcomma hcolon).mpr ?_
  exact every_of_forall hnumber hquote hquote d

end OpenTerms
