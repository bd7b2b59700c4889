import OpenTerms.Common.JsonParse
import OpenTerms.Common.Utf8

/-!
# What a writer writes is read back

`parse_write`: the text a `Readable` style gives a document is read as
that document, so distinct documents have distinct texts. The argument
is the unambiguity of the grammar, one literal at a time: a string scans
back to its code units (`scanString_flatMap`), a number to its literal
(`scanNumber_text`) provided the text after it cannot continue it, and a
value to its tree by induction, the fuel being twice the text's length.
A style whose numbers are not literals `Reads` them as some
(`parse_write_reads`).
-/

namespace OpenTerms

open Json Utf16

namespace Doc

/-! ## Whitespace -/

theorem skipWs_append {ws : PyStr} (h : ∀ c ∈ ws, isWs c = true) (cs : PyStr) :
    skipWs (ws ++ cs) = skipWs cs := by
  rw [skipWs, List.dropWhile_append_of_pos h]
  rfl

theorem skipWs_cons {c : CodePoint} (h : isWs c = false) (cs : PyStr) :
    skipWs (c :: cs) = c :: cs := by
  rw [skipWs, List.dropWhile_cons_of_neg (by simp [h])]

/-! ## Strings -/

theorem hex4Val_hex4Chars {k : ℕ} (h : k < 0x10000) (cs : PyStr) :
    ∃ a b c d : CodePoint, ofChars (hex4Chars k) ++ cs = a :: b :: c :: d :: cs ∧
      hex4Val a b c d = some (Fin.ofNat _ k) := by
  refine ⟨_, _, _, _, rfl, ?_⟩
  have hdigit {j : ℕ} : hexDigitVal (chr (j % 16).digitChar : CodePoint).val = some (j % 16) := by
    have hlt := digitChar_lt (j % 16) (by omega)
    rw [chr_val (by omega), hexDigitVal_digitChar _ (by omega)]
  rw [hex4Val, hdigit, hdigit, hdigit, hdigit]
  simp only
  congr 2
  omega

theorem scanString_unicodeEscape {k : ℕ} (h : k < 0x10000) (cs : PyStr) :
    scanString (ofChars (unicodeEscape k) ++ cs) = prepend [Fin.ofNat _ k] (scanString cs) := by
  obtain ⟨a, b, c, d, happ, hval⟩ := hex4Val_hex4Chars h cs
  rw [unicodeEscape, ofChars_cons, ofChars_cons, List.cons_append, List.cons_append, happ,
    scanString.eq_def]
  simp only [if_neg (show ¬ (chr '\\' : CodePoint) = chr '"' by decide), if_true, hval]

theorem scanString_shortEscape {e : CodePoint} {u : CodeUnit} (he : e ≠ chr 'u')
    (h : shortEscape e = some u) (cs : PyStr) :
    scanString (chr '\\' :: e :: cs) = prepend [u] (scanString cs) := by
  rw [scanString.eq_def]
  simp only [if_neg (show ¬ (chr '\\' : CodePoint) = chr '"' by decide), if_true, if_neg he, h]

theorem scanString_raw {c : CodePoint} (hq : c ≠ chr '"') (hb : c ≠ chr '\\')
    (hc : ¬ c.val < 0x20) (cs : PyStr) :
    scanString (c :: cs) = prepend (encodeChar c) (scanString cs) := by
  rw [scanString.eq_def]
  simp only [if_neg hq, if_neg hb, if_neg hc]

/-- A way of writing wide characters that scans back. -/
def WideReadable (wide : CodePoint → PyStr) : Prop :=
  ∀ c : CodePoint, c ≠ chr '"' → c ≠ chr '\\' → ¬ c.val < 0x20 → ∀ cs,
    scanString (wide c ++ cs) = prepend (encodeChar c) (scanString cs)

/-- A code point of the basic plane is its own unit. -/
theorem encodeChar_of_lt {c : CodePoint} (h : c.val < 0x10000) :
    encodeChar c = [Fin.ofNat _ c.val] := if_pos h

theorem wideReadable_wellFormed : WideReadable wideWellFormed := by
  intro c hq hb hc cs
  rw [wideWellFormed]
  split
  · next hs => rw [scanString_unicodeEscape (by omega), encodeChar_of_lt (by omega)]
  · exact scanString_raw hq hb hc cs

/-- One written character is read as its code units. -/
theorem scanString_quoteChar {wide : CodePoint → PyStr} (hwide : WideReadable wide)
    (c : CodePoint) (cs : PyStr) :
    scanString (quoteChar wide c ++ cs) = prepend (encodeChar c) (scanString cs) := by
  -- an escape names the character by its code, so the unit read is the one meant
  have short {e : Char} {k : ℕ} (he : (chr e : CodePoint) ≠ chr 'u') (hk : c.val = k)
      (hk' : k < 0x10000) (h : shortEscape (chr e) = some (Fin.ofNat _ k)) :
      scanString (ofChars ['\\', e] ++ cs) = prepend (encodeChar c) (scanString cs) := by
    rw [encodeChar_of_lt (by omega), hk]
    exact scanString_shortEscape he h cs
  rw [quoteChar]
  split
  · next h => exact short (e := '"') (by decide) (h ▸ rfl : c.val = 0x22) (by decide) rfl
  split
  · next h => exact short (e := '\\') (by decide) (h ▸ rfl : c.val = 0x5C) (by decide) rfl
  split
  · next h => exact short (e := 'b') (by decide) h (by decide) rfl
  split
  · next h => exact short (e := 'f') (by decide) h (by decide) rfl
  split
  · next h => exact short (e := 'n') (by decide) h (by decide) rfl
  split
  · next h => exact short (e := 'r') (by decide) h (by decide) rfl
  split
  · next h => exact short (e := 't') (by decide) h (by decide) rfl
  split
  · next h => rw [scanString_unicodeEscape (by omega), encodeChar_of_lt (by omega)]
  · exact hwide c ‹_› ‹_› ‹_› cs

/-- **A quoted string scans back**, to the units of its code points. -/
theorem scanString_flatMap {wide : CodePoint → PyStr} (hwide : WideReadable wide) (s cs : PyStr) :
    scanString (s.flatMap (quoteChar wide) ++ chr '"' :: cs) = some (encode s, cs) := by
  induction s with
  | nil => rw [List.flatMap_nil, List.nil_append, scanString.eq_def]; rfl
  | cons c s ih =>
    rw [List.flatMap_cons, List.append_assoc, scanString_quoteChar hwide, ih]
    rfl

/-! ## Numbers -/

/-- The digits of a number, as values. -/
def digitsOf (k : ℕ) : List ℕ := (Nat.toDigits 10 k).map fun c => c.toNat - 0x30

theorem digitsVal_digitsOf (k : ℕ) : digitsVal (digitsOf k) = k := by
  have h := Nat.ofDigitChars_ten_toDigits (n := k)
  rw [Nat.ofDigitChars_eq_foldl] at h
  rw [digitsVal, digitsOf, List.foldl_map]
  exact h

/-- A numeral starts with a digit, and with zero only where it is zero. -/
theorem toDigits_eq_cons (k : ℕ) :
    ∃ c cs, Nat.toDigits 10 k = c :: cs ∧ IsDigit c.toNat ∧ (c.toNat = 0x30 → cs = []) := by
  induction k using Nat.strongRecOn with
  | _ k ih =>
    by_cases hk : k < 10
    · refine ⟨k.digitChar, [], Nat.toDigits_of_lt_base hk, ?_, fun _ => rfl⟩
      exact isDigit_of_mem_toDigits (k := k) (by simp [Nat.toDigits_of_lt_base hk])
    · obtain ⟨c, cs, hcs, hd, hz⟩ := ih (k / 10) (by omega)
      refine ⟨c, cs ++ [(k % 10).digitChar], ?_, hd, fun hc => ?_⟩
      · rw [Nat.toDigits_of_base_le (by decide) (by omega), hcs]; rfl
      · -- a zero here would make `k / 10` zero
        have h0 : Nat.toDigits 10 (k / 10) = [c] := by rw [hcs, hz hc]
        have hv := Nat.ofDigitChars_ten_toDigits (n := k / 10)
        rw [h0, Nat.ofDigitChars_cons, Nat.ofDigitChars_nil] at hv
        have h48 : '0'.toNat = 0x30 := rfl
        omega

theorem digitsOf_eq_cons (k : ℕ) : ∃ d ds, digitsOf k = d :: ds ∧ (d = 0 → ds = []) := by
  obtain ⟨c, cs, hcs, hd, hz⟩ := toDigits_eq_cons k
  refine ⟨c.toNat - 0x30, cs.map fun c => c.toNat - 0x30, by rw [digitsOf, hcs]; rfl, fun h0 => ?_⟩
  rw [hz (by omega)]
  rfl

/-- No digit comes next. -/
def NoDigit (cs : PyStr) : Prop := ∀ c ∈ cs.head?, ¬ IsDigit c.val

theorem spanDigits_ofChars {ds : List Char} (hds : ∀ c ∈ ds, IsDigit c.toNat) {cs : PyStr}
    (hcs : NoDigit cs) :
    spanDigits (ofChars ds ++ cs) = (ds.map fun c => c.toNat - 0x30, cs) := by
  induction ds with
  | nil =>
    cases cs with
    | nil => rfl
    | cons c cs =>
      have hc : ¬ IsDigit c.val := hcs c (by simp)
      rw [ofChars_nil, List.nil_append, spanDigits, if_neg hc]
      rfl
  | cons d ds ih =>
    have hd := hds d (by simp)
    have hv : (chr d : CodePoint).val = d.toNat := chr_val (by omega)
    rw [ofChars_cons, List.cons_append, spanDigits, hv, if_pos hd,
      ih fun c hc => hds c (by simp [hc])]
    rfl

theorem spanDigits_toDigits (k : ℕ) {cs : PyStr} (hcs : NoDigit cs) :
    spanDigits (ofChars (Nat.toDigits 10 k) ++ cs) = (digitsOf k, cs) :=
  spanDigits_ofChars (fun _ hc => isDigit_of_mem_toDigits hc) hcs

/-- The text after a number, which must not continue it. -/
def Stops (cs : PyStr) : Prop :=
  ∀ c ∈ cs.head?, ¬ IsDigit c.val ∧ c ≠ chr '.' ∧ c ≠ chr 'e' ∧ c ≠ chr 'E'

theorem Stops.noDigit {cs : PyStr} (h : Stops cs) : NoDigit cs := fun c hc => (h c hc).1

theorem stops_nil : Stops [] := fun _ h => (by cases h)

theorem stops_cons {c : CodePoint} (h : ¬ IsDigit c.val ∧ c ≠ chr '.' ∧ c ≠ chr 'e' ∧ c ≠ chr 'E')
    (cs : PyStr) : Stops (c :: cs) := fun d hd => by
  obtain rfl : c = d := by simpa using hd
  exact h

theorem Stops.scanFrac {cs : PyStr} (h : Stops cs) : scanFrac cs = some ([], cs) := by
  cases cs with
  | nil => rfl
  | cons c cs => exact if_neg (h c (by simp)).2.1

theorem Stops.scanExp {cs : PyStr} (h : Stops cs) : scanExp cs = some (none, cs) := by
  cases cs with
  | nil => rfl
  | cons c cs =>
    obtain ⟨-, -, he, hE⟩ := h c (by simp)
    exact if_neg fun h => h.elim he hE

theorem scanMinus_minus (cs : PyStr) : scanMinus (chr '-' :: cs) = (true, cs) := by
  rw [scanMinus, if_pos rfl]

/-- A digit in front is no minus. -/
theorem scanMinus_digit {c : Char} (hc : IsDigit c.toNat) (cs : PyStr) :
    scanMinus (chr c :: cs) = (false, chr c :: cs) := by
  rw [scanMinus, if_neg]
  intro h
  have hv : (chr c : CodePoint).val = c.toNat := chr_val (by omega)
  rw [h] at hv
  have h45 : (chr '-' : CodePoint).val = 0x2D := rfl
  omega

/-- A numeral has no minus in front. -/
theorem scanMinus_toDigits (k : ℕ) (cs : PyStr) :
    scanMinus (ofChars (Nat.toDigits 10 k) ++ cs) = (false, ofChars (Nat.toDigits 10 k) ++ cs) := by
  obtain ⟨c, ds, hds, hd, -⟩ := toDigits_eq_cons k
  rw [hds, ofChars_cons, List.cons_append, scanMinus_digit hd]

/-- An exponent is read back, sign and all. -/
theorem scanExp_decimal (e : ℤ) {cs : PyStr} (hcs : NoDigit cs) :
    scanExp (chr 'e' :: (ofChars (decimalChars e) ++ cs)) = some (some e, cs) := by
  have hspan (k : ℕ) := spanDigits_toDigits k hcs
  cases e with
  | ofNat k =>
    obtain ⟨c, ds, hds, hd, -⟩ := toDigits_eq_cons k
    have hv : (chr c : CodePoint).val = c.toNat := chr_val (by omega)
    have hplus : (chr c : CodePoint) ≠ chr '+' := fun h => by
      rw [h] at hv
      have : (chr '+' : CodePoint).val = 0x2B := rfl
      omega
    obtain ⟨d, ds', hds', -⟩ := digitsOf_eq_cons k
    have hm := scanMinus_toDigits k cs
    have hs := hspan k
    have hval := digitsVal_digitsOf k
    rw [hds', hds, ofChars_cons, List.cons_append] at hs
    rw [hds, ofChars_cons, List.cons_append] at hm
    rw [hds'] at hval
    rw [decimalChars, hds, ofChars_cons, List.cons_append, scanExp]
    simp only [true_or, if_true, if_neg hplus, hm, hs, hval]
    rfl
  | negSucc k =>
    obtain ⟨d, ds, hds, -⟩ := digitsOf_eq_cons (k + 1)
    have hs := hspan (k + 1)
    have hval := digitsVal_digitsOf (k + 1)
    rw [hds] at hs hval
    rw [decimalChars, ofChars_cons, List.cons_append, scanExp]
    simp only [true_or, if_true, if_neg (show (chr '-' : CodePoint) ≠ chr '+' by decide),
      scanMinus_minus, hs, hval]
    rfl

/-- A fraction is read where there is a point. -/
theorem scanFrac_point {ds : List Char} (hne : ds ≠ []) (hds : ∀ c ∈ ds, IsDigit c.toNat)
    {cs : PyStr} (hcs : NoDigit cs) :
    scanFrac (chr '.' :: (ofChars ds ++ cs)) = some (ds.map fun c => c.toNat - 0x30, cs) := by
  rw [scanFrac, if_pos rfl, spanDigits_ofChars hds hcs]
  cases ds with
  | nil => exact absurd rfl hne
  | cons d ds => rfl

/-- The digits a number starts with: no zero leads others. -/
def Numeral (ds : List Char) : Prop :=
  (∀ c ∈ ds, IsDigit c.toNat) ∧ ∃ c cs, ds = c :: cs ∧ (c.toNat = 0x30 → cs = [])

theorem numeral_toDigits (k : ℕ) : Numeral (Nat.toDigits 10 k) := by
  obtain ⟨c, cs, hcs, -, hz⟩ := toDigits_eq_cons k
  exact ⟨fun _ => isDigit_of_mem_toDigits, c, cs, hcs, hz⟩

/-- The number after its sign and digits: what the fraction and the
exponent make of it. -/
theorem scanNumber_eq {cs cs₁ cs₂ rest : PyStr} {neg : Bool} {ds : List Char} (hds : Numeral ds)
    (hm : scanMinus cs = (neg, ofChars ds ++ cs₁)) (hcs : NoDigit cs₁) {frac : List ℕ}
    {e : Option ℤ} (hf : scanFrac cs₁ = some (frac, cs₂)) (he : scanExp cs₂ = some (e, rest)) :
    scanNumber cs = some (mkLit neg (ds.map fun c => c.toNat - 0x30) frac e, rest) := by
  obtain ⟨hdigits, c, cs', rfl, hz⟩ := hds
  have hs := spanDigits_ofChars hdigits hcs
  have hc := hdigits c List.mem_cons_self
  rw [List.map_cons] at hs ⊢
  rw [scanNumber, hm]
  simp only [hs]
  cases hlead : c.toNat - 0x30 with
  | zero =>
    rw [hz (by omega)]
    simp only [List.map_nil, hf, he]
  | succ d => simp only [hf, he]

/-- **A number scans back to its literal**, if the text stops there. -/
theorem scanNumber_text (l : Lit) {rest : PyStr} (h : Stops rest) :
    scanNumber (l.text ++ rest) = some (l, rest) := by
  cases l with
  | int z =>
    cases z with
    | ofNat k =>
      rw [Lit.text, decimal, decimalChars, scanNumber_eq (numeral_toDigits k)
        (scanMinus_toDigits k rest) h.noDigit h.scanFrac h.scanExp, mkLit, ← digitsOf,
        digitsVal_digitsOf]
      rfl
    | negSucc k =>
      rw [Lit.text, decimal, decimalChars, ofChars_cons, List.cons_append,
        scanNumber_eq (numeral_toDigits _) (scanMinus_minus _) h.noDigit h.scanFrac h.scanExp,
        mkLit, ← digitsOf, digitsVal_digitsOf]
      rfl
  | dec neg m e =>
    have he := scanExp_decimal e h.noDigit
    have hnd : NoDigit (chr 'e' :: (ofChars (decimalChars e) ++ rest)) := fun c hc => by
      obtain rfl : chr 'e' = c := by simpa using hc
      decide
    have hf : scanFrac (chr 'e' :: (ofChars (decimalChars e) ++ rest))
        = some ([], chr 'e' :: (ofChars (decimalChars e) ++ rest)) := by
      rw [scanFrac, if_neg (by decide)]
    have hlit : mkLit neg (digitsOf m) [] (some e) = .dec neg m e := by
      rw [mkLit, List.append_nil, digitsVal_digitsOf]
      simp
    have hm : scanMinus ((Lit.dec neg m e).text ++ rest)
        = (neg, ofChars (Nat.toDigits 10 m) ++ chr 'e' :: (ofChars (decimalChars e) ++ rest)) := by
      rw [Lit.text]
      cases neg with
      | true =>
        simp only [if_true, ofChars_append, ofChars_cons, List.cons_append, List.nil_append,
          List.append_assoc]
        exact scanMinus_minus _
      | false =>
        simp only [Bool.false_eq_true, if_false, List.nil_append, ofChars_append, ofChars_cons,
          List.append_assoc, List.cons_append]
        exact scanMinus_toDigits m _
    rw [scanNumber_eq (numeral_toDigits m) hm hnd hf he, ← digitsOf, hlit]

theorem decimal_injective : Function.Injective (decimal : ℤ → PyStr) := by
  intro a b h
  have ha := scanNumber_text (.int a) stops_nil
  have hb := scanNumber_text (.int b) stops_nil
  rw [Lit.text, h] at ha
  rw [Lit.text, ha, Option.some.injEq, Prod.mk.injEq, Lit.int.injEq] at hb
  exact hb.1

/-- What is read as a number starts with a digit or a minus. -/
theorem eq_cons_of_scanNumber {cs : PyStr} {p : Lit × PyStr} (h : scanNumber cs = some p) :
    ∃ c cs', cs = chr c :: cs' ∧ (IsDigit c.toNat ∨ c = '-') := by
  cases cs with
  | nil => cases h
  | cons c cs =>
    by_cases hminus : c = chr '-'
    · exact ⟨'-', cs, by rw [hminus], .inr rfl⟩
    · by_cases hdigit : IsDigit c.val
      · have hval := Nat.toNat_digitChar_of_lt_ten (n := c.val - 0x30) (by omega)
        have hchr : (chr (c.val - 0x30).digitChar : CodePoint) = c :=
          Fin.ext (by rw [chr_val (by omega)]; omega)
        exact ⟨(c.val - 0x30).digitChar, cs, by rw [hchr], .inl (by omega)⟩
      · rw [scanNumber, scanMinus, if_neg hminus] at h
        dsimp only at h
        rw [spanDigits, if_neg hdigit] at h
        cases h

/-! ## Values -/

/-- A style whose strings scan back and whose separators are a comma and
a colon, with whitespace after them or not. -/
structure Readable (w : Style JsStr Lit 0x110000) : Prop where
  quote : ∀ us : JsStr, ∃ body, w.quote us = chr '"' :: body ∧
    ∀ cs, scanString (body ++ cs) = some (us, cs)
  number : ∀ l, w.number l = l.text
  comma : ∃ ws, w.comma = chr ',' :: ws ∧ ∀ c ∈ ws, isWs c = true
  colon : ∃ ws, w.colon = chr ':' :: ws ∧ ∀ c ∈ ws, isWs c = true

/-- Quoting with any readable treatment of wide characters. -/
theorem quote_readable {wide : CodePoint → PyStr} (hwide : WideReadable wide) (us : JsStr) :
    ∃ body, quoteWith wide (decode us) = chr '"' :: body ∧
      ∀ cs, scanString (body ++ cs) = some (us, cs) := by
  refine ⟨_, rfl, fun cs => ?_⟩
  rw [List.append_assoc, List.singleton_append, scanString_flatMap hwide, encode_decode]

theorem readable_style : Readable Doc.style where
  quote := quote_readable wideReadable_wellFormed
  number _ := rfl
  comma := ⟨[], rfl, fun _ h => (by cases h)⟩
  colon := ⟨[], rfl, fun _ h => (by cases h)⟩

variable {N : Type} {w : Style JsStr N 0x110000} {P : N → Prop} {read : N → Lit}

/-- A style some of whose numbers scan back, each to the literal `read`
gives. -/
structure Reads (w : Style JsStr N 0x110000) (P : N → Prop) (read : N → Lit) : Prop where
  quote : ∀ us : JsStr, ∃ body, w.quote us = chr '"' :: body ∧
    ∀ cs, scanString (body ++ cs) = some (us, cs)
  scanNumber : ∀ n, P n → ∀ rest, Stops rest →
    scanNumber (w.number n ++ rest) = some (read n, rest)
  comma : ∃ ws, w.comma = chr ',' :: ws ∧ ∀ c ∈ ws, isWs c = true
  colon : ∃ ws, w.colon = chr ':' :: ws ∧ ∀ c ∈ ws, isWs c = true

theorem Readable.reads {w : Style JsStr Lit 0x110000} (hw : Readable w) :
    Reads w (fun _ => True) id where
  quote := hw.quote
  scanNumber l _ rest hrest := by
    rw [hw.number]
    exact scanNumber_text l hrest
  comma := hw.comma
  colon := hw.colon

theorem Reads.number_eq_cons (hw : Reads w P read) {n : N} (hn : P n) :
    ∃ c cs, w.number n = chr c :: cs ∧ (IsDigit c.toNat ∨ c = '-') := by
  have hscan := hw.scanNumber n hn [] stops_nil
  rw [List.append_nil] at hscan
  exact eq_cons_of_scanNumber hscan

theorem parseValue_append_ws {ws : PyStr} (h : ∀ c ∈ ws, isWs c = true) (fuel : ℕ) (cs : PyStr) :
    parseValue fuel (ws ++ cs) = parseValue fuel cs := by
  cases fuel with
  | zero => rfl
  | succ fuel => rw [parseValue, parseValue, skipWs_append h]

theorem parseItems_append_ws {ws : PyStr} (h : ∀ c ∈ ws, isWs c = true) (fuel : ℕ) (cs : PyStr) :
    parseItems fuel (ws ++ cs) = parseItems fuel cs := by
  cases fuel with
  | zero => rfl
  | succ fuel => rw [parseItems, parseItems, parseValue_append_ws h]

theorem parseMembers_append_ws {ws : PyStr} (h : ∀ c ∈ ws, isWs c = true) (fuel : ℕ) (cs : PyStr)
    (ms : List (JsStr × Doc)) : parseMembers fuel (ws ++ cs) ms = parseMembers fuel cs ms := by
  cases fuel with
  | zero => rfl
  | succ fuel => rw [parseMembers, parseMembers, skipWs_append h]

/-- What a value's text starts with: neither whitespace nor a closing
bracket. -/
theorem write_eq_cons (hw : Reads w P read) {v : Json JsStr N}
    (hn : Every P (fun _ => True) (fun _ => True) v) :
    ∃ c cs, w.write v = c :: cs ∧ isWs c = false ∧ c ≠ chr ']' := by
  cases v with
  | null => exact ⟨_, _, rfl, by decide, by decide⟩
  | bool b => cases b <;> exact ⟨_, _, rfl, by decide, by decide⟩
  | num n =>
    obtain ⟨c, cs, hcs, hc⟩ := hw.number_eq_cons hn
    refine ⟨chr c, cs, hcs, ?_⟩
    rcases hc with hc | rfl
    · have hv : (chr c : CodePoint).val = c.toNat := chr_val (by omega)
      refine ⟨?_, fun h => ?_⟩
      · simp only [isWs, hv, Bool.or_eq_false_iff, decide_eq_false_iff_not]
        omega
      · rw [h] at hv
        have : (chr ']' : CodePoint).val = 0x5D := rfl
        omega
    · exact ⟨by decide, by decide⟩
  | str us =>
    obtain ⟨body, hbody, -⟩ := hw.quote us
    exact ⟨_, _, hbody, by decide, by decide⟩
  | arr xs => exact ⟨_, _, w.write_arr xs, by decide, by decide⟩
  | obj ms => exact ⟨_, _, w.write_obj ms, by decide, by decide⟩

/-- A number is dispatched to the number scanner. -/
theorem parseValue_number (hw : Reads w P read) {n : N} (hn : P n) (fuel : ℕ) {rest : PyStr}
    (h : Stops rest) :
    parseValue (fuel + 1) (w.number n ++ rest) = some (.num (read n), rest) := by
  obtain ⟨c, cs, hcs, hc⟩ := hw.number_eq_cons hn
  have hscan := hw.scanNumber n hn rest h
  rw [hcs, List.cons_append] at hscan ⊢
  have hlt : c.toNat < 0x80 := by
    rcases hc with hc | rfl
    · omega
    · decide
  have hv : (chr c : CodePoint).val = c.toNat := chr_val (by omega)
  have hne (d : Char) (hd : d.toNat < 0x80) (hd' : ¬ IsDigit d.toNat) (hm : d ≠ '-') :
      (chr c : CodePoint) ≠ chr d := fun heq => by
    have heq' : c.toNat = d.toNat := by
      rw [← hv, heq, chr_val (by omega)]
    rcases hc with hc | rfl
    · exact hd' (heq' ▸ hc)
    · exact hm (Char.ext (UInt32.toNat_inj.mp heq')).symm
  have hws : isWs (chr c) = false := by
    simp only [isWs, hv, Bool.or_eq_false_iff, decide_eq_false_iff_not]
    rcases hc with hc | rfl
    · omega
    · decide
  rw [parseValue, skipWs_cons hws]
  simp only [if_neg (hne '"' (by decide) (by decide) (by decide)),
    if_neg (hne '[' (by decide) (by decide) (by decide)),
    if_neg (hne '{' (by decide) (by decide) (by decide)),
    if_neg (hne 'n' (by decide) (by decide) (by decide)),
    if_neg (hne 't' (by decide) (by decide) (by decide)),
    if_neg (hne 'f' (by decide) (by decide) (by decide)), hscan, Option.map_some]

/-- What the reader does on each item or member, from the induction. -/
def ReadsBack (w : Style JsStr N 0x110000) (read : N → Lit) (v : Json JsStr N) : Prop :=
  ∀ fuel rest, Stops rest → 2 * (w.write v).length ≤ fuel →
    parseValue fuel (w.write v ++ rest) = some (v.map id read, rest)

theorem stops_comma (hw : Reads w P read) (cs : PyStr) : Stops (w.comma ++ cs) := by
  obtain ⟨ws, hws, -⟩ := hw.comma
  rw [hws, List.cons_append]
  exact stops_cons (by decide) _

/-- Items are read up to the bracket. Induction on the items after the
first; the fuel covers the text that is left. -/
theorem parseItems_write (hw : Reads w P read) (x : Json JsStr N) (xs : List (Json JsStr N))
    (hx : ∀ y ∈ x :: xs, ReadsBack w read y) (fuel : ℕ) (rest : PyStr)
    (hfuel : 2 * (joinWith w.comma ((x :: xs).map w.write)).length + 1 ≤ fuel) :
    parseItems fuel (joinWith w.comma ((x :: xs).map w.write) ++ chr ']' :: rest)
      = some ((x :: xs).map (Json.map id read), rest) := by
  induction xs generalizing x fuel with
  | nil =>
    have hjoin : joinWith w.comma ([x].map w.write) = w.write x := List.append_nil _
    rw [hjoin] at hfuel ⊢
    cases fuel with
    | zero => omega
    | succ fuel =>
      have hv := hx x (by simp) fuel (chr ']' :: rest) (stops_cons (by decide) _) (by omega)
      rw [parseItems, hv]
      simp only [skipWs_cons (show isWs (chr ']') = false by decide),
        if_neg (show (chr ']' : CodePoint) ≠ chr ',' by decide), if_true]
      rfl
  | cons y ys ih =>
    have hjoin : joinWith w.comma ((x :: y :: ys).map w.write)
        = w.write x ++ (w.comma ++ joinWith w.comma ((y :: ys).map w.write)) := by
      simp [joinWith]
    obtain ⟨ws, hcomma, hws⟩ := hw.comma
    rw [hjoin] at hfuel ⊢
    simp only [List.length_append] at hfuel
    cases fuel with
    | zero => omega
    | succ fuel =>
      have hv := hx x (by simp) fuel
        (w.comma ++ (joinWith w.comma ((y :: ys).map w.write) ++ chr ']' :: rest))
        (stops_comma hw _) (by omega)
      have hlen : 0 < w.comma.length := by rw [hcomma]; simp
      have hskip (cs : PyStr) : skipWs (w.comma ++ cs) = chr ',' :: (ws ++ cs) := by
        rw [hcomma, List.cons_append, skipWs_cons (by decide)]
      have htail := ih y (fun z hz => hx z (List.mem_cons_of_mem _ hz)) fuel (by omega)
      rw [List.append_assoc, List.append_assoc, parseItems, hv]
      simp only [hskip, if_true]
      rw [parseItems_append_ws hws, htail]
      rfl

/-- Members are read up to the brace, each new name appended. -/
theorem parseMembers_write (hw : Reads w P read) (m : JsStr × Json JsStr N)
    (ms : List (JsStr × Json JsStr N)) (acc : List (JsStr × Doc))
    (hm : ∀ m' ∈ m :: ms, ReadsBack w read m'.2)
    (hnodup : (names (acc ++ (m :: ms).map (mapMember id read))).Nodup) (fuel : ℕ) (rest : PyStr)
    (hfuel : 2 * (joinWith w.comma ((m :: ms).map w.writeMember)).length + 1 ≤ fuel) :
    parseMembers fuel (joinWith w.comma ((m :: ms).map w.writeMember) ++ chr '}' :: rest) acc
      = some (acc ++ (m :: ms).map (mapMember id read), rest) := by
  -- one member: its name, the colon, its value, and what stands after it
  have step (m : JsStr × Json JsStr N) (hback : ReadsBack w read m.2) (fuel : ℕ) (cs : PyStr)
      (hcs : Stops cs) {c : CodePoint} {cs' : PyStr} (hnext : skipWs cs = c :: cs')
      (acc : List (JsStr × Doc)) (hfuel : 2 * (w.writeMember m).length ≤ fuel) :
      parseMembers (fuel + 1) (w.writeMember m ++ cs) acc
        = if c = chr ',' then parseMembers fuel cs' (set m.1 (m.2.map id read) acc)
          else if c = chr '}' then some (set m.1 (m.2.map id read) acc, cs')
          else none := by
    obtain ⟨body, hbody, hscan⟩ := hw.quote m.1
    obtain ⟨ws, hcolon, hws⟩ := hw.colon
    rw [Style.writeMember, List.length_append, List.length_append] at hfuel
    have hv := hback fuel cs hcs (by omega)
    rw [Style.writeMember, hbody, hcolon]
    simp only [List.cons_append, List.append_assoc]
    rw [parseMembers, skipWs_cons (by decide), dropWord, if_pos rfl]
    simp only [dropWord, hscan, skipWs_cons (show isWs (chr ':') = false by decide), if_true]
    rw [parseValue_append_ws hws, hv]
    simp only [hnext]
  induction ms generalizing m acc fuel with
  | nil =>
    have hjoin : joinWith w.comma ([m].map w.writeMember) = w.writeMember m := List.append_nil _
    have hnotin : m.1 ∉ names acc := by
      have := (List.nodup_append.mp (by simpa [names] using hnodup)).2.2
      exact fun hmem => this m.1 (by simpa [names] using hmem) m.1 (by simp [mapMember]) rfl
    rw [hjoin] at hfuel ⊢
    cases fuel with
    | zero => omega
    | succ fuel =>
      rw [step m (hm m (by simp)) fuel _ (stops_cons (by decide) _) (skipWs_cons (by decide) _) acc
        (by omega), if_neg (by decide), if_pos rfl, set_of_notMem hnotin]
      rfl
  | cons m' ms ih =>
    have hjoin : joinWith w.comma ((m :: m' :: ms).map w.writeMember)
        = w.writeMember m ++ (w.comma ++ joinWith w.comma ((m' :: ms).map w.writeMember)) := by
      simp [joinWith]
    obtain ⟨ws, hcomma, hws⟩ := hw.comma
    have hnotin : m.1 ∉ names acc := by
      have := (List.nodup_append.mp (by simpa [names] using hnodup)).2.2
      exact fun hmem => this m.1 (by simpa [names] using hmem) m.1 (by simp [mapMember]) rfl
    have happ : acc ++ (m :: m' :: ms).map (mapMember id read)
        = (acc ++ [mapMember id read m]) ++ (m' :: ms).map (mapMember id read) := by simp
    rw [hjoin] at hfuel ⊢
    simp only [List.length_append] at hfuel
    have hlen : 0 < w.comma.length := by rw [hcomma]; simp
    have hskip (cs : PyStr) : skipWs (w.comma ++ cs) = chr ',' :: (ws ++ cs) := by
      rw [hcomma, List.cons_append, skipWs_cons (by decide)]
    cases fuel with
    | zero => omega
    | succ fuel =>
      have htail := ih m' (acc ++ [mapMember id read m]) (fun m'' h => hm m'' (List.mem_cons_of_mem _ h))
        (happ ▸ hnodup) fuel (by omega)
      rw [List.append_assoc, List.append_assoc,
        step m (hm m (by simp)) fuel _ (stops_comma hw _) (hskip _) acc (by omega), if_pos rfl,
        set_of_notMem hnotin, parseMembers_append_ws hws, happ]
      exact htail

/-- **Every value reads back.** Induction on the tree. -/
theorem parseValue_write (hw : Reads w P read) {v : Json JsStr N} (hv : UniqueNames v)
    (hn : Every P (fun _ => True) (fun _ => True) v) : ReadsBack w read v := by
  induction v using treeInduct with
  | null =>
    intro fuel rest hrest hfuel
    cases fuel with
    | zero => exact absurd hfuel (Nat.not_succ_le_zero 7)
    | succ fuel => rfl
  | bool b =>
    intro fuel rest hrest hfuel
    cases fuel with
    | zero =>
      cases b with
      | false => exact absurd hfuel (Nat.not_succ_le_zero 9)
      | true => exact absurd hfuel (Nat.not_succ_le_zero 7)
    | succ fuel => cases b <;> rfl
  | num n =>
    intro fuel rest hrest hfuel
    obtain ⟨c, cs, hcs, -⟩ := hw.number_eq_cons hn
    rw [Style.write_num, hcs, List.length_cons] at hfuel
    cases fuel with
    | zero => omega
    | succ fuel => exact parseValue_number hw hn fuel hrest
  | str us =>
    intro fuel rest hrest hfuel
    obtain ⟨body, hbody, hscan⟩ := hw.quote us
    rw [Style.write_str, hbody, List.length_cons] at hfuel
    cases fuel with
    | zero => omega
    | succ fuel =>
      rw [Style.write_str, hbody, List.cons_append, parseValue, skipWs_cons (by decide)]
      simp only [if_true, hscan, Option.map_some]
      rfl
  | arr xs ih =>
    intro fuel rest hrest hfuel
    rw [uniqueNames_arr] at hv
    rw [every_arr] at hn
    rw [Style.write_arr, List.length_cons, List.length_append] at hfuel
    cases fuel with
    | zero => omega
    | succ fuel =>
      rw [Style.write_arr, List.cons_append, List.append_assoc, List.singleton_append, parseValue,
        skipWs_cons (by decide)]
      simp only [if_neg (show (chr '[' : CodePoint) ≠ chr '"' by decide), if_true]
      cases xs with
      | nil =>
        simp only [List.map_nil, joinWith, List.nil_append,
          skipWs_cons (show isWs (chr ']') = false by decide), dropWord, if_true]
        rfl
      | cons x xs =>
        -- the first item's text starts with neither whitespace nor the bracket
        obtain ⟨c, cs, hcs, hws, hne⟩ := write_eq_cons hw (hn x (by simp))
        have hopen : dropWord [']'] (skipWs
            (joinWith w.comma ((x :: xs).map w.write) ++ chr ']' :: rest)) = none := by
          rw [List.map_cons, joinWith, hcs, List.cons_append, List.cons_append, skipWs_cons hws,
            dropWord, if_neg hne]
        have hitems := parseItems_write hw x xs (fun y hy => ih y hy (hv y hy) (hn y hy)) fuel rest
          (by simp only [List.length_singleton] at hfuel; omega)
        simp only [hopen, hitems, Option.map_some, map_arr]
  | obj ms ih =>
    intro fuel rest hrest hfuel
    rw [uniqueNames_obj] at hv
    rw [every_obj] at hn
    rw [Style.write_obj, List.length_cons, List.length_append] at hfuel
    cases fuel with
    | zero => omega
    | succ fuel =>
      rw [Style.write_obj, List.cons_append, List.append_assoc, List.singleton_append, parseValue,
        skipWs_cons (by decide)]
      simp only [if_neg (show (chr '{' : CodePoint) ≠ chr '"' by decide),
        if_neg (show (chr '{' : CodePoint) ≠ chr '[' by decide), if_true]
      cases ms with
      | nil =>
        simp only [List.map_nil, joinWith, List.nil_append,
          skipWs_cons (show isWs (chr '}') = false by decide), dropWord, if_true]
        rfl
      | cons m ms =>
        obtain ⟨body, hbody, -⟩ := hw.quote m.1
        have hopen : dropWord ['}'] (skipWs
            (joinWith w.comma ((m :: ms).map w.writeMember) ++ chr '}' :: rest)) = none := by
          rw [List.map_cons, joinWith, Style.writeMember, hbody, List.cons_append,
            List.cons_append, List.cons_append, skipWs_cons (by decide), dropWord,
            if_neg (by decide)]
        have hmembers := parseMembers_write hw m ms [] (fun m' hm' => ih m' hm' (hv.2 m' hm') (hn m' hm').2)
          (by rw [List.nil_append, names_map_mapMember, List.map_id]; exact hv.1) fuel rest
          (by simp only [List.length_singleton] at hfuel; omega)
        simp only [hopen, hmembers, Option.map_some, List.nil_append, map_obj]

/-- **Writing and reading give the tree back**, its numbers as they are
read. -/
theorem parse_write_reads (hw : Reads w P read) {v : Json JsStr N} (hv : UniqueNames v)
    (hn : Every P (fun _ => True) (fun _ => True) v) :
    parse (w.write v) = some (v.map id read) := by
  have hvalue := parseValue_write hw hv hn (2 * (w.write v).length + 2) [] stops_nil (by omega)
  rw [List.append_nil] at hvalue
  rw [parse, hvalue]
  exact if_pos rfl

/-- **Writing and reading give the document back.** -/
theorem parse_write {w : Style JsStr Lit 0x110000} (hw : Readable w) {d : Doc}
    (hd : UniqueNames d) : parse (w.write d) = some d := by
  have hid : d.map id id = d :=
    Every.map_eq_self (every_of_forall (fun _ => rfl) (fun _ => rfl) (fun _ => rfl) d)
  have hn := every_of_forall (fun _ => trivial) (fun _ => trivial) (fun _ => trivial) d
  rw [parse_write_reads hw.reads hd hn, hid]

/-- So canonical texts tell documents apart. -/
theorem style_write_injective {d d' : Doc} (hd : UniqueNames d) (hd' : UniqueNames d')
    (h : Doc.style.write d = Doc.style.write d') : d = d' := by
  have hp := parse_write readable_style hd
  rw [h, parse_write readable_style hd'] at hp
  exact (Option.some.inj hp).symm

/-! ## Canonical bytes -/

/-- A literal that is an integer both languages hold exactly. -/
def SafeLit (l : Lit) : Prop := ∃ z : ℤ, l = .int z ∧ z.natAbs ≤ 2 ^ 53 - 1

/-- The bytes of canonical document text. -/
def bytes (d : Doc) : Bytes := (Doc.style.write d).flatMap Utf8.charBytes

theorem bytes_injective {d d' : Doc} (hd : UniqueNames d) (hd' : UniqueNames d')
    (h : bytes d = bytes d') : d = d' := by
  have htext := Utf8.decode_flatMap_charBytes (Doc.write_wellFormed d)
  unfold bytes at h
  rw [h, Utf8.decode_flatMap_charBytes (Doc.write_wellFormed d')] at htext
  exact Doc.style_write_injective hd hd' (Option.some.inj htext).symm

end Doc

end OpenTerms
