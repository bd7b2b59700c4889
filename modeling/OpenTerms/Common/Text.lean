import Mathlib.Data.Fin.Basic
import Mathlib.Data.List.Basic
import Mathlib.Tactic.NormNum

/-!
# Alphabets

The three alphabets text is written in: code points (a Python `str`),
UTF-16 code units (a JavaScript string) and bytes. Each is a `Fin`, so
that a character out of range cannot be built. What a program writes as
a literal — a field name, a digit, a bracket — is ASCII and means the
same in all three; `ofChars` puts it there.
-/

namespace OpenTerms

/-- A Unicode code point, surrogates included. -/
abbrev CodePoint := Fin 0x110000

/-- A UTF-16 code unit. -/
abbrev CodeUnit := Fin 0x10000

/-- An octet. -/
abbrev Byte := Fin 0x100

instance neZero_codePoint : NeZero 0x110000 := ⟨by decide⟩

instance neZero_codeUnit : NeZero 0x10000 := ⟨by decide⟩

instance neZero_byte : NeZero 0x100 := ⟨by decide⟩

/-- A Python string: code points, which may be lone surrogates. -/
abbrev PyStr := List CodePoint

/-- A JavaScript string: UTF-16 code units, paired or not. -/
abbrev JsStr := List CodeUnit

/-- A Python `bytes` or a JavaScript `Uint8Array`. -/
abbrev Bytes := List Byte

instance lawfulBEq_pyStr : LawfulBEq PyStr := inferInstance

instance lawfulBEq_jsStr : LawfulBEq JsStr := inferInstance

section Ascii

variable {n : ℕ} [NeZero n]

/-- A character of a literal, in the alphabet at hand. -/
def chr (c : Char) : Fin n := Fin.ofNat n c.toNat

/-- The text a list of characters spells. -/
def ofChars (cs : List Char) : List (Fin n) := cs.map chr

/-- A string literal of the source. It is ASCII, so its bytes are its
characters. -/
def lit (s : String) : List (Fin n) :=
  s.toByteArray.data.toList.map fun b => Fin.ofNat n b.toNat

@[simp] theorem ofChars_nil : (ofChars [] : List (Fin n)) = [] := rfl

@[simp] theorem ofChars_cons (c : Char) (cs : List Char) :
    (ofChars (c :: cs) : List (Fin n)) = chr c :: ofChars cs := rfl

@[simp] theorem ofChars_append (cs ds : List Char) :
    (ofChars (cs ++ ds) : List (Fin n)) = ofChars cs ++ ofChars ds := by
  simp [ofChars]

theorem utf8EncodeChar_ascii {c : Char} (h : c.toNat < 0x80) :
    String.utf8EncodeChar c = [c.val.toUInt8] := by
  refine String.utf8EncodeChar_eq_singleton ?_
  have hle : c.val ≤ 0x7F := by
    rw [UInt32.le_iff_toNat_le]
    change c.toNat ≤ 0x7F
    omega
  unfold Char.utf8Size
  simp [hle]

/-- A literal is its characters. -/
theorem lit_eq {s : String} (h : ∀ c ∈ s.toList, c.toNat < 0x80) :
    (lit s : List (Fin n)) = ofChars s.toList := by
  unfold lit ofChars
  rw [← String.utf8Encode_toList, List.utf8Encode, List.data_toByteArray, List.toList_toArray,
    List.map_flatMap, List.flatMap_def]
  generalize s.toList = cs at h
  induction cs with
  | nil => rfl
  | cons c cs ih =>
    rw [List.forall_mem_cons] at h
    have hcode : c.val.toUInt8.toNat = c.toNat := by
      rw [UInt32.toNat_toUInt8]
      exact Nat.mod_eq_of_lt (by change c.toNat < 256; omega)
    rw [List.map_cons, List.flatten_cons, ih h.2, utf8EncodeChar_ascii h.1, List.map_singleton,
      hcode, List.map_cons]
    rfl

/-- A character below the alphabet's size keeps its code. -/
theorem chr_val {c : Char} (h : c.toNat < n) : (chr c : Fin n).val = c.toNat :=
  Nat.mod_eq_of_lt h

theorem chr_inj {c d : Char} (hc : c.toNat < n) (hd : d.toNat < n)
    (h : (chr c : Fin n) = chr d) : c = d := by
  have hval : c.toNat = d.toNat := by rw [← chr_val hc, h, chr_val hd]
  exact Char.ext (UInt32.toNat_inj.mp hval)

/-- A literal is its characters. -/
theorem ofChars_inj {cs ds : List Char} (hc : ∀ c ∈ cs, c.toNat < n)
    (hd : ∀ d ∈ ds, d.toNat < n) (h : (ofChars cs : List (Fin n)) = ofChars ds) : cs = ds := by
  induction cs generalizing ds with
  | nil =>
    cases ds with
    | nil => rfl
    | cons d ds => cases h
  | cons c cs ih =>
    cases ds with
    | nil => cases h
    | cons d ds =>
      rw [List.forall_mem_cons] at hc hd
      rw [ofChars_cons, ofChars_cons, List.cons.injEq] at h
      rw [chr_inj hc.1 hd.1 h.1, ih hc.2 hd.2 h.2]

end Ascii

/-! ## Numerals -/

/-- The decimal numeral of an integer, as `str(int)` and
`Number.prototype.toString` write it. -/
def decimalChars : ℤ → List Char
  | .ofNat k => Nat.toDigits 10 k
  | .negSucc k => '-' :: Nat.toDigits 10 (k + 1)

/-- An integer's decimal text. -/
def decimal {n : ℕ} [NeZero n] (z : ℤ) : List (Fin n) := ofChars (decimalChars z)

/-- The four lower-case hexadecimal digits of a `\u` escape. -/
def hex4Chars (k : ℕ) : List Char :=
  [(k / 0x1000 % 16).digitChar, (k / 0x100 % 16).digitChar, (k / 0x10 % 16).digitChar,
    (k % 16).digitChar]

/-- The two lower-case hexadecimal digits of a byte. -/
def hexByteChars (b : Byte) : List Char :=
  [(b.val / 16).digitChar, (b.val % 16).digitChar]

/-- `bytes.hex()`, which is also `bytesToHex`. -/
def hex {n : ℕ} [NeZero n] (bs : Bytes) : List (Fin n) := ofChars (bs.flatMap hexByteChars)

/-- A hexadecimal digit read back, either case. -/
def hexDigitVal (c : ℕ) : Option ℕ :=
  if 0x30 ≤ c ∧ c ≤ 0x39 then some (c - 0x30)
  else if 0x61 ≤ c ∧ c ≤ 0x66 then some (c - 0x61 + 10)
  else if 0x41 ≤ c ∧ c ≤ 0x46 then some (c - 0x41 + 10)
  else none

/-- The code of a decimal digit. -/
abbrev IsDigit (c : ℕ) : Prop := 0x30 ≤ c ∧ c ≤ 0x39

theorem digitChar_lt : ∀ d < 16, d.digitChar.toNat < 0x80 := by decide

theorem hexDigitVal_digitChar : ∀ d < 16, hexDigitVal d.digitChar.toNat = some d := by decide

theorem isDigit_of_mem_toDigits {k : ℕ} {c : Char} (h : c ∈ Nat.toDigits 10 k) :
    IsDigit c.toNat := by
  have h10 := Nat.isDigit_of_mem_toDigits (by decide) (by decide) h
  simp only [Char.isDigit, Bool.and_eq_true, decide_eq_true_eq, ge_iff_le,
    UInt32.le_iff_toNat_le] at h10
  exact h10

/-- Every character of a decimal numeral is a digit or the sign. -/
theorem mem_decimalChars {z : ℤ} {c : Char} (h : c ∈ decimalChars z) :
    IsDigit c.toNat ∨ c = '-' := by
  cases z with
  | ofNat k => exact Or.inl (isDigit_of_mem_toDigits h)
  | negSucc k =>
    rcases List.mem_cons.mp h with rfl | h
    · exact Or.inr rfl
    · exact Or.inl (isDigit_of_mem_toDigits h)

theorem decimalChars_lt {z : ℤ} {c : Char} (h : c ∈ decimalChars z) : c.toNat < 0x80 := by
  rcases mem_decimalChars h with h | rfl
  · unfold IsDigit at h; omega
  · decide

/-- Two hash digests with one hexadecimal text are one digest. -/
theorem hexByteChars_injective : Function.Injective hexByteChars := by
  intro a b h
  simp only [hexByteChars, List.cons.injEq, and_true] at h
  have digit {x y : ℕ} (hx : x < 16) (hy : y < 16) (hxy : x.digitChar = y.digitChar) :
      x = y := by
    have := hexDigitVal_digitChar x hx
    rw [hxy, hexDigitVal_digitChar y hy] at this
    exact (Option.some.inj this).symm
  have h1 := digit (by omega) (by omega) h.1
  have h2 := digit (by omega) (by omega) h.2
  exact Fin.ext (by omega)

theorem hexByteChars_lt {b : Byte} : ∀ c ∈ hexByteChars b, c.toNat < 0x80 := by
  have hb := b.isLt
  simp only [hexByteChars, List.forall_mem_cons, List.not_mem_nil, IsEmpty.forall_iff,
    implies_true, and_true]
  exact ⟨digitChar_lt _ (by omega), digitChar_lt _ (by omega)⟩

/-- **A hash has one hexadecimal text**, two digits for each byte. -/
theorem hex_injective {n : ℕ} [NeZero n] (hn : 0x80 ≤ n) :
    Function.Injective (hex : Bytes → List (Fin n)) := by
  have ascii (bs : Bytes) : ∀ c ∈ bs.flatMap hexByteChars, c.toNat < n := by
    intro c hc
    obtain ⟨b, -, hb⟩ := List.mem_flatMap.mp hc
    exact lt_of_lt_of_le (hexByteChars_lt c hb) hn
  intro as bs h
  have hchars := ofChars_inj (ascii as) (ascii bs) h
  clear h
  induction as generalizing bs with
  | nil =>
    cases bs with
    | nil => rfl
    | cons b bs => cases hchars
  | cons a as ih =>
    cases bs with
    | nil => cases hchars
    | cons b bs =>
      rw [List.flatMap_cons, List.flatMap_cons] at hchars
      obtain ⟨hhead, htail⟩ := List.append_inj hchars rfl
      rw [hexByteChars_injective hhead, ih htail]

end OpenTerms
