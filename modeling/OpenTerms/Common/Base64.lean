import OpenTerms.Common.Text
import Mathlib.Data.List.DropRight

/-!
# Base64

The alphabet of RFC 4648, bytes against six-bit digits, and the url-safe
text without padding. `unpack_pack` is the round trip; what a decoder
makes of text that is not an encoder's is the decoder's own business.
-/

namespace OpenTerms

namespace Base64

/-- A six-bit digit. -/
abbrev Sextet := Fin 0x40

/-- The character of a digit. -/
def sextetChar (v : Sextet) : Char :=
  if v.val < 26 then Char.ofNat (0x41 + v.val)
  else if v.val < 52 then Char.ofNat (0x61 + (v.val - 26))
  else if v.val < 62 then Char.ofNat (0x30 + (v.val - 52))
  else if v.val = 62 then '+'
  else '/'

/-- The digit of a character code, if it is in the alphabet. -/
def sextet? (c : ℕ) : Option Sextet :=
  if 0x41 ≤ c ∧ c ≤ 0x5A then some (Fin.ofNat _ (c - 0x41))
  else if 0x61 ≤ c ∧ c ≤ 0x7A then some (Fin.ofNat _ (c - 0x61 + 26))
  else if 0x30 ≤ c ∧ c ≤ 0x39 then some (Fin.ofNat _ (c - 0x30 + 52))
  else if c = 0x2B then some 62
  else if c = 0x2F then some 63
  else none

/-- Three bytes as four digits; a last one or two as two or three. -/
def pack : Bytes → List Sextet
  | a :: b :: c :: rest =>
    Fin.ofNat _ (a.val / 4) :: Fin.ofNat _ (a.val % 4 * 16 + b.val / 16)
      :: Fin.ofNat _ (b.val % 16 * 4 + c.val / 64) :: Fin.ofNat _ (c.val % 64) :: pack rest
  | [a, b] =>
    [Fin.ofNat _ (a.val / 4), Fin.ofNat _ (a.val % 4 * 16 + b.val / 16),
      Fin.ofNat _ (b.val % 16 * 4)]
  | [a] => [Fin.ofNat _ (a.val / 4), Fin.ofNat _ (a.val % 4 * 16)]
  | [] => []

/-- The byte two neighbouring digits share, or end. -/
def firstByte (a b : Sextet) : Byte := Fin.ofNat _ (a.val * 4 + b.val / 16)
def secondByte (b c : Sextet) : Byte := Fin.ofNat _ (b.val % 16 * 16 + c.val / 4)
def thirdByte (c d : Sextet) : Byte := Fin.ofNat _ (c.val % 4 * 64 + d.val)

/-- Four digits as three bytes; the bits of a last partial group that
fill no byte are dropped. -/
def unpack : List Sextet → Bytes
  | a :: b :: c :: d :: rest => firstByte a b :: secondByte b c :: thirdByte c d :: unpack rest
  | [a, b, c] => [firstByte a b, secondByte b c]
  | [a, b] => [firstByte a b]
  | [_] => []
  | [] => []

/-- The padded text: standard base64. -/
def encodeChars (bs : Bytes) : List Char :=
  (pack bs).map sextetChar ++ List.replicate ((3 - bs.length % 3) % 3) '='

/-- `+` and `/` written the url-safe way. -/
def urlSafe (c : Char) : Char := if c = '+' then '-' else if c = '/' then '_' else c

/-- The url-safe code read as the standard one. -/
def fromUrlSafe (c : ℕ) : ℕ := if c = 0x2D then 0x2B else if c = 0x5F then 0x2F else c

/-- The url-safe text of bytes, padding stripped. -/
def encodeUrl {n : ℕ} [NeZero n] (bs : Bytes) : List (Fin n) :=
  ofChars (((encodeChars bs).map urlSafe).rdropWhile (· = '='))

theorem sextet?_sextetChar : ∀ v : Sextet, sextet? (sextetChar v).toNat = some v := by decide

/-- What the url-safe character of a digit is. -/
theorem urlSafe_sextetChar : ∀ v : Sextet,
    (urlSafe (sextetChar v)).toNat < 0x80 ∧ urlSafe (sextetChar v) ≠ '='
      ∧ fromUrlSafe (urlSafe (sextetChar v)).toNat = (sextetChar v).toNat := by decide

/-- Only alphabet characters have a digit. -/
theorem sextet?_lt {c : ℕ} {v : Sextet} (h : sextet? c = some v) : c < 0x80 ∧ c ≠ 0x3D := by
  unfold sextet? at h
  split_ifs at h <;> omega

/-- **Unpacking undoes packing.** -/
theorem unpack_pack (bs : Bytes) : unpack (pack bs) = bs := by
  have digit {k : ℕ} (h : k < 0x40) : (Fin.ofNat 0x40 k).val = k := Nat.mod_eq_of_lt h
  have byte {k : ℕ} {b : Byte} (h : k = b.val) : (Fin.ofNat 0x100 k) = b := by
    subst h
    exact Fin.ext (Nat.mod_eq_of_lt b.isLt)
  fun_induction pack bs with
  | case1 a b c rest ih =>
    have ha := a.isLt
    have hb := b.isLt
    have hc := c.isLt
    rw [unpack, ih, firstByte, secondByte, thirdByte]
    rw [digit (by omega), digit (by omega), digit (by omega), digit (by omega),
      byte (b := a) (by omega), byte (b := b) (by omega), byte (b := c) (by omega)]
  | case2 a b =>
    have ha := a.isLt
    have hb := b.isLt
    rw [unpack, firstByte, secondByte]
    rw [digit (by omega), digit (by omega), digit (by omega), byte (b := a) (by omega),
      byte (b := b) (by omega)]
  | case3 a =>
    have ha := a.isLt
    rw [unpack, firstByte]
    rw [digit (by omega), digit (by omega), byte (b := a) (by omega)]
  | case4 => rfl

theorem length_pack (bs : Bytes) :
    (pack bs).length + (3 - bs.length % 3) % 3 = (bs.length + 2) / 3 * 4 := by
  fun_induction pack bs with
  | case1 a b c rest ih =>
    simp only [List.length_cons]
    omega
  | case2 a b => simp
  | case3 a => simp
  | case4 => rfl

/-- The text without its padding. -/
theorem rdropWhile_encodeChars (bs : Bytes) :
    ((encodeChars bs).map urlSafe).rdropWhile (· = '=')
      = (pack bs).map fun v => urlSafe (sextetChar v) := by
  have hpad : (List.replicate ((3 - bs.length % 3) % 3) '=').map urlSafe
      = List.replicate ((3 - bs.length % 3) % 3) '=' := by
    rw [List.map_replicate]
    rfl
  have hdrop (cs : List Char) (k : ℕ) :
      (cs ++ List.replicate k '=').rdropWhile (· = '=') = cs.rdropWhile (· = '=') := by
    induction k with
    | zero => rw [List.replicate_zero, List.append_nil]
    | succ k ih =>
      rw [List.replicate_succ', ← List.append_assoc, List.rdropWhile_concat_pos _ _ _ (by simp), ih]
  rw [encodeChars, List.map_append, hpad, hdrop, List.map_map]
  refine List.rdropWhile_eq_self_iff.mpr fun hne => ?_
  obtain ⟨v, -, hv⟩ := List.mem_map.mp (List.getLast_mem hne)
  rw [← hv]
  simpa using (urlSafe_sextetChar v).2.1

/-- The url-safe text, digit by digit. -/
theorem encodeUrl_eq {n : ℕ} [NeZero n] (bs : Bytes) :
    (encodeUrl bs : List (Fin n)) = (pack bs).map fun v => chr (urlSafe (sextetChar v)) := by
  rw [encodeUrl, rdropWhile_encodeChars, ofChars, List.map_map]
  rfl

/-- The codes of the url-safe alphabet; the pad is not one. -/
abbrev IsUrlCode (c : ℕ) : Prop :=
  (0x41 ≤ c ∧ c ≤ 0x5A) ∨ (0x61 ≤ c ∧ c ≤ 0x7A) ∨ (0x30 ≤ c ∧ c ≤ 0x39) ∨ c = 0x2D ∨ c = 0x5F

theorem isUrlCode_urlSafe : ∀ v : Sextet, IsUrlCode (urlSafe (sextetChar v)).toNat := by decide

/-- The url-safe text is made of the alphabet. -/
theorem isUrlCode_of_mem {n : ℕ} [NeZero n] (hn : 0x80 ≤ n) {bs : Bytes} {c : Fin n}
    (h : c ∈ encodeUrl bs) : IsUrlCode c.val := by
  rw [encodeUrl_eq] at h
  obtain ⟨v, -, rfl⟩ := List.mem_map.mp h
  have hlt := (urlSafe_sextetChar v).1
  rw [chr_val (by omega)]
  exact isUrlCode_urlSafe v

/-! ## Well-formed text -/

/-- Codes in the alphabet, with their digits. -/
def Digits (cs : List ℕ) (ds : List Sextet) : Prop := cs.map sextet? = ds.map some

/-- How many pads complete a last group of four. -/
def padding (k : ℕ) : ℕ := (4 - k % 4) % 4

@[simp] theorem digits_nil : Digits [] [] := rfl

theorem Digits.cons {cs : List ℕ} {d : Sextet} {ds : List Sextet} (h : Digits cs (d :: ds)) :
    ∃ c cs', cs = c :: cs' ∧ sextet? c = some d ∧ Digits cs' ds := by
  cases cs with
  | nil => cases h
  | cons c cs =>
    unfold Digits at h
    rw [List.map_cons, List.map_cons, List.cons.injEq] at h
    exact ⟨c, cs, rfl, h.1, h.2⟩

theorem Digits.eq_nil {cs : List ℕ} (h : Digits cs []) : cs = [] := List.map_eq_nil_iff.mp h

theorem Digits.length_eq {cs : List ℕ} {ds : List Sextet} (h : Digits cs ds) :
    cs.length = ds.length := by
  have := congrArg List.length h
  simpa using this

theorem Digits.isSome {cs : List ℕ} {ds : List Sextet} (h : Digits cs ds) :
    ∀ c ∈ cs, (sextet? c).isSome = true := by
  intro c hc
  have hmem : sextet? c ∈ ds.map some := h ▸ List.mem_map_of_mem hc
  obtain ⟨d, -, hd⟩ := List.mem_map.mp hmem
  rw [← hd]
  rfl

theorem Digits.filterMap {cs : List ℕ} {ds : List Sextet} (h : Digits cs ds) :
    cs.filterMap sextet? = ds := by
  calc cs.filterMap sextet? = (cs.map sextet?).filterMap id := by rw [List.filterMap_map]; rfl
    _ = (ds.map some).filterMap id := by rw [show cs.map sextet? = ds.map some from h]
    _ = ds := by rw [List.filterMap_map, Function.id_comp, List.filterMap_some]

/-- Codes that all have a digit have a list of them. -/
theorem digits_of_isSome {cs : List ℕ} (h : ∀ c ∈ cs, (sextet? c).isSome = true) :
    Digits cs (cs.filterMap sextet?) := by
  induction cs with
  | nil => rfl
  | cons c cs ih =>
    rw [List.forall_mem_cons] at h
    obtain ⟨d, hd⟩ := Option.isSome_iff_exists.mp h.1
    unfold Digits at ih ⊢
    rw [List.filterMap_cons_some hd, List.map_cons, List.map_cons, ih h.2, hd]

/-- The url-safe text of bytes holds their digits. -/
theorem digits_encodeUrl {n : ℕ} [NeZero n] (hn : 0x80 ≤ n) (bs : Bytes) :
    Digits ((encodeUrl bs : List (Fin n)).map fun c => fromUrlSafe c.val) (pack bs) := by
  unfold Digits
  rw [encodeUrl_eq, List.map_map, List.map_map]
  refine List.map_congr_left fun v _ => ?_
  obtain ⟨hlt, -, hcode⟩ := urlSafe_sextetChar v
  simp only [Function.comp_apply]
  rw [chr_val (by omega), hcode, sextet?_sextetChar]

theorem length_encodeUrl {n : ℕ} [NeZero n] (bs : Bytes) :
    (encodeUrl bs : List (Fin n)).length = (pack bs).length := by
  rw [encodeUrl_eq, List.length_map]

/-- No encoding leaves one digit over. -/
theorem length_pack_mod (bs : Bytes) : (pack bs).length % 4 ≠ 1 := by
  have := length_pack bs
  omega

end Base64

end OpenTerms
