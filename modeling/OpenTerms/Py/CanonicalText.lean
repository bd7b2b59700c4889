import OpenTerms.Common.Fallible
import OpenTerms.Common.JsonRoundTrip
import OpenTerms.Py.Canonical

/-!
# What canonical bytes say

`canonicalize_eq_ok_iff` states when `canonicalize` accepts and what it
returns; everything later reads that and not the code. The text it
encodes is the canonical text of a document (`write_compact`), so it is
read back as the sorted, null-stripped payload
(`loadsBytes_canonicalize`): the bytes forget nulls and member order and
nothing else.
-/

namespace OpenTerms

namespace Py

open Json Utf16

/-! ## Acceptance -/

/-- A number `_validate` lets through. -/
def SafeNum : PyNum → Prop
  | .int z => |z| ≤ maxSafeInteger
  | _ => False

/-- A member name `_validate` lets through. -/
def BmpName (k : PyStr) : Prop := ∀ c ∈ k, c.val ≤ 0xFFFF

/-- What `_validate` lets through. -/
def Validated (v : PyVal) : Prop := Every SafeNum (fun _ => True) BmpName v

/-- Text UTF-8 can encode. -/
def NoSurrogate (s : PyStr) : Prop := ∀ c ∈ s, ¬ IsSurrogate c.val

theorem noSurrogate_ascii {s : PyStr} (h : ∀ c ∈ s, c.val < 0x80) : NoSurrogate s := by
  intro c hc hsur
  have hlt := h c hc
  have hlow : 0xD800 ≤ c.val := hsur.1
  omega

/-- When a text can be encoded. -/
theorem encodeUtf8_isOk_iff {s : PyStr} : (∃ bytes, encodeUtf8 s = .ok bytes) ↔ NoSurrogate s := by
  unfold encodeUtf8
  cases hencode : Utf8.encode s with
  | some bytes => exact iff_of_true ⟨bytes, rfl⟩ (Utf8.encode_eq_some_iff.mp hencode).1
  | none =>
    refine iff_of_false (fun h => by cases h.choose_spec) fun h => ?_
    cases hencode.symm.trans (Utf8.encode_eq_some_iff.mpr ⟨h, rfl⟩)

theorem validate_eq_ok_iff {v : PyVal} : validate v = .ok () ↔ Validated v := by
  unfold Validated
  induction v using treeInduct with
  | null => exact iff_of_true rfl trivial
  | bool b => exact iff_of_true rfl trivial
  | str s => exact iff_of_true rfl trivial
  | num x =>
    cases x with
    | int z =>
      rw [validate, every_num, SafeNum]
      split
      · next h => simp only [reduceCtorEq, false_iff, not_le]; exact h
      · next h => simp only [true_iff]; exact not_lt.mp h
    | float x => exact iff_of_false (fun h => by cases h) id
    | negZero => exact iff_of_false (fun h => by cases h) id
  | arr xs ih =>
    rw [validate, every_arr]
    induction xs with
    | nil => exact iff_of_true rfl (by simp)
    | cons x xs ihx =>
      rw [List.forall_mem_cons, ← ih x (by simp), ← ihx fun y hy => ih y (by simp [hy]),
        validateItems]
      exact check_eq_ok_iff
  | obj ms ih =>
    rw [validate, every_obj]
    induction ms with
    | nil => exact iff_of_true rfl (by simp)
    | cons m ms ihm =>
      obtain ⟨k, v⟩ := m
      rw [List.forall_mem_cons, ← ih (k, v) (by simp), ← ihm fun n hn => ih n (by simp [hn]),
        validateMembers]
      by_cases hk : k.any (fun c => 0xFFFF < c.val) = true
      · have hnot : ¬ BmpName k := by
          obtain ⟨c, hc, hlt⟩ := List.any_eq_true.mp hk
          exact fun h => absurd (h c hc) (not_le.mpr (of_decide_eq_true hlt))
        rw [if_pos hk]
        exact iff_of_false (fun h => by cases h) fun h => hnot h.1.1
      · have hbmp : BmpName k := fun c hc =>
          not_lt.mp fun hlt => hk (List.any_eq_true.mpr ⟨c, hc, decide_eq_true hlt⟩)
        rw [if_neg hk]
        exact check_eq_ok_iff.trans (by simp [hbmp])

/-- Nothing `_validate` lets through is refused as a float. -/
theorem dumpsCanonical_eq {v : PyVal} (h : Validated v) :
    dumpsCanonical v = .ok (compact.write v.sortKeys) := by
  unfold dumpsCanonical
  refine if_pos (Every.imp (fun n hn => ?_) (fun _ h => h) (fun _ _ => trivial) h)
  cases n with
  | int z => trivial
  | float x => exact hn.elim
  | negZero => exact hn.elim

/-- **When `canonicalize` accepts, and what it returns.** -/
theorem canonicalize_eq_ok_iff {v : PyVal} {bytes : Bytes} :
    canonicalize v = .ok bytes
      ↔ Validated v ∧ Utf8.encode (compact.write v.stripNulls.sortKeys) = some bytes := by
  unfold canonicalize
  rw [check_eq_ok_iff, validate_eq_ok_iff]
  refine and_congr_right fun hv => ?_
  have hstrip : Validated v.stripNulls := Every.stripNulls hv
  rw [dumpsCanonical_eq hstrip, ok_bind]
  unfold encodeUtf8
  cases Utf8.encode (compact.write v.stripNulls.sortKeys) with
  | none => exact iff_of_false (fun h => by cases h) (fun h => by cases h)
  | some b => rw [Except.ok.injEq, Option.some.injEq]

/-- The text of a validated value can be encoded when its strings and
names can. -/
theorem forall_mem_write_compact {v : PyVal} (hv : Validated v) :
    NoSurrogate (compact.write v) ↔ Every (fun _ => True) NoSurrogate NoSurrogate v := by
  have hlow : ∀ c : CodePoint, c.val < 0x80 → ¬ IsSurrogate c.val := by
    intro c hc; omega
  have hascii : ∀ c : Char, c.toNat < 0x80 → ¬ IsSurrogate (chr c : CodePoint).val := by
    intro c hc; rw [chr_val (by omega)]; omega
  have hcomma : ∀ d ∈ compact.comma, ¬ IsSurrogate d.val :=
    List.forall_mem_singleton.mpr (hascii ',' (by decide))
  have hcolon : ∀ d ∈ compact.colon, ¬ IsSurrogate d.val :=
    List.forall_mem_singleton.mpr (hascii ':' (by decide))
  unfold NoSurrogate
  rw [compact.forall_mem_write hascii hcomma hcolon]
  constructor
  · exact Every.imp (fun _ _ => trivial) (fun s h => (forall_mem_quoteWith hlow s).mp h)
      fun k h => (forall_mem_quoteWith hlow k).mp h
  · intro h
    refine Every.imp (fun n hn => ?_) (fun s h => (forall_mem_quoteWith hlow s).mpr h.2)
      (fun k h => (forall_mem_quoteWith hlow k).mpr h.2) (Every.and hv h)
    cases n with
    | int z => exact fun c hc => hlow c (ofChars_ascii (fun _ => decimalChars_lt) c hc)
    | float x => exact hn.1.elim
    | negZero => exact hn.1.elim

/-- **Acceptance.** `_validate` sees the raw tree, the encoder only what
stripping leaves. -/
theorem canonicalize_isOk_iff {v : PyVal} :
    (∃ bytes, canonicalize v = .ok bytes)
      ↔ Validated v ∧ Every (fun _ => True) NoSurrogate NoSurrogate v.stripNulls := by
  simp only [canonicalize_eq_ok_iff, Utf8.encode_eq_some_iff, exists_and_left]
  refine and_congr_right fun hv => ?_
  have hsorted : Validated v.stripNulls.sortKeys := every_sortKeys.mpr (Every.stripNulls hv)
  rw [← every_sortKeys (v := v.stripNulls), ← forall_mem_write_compact hsorted]
  exact ⟨fun h => h.1, fun h => ⟨h, _, rfl⟩⟩

/-! ## Reading back -/

/-- The literal a safe number was read from. -/
def toLit : PyNum → Lit
  | .int z => .int z
  | _ => .int 0

/-- The document a value without floats and surrogates was loaded from. -/
def toDoc (v : PyVal) : Doc := v.map encode toLit

theorem ofDoc_toDoc {v : PyVal} (hv : Validated v)
    (hs : Every (fun _ => True) NoSurrogate NoSurrogate v) : ofDoc (toDoc v) = v := by
  unfold ofDoc toDoc
  rw [map_map]
  refine Every.map_eq_self (Every.imp (fun n hn => ?_) (fun s h => decode_encode h.2)
    (fun k h => decode_encode h.2) (Every.and hv hs))
  cases n with
  | int z => rfl
  | float x => exact hn.1.elim
  | negZero => exact hn.1.elim

/-- The text is the canonical text of that document. -/
theorem write_compact {v : PyVal} (hv : Validated v)
    (hs : Every (fun _ => True) NoSurrogate NoSurrogate v) :
    Doc.style.write (toDoc v) = compact.write v := by
  have quote {s : PyStr} (h : NoSurrogate s) : Doc.style.quote (encode s) = compact.quote s := by
    change quoteWith wideWellFormed (decode (encode s)) = quoteWith wideRaw s
    rw [decode_encode h, quoteWith_wideWellFormed h]
  have pieces : Every (fun n => Doc.style.number (toLit n) = compact.number n)
      (fun s => Doc.style.quote (encode s) = compact.quote s)
      (fun k => Doc.style.quote (encode k) = compact.quote k) v := by
    refine Every.imp (fun n hn => ?_) (fun s h => quote h.2) (fun k h => quote h.2)
      (Every.and hv hs)
    cases n with
    | int z => rfl
    | float x => exact hn.1.elim
    | negZero => exact hn.1.elim
  exact Style.write_map TextHom.id (by rfl) (by rfl) pieces

/-- **Canonical bytes read back** as the payload, nulls stripped and
members sorted. -/
theorem loadsBytes_canonicalize {v : PyVal} {bytes : Bytes} (hu : UniqueNames v)
    (h : canonicalize v = .ok bytes) : loadsBytes bytes = some v.stripNulls.sortKeys := by
  obtain ⟨hv, henc⟩ := canonicalize_eq_ok_iff.mp h
  have hs := (canonicalize_isOk_iff.mp ⟨bytes, h⟩).2
  have hv' : Validated v.stripNulls.sortKeys := every_sortKeys.mpr (Every.stripNulls hv)
  have hs' := every_sortKeys.mpr hs
  have hdoc := ofDoc_toDoc hv' hs'
  have hunique : UniqueNames (toDoc v.stripNulls.sortKeys) := by
    refine UniqueNames.of_map (f := decode) (g := loadNumber) ?_
    change UniqueNames (ofDoc _)
    rw [hdoc]
    exact hu.stripNulls.sortKeys
  unfold loadsBytes loads
  rw [Utf8.decode_encode henc, Option.bind_some, ← write_compact hv' hs',
    Doc.parse_write Doc.readable_style hunique, Option.map_some, hdoc]

/-- **Equal bytes, equal payloads.** -/
theorem canonicalize_inj_iff {v w : PyVal} {b c : Bytes} (hv : UniqueNames v)
    (hw : UniqueNames w) (hb : canonicalize v = .ok b) (hc : canonicalize w = .ok c) :
    b = c ↔ Same v.stripNulls w.stripNulls := by
  rw [same_iff_sortKeys_eq hv.stripNulls hw.stripNulls]
  constructor
  · rintro rfl
    have heq := loadsBytes_canonicalize hv hb
    rw [loadsBytes_canonicalize hw hc] at heq
    exact (Option.some.inj heq).symm
  · intro heq
    have hb' := (canonicalize_eq_ok_iff.mp hb).2
    rw [heq, (canonicalize_eq_ok_iff.mp hc).2] at hb'
    exact (Option.some.inj hb').symm

end Py

end OpenTerms
