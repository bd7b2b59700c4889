import OpenTerms.Py.CanonicalText
import OpenTerms.Ts.CanonicalText

/-!
# The two canonicalizers on one document

A document is loaded by each language (`Py.ofDoc`, `Ts.ofDoc`) and
canonicalized. Both write the canonical text of the same stripped and
sorted document (`canonicalize_parity`): on the names that Python accepts
the two sort orders agree, and the escapes and numerals are the same.

They do not accept the same documents. Python checks the raw tree and
then encodes all of what stripping leaves; TypeScript checks only what it
serializes, and neither there nor in `TextEncoder` refuses a lone
surrogate. What TypeScript refuses Python refuses too, so acceptance
agrees exactly when the document is clean or its fault is one TypeScript
looks at (`acceptance_parity_iff`).
-/

namespace OpenTerms

namespace Parity

open Json Utf16

variable {d : Doc}

/-! ## Python, on a document -/

/-- A name without a supplementary character. -/
def BmpUnits (k : JsStr) : Prop := Py.BmpName (decode k)

/-- A string without a lone surrogate. -/
def Paired (s : JsStr) : Prop := Py.NoSurrogate (decode s)

/-- A document Python canonicalizes: safe integers and no supplementary
character in a name, null members included; no lone surrogate in what
stripping leaves. -/
def PyClean (d : Doc) : Prop :=
  Every Doc.SafeLit (fun _ => True) BmpUnits d
    ∧ Every (fun _ => True) Paired Paired d.stripNulls

theorem safeNum_loadNumber_iff {l : Lit} : Py.SafeNum (Py.loadNumber l) ↔ Doc.SafeLit l := by
  cases l with
  | int z =>
    have hbound : |z| ≤ Py.maxSafeInteger ↔ z.natAbs ≤ 2 ^ 53 - 1 := by
      rw [Py.maxSafeInteger, Int.abs_eq_natAbs]
      omega
    constructor
    · exact fun h => ⟨z, rfl, hbound.mp h⟩
    · rintro ⟨z', hz', h⟩
      obtain rfl := Lit.int.inj hz'
      exact hbound.mpr h
  | dec neg m e =>
    refine iff_of_false (fun h => ?_) (by rintro ⟨z, hz, -⟩; cases hz)
    simp only [Py.loadNumber] at h
    split at h <;> exact h

theorem validated_ofDoc_iff : Py.Validated (Py.ofDoc d)
    ↔ Every Doc.SafeLit (fun _ => True) BmpUnits d := by
  unfold Py.Validated Py.ofDoc
  rw [every_map]
  exact ⟨Every.imp (fun _ => safeNum_loadNumber_iff.mp) (fun _ h => h) (fun _ h => h),
    Every.imp (fun _ => safeNum_loadNumber_iff.mpr) (fun _ h => h) (fun _ h => h)⟩

theorem stripNulls_pyOfDoc : (Py.ofDoc d).stripNulls = Py.ofDoc d.stripNulls :=
  stripNulls_map _ _ d

theorem py_isOk_iff : (∃ b, Py.canonicalize (Py.ofDoc d) = .ok b) ↔ PyClean d := by
  unfold PyClean
  rw [Py.canonicalize_isOk_iff, validated_ofDoc_iff, stripNulls_pyOfDoc, Py.ofDoc, every_map]
  exact Iff.rfl

/-- The names Python accepts are plain. -/
theorem plain_names (h : PyClean d) :
    Every (fun _ => True) (fun _ => True) Plain d.stripNulls := by
  refine Every.imp (fun _ _ => trivial) (fun _ _ => trivial) (fun k hk => ?_)
    (Every.and (Every.stripNulls h.1) h.2)
  exact plain_of_decode fun c hc => ⟨hk.1 c hc, hk.2 c hc⟩

/-- **Python's bytes** are those of the stripped and sorted document. -/
theorem py_bytes {b : Bytes} (h : Py.canonicalize (Py.ofDoc d) = .ok b) :
    b = Doc.bytes d.stripNulls.sortKeys := by
  have hclean : PyClean d := py_isOk_iff.mp ⟨b, h⟩
  have hsort : (Py.ofDoc d.stripNulls).sortKeys = Py.ofDoc d.stripNulls.sortKeys :=
    sortKeys_map (fun _ _ => decode_le_decode) (plain_names hclean)
  obtain ⟨-, henc⟩ := Py.canonicalize_eq_ok_iff.mp h
  rw [stripNulls_pyOfDoc, hsort] at henc
  have pieces : Every (fun l => Py.compact.number (Py.loadNumber l) = Doc.style.number l)
      (fun s => Py.compact.quote (decode s) = Doc.style.quote s)
      (fun k => Py.compact.quote (decode k) = Doc.style.quote k) d.stripNulls.sortKeys := by
    have hall := Every.and (every_sortKeys.mpr (Every.stripNulls hclean.1))
      (every_sortKeys.mpr hclean.2)
    refine Every.imp ?_ (fun s hs => (quoteWith_wideWellFormed hs.2).symm)
      (fun k hk => (quoteWith_wideWellFormed hk.2).symm) hall
    rintro _ ⟨⟨z, rfl, -⟩, -⟩
    rfl
  have hwrite : Py.compact.write (Py.ofDoc d.stripNulls.sortKeys)
      = Doc.style.write d.stripNulls.sortKeys :=
    Style.write_map TextHom.id (by rfl) (by rfl) pieces
  rw [hwrite] at henc
  exact (Utf8.encode_eq_some_iff.mp henc).2

/-! ## TypeScript, on a document -/

/-- The document TypeScript's stripping leaves. -/
def tsStripped (d : Doc) : Doc := (d.without Ts.protoName).stripNulls

theorem stripped_ofDoc : Ts.stripped (Ts.ofDoc d) = Ts.ofDoc (tsStripped d) := by
  have hwithout : (Ts.ofDoc d).without Ts.protoName = Ts.ofDoc (d.without Ts.protoName) :=
    without_map Function.injective_id Ts.parseNumber d
  unfold Ts.stripped tsStripped
  rw [hwithout]
  exact stripNulls_map _ _ _

/-- **TypeScript's bytes**, where the numbers are safe integers. -/
theorem ts_bytes {c : Bytes} (hd : UniqueNames d)
    (hsafe : Every Doc.SafeLit (fun _ => True) (fun _ => True) (tsStripped d))
    (h : Ts.canonicalize (Ts.ofDoc d) = .ok c) : c = Doc.bytes (tsStripped d).sortKeys := by
  have hsort : (Ts.ofDoc (tsStripped d)).sortKeys = Ts.ofDoc (tsStripped d).sortKeys :=
    sortKeys_map (fun _ _ _ _ => Iff.rfl) (every_of_forall (fun _ => trivial) (fun _ => trivial)
      (fun _ => trivial) _ : Every (fun _ => True) (fun _ => True) (fun _ => True) _)
  obtain ⟨-, hc⟩ := (Ts.canonicalize_eq_ok_iff (Ts.uniqueNames_ofDoc hd)).mp h
  rw [stripped_ofDoc, hsort, Ts.textEncode_write_ofDoc (every_sortKeys.mpr hsafe)] at hc
  exact hc

/-- **Byte parity.** Where both canonicalizers accept a document without
`__proto__` members, they return the same bytes. -/
theorem canonicalize_parity {d : Doc} (hd : UniqueNames d) (hproto : Lacks (lit "__proto__") d)
    {b c : Bytes} (hpy : Py.canonicalize (Py.ofDoc d) = .ok b)
    (hts : Ts.canonicalize (Ts.ofDoc d) = .ok c) : b = c := by
  have hstripped : tsStripped d = d.stripNulls := by
    have hlacks : Lacks Ts.protoName d := hproto
    unfold tsStripped
    rw [without_eq_self hlacks]
  have hclean : PyClean d := py_isOk_iff.mp ⟨b, hpy⟩
  have hsafe : Every Doc.SafeLit (fun _ => True) (fun _ => True) (tsStripped d) := by
    rw [hstripped]
    exact Every.imp (fun _ h => h) (fun _ h => h) (fun _ _ => trivial)
      (Every.stripNulls hclean.1)
  rw [py_bytes hpy, ts_bytes hd hsafe hts, hstripped]

/-- A document with a null member and a character beyond ASCII. -/
def sampleDoc : Doc :=
  .obj [(lit "b", .arr [.num (.int (-1)), .null]), (lit "n", .null), (lit "a", .str [0xE9])]

theorem canonicalize_parity_sample :
    ∃ b c, Py.canonicalize (Py.ofDoc sampleDoc) = .ok b
      ∧ Ts.canonicalize (Ts.ofDoc sampleDoc) = .ok c ∧ b = c := by
  have hpy : Py.canonicalize (Py.ofDoc sampleDoc)
      = .ok (lit "\x7b\"a\":\"" ++ [0xC3, 0xA9] ++ lit "\",\"b\":[-1,null]\x7d") := by
    decide
  have hts : Ts.canonicalize (Ts.ofDoc sampleDoc)
      = .ok (lit "\x7b\"a\":\"" ++ [0xC3, 0xA9] ++ lit "\",\"b\":[-1,null]\x7d") := by
    decide +kernel
  have hlacks : Lacks (lit "__proto__") sampleDoc := by
    unfold Lacks
    decide
  exact ⟨_, _, hpy, hts, canonicalize_parity (by decide) hlacks hpy hts⟩

/-! ## Acceptance -/

/-- Every number of the document is an integer. -/
def Integral (d : Doc) : Prop :=
  Every (fun l => ∃ z : ℤ, l = .int z) (fun _ => True) (fun _ => True) d

/-- A document TypeScript canonicalizes: safe integers and names without a
leading surrogate, in what its own stripping leaves. -/
def TsClean (d : Doc) : Prop := Every Doc.SafeLit (fun _ => True) Ts.NoHigh (tsStripped d)

theorem safeNum_parseNumber_iff {z : ℤ} :
    Ts.SafeNum (Ts.parseNumber (.int z)) ↔ Doc.SafeLit (.int z) := by
  constructor
  · intro h
    refine ⟨z, rfl, ?_⟩
    by_contra hlarge
    obtain ⟨z', hz', heq⟩ := Ts.safeNum_iff.mp h
    have hbound : ¬ (2 : ℚ) ^ 53 ≤ |(z' : ℚ)| := by
      rw [← Int.cast_abs, Int.abs_eq_natAbs]
      norm_cast
      omega
    -- a rounded large integer is an infinity, or still large
    change Double.ofRatio (decide (z < 0)) z.natAbs 1 = _ at heq
    rcases Double.ofRatio_large (decide (z < 0)) (n := z.natAbs) (by omega) with hinf | ⟨q, hq, hfin⟩
    · rw [hinf] at heq
      cases heq
    · rw [hfin, Double.fin.injEq] at heq
      refine hbound ?_
      rw [← heq, Double.signed]
      split_ifs
      · rw [abs_neg]
        exact hq.trans (le_abs_self q)
      · exact hq.trans (le_abs_self q)
  · rintro ⟨z', hz', hz⟩
    obtain rfl := Lit.int.inj hz'
    rw [Ts.parseNumber_int hz]
    exact Ts.safeNum_iff.mpr ⟨z, hz, rfl⟩

theorem ts_isOk_iff (hd : UniqueNames d) (hint : Integral d) :
    (∃ c, Ts.canonicalize (Ts.ofDoc d) = .ok c) ↔ TsClean d := by
  simp only [Ts.canonicalize_eq_ok_iff (Ts.uniqueNames_ofDoc hd), exists_and_left, exists_eq,
    and_true, stripped_ofDoc]
  unfold Ts.Accepted TsClean Ts.ofDoc
  rw [every_map]
  have hint' : Integral (tsStripped d) := Every.stripNulls (Every.without hint)
  constructor
  · intro h
    refine Every.imp ?_ (fun _ _ => trivial) (fun _ h => h.1) (Every.and h hint')
    rintro _ ⟨hn, z, rfl⟩
    exact safeNum_parseNumber_iff.mp hn
  · intro h
    refine Every.imp ?_ (fun _ _ => trivial) (fun _ h => h.1) (Every.and h hint')
    rintro _ ⟨hn, z, rfl⟩
    exact safeNum_parseNumber_iff.mpr hn

/-- **What Python accepts TypeScript accepts.** -/
theorem PyClean.tsClean (h : PyClean d) : TsClean d := by
  have hnames : Every Doc.SafeLit (fun _ => True) Ts.NoHigh d.stripNulls := by
    refine Every.imp (fun _ hl => hl.1) (fun _ _ => trivial) (fun k hk u hu hhigh => ?_)
      (Every.and (Every.stripNulls h.1) h.2)
    obtain ⟨c, hc, hcase⟩ := (exists_isHigh_iff k).mp ⟨u, hu, hhigh⟩
    have hbmp := hk.1 c hc
    have hpaired := hk.2 c hc
    omega
  unfold TsClean tsStripped
  rw [stripNulls_without]
  exact Every.without hnames

theorem error_iff_not_ok {ε α : Type} (x : Except ε α) :
    (∃ e, x = .error e) ↔ ¬ ∃ a, x = .ok a := by
  cases x <;> simp

/-- **When acceptance agrees.** On documents of integers, the canonicalizers
raise together exactly when Python finds nothing to refuse, or what
TypeScript serializes has an unsafe integer or a name with a leading
surrogate. How deep either language lets a document nest is not modelled. -/
theorem acceptance_parity_iff {d : Doc} (hd : UniqueNames d) (hint : Integral d) :
    ((∃ e, Py.canonicalize (Py.ofDoc d) = .error e)
        ↔ ∃ e, Ts.canonicalize (Ts.ofDoc d) = .error e)
      ↔ PyClean d ∨ ¬ TsClean d := by
  rw [error_iff_not_ok, error_iff_not_ok, py_isOk_iff, ts_isOk_iff hd hint, not_iff_not]
  constructor
  · intro h
    by_cases hts : TsClean d
    · exact Or.inl (h.mpr hts)
    · exact Or.inr hts
  · rintro (hpy | hts)
    · exact iff_of_true hpy hpy.tsClean
    · exact iff_of_false (fun hpy => hts hpy.tsClean) hts

/-- An integer in a list, among null members at two levels. -/
def countDoc (z : ℤ) : Doc :=
  .obj [(lit "items", .arr [.num (.int z), .null, .obj [(lit "none", .null)]]), (lit "n", .null)]

/-- An integer both take and one both refuse. -/
theorem acceptance_parity_sample :
    ((∃ e, Py.canonicalize (Py.ofDoc (countDoc 1)) = .error e)
        ↔ ∃ e, Ts.canonicalize (Ts.ofDoc (countDoc 1)) = .error e)
      ∧ ((∃ e, Py.canonicalize (Py.ofDoc (countDoc (2 ^ 53))) = .error e)
        ↔ ∃ e, Ts.canonicalize (Ts.ofDoc (countDoc (2 ^ 53))) = .error e) := by
  have hnames : (lit "items" : JsStr) ≠ lit "n" := by decide
  have hunique (z : ℤ) : UniqueNames (countDoc z) := by
    simp [countDoc, uniqueNames_obj, uniqueNames_arr, names, hnames]
  have hint (z : ℤ) : Integral (countDoc z) := by simp [Integral, countDoc, every_obj, every_arr]
  constructor
  · have htaken : Py.canonicalize (Py.ofDoc (countDoc 1))
        = .ok (lit "\x7b\"items\":[1,null,\x7b\x7d]\x7d") := by decide
    exact (acceptance_parity_iff (hunique 1) (hint 1)).mpr (.inl (py_isOk_iff.mp ⟨_, htaken⟩))
  · refine (acceptance_parity_iff (hunique _) (hint _)).mpr (.inr fun hclean => ?_)
    -- a clean document would be canonicalized
    obtain ⟨c, hc⟩ := (ts_isOk_iff (hunique _) (hint _)).mpr hclean
    have hrefused : (Ts.canonicalize (Ts.ofDoc (countDoc (2 ^ 53)))).isOk = false := by
      decide +kernel
    rw [hc] at hrefused
    cases hrefused

/-- **Acceptance does not agree**: a null member named by one supplementary
character is refused by Python and dropped by TypeScript. -/
theorem acceptance_parity_fails :
    ¬ ∀ d : Doc, UniqueNames d → Integral d →
      ((∃ e, Py.canonicalize (Py.ofDoc d) = .error e)
        ↔ ∃ e, Ts.canonicalize (Ts.ofDoc d) = .error e) := by
  intro h
  have hts : Ts.canonicalize (Ts.ofDoc (.obj [([0xD83D, 0xDE00], .null)])) = .ok (lit "\x7b\x7d") :=
    rfl
  have hpy : Py.canonicalize (Py.ofDoc (.obj [([0xD83D, 0xDE00], .null)]))
      = .error (.canonicalizationError (.nonBmpKey [0x1F600])) := rfl
  obtain ⟨e, he⟩ := (h (.obj [([0xD83D, 0xDE00], .null)]) (by decide) (by simp [Integral])).mp
    ⟨_, hpy⟩
  rw [hts] at he
  cases he

end Parity

end OpenTerms
