import OpenTerms.Py.CanonicalText
import OpenTerms.Py.FloatText
import OpenTerms.Py.Signing

/-!
# What `json.dumps` writes, `json.loads` reads

The default writer escapes every code unit outside ASCII, so any string a
JSON text can carry comes back, lone surrogates included. An integer
comes back too, and all that is signed of a receipt is integers
(`loads_dumps`); a float comes back as some float
(`loads_dumps_compliant`), which is enough to tell it from an integer.
-/

namespace OpenTerms

namespace Py

open Json Utf16 Doc

/-- A number that is an integer. -/
def IsInt : PyNum → Prop
  | .int _ => True
  | _ => False

/-- A string some JSON text denotes: no pair of surrogates is left
unjoined. -/
def Decoded (s : PyStr) : Prop := decode (encode s) = s

instance : DecidablePred Decoded := fun s => decEq (decode (encode s)) s

theorem decoded_decode (us : JsStr) : Decoded (decode us) := by
  unfold Decoded
  rw [encode_decode]

theorem decoded_ofChars {cs : List Char} (h : ∀ c ∈ cs, c.toNat < 0x80) : Decoded (ofChars cs) := by
  unfold Decoded
  rw [encode_ofChars h, decode_ofChars h]

/-! ## Strings -/

theorem prepend_prepend (u : CodeUnit) (us : JsStr) (r : Option (JsStr × PyStr)) :
    prepend [u] (prepend us r) = prepend (u :: us) r := by
  cases r <;> rfl

/-- Escaped code units scan back. -/
theorem scanString_escapes (us : JsStr) (cs : PyStr) :
    scanString ((us.flatMap fun u => ofChars (unicodeEscape u.val)) ++ cs)
      = prepend us (scanString cs) := by
  induction us with
  | nil => rw [List.flatMap_nil, List.nil_append]; cases scanString cs <;> rfl
  | cons u us ih =>
    have hu : (Fin.ofNat 0x10000 u.val : CodeUnit) = u := Fin.ext (Nat.mod_eq_of_lt u.isLt)
    rw [List.flatMap_cons, List.append_assoc, scanString_unicodeEscape u.isLt, ih, hu,
      prepend_prepend]

theorem wideReadable_ascii : WideReadable wideAscii := by
  intro c hq hb hc cs
  unfold wideAscii
  split_ifs
  · exact scanString_raw hq hb hc cs
  · exact scanString_escapes _ cs

/-! ## Values -/

/-- The default writer, over documents. -/
def docSpaced : Style JsStr Lit 0x110000 where
  quote us := quoteWith wideAscii (decode us)
  number := Lit.text
  comma := lit ", "
  colon := lit ": "

theorem readable_docSpaced : Readable docSpaced where
  quote := quote_readable wideReadable_ascii
  number _ := rfl
  comma := ⟨[chr ' '], rfl, List.forall_mem_singleton.mpr rfl⟩
  colon := ⟨[chr ' '], rfl, List.forall_mem_singleton.mpr rfl⟩

/-- **`json.loads` undoes `json.dumps`** on data of integers. -/
theorem loads_dumps {v : PyVal} (hu : UniqueNames v) (hv : Every IsInt Decoded Decoded v) :
    loads (dumps v) = some v := by
  have hback : ofDoc (toDoc v) = v := by
    unfold ofDoc toDoc
    rw [map_map]
    refine Every.map_eq_self (Every.imp (fun n hn => ?_) (fun _ h => h) (fun _ h => h) hv)
    cases n with
    | int z => rfl
    | float x => exact hn.elim
    | negZero => exact hn.elim
  have pieces : Every (fun n => docSpaced.number (toLit n) = spaced.number n)
      (fun s => docSpaced.quote (encode s) = spaced.quote s)
      (fun k => docSpaced.quote (encode k) = spaced.quote k) v := by
    have quote {s : PyStr} (h : Decoded s) : docSpaced.quote (encode s) = spaced.quote s := by
      change quoteWith wideAscii (decode (encode s)) = quoteWith wideAscii s
      rw [h]
    refine Every.imp (fun n hn => ?_) (fun s h => quote h) (fun k h => quote h) hv
    cases n with
    | int z => rfl
    | float x => exact hn.elim
    | negZero => exact hn.elim
  have hwrite : docSpaced.write (toDoc v) = spaced.write v :=
    Style.write_map TextHom.id (by rfl) (by rfl) pieces
  have hunique : UniqueNames (toDoc v) := by
    refine UniqueNames.of_map (f := decode) (g := loadNumber) ?_
    change UniqueNames (ofDoc _)
    rwa [hback]
  unfold loads dumps
  rw [← hwrite, Doc.parse_write readable_docSpaced hunique, Option.map_some, hback]

/-! ## Floats -/

/-- The literal a number is read as where it was written. -/
def readLit : PyNum → Lit
  | .int z => .int z
  | x => ((scanNumber (reprNum x)).map Prod.fst).getD (.int 0)

/-- The number that comes back. -/
def reread (x : PyNum) : PyNum := loadNumber (readLit x)

/-- A number that JSON has and that is no integer has a fraction or an
exponent. -/
theorem isDec_reprNum {x : PyNum} (hx : JsonCompliant x) (hint : ¬ IsInt x) : IsDec (reprNum x) := by
  cases x with
  | int z => exact absurd trivial hint
  | negZero =>
    have hzero : ∀ c ∈ ['0'], IsDigit c.toNat := by simp [IsDigit]
    exact isDec_fixed (.inr rfl) ⟨hzero, '0', [], rfl, fun _ => rfl⟩ (List.cons_ne_nil _ _) hzero
  | float x =>
    cases x with
    | fin q => exact isDec_reprFloat q
    | nan => cases hx
    | inf neg => cases hx

theorem readLit_dec {x : PyNum} (hx : JsonCompliant x) (hint : ¬ IsInt x) :
    ∃ neg m e, readLit x = .dec neg m e
      ∧ ∀ rest, Stops rest → scanNumber (reprNum x ++ rest) = some (.dec neg m e, rest) := by
  obtain ⟨neg, m, e, hscan⟩ := isDec_reprNum hx hint
  refine ⟨neg, m, e, ?_, hscan⟩
  have hself := hscan [] stops_nil
  rw [List.append_nil] at hself
  cases x with
  | int z => exact absurd trivial hint
  | float x =>
    change ((scanNumber (reprNum (.float x))).map Prod.fst).getD (.int 0) = _
    rw [hself]
    rfl
  | negZero =>
    change ((scanNumber (reprNum .negZero)).map Prod.fst).getD (.int 0) = _
    rw [hself]
    rfl

/-- **Only an integer is read as one.** -/
theorem safeNum_reread_iff {x : PyNum} (hx : JsonCompliant x) :
    SafeNum (reread x) ↔ SafeNum x := by
  by_cases hint : IsInt x
  · cases x with
    | int z => exact Iff.rfl
    | float x => exact hint.elim
    | negZero => exact hint.elim
  · obtain ⟨neg, m, e, hlit, -⟩ := readLit_dec hx hint
    refine iff_of_false (fun h => ?_) fun h => hint ?_
    · unfold reread loadNumber at h
      rw [hlit] at h
      dsimp only at h
      split_ifs at h <;> exact h
    · cases x with
      | int z => trivial
      | float x => exact h.elim
      | negZero => exact h.elim

/-- The default writer, its strings as code units. -/
def unitSpaced : Style JsStr PyNum 0x110000 where
  quote us := quoteWith wideAscii (decode us)
  number := dumpsNumber
  comma := lit ", "
  colon := lit ": "

theorem dumpsNumber_eq {x : PyNum} (hx : JsonCompliant x) : dumpsNumber x = reprNum x := by
  cases x with
  | float x => cases x <;> first | rfl | cases hx
  | _ => rfl

theorem reads_unitSpaced : Reads unitSpaced JsonCompliant readLit where
  quote := quote_readable wideReadable_ascii
  scanNumber x hx rest hrest := by
    change scanNumber (dumpsNumber x ++ rest) = _
    rw [dumpsNumber_eq hx]
    by_cases hint : IsInt x
    · cases x with
      | int z => exact scanNumber_text (.int z) hrest
      | float x => exact hint.elim
      | negZero => exact hint.elim
    · obtain ⟨neg, m, e, hlit, hscan⟩ := readLit_dec hx hint
      rw [hscan rest hrest, hlit]
  comma := ⟨[chr ' '], rfl, List.forall_mem_singleton.mpr rfl⟩
  colon := ⟨[chr ' '], rfl, List.forall_mem_singleton.mpr rfl⟩

/-- **`json.loads` undoes `json.dumps`** on data JSON has, up to what its
floats are. -/
theorem loads_dumps_compliant {v : PyVal} (hu : UniqueNames v)
    (hv : Every JsonCompliant Decoded Decoded v) : loads (dumps v) = some (v.map id reread) := by
  have hcompliant := Every.imp (fun _ h => h) (fun _ _ => trivial) (fun _ _ => trivial) hv
  have pieces : Every (fun n => unitSpaced.number (id n) = spaced.number n)
      (fun s => unitSpaced.quote (encode s) = spaced.quote s)
      (fun k => unitSpaced.quote (encode k) = spaced.quote k) v := by
    have quote {s : PyStr} (h : Decoded s) : unitSpaced.quote (encode s) = spaced.quote s := by
      change quoteWith wideAscii (decode (encode s)) = quoteWith wideAscii s
      rw [h]
    exact Every.imp (fun _ _ => rfl) (fun s h => quote h) (fun k h => quote h) hv
  have hwrite : unitSpaced.write (v.map encode id) = spaced.write v :=
    Style.write_map TextHom.id (by rfl) (by rfl) pieces
  have hdecode : (v.map encode id).map decode id = v := by
    rw [map_map]
    exact Every.map_eq_self (Every.imp (fun _ _ => rfl) (fun _ h => h) (fun _ h => h) hv)
  have hunique : UniqueNames (v.map encode id) :=
    UniqueNames.of_map (f := decode) (g := id) (by rwa [hdecode])
  unfold loads dumps
  rw [← hwrite, Doc.parse_write_reads reads_unitSpaced hunique (every_map.mpr hcompliant),
    Option.map_some]
  have hread : ((v.map encode id).map id readLit).map decode loadNumber
      = ((v.map encode id).map decode id).map id reread := by
    rw [map_map, map_map, map_map, map_map]
    rfl
  rw [ofDoc, hread, hdecode]

end Py

end OpenTerms
