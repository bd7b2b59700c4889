import OpenTerms.Common.JsonRoundTrip
import OpenTerms.Common.JsonWithout
import OpenTerms.Ts.Canonical

/-!
# What the TypeScript canonicalizer accepts and writes

`canonicalize_eq_ok_iff` states it: names without a leading surrogate and
safe integers, in what is left once nulls and `__proto__` members are
gone (`stripNulls_eq`). The bytes are those of the canonical text of a
document (`write_compact`), so equal bytes are equal trees.
-/

namespace OpenTerms

namespace Ts

open Json Utf16

/-! ## Stripping -/

/-- What `stripNulls` leaves: `__proto__` members are lost with the
nulls. -/
def stripped (v : JsVal) : JsVal := (v.without protoName).stripNulls

theorem stripItems_eq (xs : List JsVal) : stripItems xs = xs.map stripNulls := by
  induction xs with
  | nil => rfl
  | cons x xs ih => rw [stripItems, ih]; rfl

theorem stripMembers_null (k : JsStr) (ms out : JsObject) :
    stripMembers ((k, .null) :: ms) out = stripMembers ms out := rfl

theorem stripMembers_cons {k : JsStr} {v : JsVal} (hv : v ≠ .null) (ms out : JsObject) :
    stripMembers ((k, v) :: ms) out = stripMembers ms (assign k (stripNulls v) out) := by
  cases v with
  | null => exact absurd rfl hv
  | bool _ | num _ | str _ | arr _ | obj _ => rfl

/-- **Assignment into a fresh object** keeps the members in order, and
drops `__proto__`. -/
theorem stripNulls_eq {v : JsVal} (hv : UniqueNames v) : stripNulls v = stripped v := by
  unfold stripped
  induction v using treeInduct with
  | null => rfl
  | bool b => rfl
  | num x => rfl
  | str s => rfl
  | arr xs ih =>
    rw [uniqueNames_arr] at hv
    rw [stripNulls, stripItems_eq, without_arr, stripNulls_arr, List.map_map]
    exact congrArg _ (List.map_congr_left fun x hx => ih x hx (hv x hx))
  | obj ms ih =>
    rw [uniqueNames_obj] at hv
    have members (out : JsObject) (hout : (names (out ++ ms)).Nodup) :
        stripMembers ms out
          = out ++ (ms.filterMap (withoutMember protoName)).filterMap stripMember := by
      induction ms generalizing out with
      | nil => exact (List.append_nil _).symm
      | cons m ms ihm =>
        obtain ⟨k, v⟩ := m
        have hk : k ∉ names out := by
          have hdisj := (List.nodup_append.mp (by simpa [names] using hout)).2.2
          exact fun hmem => hdisj k (by simpa [names] using hmem) k (by simp) rfl
        have hrest : (names (out ++ ms)).Nodup :=
          hout.sublist (((List.sublist_cons_self (k, v) ms).append_left out).map Prod.fst)
        have ih' : ∀ n ∈ ms, UniqueNames n.2 → stripNulls n.2 = (n.2.without protoName).stripNulls :=
          fun n hn => ih n (List.mem_cons_of_mem _ hn)
        have hv' : (names ms).Nodup ∧ ∀ n ∈ ms, UniqueNames n.2 :=
          ⟨(List.nodup_cons.mp hv.1).2, fun n hn => hv.2 n (List.mem_cons_of_mem _ hn)⟩
        by_cases hnull : v = .null
        · subst hnull
          rw [stripMembers_null, ihm ih' hv' out hrest, List.filterMap_cons, withoutMember]
          split_ifs <;> rfl
        have hval := ih (k, v) List.mem_cons_self (hv.2 (k, v) List.mem_cons_self)
        by_cases hproto : k = protoName
        · subst hproto
          have hgone : withoutMember protoName (protoName, v) = none := if_pos rfl
          have hsame : assign protoName (stripNulls v) out = out := if_pos rfl
          rw [stripMembers_cons hnull, hsame, ihm ih' hv' out hrest, List.filterMap_cons, hgone]
        · have hstay : withoutMember protoName (k, v) = some (k, v.without protoName) :=
            if_neg hproto
          have hset : assign k (stripNulls v) out
              = out ++ [(k, (v.without protoName).stripNulls)] := by
            rw [assign, if_neg hproto, set_of_notMem hk, hval]
          have hstrip : stripMember (k, v.without protoName)
              = some (k, (v.without protoName).stripNulls) := by
            refine stripMember_eq_some_iff.mpr ⟨?_, rfl⟩
            cases v <;> simp_all
          have hnodup : (names ((out ++ [(k, (v.without protoName).stripNulls)]) ++ ms)).Nodup := by
            simpa [names] using hout
          rw [stripMembers_cons hnull, hset, ihm ih' hv' _ hnodup, List.filterMap_cons, hstay]
          simp only [List.filterMap_cons, hstrip, List.append_assoc, List.singleton_append]
    rw [stripNulls, members [] hv.1, without_obj, stripNulls_obj, List.nil_append]

/-! ## Acceptance -/

/-- A number `canonicalSerialize` writes. -/
def SafeNum (x : Double) : Prop := x.isSafeInteger = true

/-- A member name `assertBmpKey` lets through. -/
def NoHigh (k : JsStr) : Prop := ∀ u ∈ k, ¬ IsHigh u.val

/-- What `canonicalSerialize` lets through. -/
def Accepted (v : JsVal) : Prop := Every SafeNum (fun _ => True) NoHigh v

/-- The text `canonicalSerialize` writes. -/
def compact : Style JsStr Double 0x10000 where
  quote := quoteJson
  number := numberToString
  comma := lit ","
  colon := lit ":"

theorem safeNum_iff {x : Double} : SafeNum x ↔ ∃ z : ℤ, z.natAbs ≤ 2 ^ 53 - 1 ∧ x = .fin z := by
  unfold SafeNum
  constructor
  · intro h
    cases x with
    | nan => cases h
    | inf neg => cases h
    | fin q =>
      simp only [Double.isSafeInteger, Double.rat?, Bool.and_eq_true, beq_iff_eq,
        decide_eq_true_eq] at h
      exact ⟨q.num, h.2, congrArg Double.fin (Rat.coe_int_num_of_den_eq_one h.1).symm⟩
  · rintro ⟨z, hz, rfl⟩
    simp only [Double.isSafeInteger, Double.rat?, Rat.den_intCast, Rat.num_intCast,
      Bool.and_eq_true, beq_self_eq_true, true_and]
    exact decide_eq_true hz

theorem serializeNumber_eq_ok_iff {x : Double} {t : JsStr} :
    serializeNumber x = .ok t ↔ SafeNum x ∧ t = numberToString x := by
  constructor
  · intro h
    unfold serializeNumber at h
    split_ifs at h with h1 h2 h3 h4
    refine ⟨?_, (Except.ok.inj h).symm⟩
    unfold SafeNum
    simpa using h4
  · rintro ⟨h, rfl⟩
    obtain ⟨z, hz, rfl⟩ := safeNum_iff.mp h
    have hint : Double.isInteger (.fin z) = true := by simp [Double.isInteger, Double.rat?]
    have hsafe : Double.isSafeInteger (.fin z) = true := h
    simp only [serializeNumber, reduceCtorEq, if_false, Double.rat?, Option.isNone_some, hint,
      hsafe, Bool.not_true, Bool.false_eq_true]

theorem assertBmpKey_eq_ok_iff {k : JsStr} : assertBmpKey k = .ok () ↔ NoHigh k := by
  unfold assertBmpKey NoHigh
  split_ifs with h
  · simp only [false_iff, not_forall]
    obtain ⟨u, hu, hhigh⟩ := List.any_eq_true.mp h
    exact ⟨u, hu, fun hnot => hnot (by simpa using hhigh)⟩
  · simp only [true_iff]
    exact fun u hu hhigh => h (List.any_eq_true.mpr ⟨u, hu, by simpa using hhigh⟩)

/-- **What `canonicalSerialize` accepts and writes.** By induction on the
tree. -/
theorem serializeSorted_eq_ok_iff {v : JsVal} {t : JsStr} :
    serializeSorted v = .ok t ↔ Accepted v ∧ t = compact.write v := by
  unfold Accepted
  induction v using treeInduct generalizing t with
  | null => simp [serializeSorted, eq_comm]
  | bool b => cases b <;> simp [serializeSorted, eq_comm]
  | num x => exact serializeNumber_eq_ok_iff
  | str s => simp [serializeSorted, compact, eq_comm]
  | arr xs ih =>
    have items (ts : List JsStr) : serializeItems xs = .ok ts
        ↔ (∀ x ∈ xs, Accepted x) ∧ ts = xs.map compact.write := by
      unfold Accepted
      induction xs generalizing ts with
      | nil => simp [serializeItems, eq_comm]
      | cons x xs ihx =>
        rw [serializeItems, bind_eq_ok_iff]
        simp only [bind_eq_ok_iff, Except.ok.injEq, ih x List.mem_cons_self,
          ihx fun y hy => ih y (List.mem_cons_of_mem _ hy), List.forall_mem_cons, List.map_cons]
        constructor
        · rintro ⟨_, ⟨hx, rfl⟩, _, ⟨hxs, rfl⟩, rfl⟩
          exact ⟨⟨hx, hxs⟩, rfl⟩
        · rintro ⟨⟨hx, hxs⟩, rfl⟩
          exact ⟨_, ⟨hx, rfl⟩, _, ⟨hxs, rfl⟩, rfl⟩
    rw [serializeSorted, every_arr, Style.write_arr, bind_eq_ok_iff]
    simp only [items, Except.ok.injEq, Accepted]
    constructor
    · rintro ⟨_, ⟨hxs, rfl⟩, rfl⟩
      exact ⟨hxs, rfl⟩
    · rintro ⟨hxs, rfl⟩
      exact ⟨_, ⟨hxs, rfl⟩, rfl⟩
  | obj ms ih =>
    have members (ts : List JsStr) : serializeMembers ms = .ok ts
        ↔ (∀ m ∈ ms, NoHigh m.1 ∧ Accepted m.2) ∧ ts = ms.map compact.writeMember := by
      unfold Accepted
      induction ms generalizing ts with
      | nil => simp [serializeMembers, eq_comm]
      | cons m ms ihm =>
        obtain ⟨k, v⟩ := m
        rw [serializeMembers, check_eq_ok_iff, assertBmpKey_eq_ok_iff]
        simp only [bind_eq_ok_iff, Except.ok.injEq, ih (k, v) List.mem_cons_self,
          ihm fun n hn => ih n (List.mem_cons_of_mem _ hn), List.forall_mem_cons, List.map_cons]
        constructor
        · rintro ⟨hk, _, ⟨hv, rfl⟩, _, ⟨hms, rfl⟩, rfl⟩
          exact ⟨⟨⟨hk, hv⟩, hms⟩, rfl⟩
        · rintro ⟨⟨⟨hk, hv⟩, hms⟩, rfl⟩
          exact ⟨hk, _, ⟨hv, rfl⟩, _, ⟨hms, rfl⟩, rfl⟩
    rw [serializeSorted, every_obj, Style.write_obj, bind_eq_ok_iff]
    simp only [members, Except.ok.injEq, Accepted]
    constructor
    · rintro ⟨_, ⟨hms, rfl⟩, rfl⟩
      exact ⟨hms, rfl⟩
    · rintro ⟨hms, rfl⟩
      exact ⟨_, ⟨hms, rfl⟩, rfl⟩

/-- **When `canonicalize` accepts, and what it returns.** -/
theorem canonicalize_eq_ok_iff {v : JsVal} {bytes : Bytes} (hv : UniqueNames v) :
    canonicalize v = .ok bytes
      ↔ Accepted (stripped v) ∧ bytes = textEncode (compact.write (stripped v).sortKeys) := by
  unfold canonicalize canonicalSerialize
  rw [bind_eq_ok_iff, stripNulls_eq hv]
  simp only [serializeSorted_eq_ok_iff, Except.ok.injEq]
  constructor
  · rintro ⟨_, ⟨h, rfl⟩, rfl⟩
    exact ⟨every_sortKeys.mp h, rfl⟩
  · rintro ⟨h, rfl⟩
    exact ⟨_, ⟨every_sortKeys.mpr h, rfl⟩, rfl⟩

/-! ## The bytes as a document's -/

theorem parseNumber_int {z : ℤ} (hz : z.natAbs ≤ 2 ^ 53 - 1) : parseNumber (.int z) = .fin z :=
  Double.ofInt_eq_fin (by omega)

/-- The text of a parsed document of safe integers is its canonical
text. -/
theorem write_ofDoc {d : Doc} (hd : Every Doc.SafeLit (fun _ => True) (fun _ => True) d) :
    compact.write (ofDoc d) = encode (Doc.style.write d) := by
  have pieces : Every (fun l => compact.number (parseNumber l) = encode (Doc.style.number l))
      (fun s => compact.quote (id s) = encode (Doc.style.quote s))
      (fun k => compact.quote (id k) = encode (Doc.style.quote k)) d := by
    refine Every.imp ?_ (fun _ _ => rfl) (fun _ _ => rfl) hd
    rintro _ ⟨z, rfl, hz⟩
    change numberToString (parseNumber (.int z)) = encode (decimal z)
    rw [parseNumber_int hz, numberToString_intCast hz]
    exact (encode_ofChars fun _ => decimalChars_lt).symm
  exact Style.write_map TextHom.encode (by rfl) (by rfl) pieces

theorem textEncode_write_ofDoc {d : Doc} (hd : Every Doc.SafeLit (fun _ => True) (fun _ => True) d) :
    textEncode (compact.write (ofDoc d)) = Doc.bytes d := by
  rw [write_ofDoc hd, textEncode_encode (Doc.write_wellFormed d)]
  rfl

/-- The literal of a safe number. -/
def toLit (x : Double) : Lit := .int ((x.rat?.getD 0).num)

/-- The document an accepted value was parsed from. -/
def toDoc (v : JsVal) : Doc := v.map id toLit

theorem toLit_safe {x : Double} (h : SafeNum x) :
    Doc.SafeLit (toLit x) ∧ parseNumber (toLit x) = x := by
  obtain ⟨z, hz, rfl⟩ := safeNum_iff.mp h
  have hlit : toLit (.fin z) = .int z := by
    simp only [toLit, Double.rat?, Option.getD_some, Rat.num_intCast]
  rw [hlit]
  exact ⟨⟨z, rfl, hz⟩, parseNumber_int hz⟩

/-- Every number is safe, the strings and names being any. -/
def SafeNumbers (v : JsVal) : Prop := Every SafeNum (fun _ => True) (fun _ => True) v

theorem Accepted.safeNumbers {v : JsVal} (h : Accepted v) : SafeNumbers v :=
  Every.imp (fun _ h => h) (fun _ h => h) (fun _ _ => trivial) h

theorem ofDoc_toDoc {v : JsVal} (hv : SafeNumbers v) : ofDoc (toDoc v) = v := by
  unfold ofDoc toDoc
  rw [map_map]
  exact Every.map_eq_self
    (Every.imp (fun x hx => (toLit_safe hx).2) (fun _ _ => rfl) (fun _ _ => rfl) hv)

theorem safeLit_toDoc {v : JsVal} (hv : SafeNumbers v) :
    Every Doc.SafeLit (fun _ => True) (fun _ => True) (toDoc v) :=
  every_map.mpr (Every.imp (fun _ hx => (toLit_safe hx).1) (fun _ _ => trivial)
    (fun _ _ => trivial) hv)

/-- Canonical bytes are those of the stripped and sorted document. -/
theorem bytes_eq_docBytes {v : JsVal} {bytes : Bytes} (hv : UniqueNames v)
    (h : canonicalize v = .ok bytes) : bytes = Doc.bytes (toDoc (stripped v).sortKeys) := by
  obtain ⟨hacc, rfl⟩ := (canonicalize_eq_ok_iff hv).mp h
  have hacc' : SafeNumbers (stripped v).sortKeys := every_sortKeys.mpr (Accepted.safeNumbers hacc)
  rw [← textEncode_write_ofDoc (safeLit_toDoc hacc'), ofDoc_toDoc hacc']

/-- **Equal bytes, equal trees**: up to nulls, member order and
`__proto__`. -/
theorem canonicalize_inj_iff {v w : JsVal} {b c : Bytes} (hv : UniqueNames v)
    (hw : UniqueNames w) (hb : canonicalize v = .ok b) (hc : canonicalize w = .ok c) :
    b = c ↔ Same (stripped v) (stripped w) := by
  have hv' : UniqueNames (stripped v) := hv.without.stripNulls
  have hw' : UniqueNames (stripped w) := hw.without.stripNulls
  rw [same_iff_sortKeys_eq hv' hw']
  obtain ⟨haccv, hbytes⟩ := (canonicalize_eq_ok_iff hv).mp hb
  obtain ⟨haccw, hbytes'⟩ := (canonicalize_eq_ok_iff hw).mp hc
  constructor
  · intro heq
    rw [bytes_eq_docBytes hv hb, bytes_eq_docBytes hw hc] at heq
    have hdoc := Doc.bytes_injective (hv'.sortKeys.map _ Function.injective_id)
      (hw'.sortKeys.map _ Function.injective_id) heq
    have hsafev : SafeNumbers (stripped v).sortKeys := every_sortKeys.mpr haccv.safeNumbers
    have hsafew : SafeNumbers (stripped w).sortKeys := every_sortKeys.mpr haccw.safeNumbers
    rw [← ofDoc_toDoc hsafev, ← ofDoc_toDoc hsafew]
    exact congrArg ofDoc hdoc
  · intro heq
    rw [hbytes, hbytes', heq]

end Ts

end OpenTerms
