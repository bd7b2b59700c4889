import OpenTerms.Common.JsonCarry
import OpenTerms.Common.JsonGraft
import OpenTerms.Py.RoundTrip

/-!
# Values that hold tuples

A record of a call's arguments holds the tuple its `*args` are. Neither
`_validate` nor `strip_nulls` knows tuples: the one passes over it and the
other keeps it as it is, while `json.dumps` writes it as it writes a list.
The functions of `receipts/` are modelled here again, on such values;
on those that hold no tuple they are the ones of the other modules.
-/

namespace OpenTerms

namespace Py

open Json Utf16

/-- What is no string, dict or list: a number, or a tuple, of JSON-native
values. -/
inductive Atom where
  | num (x : PyNum)
  | tuple (items : List PyVal)
  deriving DecidableEq

/-- A JSON-native value, except that it may hold tuples. -/
abbrev PyObj := Json PyStr Atom

abbrev ObjDict := List (PyStr × PyObj)

/-- What `_validate` sees of a leaf. It returns of a tuple as it does of a
small integer. -/
def Atom.seen : Atom → PyNum
  | .num x => x
  | .tuple _ => .int 0

/-- What `json.dumps` writes for a leaf. -/
def Atom.written : Atom → PyVal
  | .num x => .num x
  | .tuple items => .arr items

/-- The value with its tuples as lists, which is what `json.dumps` makes of
it. -/
def untuple (v : PyObj) : PyVal := v.graft Atom.written

/-- The members with their tuples as lists. -/
def untupleMembers (ms : ObjDict) : PyDict := ms.map (graftMember Atom.written)

/-- A value that holds no tuple. -/
def ofVal (v : PyVal) : PyObj := v.map id Atom.num

/-! ## `receipts/canonical.py` -/

namespace Obj

/-- `_validate`. -/
def validate (v : PyObj) : Except PyErr Unit := Py.validate (v.map id Atom.seen)

/-- `canonicalize`. -/
def canonicalize (payload : PyObj) : Except PyErr Bytes := do
  validate payload
  let canonicalStr ← dumpsCanonical (untuple payload.stripNulls)
  encodeUtf8 canonicalStr

def canonicalHash (crypto : Crypto) (payload : PyObj) : Except PyErr PyStr := do
  let bytes ← canonicalize payload
  .ok (hex (crypto.sha256 bytes))

def signingInput (crypto : Crypto) (payload : PyObj) : Except PyErr Bytes := do
  let bytes ← canonicalize payload
  .ok (domainSeparator ++ crypto.sha256 bytes)

/-- What `is not None` keeps. -/
def isNotNone (v : PyObj) : Bool := v ≠ .null

/-- Copies the named members, raising a `ValueError` for an absent one. -/
def requireKeys (what : String) (receipt : ObjDict) (ks : List PyStr) (payload : ObjDict) :
    Except PyErr ObjDict :=
  match copyRequired receipt ks payload with
  | .ok payload => .ok payload
  | .error k => .error (.valueError (lit what ++ k))

/-- `build_payload`. -/
def buildPayload (receipt : ObjDict) : Except PyErr ObjDict := do
  let payload ← requireKeys "Missing required payload field: " receipt payloadKeysRequired []
  let payload ← requireKeys "Missing required signed envelope field: " receipt
    payloadKeysSignedEnvelope payload
  .ok (copyPresent isNotNone receipt payloadKeysOptional payload)

/-! ## `receipts/signing.py` -/

/-- `sign_receipt`. -/
def signReceipt [Ucd] (crypto : Crypto) (payload : ObjDict) (privateKey : PrivateKeyInput)
    (keyId : PyStr) : Except PyErr ObjDict := do
  raiseWhen (keyId = []) (.valueError (lit "key_id must be a non-empty string"))
  let leaked := (names payload).filter (· ∈ metadataKeys)
  raiseWhen (leaked ≠ []) (.valueError (lit "payload must not contain signature metadata keys: "
    ++ reprSorted leaked))
  let unknown := (names payload).filter (· ∉ signedKeys)
  raiseWhen (unknown ≠ []) (.valueError (lit "payload contains unknown keys: "
    ++ reprSorted unknown))
  let sk ← coercePrivateKey privateKey
  let message ← signingInput crypto (.obj payload)
  let signature := crypto.sign sk message
  let hash ← canonicalHash crypto (.obj payload)
  let signed := set (lit "canonical_hash") (.str hash) payload
  let signed := set (lit "signature") (.str (b64urlEncode signature)) signed
  .ok (set (lit "key_id") (.str keyId) signed)

/-- `json.dumps`, with its defaults. -/
def dumps (v : PyObj) : PyStr := Py.dumps (untuple v)

end Obj

/-! ## Values without tuples -/

theorem untuple_obj (ms : ObjDict) : untuple (.obj ms) = .obj (untupleMembers ms) := graft_obj _ ms

theorem untuple_ofVal (v : PyVal) : untuple (ofVal v) = v :=
  (graft_map Atom.num v).trans (graft_num_self v)

theorem seen_ofVal (v : PyVal) : (ofVal v).map id Atom.seen = v := by
  unfold ofVal
  rw [map_map]
  exact Every.map_eq_self (every_of_forall (fun _ => rfl) (fun _ => rfl) (fun _ => rfl) v)

/-- **Where there is no tuple** the canonicalizer is the one for JSON-native
values. -/
theorem canonicalize_ofVal (v : PyVal) : Obj.canonicalize (ofVal v) = canonicalize v := by
  unfold Obj.canonicalize Obj.validate canonicalize
  rw [seen_ofVal, ofVal, stripNulls_map, ← ofVal, untuple_ofVal]

/-! ## Acceptance -/

/-- What a leaf must be for `_validate` and for `allow_nan=False`. -/
def Atom.Accepted : Atom → Prop
  | .num x => SafeNum x
  | .tuple items => ∀ v ∈ items, Every JsonCompliant (fun _ => True) (fun _ => True) v

/-- What `_validate` and `allow_nan=False` let through. -/
def Accepted (v : PyObj) : Prop :=
  Every (fun a => SafeNum a.seen) (fun _ => True) BmpName v
    ∧ Every Atom.Accepted (fun _ => True) (fun _ => True) v.stripNulls

theorem obj_validate_eq_ok_iff {v : PyObj} :
    Obj.validate v = .ok () ↔ Every (fun a => SafeNum a.seen) (fun _ => True) BmpName v := by
  unfold Obj.validate
  rw [validate_eq_ok_iff, Validated, every_map]
  rfl

/-- A safe number is one JSON has. -/
theorem jsonCompliant_of_safeNum {x : PyNum} (h : SafeNum x) : JsonCompliant x := by
  cases x with
  | int z => trivial
  | float x => exact h.elim
  | negZero => exact h.elim

/-- **When `canonicalize` accepts, and what it returns.** -/
theorem obj_canonicalize_eq_ok_iff {v : PyObj} {bytes : Bytes} :
    Obj.canonicalize v = .ok bytes
      ↔ Accepted v ∧ Utf8.encode (compact.write (untuple v.stripNulls).sortKeys) = some bytes := by
  unfold Obj.canonicalize
  rw [check_eq_ok_iff, obj_validate_eq_ok_iff, Accepted, and_assoc]
  refine and_congr_right fun hv => ?_
  have hstrip := Every.stripNulls hv
  have hcompliant : Every JsonCompliant (fun _ => True) (fun _ => True) (untuple v.stripNulls)
      ↔ Every Atom.Accepted (fun _ => True) (fun _ => True) v.stripNulls := by
    rw [untuple, every_graft]
    constructor
    · intro h
      refine Every.imp (fun a ha => ?_) (fun _ _ => trivial) (fun _ _ => trivial) (Every.and hstrip h)
      cases a with
      | num x => exact ha.1
      | tuple items => exact every_arr.mp ha.2
    · refine Every.imp (fun a ha => ?_) (fun _ h => h) (fun _ h => h)
      cases a with
      | num x => exact jsonCompliant_of_safeNum ha
      | tuple items => exact every_arr.mpr ha
  unfold dumpsCanonical
  by_cases h : Every JsonCompliant (fun _ => True) (fun _ => True) (untuple v.stripNulls)
  · rw [if_pos h, ok_bind, encodeUtf8]
    cases Utf8.encode (compact.write (untuple v.stripNulls).sortKeys) with
    | none => exact iff_of_false (fun h => by cases h) (fun h => by cases h.2)
    | some b => rw [Except.ok.injEq, Option.some.injEq, and_iff_right (hcompliant.mp h)]
  · rw [if_neg h, error_bind]
    exact iff_of_false (fun h => by cases h) fun h' => h (hcompliant.mpr h'.1)

/-- The text of a number is ASCII. -/
theorem reprNum_ascii (x : PyNum) : ∀ c ∈ reprNum x, c.val < 0x80 := by
  have digits {k : ℕ} {c : Char} (h : c ∈ Nat.toDigits 10 k) : c.toNat < 0x80 := by
    have := isDigit_of_mem_toDigits h
    omega
  have sign {q : ℚ} {c : Char} (h : c ∈ if q < 0 then ['-'] else []) : c.toNat < 0x80 := by
    split_ifs at h
    · rw [List.mem_singleton.mp h]
      decide
    · cases h
  cases x with
  | int z => exact ofChars_ascii fun _ => decimalChars_lt
  | negZero => exact lit_ascii (by decide)
  | float x =>
    rw [reprNum]
    cases x with
    | nan => exact lit_ascii (by decide)
    | inf neg => cases neg <;> exact lit_ascii (by decide)
    | fin q =>
      rw [reprFloat]
      by_cases hq : q = 0
      · rw [if_pos hq]
        exact lit_ascii (by decide)
      rw [if_neg hq]
      dsimp only
      split
      · refine ofChars_ascii fun c hc => ?_
        rcases List.mem_append.mp hc with hc | hc
        · exact sign hc
        rcases List.mem_append.mp hc with hc | hc
        · rcases Double.mem_fixedChars hc with hc | rfl | rfl
          · exact digits hc
          · decide
          · decide
        · have hpoint : ∀ d ∈ ".0".toList, d.toNat < 0x80 := by simp
          split at hc
          · exact hpoint c hc
          · cases hc
      · refine ofChars_ascii fun c hc => ?_
        rcases List.mem_append.mp hc with hc | hc
        · exact sign hc
        rcases List.mem_append.mp hc with hc | hc
        · rcases Double.mem_mantissaChars hc with hc | rfl
          · exact digits hc
          · decide
        rcases List.mem_cons.mp hc with rfl | hc
        · decide
        rcases List.mem_cons.mp hc with rfl | hc
        · split <;> decide
        rcases List.mem_append.mp hc with hc | hc
        · split at hc
          · rw [List.mem_singleton.mp hc]
            decide
          · cases hc
        · exact digits hc

/-- The text of a value can be encoded when its strings and names can. -/
theorem noSurrogate_write_compact {v : PyVal} :
    NoSurrogate (compact.write v) ↔ Every (fun _ => True) NoSurrogate NoSurrogate v := by
  have hlow : ∀ c : CodePoint, c.val < 0x80 → ¬ IsSurrogate c.val := by
    intro c hc; omega
  have hascii : ∀ c : Char, c.toNat < 0x80 → ¬ IsSurrogate (chr c : CodePoint).val := by
    intro c hc; rw [chr_val (by omega)]; omega
  have hcomma : ∀ d ∈ compact.comma, ¬ IsSurrogate d.val :=
    List.forall_mem_singleton.mpr (hascii ',' (by decide))
  have hcolon : ∀ d ∈ compact.colon, ¬ IsSurrogate d.val :=
    List.forall_mem_singleton.mpr (hascii ':' (by decide))
  unfold NoSurrogate
  rw [compact.forall_mem_write hascii hcomma hcolon]
  constructor
  · exact Every.imp (fun _ _ => trivial) (fun s h => (forall_mem_quoteWith hlow s).mp h)
      fun k h => (forall_mem_quoteWith hlow k).mp h
  · exact Every.imp (fun n _ c hc => hlow c (reprNum_ascii n c hc))
      (fun s h => (forall_mem_quoteWith hlow s).mpr h)
      fun k h => (forall_mem_quoteWith hlow k).mpr h

/-- **Acceptance.** -/
theorem obj_canonicalize_isOk_iff {v : PyObj} :
    (∃ bytes, Obj.canonicalize v = .ok bytes)
      ↔ Accepted v ∧ Every (fun _ => True) NoSurrogate NoSurrogate (untuple v.stripNulls) := by
  simp only [obj_canonicalize_eq_ok_iff, Utf8.encode_eq_some_iff, exists_and_left]
  refine and_congr_right fun _ => ?_
  rw [← every_sortKeys (v := untuple v.stripNulls), ← noSurrogate_write_compact]
  exact ⟨fun h => h.1, fun h => ⟨h, _, rfl⟩⟩

/-- `build_payload` is the payload of the three key lists. -/
theorem obj_buildPayload_eq_ok_iff {receipt payload : ObjDict} :
    Obj.buildPayload receipt = .ok payload
      ↔ pick signedRequired payloadKeysOptional Obj.isNotNone receipt = .ok payload := by
  unfold Obj.buildPayload Obj.requireKeys
  rw [pick_eq_ok_iff, signedRequired, copyRequired_append]
  cases copyRequired receipt payloadKeysRequired [] with
  | error k => simp
  | ok mid =>
    simp only [ok_bind]
    cases copyRequired receipt payloadKeysSignedEnvelope mid with
    | error k => simp
    | ok mid' => simp [eq_comm]

/-- The metadata members added to a payload. -/
def Obj.withMetadata (hash signature keyId : PyStr) (payload : ObjDict) : ObjDict :=
  set (lit "key_id") (.str keyId) (set (lit "signature") (.str signature)
    (set (lit "canonical_hash") (.str hash) payload))

/-- The metadata is there, and the rest is as it was. -/
theorem get?_obj_withMetadata (hash signature keyId : PyStr) (payload : ObjDict) (k : PyStr) :
    get? k (Obj.withMetadata hash signature keyId payload)
      = if k = lit "key_id" then some (.str keyId)
        else if k = lit "signature" then some (.str signature)
        else if k = lit "canonical_hash" then some (.str hash)
        else get? k payload := by
  unfold Obj.withMetadata
  rw [get?_set, get?_set, get?_set]
  simp only [eq_comm (a := k)]

/-- What was signed is not covered by it. -/
theorem get?_obj_withMetadata_signed (hash signature keyId : PyStr) (payload : ObjDict) {k : PyStr}
    (hk : k ∈ signedRequired ++ payloadKeysOptional) :
    get? k (Obj.withMetadata hash signature keyId payload) = get? k payload := by
  have hmeta : ∀ k ∈ signedRequired ++ payloadKeysOptional,
      k ≠ lit "key_id" ∧ k ≠ lit "signature" ∧ k ≠ lit "canonical_hash" := by decide
  obtain ⟨h1, h2, h3⟩ := hmeta k hk
  rw [get?_obj_withMetadata, if_neg h1, if_neg h2, if_neg h3]

/-- **What `sign_receipt` returns, and when.** -/
theorem obj_signReceipt_eq_ok_iff [Ucd] {crypto : Crypto} {payload signed : ObjDict}
    {privateKey : PrivateKeyInput} {keyId : PyStr} :
    Obj.signReceipt crypto payload privateKey keyId = .ok signed
      ↔ keyId ≠ [] ∧ (∀ k ∈ names payload, k ∉ metadataKeys)
        ∧ (∀ k ∈ names payload, k ∈ signedKeys)
        ∧ ∃ sk bytes, coercePrivateKey privateKey = .ok sk
          ∧ Obj.canonicalize (.obj payload) = .ok bytes
          ∧ signed = Obj.withMetadata (hex (crypto.sha256 bytes))
            (b64urlEncode (crypto.sign sk (domainSeparator ++ crypto.sha256 bytes))) keyId
            payload := by
  have hleaked : (names payload).filter (· ∈ metadataKeys) = []
      ↔ ∀ k ∈ names payload, k ∉ metadataKeys := by
    simp only [List.filter_eq_nil_iff, decide_eq_true_eq]
  have hunknown : (names payload).filter (· ∉ signedKeys) = []
      ↔ ∀ k ∈ names payload, k ∈ signedKeys := by
    simp only [List.filter_eq_nil_iff, decide_eq_true_eq, not_not]
  unfold Obj.signReceipt Obj.signingInput Obj.canonicalHash
  simp only [check_eq_ok_iff, raiseWhen_eq_ok_iff, ne_eq, not_not, hleaked, hunknown]
  refine and_congr_right fun _ => and_congr_right fun _ => and_congr_right fun _ => ?_
  simp only [bind_eq_ok_iff, Except.ok.injEq]
  constructor
  · rintro ⟨sk, hsk, _, ⟨bytes, hbytes, rfl⟩, _, ⟨bytes', hbytes', rfl⟩, rfl⟩
    obtain rfl := Except.ok.inj (hbytes.symm.trans hbytes')
    exact ⟨sk, bytes, hsk, hbytes, rfl⟩
  · rintro ⟨sk, bytes, hsk, hbytes, rfl⟩
    exact ⟨sk, hsk, _, ⟨bytes, hbytes, rfl⟩, _, ⟨bytes, hbytes, rfl⟩, rfl⟩

/-! ## Members without tuples -/

section Members

variable {crypto : Crypto} {receipt payload : PyDict}

/-- The members, none of which holds a tuple. -/
def valMembers (ms : PyDict) : ObjDict := ms.map (mapMember id Atom.num)

theorem ofVal_obj (ms : PyDict) : ofVal (.obj ms) = .obj (valMembers ms) := map_obj _ _ ms

theorem names_valMembers (ms : PyDict) : names (valMembers ms) = names ms :=
  (names_map_mapMember _ _ ms).trans (List.map_id _)

/-- Where there is no tuple the payload is the one of a JSON-native receipt. -/
theorem obj_buildPayload_valMembers {payload' : ObjDict} :
    Obj.buildPayload (valMembers receipt) = .ok payload'
      ↔ ∃ payload, buildPayload receipt = .ok payload ∧ payload' = valMembers payload := by
  have hkeep (v : PyVal) : isNotNone v = Obj.isNotNone (v.map id Atom.num) := by
    unfold isNotNone Obj.isNotNone
    cases v <;> rfl
  have hpick : pick (signedRequired.map id) (payloadKeysOptional.map id) Obj.isNotNone
      (valMembers receipt) = .ok payload'
        ↔ ∃ payload, pick signedRequired payloadKeysOptional isNotNone receipt = .ok payload
          ∧ payload' = valMembers payload :=
    pick_map_eq_ok_iff Function.injective_id hkeep
  rw [List.map_id, List.map_id] at hpick
  simp only [obj_buildPayload_eq_ok_iff, hpick, buildPayload_eq_ok_iff]

theorem valMembers_withMetadata (hash signature keyId : PyStr) (payload : PyDict) :
    valMembers (withMetadata hash signature keyId payload)
      = Obj.withMetadata hash signature keyId (valMembers payload) := by
  unfold valMembers withMetadata Obj.withMetadata
  rw [map_set Function.injective_id, map_set Function.injective_id, map_set Function.injective_id]
  rfl

/-- **Where there is no tuple** what is signed is what the signer of
JSON-native values signs. -/
theorem obj_signReceipt_valMembers [Ucd] {privateKey : PrivateKeyInput} {keyId : PyStr}
    {signed' : ObjDict} :
    Obj.signReceipt crypto (valMembers payload) privateKey keyId = .ok signed'
      ↔ ∃ signed, signReceipt crypto payload privateKey keyId = .ok signed
        ∧ signed' = valMembers signed := by
  simp only [obj_signReceipt_eq_ok_iff, signReceipt_eq_ok_iff, names_valMembers, ← ofVal_obj,
    canonicalize_ofVal]
  constructor
  · rintro ⟨hkey, hmeta, hknown, sk, bytes, hsk, hbytes, rfl⟩
    exact ⟨_, ⟨hkey, hmeta, hknown, sk, bytes, hsk, hbytes, rfl⟩,
      (valMembers_withMetadata _ _ _ _).symm⟩
  · rintro ⟨_, ⟨hkey, hmeta, hknown, sk, bytes, hsk, hbytes, rfl⟩, rfl⟩
    exact ⟨hkey, hmeta, hknown, sk, bytes, hsk, hbytes, valMembers_withMetadata _ _ _ _⟩

/-- And it is written as it is. -/
theorem obj_dumps_valMembers (ms : PyDict) : Obj.dumps (.obj (valMembers ms)) = dumps (.obj ms) := by
  unfold Obj.dumps
  rw [← ofVal_obj, untuple_ofVal]

end Members

end Py

end OpenTerms
