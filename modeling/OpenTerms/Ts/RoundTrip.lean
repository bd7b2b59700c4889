import OpenTerms.Common.JsonSame
import OpenTerms.Ts.Base64
import OpenTerms.Ts.TamperEvidence

/-!
# Sign, transport, verify

As in Python, with one more step: `JSON.stringify` writes `null` for a
number that is not finite. Such a number can stand only where the
canonicalizer does not look, under `__proto__`, so what is signed is not
changed (`stripped_jsonValue`).
-/

namespace OpenTerms

namespace Ts

open Json

variable {crypto : Crypto} {r payload signed received jwks : JsObject}

/-! ## What `JSON.stringify` keeps -/

/-- A number JSON can write. -/
def Finite (x : Double) : Prop := x.rat?.isSome = true

/-- One member as it is written. -/
def jsonMember (m : JsStr × JsVal) : JsStr × JsVal := (m.1, jsonValue m.2)

@[simp] theorem jsonValue_arr (xs : List JsVal) : jsonValue (.arr xs) = .arr (xs.map jsonValue) := by
  rw [jsonValue]
  congr 1
  induction xs with
  | nil => rfl
  | cons x xs ih => rw [jsonItems, ih]; rfl

@[simp] theorem jsonValue_obj (ms : JsObject) : jsonValue (.obj ms) = .obj (ms.map jsonMember) := by
  rw [jsonValue]
  congr 1
  induction ms with
  | nil => rfl
  | cons m ms ih => rw [jsonMembers, ih]; rfl

theorem names_map_jsonMember (ms : JsObject) : names (ms.map jsonMember) = names ms := by
  unfold names
  rw [List.map_map]
  rfl

theorem get?_map_jsonMember (k : JsStr) (ms : JsObject) :
    get? k (ms.map jsonMember) = (get? k ms).map jsonValue := by
  induction ms with
  | nil => rfl
  | cons m ms ih =>
    obtain ⟨k', v⟩ := m
    rw [List.map_cons, jsonMember, get?_cons, get?_cons, ih]
    split_ifs <;> rfl

theorem uniqueNames_jsonValue {v : JsVal} (h : UniqueNames v) : UniqueNames (jsonValue v) := by
  induction v using treeInduct with
  | null => trivial
  | bool b => trivial
  | num x =>
    change UniqueNames (jsonNumber x)
    unfold jsonNumber
    split_ifs <;> trivial
  | str s => trivial
  | arr xs ih =>
    rw [uniqueNames_arr] at h
    rw [jsonValue_arr, uniqueNames_arr, List.forall_mem_map]
    exact fun x hx => ih x hx (h x hx)
  | obj ms ih =>
    rw [uniqueNames_obj] at h
    rw [jsonValue_obj, uniqueNames_obj, names_map_jsonMember, List.forall_mem_map]
    exact ⟨h.1, fun m hm => ih m hm (h.2 m hm)⟩

/-- A value of finite numbers is written as it is. -/
theorem jsonValue_eq_self {v : JsVal} (h : Every Finite (fun _ => True) (fun _ => True) v) :
    jsonValue v = v := by
  induction v using treeInduct with
  | null => rfl
  | bool b => rfl
  | num x => exact if_pos h
  | str s => rfl
  | arr xs ih =>
    rw [every_arr] at h
    rw [jsonValue_arr, List.map_congr_left fun x hx => ih x hx (h x hx), List.map_id']
  | obj ms ih =>
    rw [every_obj] at h
    rw [jsonValue_obj, List.map_congr_left fun m hm =>
      (Prod.ext rfl (ih m hm (h m hm).2) : jsonMember m = m), List.map_id']

theorem without_jsonValue (name : JsStr) (v : JsVal) :
    (jsonValue v).without name = jsonValue (v.without name) := by
  induction v using treeInduct with
  | null => rfl
  | bool b => rfl
  | num x =>
    change (jsonNumber x).without name = jsonNumber x
    unfold jsonNumber
    split_ifs <;> rfl
  | str s => rfl
  | arr xs ih =>
    rw [jsonValue_arr, without_arr, without_arr, jsonValue_arr, List.map_map, List.map_map]
    exact congrArg _ (List.map_congr_left ih)
  | obj ms ih =>
    rw [jsonValue_obj, without_obj, without_obj, jsonValue_obj, List.filterMap_map,
      List.map_filterMap]
    refine congrArg _ (List.filterMap_congr fun m hm => ?_)
    obtain ⟨k, v⟩ := m
    change (if k = name then none else some (k, (jsonValue v).without name))
      = (if k = name then none else some (k, v.without name)).map jsonMember
    by_cases hk : k = name
    · rw [if_pos hk, if_pos hk, Option.map_none]
    · rw [if_neg hk, if_neg hk, Option.map_some, jsonMember, ih (k, v) hm]

/-- Outside `__proto__` an accepted value has finite numbers. -/
theorem finite_of_accepted {v : JsVal} (h : Accepted (stripped v)) :
    Every Finite (fun _ => True) (fun _ => True) (v.without protoName) := by
  refine Every.of_stripNulls (Every.imp (fun x hx => ?_) (fun _ _ => trivial)
    (fun _ _ => trivial) h)
  obtain ⟨z, -, rfl⟩ := safeNum_iff.mp hx
  rfl

/-- **What is signed is written as it is.** -/
theorem stripped_jsonValue {v : JsVal} (h : Accepted (stripped v)) :
    stripped (jsonValue v) = stripped v := by
  unfold stripped
  rw [without_jsonValue, jsonValue_eq_self (finite_of_accepted h)]

/-- `JSON.stringify`, the members in the order the value lists them. -/
def stringify (v : JsVal) : JsStr := compact.write (jsonValue v)

/-- **`JSON.parse` undoes `JSON.stringify`** on data of safe integers. -/
theorem jsonParse_stringify {v : JsVal} (hu : UniqueNames v) (hv : SafeNumbers v) :
    jsonParse (stringify v) = some v := by
  have hfinite : Every Finite (fun _ => True) (fun _ => True) v := by
    refine Every.imp (fun x hx => ?_) (fun _ h => h) (fun _ h => h) hv
    obtain ⟨z, -, rfl⟩ := safeNum_iff.mp hx
    rfl
  have hback := ofDoc_toDoc hv
  have hunique : UniqueNames (toDoc v) := hu.map _ Function.injective_id
  have htext : stringify v = Utf16.encode (Doc.style.write (toDoc v)) := by
    unfold stringify
    rw [jsonValue_eq_self hfinite, ← write_ofDoc (safeLit_toDoc hv), hback]
  unfold jsonParse
  rw [htext, Utf16.decode_encode (Doc.write_wellFormed _),
    Doc.parse_write Doc.readable_style hunique, Option.map_some, hback]

/-! ## What signing returns -/

/-- The metadata members added to a payload. -/
def withMetadata (hash signature keyId : JsStr) (payload : JsObject) : JsObject :=
  set (lit "key_id") (.str keyId) (set (lit "signature") (.str signature)
    (set (lit "canonical_hash") (.str hash) payload))

/-- **What `signReceipt` returns, and when.** -/
theorem signReceipt_eq_ok_iff {privateKey : Bytes} {keyId : JsStr} :
    signReceipt crypto payload privateKey keyId = .ok signed
      ↔ keyId ≠ [] ∧ (∀ k ∈ names payload, k ∉ metadataKeys)
        ∧ (∀ k ∈ names payload, k ∈ signedKeys)
        ∧ privateKey.length = 32
        ∧ ∃ bytes, canonicalize (.obj payload) = .ok bytes
          ∧ signed = withMetadata (hex (crypto.sha256 bytes))
            (b64url (crypto.sign privateKey (domainSeparator ++ crypto.sha256 bytes))) keyId
            payload := by
  have hleaked : (names payload).filter (· ∈ metadataKeys) = []
      ↔ ∀ k ∈ names payload, k ∉ metadataKeys := by
    simp only [List.filter_eq_nil_iff, decide_eq_true_eq]
  have hunknown : (names payload).filter (· ∉ signedKeys) = []
      ↔ ∀ k ∈ names payload, k ∈ signedKeys := by
    simp only [List.filter_eq_nil_iff, decide_eq_true_eq, not_not]
  have hseed {seed : Bytes} : coerceSeed privateKey = .ok seed
      ↔ privateKey.length = 32 ∧ seed = privateKey := by
    unfold coerceSeed
    split_ifs with h
    · simp [h]
    · simp [not_not.mp h, eq_comm]
  unfold signReceipt signingInput canonicalHash
  simp only [check_eq_ok_iff, raiseWhen_eq_ok_iff, ne_eq, not_not, hleaked, hunknown]
  refine and_congr_right fun _ => and_congr_right fun _ => and_congr_right fun _ => ?_
  simp only [bind_eq_ok_iff, hseed, Except.ok.injEq]
  constructor
  · rintro ⟨_, ⟨hlen, rfl⟩, _, ⟨bytes, hbytes, rfl⟩, _, ⟨bytes', hbytes', rfl⟩, rfl⟩
    obtain rfl := Except.ok.inj (hbytes.symm.trans hbytes')
    exact ⟨hlen, bytes, hbytes, rfl⟩
  · rintro ⟨hlen, bytes, hbytes, rfl⟩
    exact ⟨_, ⟨hlen, rfl⟩, _, ⟨bytes, hbytes, rfl⟩, _, ⟨bytes, hbytes, rfl⟩, rfl⟩

/-- The metadata is there, and the rest is as it was. -/
theorem get?_withMetadata (hash signature keyId : JsStr) (payload : JsObject) (k : JsStr) :
    get? k (withMetadata hash signature keyId payload)
      = if k = lit "key_id" then some (.str keyId)
        else if k = lit "signature" then some (.str signature)
        else if k = lit "canonical_hash" then some (.str hash)
        else get? k payload := by
  unfold withMetadata
  rw [get?_set, get?_set, get?_set]
  simp only [eq_comm (a := k)]

theorem uniqueNames_withMetadata {hash signature keyId : JsStr} (h : UniqueNames (.obj payload)) :
    UniqueNames (.obj (withMetadata hash signature keyId payload)) := by
  have hset {k : JsStr} {s : JsStr} {ms : JsObject} (hms : UniqueNames (.obj ms)) :
      UniqueNames (.obj (set k (.str s) ms)) := by
    rw [uniqueNames_obj] at hms ⊢
    exact Clean.set hms trivial
  exact hset (hset (hset h))

/-! ## What verifying reads -/

/-- A value as it is received: as `JSON.stringify` wrote it, member order
aside, and null only where it was. -/
def Received (v w : JsVal) : Prop := isNotNull v = isNotNull w ∧ Same (jsonValue v) w

theorem isNotNull_of_same {v w : JsVal} (h : Same v w) : isNotNull v = isNotNull w := by
  unfold isNotNull
  cases v <;> cases w <;> first | rfl | exact h.elim

/-- A signed member's value is received. -/
theorem received_of_accepted {k : JsStr} {v w : JsVal} (hk : k ≠ protoName)
    (hacc : Accepted (stripped (.obj payload))) (hv : get? k payload = some v)
    (h : Same (jsonValue v) w) : Received v w := by
  refine ⟨?_, h⟩
  have hmem : (k, v.without protoName) ∈ payload.filterMap (withoutMember protoName) :=
    mem_filterMap_withoutMember.mpr ⟨(k, v), mem_of_get? hv, hk, rfl⟩
  have hfinite := finite_of_accepted hacc
  rw [without_obj, every_obj] at hfinite
  rw [← isNotNull_of_same h]
  cases v with
  | null | bool _ | str _ => rfl
  | num x => rw [show jsonValue (.num x) = .num x from if_pos (hfinite _ hmem).2]
  | arr xs => rw [jsonValue_arr]; rfl
  | obj ms => rw [jsonValue_obj]; rfl

/-- **The payload of the signed receipt is the payload signed**, as it was
written. -/
theorem buildPayload_received {hash signature keyId : JsStr} (hr : UniqueNames (.obj r))
    (hp : buildPayload r = .ok payload) (hacc : Accepted (stripped (.obj payload)))
    (hrec : UniqueNames (.obj received))
    (hsame : Same (.obj received)
      (jsonValue (.obj (withMetadata hash signature keyId payload)))) :
    ∃ payload', buildPayload received = .ok payload'
      ∧ Same (stripped (.obj payload)) (stripped (.obj payload')) := by
  have hu := uniqueNames_buildPayload hr hp
  have hsent : UniqueNames (jsonValue (.obj (withMetadata hash signature keyId payload))) :=
    uniqueNames_jsonValue (uniqueNames_withMetadata hu)
  have hsame' := hsame.symm hrec hsent
  rw [jsonValue_obj] at hsent hsame'
  have hfields : ∀ k, k ∈ signedRequired ∨ k ∈ signedOptional →
      k ≠ protoName ∧ k ≠ lit "key_id" ∧ k ≠ lit "signature" ∧ k ≠ lit "canonical_hash" := by
    rintro k (hk | hk)
    · exact (by decide : ∀ k ∈ signedRequired, k ≠ protoName ∧ k ≠ lit "key_id"
        ∧ k ≠ lit "signature" ∧ k ≠ lit "canonical_hash") k hk
    · exact (by decide : ∀ k ∈ signedOptional, k ≠ protoName ∧ k ≠ lit "key_id"
        ∧ k ≠ lit "signature" ∧ k ≠ lit "canonical_hash") k hk
  have hpayload {k : JsStr} (hk : k ∈ signedRequired ∨ k ∈ signedOptional) :
      get? k (withMetadata hash signature keyId payload) = get? k payload := by
    obtain ⟨-, h1, h2, h3⟩ := hfields k hk
    rw [get?_withMetadata, if_neg h1, if_neg h2, if_neg h3]
  have hget {k : JsStr} (hk : k ∈ signedRequired ∨ k ∈ signedOptional) : Option.Rel Received
      (get? k (withMetadata hash signature keyId payload)) (get? k received) := by
    have hrel := hsame'.get? hsent hrec k
    rw [get?_map_jsonMember] at hrel
    cases hv : get? k (withMetadata hash signature keyId payload) with
    | none =>
      rw [hv] at hrel
      cases hw : get? k received with
      | none => exact .none
      | some w => rw [hw] at hrel; cases hrel
    | some v =>
      rw [hv] at hrel
      cases hw : get? k received with
      | none => rw [hw] at hrel; cases hrel
      | some w =>
        rw [hw, Option.map_some, Option.rel_some_some] at hrel
        exact .some (received_of_accepted (hfields k hk).1 hacc (hpayload hk ▸ hv) hrel)
  have hsigned : pick signedRequired signedOptional isNotNull
      (withMetadata hash signature keyId payload) = .ok payload :=
    pick_pick signedRequired_disjoint (buildPayload_eq_ok_iff.mp hp) fun k hk => hpayload hk
  have hkeep : ∀ k ∈ signedOptional, Option.Rel Received
      ((get? k (withMetadata hash signature keyId payload)).filter isNotNull)
      ((get? k received).filter isNotNull) :=
    fun k hk => rel_filter (fun _ _ h => h.1) (hget (Or.inr hk))
  obtain ⟨payload', hpick, hrel⟩ :=
    pick_rel (f := id) Function.injective_id (fun k hk => hget (Or.inl hk)) hkeep hsigned
  rw [List.map_id, List.map_id] at hpick
  have hp' := buildPayload_eq_ok_iff.mpr hpick
  have hwritten : MemberRel id Same (payload.map jsonMember) payload' :=
    List.forall₂_map_left_iff.mpr (hrel.imp fun _ _ h => ⟨h.1, h.2.2⟩)
  have hjson : Same (jsonValue (.obj payload)) (.obj payload') := by
    rw [jsonValue_obj]
    exact hwritten.same (by rw [names_map_jsonMember]; exact (uniqueNames_obj.mp hu).1)
  refine ⟨payload', hp', ?_⟩
  have hu₁ : UniqueNames (jsonValue (.obj payload)) := uniqueNames_jsonValue hu
  have hu₂ : UniqueNames (.obj payload') := uniqueNames_buildPayload hrec hp'
  rw [← stripped_jsonValue hacc]
  exact (hjson.without hu₁ hu₂).stripNulls hu₁.without hu₂.without

/-! ## The key -/

/-- The first entry with the key id is the given one; those before it are
objects, those after it anything. -/
def FirstKey (jwks : JsObject) (keyId : JsStr) (jwk : JsObject) : Prop :=
  ∃ before after, get? (lit "keys") jwks = some (.arr (before ++ .obj jwk :: after))
    ∧ get? (lit "kid") jwk = some (.str keyId)
    ∧ ∀ e ∈ before, ∃ ms, e = .obj ms ∧ get? (lit "kid") ms ≠ some (.str keyId)

theorem findKey_first {keyId : JsStr} {jwk : JsObject} {before after : List JsVal}
    (hkid : get? (lit "kid") jwk = some (.str keyId))
    (hbefore : ∀ e ∈ before, ∃ ms, e = .obj ms ∧ get? (lit "kid") ms ≠ some (.str keyId)) :
    findKey (.str keyId) (before ++ .obj jwk :: after) = .ok (some jwk) := by
  induction before with
  | nil => rw [List.nil_append, findKey, propEq_str, if_pos (decide_eq_true hkid)]
  | cons e before ih =>
    rw [List.forall_mem_cons] at hbefore
    obtain ⟨ms, rfl, hne⟩ := hbefore.1
    rw [List.cons_append, findKey, propEq_str, if_neg (by simpa using hne), ih hbefore.2]

/-- **The checks on the SDK's own key and signature pass.** -/
theorem checkKey_signed (kp : KeyPair crypto) {keyId : JsStr} (digest : Bytes)
    (hjwks : FirstKey jwks keyId (publicKeyToJwk (crypto.publicKey kp.seed) keyId)) :
    checkKey crypto jwks (.str keyId)
        (.str (b64url (crypto.sign kp.seed (domainSeparator ++ digest)))) digest
      = .ok { valid := true, error := none, keyId := .str keyId, canonicalHash := hex digest } := by
  obtain ⟨before, after, hkeys, hkid, hbefore⟩ := hjwks
  have hkty : get? (lit "kty") (publicKeyToJwk (crypto.publicKey kp.seed) keyId)
      = some (.str (lit "OKP")) := rfl
  have hcrv : get? (lit "crv") (publicKeyToJwk (crypto.publicKey kp.seed) keyId)
      = some (.str (lit "Ed25519")) := rfl
  have hx : get? (lit "x") (publicKeyToJwk (crypto.publicKey kp.seed) keyId)
      = some (.str (b64url (crypto.publicKey kp.seed))) := rfl
  -- an empty text would decode to no bytes, and a public key has 32
  have htruthy : truthy (.str (b64url (crypto.publicKey kp.seed))) = true := by
    refine decide_eq_true fun hnil => ?_
    have hdecode := b64urlDecode_b64url (crypto.publicKey kp.seed)
    rw [hnil] at hdecode
    have hlen := kp.publicKey_length
    rw [← Except.ok.inj hdecode] at hlen
    cases hlen
  have hsig : checkSignature crypto (publicKeyToJwk (crypto.publicKey kp.seed) keyId) (.str keyId)
      (.str (b64url (crypto.sign kp.seed (domainSeparator ++ digest)))) digest
      = { valid := true, error := none, keyId := .str keyId, canonicalHash := hex digest } := by
    unfold checkSignature
    simp only [hx, htruthy, b64urlDecode_b64url, kp.publicKey_length, kp.sign_length,
      kp.verify_sign, ne_eq, not_true_eq_false, if_false, if_true]
  have hkeys' : jwksKeys jwks
      = .ok (before ++ .obj (publicKeyToJwk (crypto.publicKey kp.seed) keyId) :: after) := by
    unfold jwksKeys
    rw [hkeys]
  unfold checkKey
  rw [hkeys', ok_bind, findKey_first hkid hbefore, ok_bind]
  simp only [propEq_str, hkty, hcrv, decide_true, Bool.not_true, Bool.or_self,
    Bool.false_eq_true, if_false, hsig]

/-- **A signed receipt verifies**, as `JSON.stringify` wrote it and in
whatever order its members arrive. -/
theorem verifyReceipt_received (kp : KeyPair crypto) {keyId : JsStr}
    (hr : UniqueNames (.obj r)) (hp : buildPayload r = .ok payload)
    (hsign : signReceipt crypto payload kp.seed keyId = .ok signed)
    (hrec : UniqueNames (.obj received))
    (hsame : Same (.obj received) (jsonValue (.obj signed)))
    (hjwks : FirstKey jwks keyId (publicKeyToJwk (crypto.publicKey kp.seed) keyId)) :
    ∃ hash, get? (lit "canonical_hash") signed = some (.str hash)
      ∧ verifyReceipt crypto received jwks
        = .ok { valid := true, error := none, keyId := .str keyId, canonicalHash := hash } := by
  obtain ⟨-, -, -, -, bytes, hbytes, rfl⟩ := signReceipt_eq_ok_iff.mp hsign
  have hu := uniqueNames_buildPayload hr hp
  have hacc := ((canonicalize_eq_ok_iff hu).mp hbytes).1
  obtain ⟨payload', hp', hpayload⟩ := buildPayload_received hr hp hacc hrec hsame
  have hbytes' := canonicalize_of_same hu (uniqueNames_buildPayload hrec hp') hpayload hbytes
  have hsent : UniqueNames (jsonValue (.obj (withMetadata (hex (crypto.sha256 bytes))
      (b64url (crypto.sign kp.seed (domainSeparator ++ crypto.sha256 bytes))) keyId payload))) :=
    uniqueNames_jsonValue (uniqueNames_withMetadata hu)
  have hsame' := hsame.symm hrec hsent
  rw [jsonValue_obj] at hsent hsame'
  -- the three metadata members arrive as they were sent
  have hmeta {k s : JsStr} (h : get? k (withMetadata (hex (crypto.sha256 bytes))
      (b64url (crypto.sign kp.seed (domainSeparator ++ crypto.sha256 bytes))) keyId payload)
        = some (.str s)) : get? k received = some (.str s) := by
    have hrel := hsame'.get? hsent hrec k
    rw [get?_map_jsonMember, h] at hrel
    cases hk : get? k received with
    | none => rw [hk] at hrel; cases hrel
    | some v =>
      rw [hk, Option.map_some, Option.rel_some_some] at hrel
      rw [same_str_iff.mp hrel]
  refine ⟨_, by rw [get?_withMetadata]; rfl, verifyReceipt_eq_ok_iff.mpr
    ⟨_, _, _, _, hmeta (by rw [get?_withMetadata]; rfl), hmeta (by rw [get?_withMetadata]; rfl),
      hmeta (by rw [get?_withMetadata]; rfl),
      receiptDigest_eq_ok_iff.mpr ⟨payload', bytes, hp', hbytes', rfl⟩, ?_⟩⟩
  rw [if_pos rfl]
  exact checkKey_signed kp _ hjwks

/-- **`JSON.stringify` carries a signed receipt** without `__proto__`
members, in which every number is a safe integer. -/
theorem jsonParse_stringify_signed {privateKey : Bytes} {keyId : JsStr}
    (hr : UniqueNames (.obj r)) (hp : buildPayload r = .ok payload)
    (hlacks : Lacks protoName (.obj payload))
    (hsign : signReceipt crypto payload privateKey keyId = .ok signed) :
    jsonParse (stringify (.obj signed)) = some (.obj signed) := by
  obtain ⟨-, -, -, -, bytes, hbytes, rfl⟩ := signReceipt_eq_ok_iff.mp hsign
  have hu := uniqueNames_buildPayload hr hp
  have hacc : Accepted (stripped (.obj payload)) := ((canonicalize_eq_ok_iff hu).mp hbytes).1
  unfold stripped at hacc
  rw [without_eq_self hlacks] at hacc
  have hpayload : SafeNumbers (.obj payload) := Every.of_stripNulls hacc.safeNumbers
  have hset {k s : JsStr} {ms : JsObject} (hms : SafeNumbers (.obj ms)) :
      SafeNumbers (.obj (set k (.str s) ms)) := by
    unfold SafeNumbers at hms ⊢
    rw [every_obj] at hms ⊢
    intro m hm
    rcases mem_of_mem_set hm with rfl | hm
    · exact ⟨trivial, trivial⟩
    · exact hms m hm
  exact jsonParse_stringify (uniqueNames_withMetadata hu) (hset (hset (hset hpayload)))

end Ts

end OpenTerms
