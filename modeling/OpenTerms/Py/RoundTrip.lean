import OpenTerms.Common.JsonSame
import OpenTerms.Py.Base64
import OpenTerms.Py.Dumps
import OpenTerms.Py.HashBinding
import OpenTerms.Py.Signing

/-!
# Sign, transport, verify

A receipt `sign_receipt` returns is verified after any transport that
keeps it as JSON data. The payload built from the signed receipt is the
payload that was signed (`buildPayload_received`), the bytes do not see
the order of its members (`canonicalize_of_same`), and the key and the
signature decode to what was encoded.
-/

namespace OpenTerms

namespace Py

open Json

variable {crypto : Crypto} {r payload signed received jwks : PyDict}

/-! ## What signing returns -/

/-- The metadata members added to a payload. -/
def withMetadata (hash signature keyId : PyStr) (payload : PyDict) : PyDict :=
  set (lit "key_id") (.str keyId) (set (lit "signature") (.str signature)
    (set (lit "canonical_hash") (.str hash) payload))

/-- **What `sign_receipt` returns, and when.** -/
theorem signReceipt_eq_ok_iff [Ucd] {privateKey : PrivateKeyInput} {keyId : PyStr} :
    signReceipt crypto payload privateKey keyId = .ok signed
      ↔ keyId ≠ [] ∧ (∀ k ∈ names payload, k ∉ metadataKeys)
        ∧ (∀ k ∈ names payload, k ∈ signedKeys)
        ∧ ∃ sk bytes, coercePrivateKey privateKey = .ok sk
          ∧ canonicalize (.obj payload) = .ok bytes
          ∧ signed = withMetadata (hex (crypto.sha256 bytes))
            (b64urlEncode (crypto.sign sk (domainSeparator ++ crypto.sha256 bytes))) keyId
            payload := by
  have hleaked : (names payload).filter (· ∈ metadataKeys) = []
      ↔ ∀ k ∈ names payload, k ∉ metadataKeys := by
    simp only [List.filter_eq_nil_iff, decide_eq_true_eq]
  have hunknown : (names payload).filter (· ∉ signedKeys) = []
      ↔ ∀ k ∈ names payload, k ∈ signedKeys := by
    simp only [List.filter_eq_nil_iff, decide_eq_true_eq, not_not]
  unfold signReceipt signingInput canonicalHash
  simp only [check_eq_ok_iff, raiseWhen_eq_ok_iff, ne_eq, not_not, hleaked, hunknown]
  refine and_congr_right fun _ => and_congr_right fun _ => and_congr_right fun _ => ?_
  simp only [bind_eq_ok_iff, Except.ok.injEq]
  constructor
  · rintro ⟨sk, hsk, _, ⟨bytes, hbytes, rfl⟩, _, ⟨bytes', hbytes', rfl⟩, rfl⟩
    obtain rfl := Except.ok.inj (hbytes.symm.trans hbytes')
    exact ⟨sk, bytes, hsk, hbytes, rfl⟩
  · rintro ⟨sk, bytes, hsk, hbytes, rfl⟩
    exact ⟨sk, hsk, _, ⟨bytes, hbytes, rfl⟩, _, ⟨bytes, hbytes, rfl⟩, rfl⟩

theorem coercePrivateKey_eq {privateKey : PrivateKeyInput} {sk : Bytes}
    (h : coercePrivateKey privateKey = .ok sk) : sk = privateKey.seed := by
  cases privateKey with
  | privateKey seed => exact (Except.ok.inj h).symm
  | bytes seed =>
    change (if seed.length ≠ 32 then _ else _) = _ at h
    split_ifs at h
    exact (Except.ok.inj h).symm

/-- The metadata is there, and the rest is as it was. -/
theorem get?_withMetadata (hash signature keyId : PyStr) (payload : PyDict) (k : PyStr) :
    get? k (withMetadata hash signature keyId payload)
      = if k = lit "key_id" then some (.str keyId)
        else if k = lit "signature" then some (.str signature)
        else if k = lit "canonical_hash" then some (.str hash)
        else get? k payload := by
  unfold withMetadata
  rw [get?_set, get?_set, get?_set]
  simp only [eq_comm (a := k)]

theorem uniqueNames_withMetadata {hash signature keyId : PyStr} (h : UniqueNames (.obj payload)) :
    UniqueNames (.obj (withMetadata hash signature keyId payload)) := by
  have hset {k : PyStr} {s : PyStr} {ms : PyDict} (hms : UniqueNames (.obj ms)) :
      UniqueNames (.obj (set k (.str s) ms)) := by
    rw [uniqueNames_obj] at hms ⊢
    exact Clean.set hms trivial
  exact hset (hset (hset h))

/-! ## What verifying reads -/

/-- The bytes do not see the order of members. -/
theorem canonicalize_of_same {v w : PyVal} {bytes : Bytes} (hv : UniqueNames v)
    (hw : UniqueNames w) (h : Same v w) (hb : canonicalize v = .ok bytes) :
    canonicalize w = .ok bytes := by
  obtain ⟨hvalid, henc⟩ := canonicalize_eq_ok_iff.mp hb
  have hsort := (same_iff_sortKeys_eq hv.stripNulls hw.stripNulls).mp (h.stripNulls hv hw)
  exact canonicalize_eq_ok_iff.mpr ⟨Every.of_same hv hw h hvalid, hsort ▸ henc⟩

theorem same_null_iff {v w : PyVal} (h : Same v w) : isNotNone v = isNotNone w := by
  unfold isNotNone
  cases v <;> cases w <;> first | rfl | exact h.elim

/-- **The payload of the signed receipt is the payload signed**, whatever
order its members arrive in. -/
theorem buildPayload_received {hash signature keyId : PyStr} (hr : UniqueNames (.obj r))
    (hp : buildPayload r = .ok payload) (hrec : UniqueNames (.obj received))
    (hsame : Same (.obj received) (.obj (withMetadata hash signature keyId payload))) :
    ∃ payload', buildPayload received = .ok payload'
      ∧ Same (.obj payload) (.obj payload') := by
  have hu := uniqueNames_buildPayload hr hp
  have hsame' := hsame.symm hrec (uniqueNames_withMetadata hu)
  have hget (k : PyStr) : Option.Rel Same
      (get? k (withMetadata hash signature keyId payload)) (get? k received) :=
    hsame'.get? (uniqueNames_withMetadata hu) hrec k
  have hmeta : ∀ k, k ∈ signedRequired ∨ k ∈ payloadKeysOptional →
      k ≠ lit "key_id" ∧ k ≠ lit "signature" ∧ k ≠ lit "canonical_hash" := by
    rintro k (hk | hk)
    · exact (by decide : ∀ k ∈ signedRequired,
        k ≠ lit "key_id" ∧ k ≠ lit "signature" ∧ k ≠ lit "canonical_hash") k hk
    · exact (by decide : ∀ k ∈ payloadKeysOptional,
        k ≠ lit "key_id" ∧ k ≠ lit "signature" ∧ k ≠ lit "canonical_hash") k hk
  have hsigned : pick signedRequired payloadKeysOptional isNotNone
      (withMetadata hash signature keyId payload) = .ok payload := by
    refine pick_pick signedRequired_disjoint (buildPayload_eq_ok_iff.mp hp) fun k hk => ?_
    obtain ⟨h1, h2, h3⟩ := hmeta k hk
    rw [get?_withMetadata, if_neg h1, if_neg h2, if_neg h3]
  have hkeep : ∀ k ∈ payloadKeysOptional, Option.Rel Same
      ((get? k (withMetadata hash signature keyId payload)).filter isNotNone)
      ((get? k received).filter isNotNone) :=
    fun k _ => rel_filter (fun _ _ h => same_null_iff h) (hget k)
  obtain ⟨payload', hpick, hrel⟩ :=
    pick_rel (f := id) Function.injective_id (fun k _ => hget k) hkeep hsigned
  rw [List.map_id, List.map_id] at hpick
  exact ⟨payload', buildPayload_eq_ok_iff.mpr hpick, hrel.same (uniqueNames_obj.mp hu).1⟩

/-! ## The key -/

/-- The first entry with the key id is the given one; those before it are
objects, those after it anything. -/
def FirstKey (jwks : PyDict) (keyId : PyStr) (jwk : PyDict) : Prop :=
  ∃ before after, get? (lit "keys") jwks = some (.arr (before ++ .obj jwk :: after))
    ∧ get? (lit "kid") jwk = some (.str keyId)
    ∧ ∀ e ∈ before, ∃ ms, e = .obj ms ∧ get? (lit "kid") ms ≠ some (.str keyId)

theorem findKey_first {keyId : PyStr} {jwk : PyDict} {before after : List PyVal}
    (hkid : get? (lit "kid") jwk = some (.str keyId))
    (hbefore : ∀ e ∈ before, ∃ ms, e = .obj ms ∧ get? (lit "kid") ms ≠ some (.str keyId)) :
    findKey (.str keyId) (before ++ .obj jwk :: after) = .ok (some jwk) := by
  induction before with
  | nil => rw [List.nil_append, findKey, pyEq_getD_str, if_pos (decide_eq_true hkid)]
  | cons e before ih =>
    rw [List.forall_mem_cons] at hbefore
    obtain ⟨ms, rfl, hne⟩ := hbefore.1
    rw [List.cons_append, findKey, pyEq_getD_str, if_neg (by simpa using hne), ih hbefore.2]

/-- **The checks on the SDK's own key and signature pass.** -/
theorem checkKey_signed (kp : KeyPair crypto) {keyId : PyStr} (digest : Bytes)
    (hjwks : FirstKey jwks keyId (publicKeyToJwk (crypto.publicKey kp.seed) keyId)) :
    checkKey crypto jwks (.str keyId)
        (.str (b64urlEncode (crypto.sign kp.seed (domainSeparator ++ digest)))) digest
      = .ok { valid := true, error := none, keyId := .str keyId, canonicalHash := hex digest } := by
  obtain ⟨before, after, hkeys, hkid, hbefore⟩ := hjwks
  have hkty : get? (lit "kty") (publicKeyToJwk (crypto.publicKey kp.seed) keyId)
      = some (.str (lit "OKP")) := rfl
  have hcrv : get? (lit "crv") (publicKeyToJwk (crypto.publicKey kp.seed) keyId)
      = some (.str (lit "Ed25519")) := rfl
  have hx : get? (lit "x") (publicKeyToJwk (crypto.publicKey kp.seed) keyId)
      = some (.str (b64urlEncode (crypto.publicKey kp.seed))) := rfl
  have hsig : checkSignature crypto (publicKeyToJwk (crypto.publicKey kp.seed) keyId) (.str keyId)
      (.str (b64urlEncode (crypto.sign kp.seed (domainSeparator ++ digest)))) digest
      = .ok { valid := true, error := none, keyId := .str keyId, canonicalHash := hex digest } := by
    unfold checkSignature
    simp only [hx, b64urlDecode_encode, kp.publicKey_length, kp.sign_length, kp.verify_sign, ne_eq,
      not_true_eq_false, if_false, if_true]
  unfold checkKey
  rw [hkeys, Option.getD_some, iterate, ok_bind, findKey_first hkid hbefore, ok_bind]
  simp only [pyEq_getD_str, hkty, hcrv, decide_true, Bool.not_true, Bool.or_self,
    Bool.false_eq_true, if_false]
  exact hsig

/-- **A signed receipt verifies**, in whatever order its members arrive. -/
theorem verifyReceipt_received [Ucd] (kp : KeyPair crypto) {privateKey : PrivateKeyInput}
    {keyId : PyStr} (hr : UniqueNames (.obj r)) (hp : buildPayload r = .ok payload)
    (hkey : privateKey.seed = kp.seed)
    (hsign : signReceipt crypto payload privateKey keyId = .ok signed)
    (hrec : UniqueNames (.obj received)) (hsame : Same (.obj received) (.obj signed))
    (hjwks : FirstKey jwks keyId (publicKeyToJwk (crypto.publicKey kp.seed) keyId)) :
    ∃ hash, get? (lit "canonical_hash") signed = some (.str hash)
      ∧ verifyReceipt crypto received jwks
        = .ok { valid := true, error := none, keyId := .str keyId, canonicalHash := hash } := by
  obtain ⟨-, -, -, sk, bytes, hsk, hbytes, rfl⟩ := signReceipt_eq_ok_iff.mp hsign
  obtain rfl : sk = kp.seed := (coercePrivateKey_eq hsk).trans hkey
  have hu := uniqueNames_buildPayload hr hp
  obtain ⟨payload', hp', hpayload⟩ := buildPayload_received hr hp hrec hsame
  have hbytes' := canonicalize_of_same hu (uniqueNames_buildPayload hrec hp') hpayload hbytes
  -- the three metadata members arrive as they were sent
  have hmeta {k s : PyStr} (h : get? k (withMetadata (hex (crypto.sha256 bytes))
      (b64urlEncode (crypto.sign kp.seed (domainSeparator ++ crypto.sha256 bytes))) keyId payload)
        = some (.str s)) : get? k received = some (.str s) := by
    have hrel := (hsame.symm hrec (uniqueNames_withMetadata hu)).get?
      (uniqueNames_withMetadata hu) hrec k
    rw [h] at hrel
    cases hk : get? k received with
    | none => rw [hk] at hrel; cases hrel
    | some v =>
      rw [hk, Option.rel_some_some, same_str_iff] at hrel
      rw [hrel]
  refine ⟨_, by rw [get?_withMetadata]; rfl, verifyReceipt_eq_ok_iff.mpr
    ⟨_, _, _, _, hmeta (by rw [get?_withMetadata]; rfl), hmeta (by rw [get?_withMetadata]; rfl),
      hmeta (by rw [get?_withMetadata]; rfl),
      receiptDigest_eq_ok_iff.mpr ⟨payload', bytes, hp', hbytes', rfl⟩, ?_⟩⟩
  rw [if_pos rfl]
  exact checkKey_signed kp _ hjwks

/-! ## The transport -/

theorem decoded_hex (bytes : Bytes) : Decoded (hex bytes) := by
  refine decoded_ofChars fun c hc => ?_
  obtain ⟨b, -, hc⟩ := List.mem_flatMap.mp hc
  exact hexByteChars_lt c hc

theorem decoded_b64urlEncode (bytes : Bytes) : Decoded (b64urlEncode bytes) := by
  refine decoded_ofChars fun c hc => ?_
  rw [Base64.rdropWhile_encodeChars] at hc
  obtain ⟨v, -, rfl⟩ := List.mem_map.mp hc
  exact (Base64.urlSafe_sextetChar v).1

/-- What an object loaded from JSON signs is made of strings of JSON. -/
theorem decoded_buildPayload {ms : List (JsStr × Doc)}
    (hp : buildPayload (ofMembers ms) = .ok payload) :
    Every (fun _ => True) Decoded Decoded (.obj payload) := by
  have hsource : Every (fun _ => True) Decoded Decoded (.obj (ofMembers ms)) := by
    rw [← ofDoc_obj]
    exact every_map.mpr (every_of_forall (fun _ => trivial) decoded_decode decoded_decode _)
  rw [every_obj] at hsource ⊢
  have hpick := buildPayload_eq_ok_iff.mp hp
  have hvalues := Clean.pick (fun m hm => (hsource m hm).2) hpick
  intro m hm
  refine ⟨?_, hvalues.2 m hm⟩
  have hnames : ∀ k ∈ signedRequired ++ payloadKeysOptional, Decoded k := by decide
  refine hnames m.1 (List.mem_append.mpr ?_)
  exact mem_of_mem_names_pick signedRequired_disjoint hpick (mem_names.mpr ⟨m.2, hm⟩)

/-- **`json.dumps` carries a signed receipt.** -/
theorem loads_dumps_signed [Ucd] {ms : List (JsStr × Doc)} {privateKey : PrivateKeyInput}
    {keyId : PyStr} (hr : UniqueNames (.obj (ofMembers ms)))
    (hp : buildPayload (ofMembers ms) = .ok payload) (hkey : Decoded keyId)
    (hsign : signReceipt crypto payload privateKey keyId = .ok signed) :
    loads (dumps (.obj signed)) = some (.obj signed) ∧ UniqueNames (.obj signed) := by
  obtain ⟨-, -, -, sk, bytes, -, hbytes, rfl⟩ := signReceipt_eq_ok_iff.mp hsign
  have hu := uniqueNames_buildPayload hr hp
  refine ⟨loads_dumps (uniqueNames_withMetadata hu) ?_, uniqueNames_withMetadata hu⟩
  have hpayload : Every IsInt Decoded Decoded (.obj payload) := by
    refine Every.imp (fun n hn => ?_) (fun _ h => h.2) (fun _ h => h.2)
      (Every.and (canonicalize_eq_ok_iff.mp hbytes).1 (decoded_buildPayload hp))
    cases n with
    | int z => trivial
    | float x => exact hn.1.elim
    | negZero => exact hn.1.elim
  have hset {k s : PyStr} {ms : PyDict} (hk : Decoded k) (hs : Decoded s)
      (hms : Every IsInt Decoded Decoded (.obj ms)) :
      Every IsInt Decoded Decoded (.obj (set k (.str s) ms)) := by
    rw [every_obj] at hms ⊢
    intro m hm
    rcases mem_of_mem_set hm with rfl | hm
    · exact ⟨hk, hs⟩
    · exact hms m hm
  exact hset (by decide) hkey (hset (by decide) (decoded_b64urlEncode _)
    (hset (by decide) (decoded_hex _) hpayload))

end Py

end OpenTerms
