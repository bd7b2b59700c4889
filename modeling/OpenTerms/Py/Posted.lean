import OpenTerms.Py.Objects

/-!
# A receipt with tuples, posted

A verifier sees lists where the signer saw tuples: it validates them and
strips their nulls, and the signer did neither. So the two agree on the
bytes exactly where there is nothing in a tuple to refuse or to strip
(`canonicalize_untuple_iff`), and that is when what was posted verifies
(`verifies_posted_iff`), a collision of the two texts apart.
-/

namespace OpenTerms

namespace Py

open Json Utf16

/-- A tuple that stays as it is where it is looked into. -/
def Atom.Plain : Atom → Prop
  | .num _ => True
  | .tuple items => ∀ v ∈ items, Validated v ∧ v.stripNulls = v

/-- A value all of whose tuples do. -/
def Plain (v : PyObj) : Prop := Every Atom.Plain (fun _ => True) (fun _ => True) v

/-- A leaf that is written with no name twice. -/
def Atom.Unique (a : Atom) : Prop := UniqueNames a.written

/-! ## The bytes -/

/-- Canonical text tells values apart. -/
theorem write_compact_injective {v w : PyVal} (hv : Validated v) (hw : Validated w)
    (hv' : NoSurrogate (compact.write v)) (hw' : NoSurrogate (compact.write w))
    (hu : UniqueNames v) (hu' : UniqueNames w) (h : compact.write v = compact.write w) : v = w := by
  have hs := (forall_mem_write_compact hv).mp hv'
  have hs' := (forall_mem_write_compact hw).mp hw'
  have unique {x : PyVal} (hx : Validated x)
      (hsx : Every (fun _ => True) NoSurrogate NoSurrogate x) (hux : UniqueNames x) :
      UniqueNames (toDoc x) := by
    refine UniqueNames.of_map (f := decode) (g := loadNumber) ?_
    change UniqueNames (ofDoc _)
    rwa [ofDoc_toDoc hx hsx]
  rw [← write_compact hv hs, ← write_compact hw hs'] at h
  have hdoc := Doc.style_write_injective (unique hv hs hu) (unique hw hs' hu') h
  rw [← ofDoc_toDoc hv hs, hdoc, ofDoc_toDoc hw hs']

theorem written_ne_null (a : Atom) : a.written ≠ .null := by
  cases a <;> exact nofun

/-- Stripping after the tuples are lists strips the lists as well. -/
theorem stripNulls_untuple (v : PyObj) :
    (untuple v).stripNulls = v.stripNulls.graft fun a => a.written.stripNulls :=
  stripNulls_graft written_ne_null v

/-- A number is validated once, the items of a tuple when they are looked at. -/
theorem validated_untuple_iff {v : PyObj} :
    Validated (untuple v) ↔ Every (fun a => Validated a.written) (fun _ => True) BmpName v :=
  every_graft

theorem plain_stripNulls {v : PyObj} : Plain v.stripNulls ↔ Plain v :=
  ⟨Every.of_stripNulls, Every.stripNulls⟩

/-- A plain tuple has nothing to strip. -/
theorem Atom.Plain.stripNulls_written {a : Atom} (h : a.Plain) :
    a.written.stripNulls = a.written := by
  cases a with
  | num x => rfl
  | tuple items =>
    rw [Atom.written, stripNulls_arr, List.map_congr_left fun v hv => (h v hv).2, List.map_id']

/-- **The signer's bytes are a verifier's** exactly where the tuples are
plain. -/
theorem canonicalize_untuple_iff {v : PyObj} {bytes : Bytes} (hv : UniqueNames v)
    (ht : Every Atom.Unique (fun _ => True) (fun _ => True) v)
    (h : Obj.canonicalize v = .ok bytes) :
    canonicalize (untuple v) = .ok bytes ↔ Plain v := by
  obtain ⟨⟨hseen, -⟩, hbytes⟩ := obj_canonicalize_eq_ok_iff.mp h
  rw [canonicalize_eq_ok_iff, validated_untuple_iff]
  constructor
  · rintro ⟨hvalid, hread⟩
    -- the two texts are one, so the lists had nothing to strip
    have htext : compact.write (untuple v.stripNulls).sortKeys
        = compact.write (untuple v).stripNulls.sortKeys := by
      have hdecode := Utf8.decode_encode hread
      rw [Utf8.decode_encode hbytes] at hdecode
      exact Option.some.inj hdecode
    have hsigned : Validated (untuple v.stripNulls).sortKeys :=
      every_sortKeys.mpr (validated_untuple_iff.mpr hvalid.stripNulls)
    have hloaded : Validated (untuple v).stripNulls.sortKeys :=
      every_sortKeys.mpr (Every.stripNulls (validated_untuple_iff.mpr hvalid))
    have hunique : UniqueNames (untuple v.stripNulls) := hv.stripNulls.graft ht.stripNulls
    have hunique' : UniqueNames (untuple v) := hv.graft ht
    have hsort := write_compact_injective hsigned hloaded (Utf8.encode_eq_some_iff.mp hbytes).1
      (Utf8.encode_eq_some_iff.mp hread).1 hunique.sortKeys hunique'.stripNulls.sortKeys htext
    have hstrip : (untuple v.stripNulls).stripNulls = (untuple v).stripNulls := by
      rw [stripNulls_untuple, stripNulls_untuple, stripNulls_stripNulls]
    have hself := stripNulls_eq_self_of_same hunique
      ((same_iff_sortKeys_eq hunique hunique.stripNulls).mpr (hstrip ▸ hsort))
    rw [hstrip, stripNulls_untuple, untuple, graft_eq_graft_iff] at hself
    have hatoms := Every.and hself hvalid.stripNulls
    refine plain_stripNulls.mp (Every.imp (fun a ha => ?_) (fun _ _ => trivial)
      (fun _ _ => trivial) hatoms)
    cases a with
    | num x => trivial
    | tuple items =>
      have hitems := every_arr.mp ha.2
      have hnulls : (Json.arr items : PyVal).stripNulls = .arr items := ha.1
      rw [stripNulls_arr, Json.arr.injEq] at hnulls
      have hid : items.map stripNulls = items.map id := hnulls.trans (List.map_id items).symm
      exact fun x hx => ⟨hitems x hx, List.map_inj_left.mp hid x hx⟩
  · intro hplain
    have hatoms : Every (fun a => Validated a.written) (fun _ => True) BmpName v := by
      refine Every.imp (fun a ha => ?_) (fun _ _ => trivial) (fun _ h => h.1)
        (Every.and hseen hplain)
      cases a with
      | num x => exact ha.1
      | tuple items => exact every_arr.mpr fun x hx => (ha.2 x hx).1
    refine ⟨hatoms, ?_⟩
    have hgraft : v.stripNulls.graft (fun a => a.written.stripNulls) = untuple v.stripNulls :=
      graft_congr (Every.imp (fun _ ha => Atom.Plain.stripNulls_written ha) (fun _ h => h)
        (fun _ h => h) (plain_stripNulls.mpr hplain))
    rw [stripNulls_untuple, hgraft]
    exact hbytes

/-! ## The transport -/

/-- A leaf as it is loaded from what was written. -/
def Atom.received (a : Atom) : PyVal := a.written.map id reread

/-- The members that are loaded from what was posted. -/
def received (ms : ObjDict) : PyDict := ms.map (graftMember Atom.received)

/-- A leaf JSON can carry. -/
def Atom.Carried (a : Atom) : Prop := Every JsonCompliant Decoded Decoded a.written

theorem received_ne_null (a : Atom) : a.received ≠ .null := fun h =>
  written_ne_null a (map_eq_null_iff.mp h)

theorem untuple_map_reread (v : PyObj) : (untuple v).map id reread = v.graft Atom.received :=
  map_graft reread v

/-- **What is posted is loaded**, its floats as they are read. -/
theorem loads_posted {ms : ObjDict} (hu : UniqueNames (.obj ms))
    (ht : Every Atom.Unique (fun _ => True) (fun _ => True) (.obj ms))
    (hc : Every Atom.Carried Decoded Decoded (.obj ms)) :
    loads (Obj.dumps (.obj ms)) = some (.obj (received ms)) := by
  have hunique : UniqueNames (untuple (.obj ms)) := hu.graft ht
  have hcarried : Every JsonCompliant Decoded Decoded (untuple (.obj ms)) := every_graft.mpr hc
  unfold Obj.dumps
  rw [loads_dumps_compliant hunique hcarried, untuple_map_reread, graft_obj]
  rfl

/-- What was signed is of its own payload. -/
theorem buildPayload_signed [Ucd] {crypto : Crypto} {privateKey : PrivateKeyInput} {keyId : PyStr}
    {receipt payload signed : ObjDict} (hp : Obj.buildPayload receipt = .ok payload)
    (hsign : Obj.signReceipt crypto payload privateKey keyId = .ok signed) :
    Obj.buildPayload signed = .ok payload := by
  obtain ⟨-, -, -, sk, bytes, -, -, rfl⟩ := obj_signReceipt_eq_ok_iff.mp hsign
  refine obj_buildPayload_eq_ok_iff.mpr (pick_pick signedRequired_disjoint
    (obj_buildPayload_eq_ok_iff.mp hp) fun k hk => ?_)
  exact get?_obj_withMetadata_signed _ _ _ _ (List.mem_append.mpr hk)

/-- The payload of what is received is the payload, received. -/
theorem buildPayload_received_of_obj {payload signed : ObjDict}
    (hp : Obj.buildPayload signed = .ok payload) :
    buildPayload (received signed) = .ok (received payload) := by
  have hget (k : PyStr) : get? k (received signed) = (get? k signed).map (graft Atom.received) :=
    get?_map_graftMember _ k signed
  have hkeep (v : PyObj) : Obj.isNotNone v = isNotNone (v.graft Atom.received) := by
    unfold Obj.isNotNone isNotNone
    rw [decide_eq_decide, ne_eq, ne_eq, graft_eq_null_iff received_ne_null]
  obtain ⟨payload', hpick', hrel⟩ : ∃ payload',
      pick (signedRequired.map id) (payloadKeysOptional.map id) isNotNone (received signed)
        = .ok payload' ∧ MemberRel id (fun v w => w = v.graft Atom.received) payload payload' := by
    refine pick_rel Function.injective_id (fun k _ => ?_) (fun k _ => ?_)
      (obj_buildPayload_eq_ok_iff.mp hp)
    · rw [id, hget]
      cases get? k signed <;> simp
    · rw [id, hget]
      cases get? k signed with
      | none => simp
      | some v => cases hv : isNotNone (v.graft Atom.received) <;> simp [Option.filter, hkeep, hv]
  rw [List.map_id, List.map_id, MemberRel.eq_map hrel] at hpick'
  exact buildPayload_eq_ok_iff.mpr hpick'

/-- What the canonicalizer takes can be carried, provided the names can. -/
theorem carried_of_canonicalize {v : PyObj} {bytes : Bytes} (h : Obj.canonicalize v = .ok bytes)
    (hnames : Every (fun _ => True) (fun _ => True) Decoded v) :
    Every Atom.Carried Decoded Decoded v := by
  obtain ⟨⟨-, haccepted⟩, htexts⟩ := obj_canonicalize_isOk_iff.mp ⟨bytes, h⟩
  have hwritten : Every (fun a => Every (fun _ => True) NoSurrogate NoSurrogate a.written)
      NoSurrogate (fun _ => True) v :=
    Every.of_stripNulls (Every.imp (fun _ h => h) (fun _ h => h) (fun _ _ => trivial)
      (every_graft.mp htexts))
  have hnumbers : Every Atom.Accepted (fun _ => True) (fun _ => True) v :=
    Every.of_stripNulls haccepted
  refine Every.imp (fun a ha => ?_) (fun s hs => decode_encode hs.2.1) (fun k hk => hk.1)
    (Every.and hnames (Every.and hwritten hnumbers))
  obtain ⟨-, htext, hnum⟩ := ha
  cases a with
  | num x => exact jsonCompliant_of_safeNum hnum
  | tuple items =>
    refine every_arr.mpr fun x hx => ?_
    exact Every.imp (fun _ h => h.1) (fun _ h => decode_encode h.2) (fun _ h => decode_encode h.2)
      (Every.and (hnum x hx) (every_arr.mp htext x hx))

/-! ## What a verifier makes of it -/

/-- What is validated is received as it was sent. -/
theorem received_eq {v : PyObj} (h : Validated (untuple v)) :
    v.graft Atom.received = untuple v := by
  rw [← untuple_map_reread]
  refine Every.map_eq_self (Every.imp (fun n hn => ?_) (fun _ _ => rfl) (fun _ _ => rfl) h)
  cases n with
  | int z => rfl
  | float x => exact hn.elim
  | negZero => exact hn.elim

/-- **The bytes of what is received** are those of the value with its tuples
as lists: a float is refused before and after. -/
theorem canonicalize_received_iff {v : PyObj} {bytes : Bytes}
    (hc : Every Atom.Carried Decoded Decoded v) :
    canonicalize (v.graft Atom.received) = .ok bytes ↔ canonicalize (untuple v) = .ok bytes := by
  constructor
  · intro h
    have hvalid := (canonicalize_eq_ok_iff.mp h).1
    rw [← untuple_map_reread, Validated, every_map] at hvalid
    have hcarried : Every JsonCompliant Decoded Decoded (untuple v) := every_graft.mpr hc
    have hsafe : Validated (untuple v) :=
      Every.imp (fun n hn => (safeNum_reread_iff hn.2).mp hn.1) (fun _ _ => trivial)
        (fun _ hk => hk.1) (Every.and hvalid hcarried)
    rwa [received_eq hsafe] at h
  · intro h
    rwa [received_eq (canonicalize_eq_ok_iff.mp h).1]

theorem every_obj_withMetadata {pn : Atom → Prop} {ps pk : PyStr → Prop} {hash signature keyId : PyStr}
    {payload : ObjDict} (h : Every pn ps pk (.obj payload)) (hhash : ps hash)
    (hsignature : ps signature) (hkeyId : ps keyId) (hk : ∀ k ∈ metadataKeys, pk k) :
    Every pn ps pk (.obj (Obj.withMetadata hash signature keyId payload)) := by
  have hset {k s : PyStr} {ms : ObjDict} (hk : pk k) (hs : ps s) (hms : Every pn ps pk (.obj ms)) :
      Every pn ps pk (.obj (set k (.str s) ms)) := by
    rw [every_obj] at hms ⊢
    intro m hm
    rcases mem_of_mem_set hm with rfl | hm
    · exact ⟨hk, hs⟩
    · exact hms m hm
  have hmem : lit "canonical_hash" ∈ metadataKeys ∧ lit "signature" ∈ metadataKeys
      ∧ lit "key_id" ∈ metadataKeys := by decide
  exact hset (hk _ hmem.2.2) hkeyId (hset (hk _ hmem.2.1) hsignature (hset (hk _ hmem.1) hhash h))

theorem uniqueNames_obj_withMetadata {hash signature keyId : PyStr} {payload : ObjDict}
    (h : UniqueNames (.obj payload)) :
    UniqueNames (.obj (Obj.withMetadata hash signature keyId payload)) := by
  have hset {k s : PyStr} {ms : ObjDict} (hms : UniqueNames (.obj ms)) :
      UniqueNames (.obj (set k (.str s) ms)) := by
    rw [uniqueNames_obj] at hms ⊢
    exact Clean.set hms trivial
  exact hset (hset (hset h))

/-- A verifier finds the text valid. -/
def Verifies (crypto : Crypto) (jwks : PyDict) (body : PyStr) : Prop :=
  ∃ receipt res, loads body = some (.obj receipt) ∧ verifyReceipt crypto receipt jwks = .ok res
    ∧ res.valid = true

/-- The text that was signed and the one a verifier makes of the payload are
two, and have one hash. -/
def TextsCollide (crypto : Crypto) (payload : ObjDict) : Prop :=
  ∃ bytes bytes', Obj.canonicalize (.obj payload) = .ok bytes
    ∧ canonicalize (untuple (.obj payload)) = .ok bytes' ∧ Collision crypto bytes bytes'

section

variable [Ucd] {crypto : Crypto} {privateKey : PrivateKeyInput} {keyId : PyStr} {jwks : PyDict}
variable {receipt payload signed : ObjDict}

/-- A verifier goes by the hash of its own text. -/
theorem verifies_iff_sha256 (kp : KeyPair crypto) (hp : Obj.buildPayload receipt = .ok payload)
    (hu : UniqueNames (.obj payload))
    (ht : Every Atom.Unique (fun _ => True) (fun _ => True) (.obj payload))
    (hnames : Every (fun _ => True) (fun _ => True) Decoded (.obj payload))
    (hkey : privateKey.seed = kp.seed) (hkeyId : Decoded keyId)
    (hsign : Obj.signReceipt crypto payload privateKey keyId = .ok signed)
    (hjwks : FirstKey jwks keyId (publicKeyToJwk (crypto.publicKey kp.seed) keyId)) :
    Verifies crypto jwks (Obj.dumps (.obj signed))
      ↔ ∃ bytes bytes', Obj.canonicalize (.obj payload) = .ok bytes
        ∧ canonicalize (untuple (.obj payload)) = .ok bytes'
        ∧ crypto.sha256 bytes = crypto.sha256 bytes' := by
  obtain ⟨-, -, -, sk, bytes, hsk, hbytes, rfl⟩ := obj_signReceipt_eq_ok_iff.mp hsign
  obtain rfl : sk = kp.seed := (coercePrivateKey_eq hsk).trans hkey
  have hcarried := carried_of_canonicalize hbytes hnames
  generalize hS : Obj.withMetadata (hex (crypto.sha256 bytes))
    (b64urlEncode (crypto.sign kp.seed (domainSeparator ++ crypto.sha256 bytes))) keyId payload
      = signed
  have hload : loads (Obj.dumps (.obj signed)) = some (.obj (received signed)) := by
    rw [← hS]
    exact loads_posted (uniqueNames_obj_withMetadata hu)
      (every_obj_withMetadata ht trivial trivial trivial fun _ _ => trivial)
      (every_obj_withMetadata hcarried (decoded_hex _) (decoded_b64urlEncode _) hkeyId
        (by decide))
  have hget (k : PyStr) : get? k (received signed) = (get? k signed).map (graft Atom.received) :=
    get?_map_graftMember _ k signed
  have hpayload : buildPayload (received signed) = .ok (received payload) :=
    buildPayload_received_of_obj (buildPayload_signed hp (hS ▸ hsign))
  have hobj : (Json.obj (received payload) : PyVal) = (Json.obj payload).graft Atom.received :=
    (graft_obj _ payload).symm
  have hclaimed : get? (lit "canonical_hash") (received signed)
      = some (.str (hex (crypto.sha256 bytes))) := by
    rw [hget, ← hS, get?_obj_withMetadata]
    rfl
  constructor
  · rintro ⟨receipt', res, hread, hverify, hvalid⟩
    obtain rfl : received signed = receipt' := by
      rw [hload, Option.some.injEq, Json.obj.injEq] at hread
      exact hread
    obtain ⟨claimedHash, _, _, digest, hc, -, -, hdigest, hcase⟩ := verifyReceipt_eq_ok_iff.mp hverify
    obtain ⟨payload', bytes', hp', hbytes', rfl⟩ := receiptDigest_eq_ok_iff.mp hdigest
    obtain rfl := Except.ok.inj (hpayload.symm.trans hp')
    rw [hobj, canonicalize_received_iff hcarried] at hbytes'
    refine ⟨bytes, bytes', hbytes, hbytes', ?_⟩
    -- past the hash check, or the result is not valid
    by_cases heq : claimedHash = .str (hex (crypto.sha256 bytes'))
    · rw [hc, heq, Option.some.injEq, Json.str.injEq] at hclaimed
      exact (hex_injective (by decide) hclaimed).symm
    · rw [if_neg heq] at hcase
      rw [hcase] at hvalid
      cases hvalid
  · rintro ⟨_, bytes', hb, hbytes', hsha⟩
    obtain rfl := Except.ok.inj (hbytes.symm.trans hb)
    rw [← canonicalize_received_iff hcarried, ← hobj] at hbytes'
    have hsignature : get? (lit "signature") (received signed) = some (.str (b64urlEncode
        (crypto.sign kp.seed (domainSeparator ++ crypto.sha256 bytes)))) := by
      rw [hget, ← hS, get?_obj_withMetadata]
      rfl
    have hkid : get? (lit "key_id") (received signed) = some (.str keyId) := by
      rw [hget, ← hS, get?_obj_withMetadata]
      rfl
    have hdigest : receiptDigest crypto (received signed) = .ok (crypto.sha256 bytes') :=
      receiptDigest_eq_ok_iff.mpr ⟨_, bytes', hpayload, hbytes', rfl⟩
    have hcheck := checkKey_signed kp (crypto.sha256 bytes') hjwks
    rw [hsha] at hclaimed hsignature
    exact ⟨received signed, _, hload, verifyReceipt_eq_ok_iff.mpr
      ⟨_, _, _, _, hclaimed, hsignature, hkid, hdigest, by rw [if_pos rfl]; exact hcheck⟩, rfl⟩

/-- **What was posted verifies** exactly where the tuples are plain, a
collision of the two texts apart. -/
theorem verifies_posted_iff (kp : KeyPair crypto) (hp : Obj.buildPayload receipt = .ok payload)
    (hu : UniqueNames (.obj payload))
    (ht : Every Atom.Unique (fun _ => True) (fun _ => True) (.obj payload))
    (hnames : Every (fun _ => True) (fun _ => True) Decoded (.obj payload))
    (hkey : privateKey.seed = kp.seed) (hkeyId : Decoded keyId)
    (hsign : Obj.signReceipt crypto payload privateKey keyId = .ok signed)
    (hjwks : FirstKey jwks keyId (publicKeyToJwk (crypto.publicKey kp.seed) keyId)) :
    Verifies crypto jwks (Obj.dumps (.obj signed))
      ↔ Plain (.obj payload) ∨ TextsCollide crypto payload := by
  rw [verifies_iff_sha256 kp hp hu ht hnames hkey hkeyId hsign hjwks]
  constructor
  · rintro ⟨bytes, bytes', hbytes, hbytes', hsha⟩
    by_cases heq : bytes = bytes'
    · exact .inl ((canonicalize_untuple_iff hu ht hbytes).mp (heq ▸ hbytes'))
    · exact .inr ⟨bytes, bytes', hbytes, hbytes', heq, hsha⟩
  · rintro (hplain | ⟨bytes, bytes', hbytes, hbytes', -, hsha⟩)
    · obtain ⟨-, -, -, _, bytes, -, hbytes, -⟩ := obj_signReceipt_eq_ok_iff.mp hsign
      exact ⟨bytes, bytes, hbytes, (canonicalize_untuple_iff hu ht hbytes).mpr hplain, rfl⟩
    · exact ⟨bytes, bytes', hbytes, hbytes', hsha⟩

end

end Py

end OpenTerms
