import OpenTerms.Common.JsonCarry
import OpenTerms.Parity.Canonical
import OpenTerms.Parity.SignVerify
import OpenTerms.Parity.Verify

/-!
# A receipt signed in one SDK, verified in the other

The receipt signed is a document. Each SDK takes the same payload from it
(`docPayload`) and, where it signs at all, adds the same three members
(`signedDoc`): the signatures are over one text, the one the two
canonicalizers write. Either writer's text of the signed receipt reads as
that document in both languages, and a document that is the same up to
member order passes both verifiers.

Python signs exactly what TypeScript signs and Python's canonicalizer
does not refuse.
-/

namespace OpenTerms

namespace Parity

open Json Utf16

variable {crypto : Crypto} {r q : List (JsStr × Doc)} {keyId : JsStr}

/-! ## One payload -/

/-- The payload of a receipt document. -/
def docPayload (r : List (JsStr × Doc)) : Except JsStr (List (JsStr × Doc)) :=
  pick Ts.signedRequired Ts.signedOptional (fun v => decide (v ≠ .null)) r

theorem py_buildPayload_eq_ok_iff {payload : Py.PyDict} :
    Py.buildPayload (Py.ofMembers r) = .ok payload
      ↔ ∃ q, docPayload r = .ok q ∧ payload = Py.ofMembers q := by
  have hrequired : Py.signedRequired = Ts.signedRequired.map decode := by decide
  have hoptional : Py.payloadKeysOptional = Ts.signedOptional.map decode := by decide
  rw [Py.buildPayload_eq_ok_iff, hrequired, hoptional]
  refine pick_map_eq_ok_iff decode_injective fun v => ?_
  unfold Py.isNotNone
  cases v <;> rfl

theorem ts_buildPayload_eq_ok_iff {payload : Ts.JsObject} :
    Ts.buildPayload (Ts.ofMembers r) = .ok payload
      ↔ ∃ q, docPayload r = .ok q ∧ payload = Ts.ofMembers q := by
  have hkeep (v : Doc) : decide (v ≠ .null) = Ts.isNotNull (v.map id Ts.parseNumber) := by
    unfold Ts.isNotNull
    cases v <;> rfl
  have hpick : pick (Ts.signedRequired.map id) (Ts.signedOptional.map id) Ts.isNotNull
      (r.map (mapMember id Ts.parseNumber)) = .ok payload
        ↔ ∃ q, docPayload r = .ok q ∧ payload = q.map (mapMember id Ts.parseNumber) :=
    pick_map_eq_ok_iff Function.injective_id hkeep
  rw [List.map_id, List.map_id] at hpick
  exact Ts.buildPayload_eq_ok_iff.trans hpick

theorem uniqueNames_docPayload (hr : UniqueNames (.obj r)) (hq : docPayload r = .ok q) :
    UniqueNames (.obj q) := by
  rw [uniqueNames_obj] at hr ⊢
  exact Clean.pick hr.2 hq

/-- What no member of the receipt has at any depth no member of its
payload has. -/
theorem lacks_docPayload (hr : Lacks Ts.protoName (.obj r)) (hq : docPayload r = .ok q) :
    Lacks Ts.protoName (.obj q) := by
  unfold Lacks at hr ⊢
  rw [every_obj] at hr ⊢
  have hvalues := Clean.pick (fun m hm => (hr m hm).2) hq
  intro m hm
  refine ⟨?_, hvalues.2 m hm⟩
  have hnames : ∀ k ∈ Ts.signedRequired ++ Ts.signedOptional, k ≠ Ts.protoName := by decide
  refine hnames m.1 (List.mem_append.mpr ?_)
  exact mem_of_mem_names_pick Ts.signedRequired_disjoint hq (mem_names.mpr ⟨m.2, hm⟩)

/-- A payload's names are those that may be signed, none of the metadata. -/
theorem names_docPayload (hq : docPayload r = .ok q) {k : JsStr} (hk : k ∈ names q) :
    k ∉ Ts.metadataKeys ∧ k ∈ Ts.signedKeys := by
  have hnames : ∀ k ∈ Ts.signedRequired ++ Ts.signedOptional,
      k ∉ Ts.metadataKeys ∧ k ∈ Ts.signedKeys := by decide
  exact hnames k (List.mem_append.mpr (mem_of_mem_names_pick Ts.signedRequired_disjoint hq hk))

/-! ## One signed receipt -/

/-- The canonical bytes of a payload document. -/
def payloadBytes (q : List (JsStr × Doc)) : Bytes := Doc.bytes (stripNulls (.obj q)).sortKeys

/-- The signed receipt of a payload document. -/
def signedDoc (crypto : Crypto) (seed : Bytes) (keyId : JsStr) (q : List (JsStr × Doc)) :
    List (JsStr × Doc) :=
  let digest := crypto.sha256 (payloadBytes q)
  set (lit "key_id") (.str keyId)
    (set (lit "signature") (.str (Ts.b64url (crypto.sign seed (domainSeparator ++ digest))))
      (set (lit "canonical_hash") (.str (hex digest)) q))

theorem decode_hex (bytes : Bytes) : decode (hex bytes) = hex bytes := by
  refine decode_ofChars fun c hc => ?_
  obtain ⟨b, -, hc⟩ := List.mem_flatMap.mp hc
  exact hexByteChars_lt c hc

theorem py_ofMembers_signedDoc (seed : Bytes) :
    Py.ofMembers (signedDoc crypto seed keyId q)
      = Py.withMetadata (hex (crypto.sha256 (payloadBytes q)))
          (Py.b64urlEncode (crypto.sign seed (domainSeparator ++ crypto.sha256 (payloadBytes q))))
          (decode keyId) (Py.ofMembers q) := by
  have hkey : decode (lit "key_id") = lit "key_id" := decode_lit (by decide)
  have hsig : decode (lit "signature") = lit "signature" := decode_lit (by decide)
  have hhash : decode (lit "canonical_hash") = lit "canonical_hash" := decode_lit (by decide)
  unfold Py.ofMembers signedDoc Py.withMetadata
  rw [map_set decode_injective, map_set decode_injective, map_set decode_injective, hkey, hsig,
    hhash, map_str, map_str, map_str, decode_hex, b64urlEncode_eq_b64url]

theorem ts_ofMembers_signedDoc (seed : Bytes) :
    Ts.ofMembers (signedDoc crypto seed keyId q)
      = Ts.withMetadata (hex (crypto.sha256 (payloadBytes q)))
          (Ts.b64url (crypto.sign seed (domainSeparator ++ crypto.sha256 (payloadBytes q))))
          keyId (Ts.ofMembers q) := by
  unfold Ts.ofMembers signedDoc Ts.withMetadata
  rw [map_set Function.injective_id, map_set Function.injective_id, map_set Function.injective_id]
  rfl

/-! ## Who signs -/

/-- `build_payload`, then `sign_receipt`. -/
def PySigns [Ucd] (crypto : Crypto) (r : List (JsStr × Doc)) (privateKey : Py.PrivateKeyInput)
    (keyId : JsStr) (signed : Py.PyDict) : Prop :=
  ∃ payload, Py.buildPayload (Py.ofMembers r) = .ok payload
    ∧ Py.signReceipt crypto payload privateKey (decode keyId) = .ok signed

/-- `buildPayload`, then `signReceipt`. -/
def TsSigns (crypto : Crypto) (r : List (JsStr × Doc)) (seed : Bytes) (keyId : JsStr)
    (signed : Ts.JsObject) : Prop :=
  ∃ payload, Ts.buildPayload (Ts.ofMembers r) = .ok payload
    ∧ Ts.signReceipt crypto payload seed keyId = .ok signed

theorem decode_eq_nil_iff : decode keyId = [] ↔ keyId = [] := by
  rw [← decode_injective.eq_iff (a := keyId)]
  rfl

/-- The names of a payload pass Python's two checks as they pass TypeScript's. -/
theorem py_names_docPayload (hq : docPayload r = .ok q) :
    (∀ k ∈ names (Py.ofMembers q), k ∉ Py.metadataKeys)
      ∧ ∀ k ∈ names (Py.ofMembers q), k ∈ Py.signedKeys := by
  have hmeta : ∀ k ∈ Ts.signedRequired ++ Ts.signedOptional,
      decode k ∉ Py.metadataKeys ∧ decode k ∈ Py.signedKeys := by decide
  have hall : ∀ k ∈ names (Py.ofMembers q), k ∉ Py.metadataKeys ∧ k ∈ Py.signedKeys := by
    intro k hk
    unfold Py.ofMembers at hk
    rw [names_map_mapMember] at hk
    obtain ⟨k', hk', rfl⟩ := List.mem_map.mp hk
    exact hmeta k' (List.mem_append.mpr (mem_of_mem_names_pick Ts.signedRequired_disjoint hq hk'))
  exact ⟨fun k hk => (hall k hk).1, fun k hk => (hall k hk).2⟩

/-- **What Python signs, and when.** -/
theorem pySigns_iff [Ucd] (kp : KeyPair crypto) {privateKey : Py.PrivateKeyInput}
    (hkey : privateKey.seed = kp.seed) {signed : Py.PyDict} :
    PySigns crypto r privateKey keyId signed
      ↔ keyId ≠ [] ∧ ∃ q, docPayload r = .ok q ∧ PyClean (.obj q)
        ∧ signed = Py.ofMembers (signedDoc crypto kp.seed keyId q) := by
  have hseed : Py.coercePrivateKey privateKey = .ok kp.seed := by
    have hlen := kp.seed_length
    cases privateKey with
    | privateKey seed => exact congrArg Except.ok hkey
    | bytes seed =>
      obtain rfl : seed = kp.seed := hkey
      exact if_neg (not_not.mpr hlen)
  constructor
  · rintro ⟨payload, hp, hsign⟩
    obtain ⟨q, hq, rfl⟩ := py_buildPayload_eq_ok_iff.mp hp
    obtain ⟨hne, -, -, sk, bytes, hsk, hbytes, rfl⟩ := Py.signReceipt_eq_ok_iff.mp hsign
    rw [← Py.ofDoc_obj] at hbytes
    obtain rfl := Except.ok.inj (hseed.symm.trans hsk)
    obtain rfl := py_bytes hbytes
    refine ⟨fun h => hne (decode_eq_nil_iff.mpr h), q, hq, py_isOk_iff.mp ⟨_, hbytes⟩, ?_⟩
    exact (py_ofMembers_signedDoc kp.seed).symm
  · rintro ⟨hne, q, hq, hclean, rfl⟩
    obtain ⟨bytes, hbytes⟩ := py_isOk_iff.mpr hclean
    have heq := py_bytes hbytes
    subst heq
    rw [Py.ofDoc_obj] at hbytes
    refine ⟨_, py_buildPayload_eq_ok_iff.mpr ⟨q, hq, rfl⟩, Py.signReceipt_eq_ok_iff.mpr
      ⟨fun h => hne (decode_eq_nil_iff.mp h), (py_names_docPayload hq).1,
        (py_names_docPayload hq).2, kp.seed, _, hseed, hbytes, ?_⟩⟩
    exact py_ofMembers_signedDoc kp.seed

/-- A payload without `__proto__` members is stripped of nulls only. -/
theorem tsStripped_docPayload (hr : Lacks Ts.protoName (.obj r)) (hq : docPayload r = .ok q) :
    tsStripped (.obj q) = stripNulls (.obj q) := by
  unfold tsStripped
  rw [without_eq_self (lacks_docPayload hr hq)]

/-- **What TypeScript signs, and when**, of a payload of integers. -/
theorem tsSigns_iff (kp : KeyPair crypto) (hr : UniqueNames (.obj r))
    (hproto : Lacks Ts.protoName (.obj r)) (hq : docPayload r = .ok q)
    (hint : Integral (.obj q)) {signed : Ts.JsObject} :
    TsSigns crypto r kp.seed keyId signed
      ↔ keyId ≠ [] ∧ TsClean (.obj q)
        ∧ signed = Ts.ofMembers (signedDoc crypto kp.seed keyId q) := by
  have hu := uniqueNames_docPayload hr hq
  have hbytes {b : Bytes} (h : Ts.canonicalize (Ts.ofDoc (.obj q)) = .ok b) :
      b = payloadBytes q := by
    have hclean : TsClean (.obj q) := (ts_isOk_iff hu hint).mp ⟨b, h⟩
    have hsafe := Every.imp (fun _ hl => hl) (fun _ hs => hs) (fun _ _ => trivial) hclean
    rw [ts_bytes hu hsafe h, tsStripped_docPayload hproto hq]
    rfl
  constructor
  · rintro ⟨payload, hp, hsign⟩
    obtain ⟨q', hq', rfl⟩ := ts_buildPayload_eq_ok_iff.mp hp
    obtain rfl := Except.ok.inj (hq.symm.trans hq')
    obtain ⟨hne, -, -, -, bytes, hcanon, rfl⟩ := Ts.signReceipt_eq_ok_iff.mp hsign
    rw [← Ts.ofDoc_obj] at hcanon
    obtain rfl := hbytes hcanon
    exact ⟨hne, (ts_isOk_iff hu hint).mp ⟨_, hcanon⟩, (ts_ofMembers_signedDoc kp.seed).symm⟩
  · rintro ⟨hne, hclean, rfl⟩
    obtain ⟨bytes, hcanon⟩ := (ts_isOk_iff hu hint).mpr hclean
    have heq := hbytes hcanon
    subst heq
    rw [Ts.ofDoc_obj] at hcanon
    have hnames : names (Ts.ofMembers q) = names q :=
      (names_map_mapMember _ _ q).trans (List.map_id _)
    refine ⟨_, ts_buildPayload_eq_ok_iff.mpr ⟨q, hq, rfl⟩, Ts.signReceipt_eq_ok_iff.mpr
      ⟨hne, fun k hk => ?_, fun k hk => ?_, kp.seed_length, _, hcanon, ?_⟩⟩
    · rw [hnames] at hk
      exact (names_docPayload hq hk).1
    · rw [hnames] at hk
      exact (names_docPayload hq hk).2
    · exact ts_ofMembers_signedDoc kp.seed

/-! ## The texts -/

/-- Both languages read the text as the object. -/
def ReadAs (text : PyStr) (ms : List (JsStr × Doc)) : Prop :=
  Py.loads text = some (.obj (Py.ofMembers ms))
    ∧ Ts.jsonParse (encode text) = some (.obj (Ts.ofMembers ms))

theorem readAs_of_parse {text : PyStr} {ms : List (JsStr × Doc)}
    (hwell : ∀ c ∈ text, ¬ IsSurrogate c.val) (h : Doc.parse text = some (.obj ms)) :
    ReadAs text ms := by
  unfold ReadAs Py.loads Ts.jsonParse
  rw [decode_encode hwell, h, Option.map_some, Option.map_some, Py.ofDoc_obj, Ts.ofDoc_obj]
  exact ⟨rfl, rfl⟩

/-- `ensure_ascii` leaves ASCII. -/
theorem quoteChar_wideAscii (c : CodePoint) : ∀ d ∈ quoteChar Py.wideAscii c, d.val < 0x80 := by
  by_cases hc : c.val < 0x7F
  · have hraw : quoteChar Py.wideAscii c = quoteChar wideRaw c := by
      have hw : Py.wideAscii c = wideRaw c := if_pos hc
      rw [quoteChar, quoteChar, hw]
    rw [hraw]
    exact quoteChar_ascii (by omega)
  · -- no character of a short escape is this high
    have hne {d : Char} (hd : d.toNat < 0x7F) : c ≠ chr d := fun heq => by
      rw [heq, chr_val (by omega)] at hc
      exact hc hd
    rw [quoteChar, if_neg (hne (by decide)), if_neg (hne (by decide)), if_neg (by omega),
      if_neg (by omega), if_neg (by omega), if_neg (by omega), if_neg (by omega),
      if_neg (by omega), Py.wideAscii, if_neg hc]
    intro d hd
    obtain ⟨u, -, hd⟩ := List.mem_flatMap.mp hd
    exact ofChars_ascii (unicodeEscape_ascii u.val) d hd

/-- **What `json.dumps` writes of a document** is ASCII. -/
theorem docSpaced_ascii (d : Doc) : ∀ c ∈ Py.docSpaced.write d, c.val < 0x80 := by
  have hascii : ∀ c : Char, c.toNat < 0x80 → (chr c : CodePoint).val < 0x80 := by
    intro c hc
    rwa [chr_val (by omega)]
  have hcomma : ∀ c ∈ Py.docSpaced.comma, c.val < 0x80 := lit_ascii (by decide : Ascii ", ")
  have hcolon : ∀ c ∈ Py.docSpaced.colon, c.val < 0x80 := lit_ascii (by decide : Ascii ": ")
  have hquote (us : JsStr) : ∀ c ∈ Py.docSpaced.quote us, c.val < 0x80 := by
    change ∀ c ∈ quoteWith Py.wideAscii (decode us), c.val < 0x80
    simp only [quoteWith, List.forall_mem_cons, List.forall_mem_append, List.mem_flatMap,
      List.mem_singleton, forall_eq, hascii '"' (by decide), true_and, and_true]
    rintro c ⟨d, -, hd⟩
    exact quoteChar_wideAscii d c hd
  refine (Py.docSpaced.forall_mem_write hascii hcomma hcolon).mpr ?_
  exact every_of_forall Lit.text_ascii hquote hquote d

theorem dumps_ofDoc {d : Doc} (hd : Every Doc.SafeLit (fun _ => True) (fun _ => True) d) :
    Py.dumps (Py.ofDoc d) = Py.docSpaced.write d := by
  have pieces : Every (fun l => Py.spaced.number (Py.loadNumber l) = Py.docSpaced.number l)
      (fun s => Py.spaced.quote (decode s) = Py.docSpaced.quote s)
      (fun k => Py.spaced.quote (decode k) = Py.docSpaced.quote k) d := by
    refine Every.imp ?_ (fun _ _ => rfl) (fun _ _ => rfl) hd
    rintro _ ⟨z, rfl, -⟩
    rfl
  exact Style.write_map TextHom.id (by rfl) (by rfl) pieces

/-- **Python's text** is read alike. -/
theorem readAs_dumps {ms : List (JsStr × Doc)} (hu : UniqueNames (.obj ms))
    (hsafe : Every Doc.SafeLit (fun _ => True) (fun _ => True) (.obj ms)) :
    ReadAs (Py.dumps (.obj (Py.ofMembers ms))) ms := by
  rw [← Py.ofDoc_obj, dumps_ofDoc hsafe]
  refine readAs_of_parse (fun c hc => ?_) (Doc.parse_write Py.readable_docSpaced hu)
  have := docSpaced_ascii _ c hc
  omega

/-- Data of safe integers is what `JSON.stringify` writes of it. -/
theorem jsonValue_ofDoc {d : Doc} (hd : Every Doc.SafeLit (fun _ => True) (fun _ => True) d) :
    Ts.jsonValue (Ts.ofDoc d) = Ts.ofDoc d := by
  refine Ts.jsonValue_eq_self (every_map.mpr (Every.imp ?_ (fun _ h => h) (fun _ h => h) hd))
  rintro _ ⟨z, rfl, hz⟩
  unfold Ts.Finite
  rw [Ts.parseNumber_int hz]
  rfl

/-- **TypeScript's text** is read alike. -/
theorem readAs_stringify {ms : List (JsStr × Doc)} (hu : UniqueNames (.obj ms))
    (hsafe : Every Doc.SafeLit (fun _ => True) (fun _ => True) (.obj ms)) :
    ReadAs (decode (Ts.stringify (.obj (Ts.ofMembers ms)))) ms := by
  have htext : decode (Ts.stringify (.obj (Ts.ofMembers ms))) = Doc.style.write (.obj ms) := by
    unfold Ts.stringify
    rw [← Ts.ofDoc_obj, jsonValue_ofDoc hsafe, Ts.write_ofDoc hsafe,
      decode_encode (Doc.write_wellFormed _)]
  rw [htext]
  exact readAs_of_parse (Doc.write_wellFormed _) (Doc.parse_write Doc.readable_style hu)

/-! ## The key -/

/-- `public_key_to_jwk`, as a document. -/
def jwkDoc (publicKey : Bytes) (kid : JsStr) : List (JsStr × Doc) :=
  [(lit "kty", .str (lit "OKP")), (lit "crv", .str (lit "Ed25519")),
    (lit "x", .str (Ts.b64url publicKey)), (lit "kid", .str kid), (lit "use", .str (lit "sig"))]

theorem py_ofMembers_jwkDoc (publicKey : Bytes) (kid : JsStr) :
    Py.ofMembers (jwkDoc publicKey kid) = Py.publicKeyToJwk publicKey (decode kid) := by
  have hlit : ∀ s ∈ ["kty", "OKP", "crv", "Ed25519", "x", "kid", "use", "sig"], Ascii s := by decide
  simp only [List.forall_mem_cons, List.not_mem_nil, IsEmpty.forall_iff, implies_true,
    and_true] at hlit
  obtain ⟨h1, h2, h3, h4, h5, h6, h7, h8⟩ := hlit
  unfold Py.publicKeyToJwk
  rw [b64urlEncode_eq_b64url]
  simp only [Py.ofMembers, jwkDoc, List.map_cons, List.map_nil, mapMember, map_str, decode_lit, *]

/-- The first entry with the key id is the given one; those before it are
objects, those after it anything. -/
def FirstKeyDoc (jwks : List (JsStr × Doc)) (keyId : JsStr) (jwk : List (JsStr × Doc)) : Prop :=
  ∃ before after, get? (lit "keys") jwks = some (.arr (before ++ .obj jwk :: after))
    ∧ get? (lit "kid") jwk = some (.str keyId)
    ∧ ∀ e ∈ before, ∃ ms, e = .obj ms ∧ get? (lit "kid") ms ≠ some (.str keyId)

variable {jwks jwk : List (JsStr × Doc)}

theorem FirstKeyDoc.py (h : FirstKeyDoc jwks keyId jwk) :
    Py.FirstKey (Py.ofMembers jwks) (decode keyId) (Py.ofMembers jwk) := by
  obtain ⟨before, after, hkeys, hkid, hbefore⟩ := h
  have hget (k : String) (hk : Ascii k) (ms : List (JsStr × Doc)) :
      get? (lit k) (Py.ofMembers ms) = (get? (lit k) ms).map Py.ofDoc := by
    rw [← Py.get?_ofMembers, decode_lit hk]
  refine ⟨before.map Py.ofDoc, after.map Py.ofDoc, ?_, ?_, ?_⟩
  · rw [hget "keys" (by decide), hkeys, Option.map_some, Py.ofDoc, map_arr, List.map_append,
      List.map_cons, map_obj]
    rfl
  · rw [hget "kid" (by decide), hkid]
    rfl
  · rw [List.forall_mem_map]
    intro e he
    obtain ⟨ms, rfl, hne⟩ := hbefore e he
    refine ⟨Py.ofMembers ms, Py.ofDoc_obj ms, fun hsame => hne ?_⟩
    rw [hget "kid" (by decide), Option.map_eq_some_iff] at hsame
    obtain ⟨v, hv, hstr⟩ := hsame
    cases v with
    | str s =>
      obtain rfl := decode_injective (Json.str.inj hstr)
      exact hv
    | null | bool | num | arr | obj => simp [Py.ofDoc] at hstr

theorem FirstKeyDoc.ts (h : FirstKeyDoc jwks keyId jwk) :
    Ts.FirstKey (Ts.ofMembers jwks) keyId (Ts.ofMembers jwk) := by
  obtain ⟨before, after, hkeys, hkid, hbefore⟩ := h
  refine ⟨before.map Ts.ofDoc, after.map Ts.ofDoc, ?_, ?_, ?_⟩
  · rw [Ts.get?_ofMembers, hkeys, Option.map_some, Ts.ofDoc, map_arr, List.map_append,
      List.map_cons, map_obj]
    rfl
  · rw [Ts.get?_ofMembers, hkid]
    rfl
  · rw [List.forall_mem_map]
    intro e he
    obtain ⟨ms, rfl, hne⟩ := hbefore e he
    refine ⟨Ts.ofMembers ms, Ts.ofDoc_obj ms, fun hsame => hne ?_⟩
    rw [Ts.get?_ofMembers, Option.map_eq_some_iff] at hsame
    obtain ⟨v, hv, hstr⟩ := hsame
    cases v with
    | str s =>
      obtain rfl : s = keyId := Json.str.inj hstr
      exact hv
    | null | bool | num | arr | obj => simp [Ts.ofDoc] at hstr

/-! ## The interchange -/

theorem uniqueNames_signedDoc (seed : Bytes) (hq : UniqueNames (.obj q)) :
    UniqueNames (.obj (signedDoc crypto seed keyId q)) := by
  rw [uniqueNames_obj] at hq ⊢
  exact Clean.set (Clean.set (Clean.set hq trivial) trivial) trivial

theorem safe_signedDoc (seed : Bytes)
    (hq : Every Doc.SafeLit (fun _ => True) (fun _ => True) (.obj q)) :
    Every Doc.SafeLit (fun _ => True) (fun _ => True) (.obj (signedDoc crypto seed keyId q)) :=
  Every.set trivial trivial (Every.set trivial trivial (Every.set trivial trivial hq))

theorem get?_hash_signedDoc (seed : Bytes) :
    get? (lit "canonical_hash") (signedDoc crypto seed keyId q)
      = some (.str (hex (crypto.sha256 (payloadBytes q)))) := by
  unfold signedDoc
  rw [get?_set, if_neg (by decide), get?_set, if_neg (by decide), get?_set, if_pos rfl]

section Verifies

variable {s received : List (JsStr × Doc)} {hash : JsStr}

/-- A receipt Python signs passes Python's verifier in any member order. -/
theorem PySigns.verifies [Ucd] (kp : KeyPair crypto) {privateKey : Py.PrivateKeyInput}
    (hkey : privateKey.seed = kp.seed) (hr : UniqueNames (.obj r))
    (hsign : PySigns crypto r privateKey keyId (Py.ofMembers s))
    (hhash : get? (lit "canonical_hash") s = some (.str hash))
    (hrec : UniqueNames (.obj received)) (hsame : Same (.obj received) (.obj s))
    (hjwks : FirstKeyDoc jwks keyId (jwkDoc (crypto.publicKey kp.seed) keyId)) :
    Py.verifyReceipt crypto (Py.ofMembers received) (Py.ofMembers jwks)
      = .ok { valid := true, error := none, keyId := .str (decode keyId),
              canonicalHash := decode hash } := by
  obtain ⟨payload, hp, hsign⟩ := hsign
  have hu {ms : List (JsStr × Doc)} (hms : UniqueNames (.obj ms)) :
      UniqueNames (.obj (Py.ofMembers ms)) := by
    rw [← Py.ofDoc_obj]
    exact Py.uniqueNames_ofDoc hms
  have hsame' : Same (.obj (Py.ofMembers received)) (.obj (Py.ofMembers s)) := by
    rw [← Py.ofDoc_obj, ← Py.ofDoc_obj]
    exact hsame.map decode_injective
  have hfirst := hjwks.py
  rw [py_ofMembers_jwkDoc] at hfirst
  obtain ⟨hash', hhash', hverify⟩ :=
    Py.verifyReceipt_received kp (hu hr) hp hkey hsign (hu hrec) hsame' hfirst
  rw [← decode_lit (by decide : Ascii "canonical_hash"), Py.get?_ofMembers, hhash] at hhash'
  obtain rfl := Json.str.inj (Option.some.inj hhash')
  exact hverify

/-- A receipt TypeScript signs, of safe integers, passes its verifier in
any member order. -/
theorem TsSigns.verifies (kp : KeyPair crypto) (hr : UniqueNames (.obj r))
    (hsafe : Every Doc.SafeLit (fun _ => True) (fun _ => True) (.obj s))
    (hsign : TsSigns crypto r kp.seed keyId (Ts.ofMembers s))
    (hhash : get? (lit "canonical_hash") s = some (.str hash))
    (hrec : UniqueNames (.obj received)) (hsame : Same (.obj received) (.obj s))
    (hjwks : FirstKeyDoc jwks keyId (jwkDoc (crypto.publicKey kp.seed) keyId)) :
    Ts.verifyReceipt crypto (Ts.ofMembers received) (Ts.ofMembers jwks)
      = .ok { valid := true, error := none, keyId := .str keyId, canonicalHash := hash } := by
  obtain ⟨payload, hp, hsign⟩ := hsign
  have hu {ms : List (JsStr × Doc)} (hms : UniqueNames (.obj ms)) :
      UniqueNames (.obj (Ts.ofMembers ms)) := by
    rw [← Ts.ofDoc_obj]
    exact Ts.uniqueNames_ofDoc hms
  have hsame' : Same (.obj (Ts.ofMembers received)) (Ts.jsonValue (.obj (Ts.ofMembers s))) := by
    rw [← Ts.ofDoc_obj, ← Ts.ofDoc_obj, jsonValue_ofDoc hsafe]
    exact hsame.map Function.injective_id
  obtain ⟨hash', hhash', hverify⟩ :=
    Ts.verifyReceipt_received kp (hu hr) hp hsign (hu hrec) hsame' hjwks.ts
  rw [Ts.get?_ofMembers, hhash] at hhash'
  obtain rfl := Json.str.inj (Option.some.inj hhash')
  exact hverify

end Verifies

/-- What can be done with a signed receipt in either language: its text is
read from either writer, and any document that is the same up to member
order is valid under the key's JWK. -/
structure Travels (crypto : Crypto) (publicKey : Bytes) (keyId : JsStr) (s : List (JsStr × Doc)) :
    Prop where
  dumped : ReadAs (Py.dumps (.obj (Py.ofMembers s))) s
  stringified : ReadAs (decode (Ts.stringify (.obj (Ts.ofMembers s)))) s
  verified : ∀ received jwks : List (JsStr × Doc), UniqueNames (.obj received) →
    Same (.obj received) (.obj s) → FirstKeyDoc jwks keyId (jwkDoc publicKey keyId) →
    ∃ hash, get? (lit "canonical_hash") s = some (.str hash)
      ∧ Py.verifyReceipt crypto (Py.ofMembers received) (Py.ofMembers jwks)
        = .ok { valid := true, error := none, keyId := .str (decode keyId),
                canonicalHash := decode hash }
      ∧ Ts.verifyReceipt crypto (Ts.ofMembers received) (Ts.ofMembers jwks)
        = .ok { valid := true, error := none, keyId := .str keyId, canonicalHash := hash }

theorem PyClean.integral {d : Doc} (h : PyClean d) : Integral d := by
  refine Every.imp ?_ (fun _ h => h) (fun _ _ => trivial) h.1
  rintro _ ⟨z, rfl, -⟩
  exact ⟨z, rfl⟩

/-- **Python signs** exactly when TypeScript does and Python's canonicalizer
takes the payload. -/
theorem pySigns_iff_tsSigns [Ucd] (kp : KeyPair crypto) {privateKey : Py.PrivateKeyInput}
    (hkey : privateKey.seed = kp.seed) (hr : UniqueNames (.obj r))
    (hproto : Lacks Ts.protoName (.obj r)) :
    (∃ signed, PySigns crypto r privateKey keyId signed)
      ↔ (∃ signed, TsSigns crypto r kp.seed keyId signed)
        ∧ ∃ q, docPayload r = .ok q ∧ PyClean (.obj q) := by
  constructor
  · rintro ⟨signed, hsign⟩
    obtain ⟨hne, q, hq, hclean, -⟩ := (pySigns_iff kp hkey).mp hsign
    exact ⟨⟨_, (tsSigns_iff kp hr hproto hq hclean.integral).mpr ⟨hne, hclean.tsClean, rfl⟩⟩, q, hq,
      hclean⟩
  · rintro ⟨⟨signed, hsign⟩, q, hq, hclean⟩
    obtain ⟨hne, -, -⟩ := (tsSigns_iff kp hr hproto hq hclean.integral).mp hsign
    exact ⟨_, (pySigns_iff kp hkey).mpr ⟨hne, q, hq, hclean, rfl⟩⟩

/-- **What Python signs** TypeScript signs too, and it travels. -/
theorem travels_of_pySigns [Ucd] (kp : KeyPair crypto) {privateKey : Py.PrivateKeyInput}
    (hkey : privateKey.seed = kp.seed) (hr : UniqueNames (.obj r))
    (hproto : Lacks Ts.protoName (.obj r)) {signed : Py.PyDict}
    (hsign : PySigns crypto r privateKey keyId signed) :
    ∃ s, signed = Py.ofMembers s ∧ TsSigns crypto r kp.seed keyId (Ts.ofMembers s)
      ∧ Travels crypto (crypto.publicKey kp.seed) keyId s := by
  obtain ⟨hne, q, hq, hclean, rfl⟩ := (pySigns_iff kp hkey).mp hsign
  have hts : TsSigns crypto r kp.seed keyId (Ts.ofMembers (signedDoc crypto kp.seed keyId q)) :=
    (tsSigns_iff kp hr hproto hq hclean.integral).mpr ⟨hne, hclean.tsClean, rfl⟩
  have hu : UniqueNames (.obj (signedDoc crypto kp.seed keyId q)) :=
    uniqueNames_signedDoc _ (uniqueNames_docPayload hr hq)
  have hsafe : Every Doc.SafeLit (fun _ => True) (fun _ => True)
      (.obj (signedDoc crypto kp.seed keyId q)) :=
    safe_signedDoc kp.seed (Every.imp (fun _ h => h) (fun _ h => h) (fun _ _ => trivial) hclean.1)
  have hhash := @get?_hash_signedDoc crypto q keyId kp.seed
  refine ⟨_, rfl, hts, readAs_dumps hu hsafe, readAs_stringify hu hsafe, ?_⟩
  intro received jwks hrec hsame hjwks
  exact ⟨_, hhash, hsign.verifies kp hkey hr hhash hrec hsame hjwks,
    hts.verifies kp hr hsafe hhash hrec hsame hjwks⟩

/-- **Signed in one SDK, verified in the other.** Python signs a receipt
document exactly when TypeScript does and Python's canonicalizer takes its
payload; both then return one signed receipt, either writer's text of it is
read by both languages as that receipt, and any document that is the same
up to member order is valid to both verifiers under the key's JWK. -/
theorem signed_interchange [Ucd] (kp : KeyPair crypto) {privateKey : Py.PrivateKeyInput}
    (hkey : privateKey.seed = kp.seed) (hr : UniqueNames (.obj r))
    (hproto : Lacks (lit "__proto__") (.obj r)) :
    ((∃ signed, PySigns crypto r privateKey keyId signed)
      ↔ (∃ signed, TsSigns crypto r kp.seed keyId signed)
        ∧ ∃ q, docPayload r = .ok q ∧ PyClean (.obj q)) ∧
    ∀ signed, PySigns crypto r privateKey keyId signed →
      ∃ s, signed = Py.ofMembers s ∧ TsSigns crypto r kp.seed keyId (Ts.ofMembers s)
        ∧ Travels crypto (crypto.publicKey kp.seed) keyId s :=
  ⟨pySigns_iff_tsSigns kp hkey hr hproto,
    fun _ hsign => travels_of_pySigns kp hkey hr hproto hsign⟩

section Sample

attribute [local instance] Ucd.allPrintable

/-- The sample receipt, signed in Python and verified in TypeScript. -/
theorem signed_interchange_sample :
    ∃ s, Py.ofMembers (Sample.receipt (.obj [])) = Py.ofMembers s
      ∧ TsSigns Sample.crypto (Sample.payload (.obj [])) Sample.seed (lit "k1") (Ts.ofMembers s)
      ∧ Travels Sample.crypto Sample.publicKey (lit "k1") s := by
  have hproto : Lacks (lit "__proto__") (.obj (Sample.payload (.obj []))) := by
    unfold Lacks
    decide
  obtain ⟨s, hs, hts, htravels⟩ := (@signed_interchange _ _ (lit "k1") _ Sample.keyPair
    (.bytes Sample.seed) rfl (by decide) hproto).2
    (Py.ofMembers (Sample.receipt (.obj [])))
    ⟨Py.ofMembers (Sample.payload (.obj [])), by decide +kernel, by decide +kernel⟩
  exact ⟨s, hs, hts, htravels⟩

end Sample

end Parity

end OpenTerms
