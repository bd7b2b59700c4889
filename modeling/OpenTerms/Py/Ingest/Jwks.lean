import OpenTerms.Common.Threads
import OpenTerms.Py.Ingest.Sample
import OpenTerms.Py.Verdict

/-!
# The JWKS of a client

`fetch_jwks` and `verify` as calls on one client, which any number of
callers may share: the JWKS it holds is read, asked for over the network
and replaced in separate steps. Nothing but a document that came in a
response to such a request ever replaces it (`Known`). So a receipt that
`verify` reports valid is signed under a key of the JWKS the caller
passed, of the one the client was built with, or of one fetched from
`jwks_url` or an address some caller asked for
(`valid_under_known_key`), whatever the callers do in between.
-/

namespace OpenTerms

namespace Py

namespace Ingest

open Json Prog

/-! ## The calls -/

/-- How the request for a JWKS ends, its body read. An `HTTPError` is a
`URLError`; what `Request` raises on an address is among the others. -/
inductive JwksReply where
  | response (body : Bytes)
  /-- A `URLError`, by its text. -/
  | urlError (text : PyStr)
  | raised (name : PyStr)

/-- What the two methods do to the client and the network. -/
inductive JwksOp where
  /-- `self._jwks`. -/
  | getJwks
  /-- `self._jwks = jwks`. -/
  | setJwks (jwks : PyVal)
  /-- `urllib.request.urlopen`, of a JWKS. -/
  | urlopen (target : PyStr)

@[reducible] def JwksAns : JwksOp → Type
  | .getJwks => PyVal
  | .setJwks _ => Unit
  | .urlopen _ => JwksReply

abbrev JwksM := Prog JwksOp JwksAns Exc

/-- `IngestClient`, with the address its JWKS is fetched from. -/
structure JwksClient extends IngestClient where
  jwksUrl : Option PyStr

/-- The document a body holds. -/
def readJwks (libs : Libs) (body : Bytes) : Except Exc PyVal :=
  match Utf8.decode body with
  | none => .error .unicodeDecodeError
  | some text =>
    match libs.loads text with
    | none => .error .jsonDecodeError
    | some jwks => .ok jwks

/-- What `fetch_jwks` makes of a reply. -/
def jwksOfReply (libs : Libs) (target : PyStr) : JwksReply → Except Exc PyVal
  | .response body => readJwks libs body
  | .urlError text =>
    .error (.ingest { message := lit "failed to fetch JWKS from " ++ target ++ lit ": " ++ text,
                      status := none,
                      body := none,
                      code := .null })
  | .raised name => .error (.other name)

/-- `url or self.jwks_url`. -/
def JwksClient.target (self : JwksClient) (url : Option PyStr) : Option PyStr :=
  (given url).or (given self.jwksUrl)

/-- `IngestClient.fetch_jwks`. -/
def JwksClient.fetchJwks (self : JwksClient) (libs : Libs) (url : Option PyStr) : JwksM PyVal :=
  match self.target url with
  | none => throw (.py (.valueError
      (lit "no jwks_url configured; pass url= or set jwks_url at init")))
  | some target => do
    let reply ← Prog.op (JwksOp.urlopen target)
    let jwks ← liftM (jwksOfReply libs target reply)
    Prog.op (JwksOp.setJwks jwks)
    pure jwks

/-- `verify_receipt`, of keys that need not be a dict: anything else has
no `get`, which is asked for once the hash is found to be right. -/
def verifyWith (crypto : Crypto) (receipt : PyDict) : PyVal → Except PyErr VerifyResult
  | .obj jwks => verifyReceipt crypto receipt jwks
  | _ => do
    let claimedHash ← requireMetadata receipt (lit "canonical_hash")
    let _ ← requireMetadata receipt (lit "signature")
    let keyId ← requireMetadata receipt (lit "key_id")
    let hashBytes ← receiptDigest crypto receipt
    if !pyEq (.str (hex hashBytes)) claimedHash then
      .ok (fail .hashMismatch keyId (hex hashBytes))
    else .error .attributeError

/-- The keys `verify` goes by: those passed, those held, or those fetched
now. -/
def JwksClient.keysFor (self : JwksClient) (libs : Libs) (jwks : PyVal) : JwksM PyVal :=
  if jwks ≠ .null then pure jwks
  else
    Prog.op JwksOp.getJwks >>= fun keys =>
      if keys ≠ .null then pure keys
      else if given self.jwksUrl = none then
        throw (.py (.valueError
          (lit "no JWKS available; pass jwks= or configure jwks_url / jwks at init")))
      else self.fetchJwks libs none

/-- `IngestClient.verify`. -/
def JwksClient.verify (self : JwksClient) (libs : Libs) (receipt : PyDict) (jwks : PyVal) :
    JwksM VerifyResult := do
  let keys ← self.keysFor libs jwks
  liftM (liftPy (verifyWith libs.crypto receipt keys))

/-- What is called on the client. -/
inductive JwksCall where
  | fetchJwks (url : Option PyStr)
  | verify (receipt : PyDict) (jwks : PyVal)

/-- What a call returns. -/
inductive JwksReturned where
  | jwks (jwks : PyVal)
  | verified (result : VerifyResult)

/-- A call on the client. -/
def JwksClient.run (self : JwksClient) (libs : Libs) : JwksCall → JwksM JwksReturned
  | .fetchJwks url => do
    let jwks ← self.fetchJwks libs url
    pure (.jwks jwks)
  | .verify receipt jwks => do
    let result ← self.verify libs receipt jwks
    pure (.verified result)

/-- What the calls share is `_jwks`; a request is met with what comes in
from outside. -/
def handleJwks (jwks : PyVal) (reply : JwksReply) : (o : JwksOp) → JwksAns o × PyVal
  | .getJwks => (jwks, jwks)
  | .setJwks jwks' => ((), jwks')
  | .urlopen _ => (reply, jwks)

/-- The calls on one client. -/
def JwksClient.system (self : JwksClient) (libs : Libs) :
    System JwksOp JwksAns Exc JwksReturned JwksCall PyVal JwksReply where
  body := self.run libs
  handle := handleJwks

/-! ## What a call does -/

/-- The address a call asks for its JWKS. -/
def JwksCall.target (self : JwksClient) : JwksCall → Option PyStr
  | .fetchJwks url => self.target url
  | .verify _ _ => given self.jwksUrl

/-- An operation of the call `k`. -/
def JwksDoes (self : JwksClient) (libs : Libs) (k : JwksCall) (trace : List (Performed JwksAns)) :
    JwksOp → Prop
  | .getJwks => trace = [] ∧ ∃ receipt, k = .verify receipt .null
  | .urlopen target => k.target self = some target
      ∧ ∀ receipt jwks, k = .verify receipt jwks → trace = [⟨.getJwks, .null⟩]
  | .setJwks jwks => ∃ target body, ⟨.urlopen target, .response body⟩ ∈ trace
      ∧ k.target self = some target ∧ readJwks libs body = .ok jwks

/-- Where the keys of a `verify` came from, by what it did last. -/
inductive KeysFrom : PyVal → PyVal → List (Performed JwksAns) → Prop
  | passed {keys : PyVal} (hkeys : keys ≠ .null) : KeysFrom keys keys []
  | held {keys : PyVal} (hkeys : keys ≠ .null) : KeysFrom .null keys [⟨.getJwks, keys⟩]
  | fetched {keys : PyVal} {trace : List (Performed JwksAns)}
      (hhead : trace.head? = some ⟨.setJwks keys, ()⟩) : KeysFrom .null keys trace

/-- How the call `k` ends, where it does not raise. -/
def JwksEnds (libs : Libs) (k : JwksCall) (trace : List (Performed JwksAns)) :
    Except Exc JwksReturned → Prop
  | .error _ => True
  | .ok returned =>
    match k with
    | .fetchJwks _ => ∃ jwks, returned = .jwks jwks ∧ trace.head? = some ⟨.setJwks jwks, ()⟩
    | .verify receipt jwks => ∃ keys result, returned = .verified result
        ∧ verifyWith libs.crypto receipt keys = .ok result ∧ KeysFrom jwks keys trace

section

variable {self : JwksClient} {libs : Libs}

/-- What is asked for is answered, read and stored. -/
theorem fetchJwks_keeps {k : JwksCall} {url : Option PyStr} {trace : List (Performed JwksAns)}
    {A : (o : JwksOp) → JwksAns o → Prop} (htarget : k.target self = self.target url)
    (htrace : ∀ receipt jwks, k = .verify receipt jwks → trace = [⟨.getJwks, .null⟩]) :
    (self.fetchJwks libs url).Keeps (JwksDoes self libs k) A
      (fun tr r => ∀ jwks, r = .ok jwks → tr.head? = some ⟨.setJwks jwks, ()⟩) trace := by
  unfold JwksClient.fetchJwks
  cases hurl : self.target url with
  | none =>
    intro jwks h
    cases h
  | some target =>
    rw [hurl] at htarget
    dsimp only
    rw [op_bind]
    refine ⟨⟨htarget, htrace⟩, fun reply _ => Keeps.bind ?_⟩
    rw [lift_eq, keeps_done]
    cases hread : jwksOfReply libs target reply with
    | error e =>
      intro jwks h
      cases h
    | ok jwks =>
      cases reply with
      | response body =>
        refine ⟨⟨target, body, List.mem_cons_self, htarget, hread⟩, fun _ _ jwks' h => ?_⟩
        obtain rfl := Except.ok.inj h
        rfl
      | urlError text => cases hread
      | raised name => cases hread

/-- Where the keys come from. -/
theorem keysFor_keeps {receipt : PyDict} {jwks : PyVal} {A : (o : JwksOp) → JwksAns o → Prop} :
    (self.keysFor libs jwks).Keeps (JwksDoes self libs (.verify receipt jwks)) A
      (fun tr r => ∀ keys, r = .ok keys → KeysFrom jwks keys tr) [] := by
  unfold JwksClient.keysFor
  by_cases hjwks : jwks = .null
  · subst hjwks
    rw [if_neg (not_not.mpr rfl), op_bind]
    refine ⟨⟨rfl, receipt, rfl⟩, fun held _ => ?_⟩
    dsimp only
    by_cases hheld : held = .null
    · subst hheld
      rw [if_neg (not_not.mpr rfl)]
      by_cases hurl : given self.jwksUrl = none
      · rw [if_pos hurl]
        intro keys h
        cases h
      · rw [if_neg hurl]
        refine (fetchJwks_keeps rfl fun _ _ _ => rfl).imp fun tr r hr keys hkeys => ?_
        exact .fetched (hr keys hkeys)
    · rw [if_pos hheld]
      intro keys h
      obtain rfl := Except.ok.inj h
      exact .held hheld
  · rw [if_pos hjwks]
    intro keys h
    obtain rfl := Except.ok.inj h
    exact .passed hjwks

/-- **What the calls do**, whatever they are answered. -/
theorem run_keeps (self : JwksClient) (libs : Libs) (k : JwksCall) :
    (self.run libs k).Keeps (JwksDoes self libs k) (fun _ _ => True) (JwksEnds libs k) [] := by
  cases k with
  | fetchJwks url =>
    refine Keeps.bind ((fetchJwks_keeps rfl ?_).imp ?_)
    · rintro receipt jwks ⟨⟩
    · intro tr r hr
      cases r with
      | error e => trivial
      | ok jwks => exact ⟨jwks, rfl, hr jwks rfl⟩
  | verify receipt jwks =>
    refine Keeps.bind (Keeps.bind (keysFor_keeps.imp fun tr r hr => ?_))
    cases r with
    | error e => trivial
    | ok keys =>
      cases hresult : verifyWith libs.crypto receipt keys with
      | error e =>
        rw [Then, hresult]
        trivial
      | ok result =>
        rw [Then, hresult]
        exact ⟨keys, result, rfl, hresult, hr keys rfl⟩

/-! ## Over a run -/

/-- A state of the calls on a client. -/
abbrev JwksConfig (ι : Type) := Config JwksOp JwksAns Exc JwksReturned JwksCall ι PyVal

/-- What is on record of them. -/
abbrev JwksRecord (ι : Type) := List (Event JwksAns Exc JwksReturned JwksCall ι)

variable {ι : Type} {initial : PyVal}

/-- The keys came in a response to a request that a call made, from the
address it was to ask. -/
def FetchedKeys (self : JwksClient) (libs : Libs) (h : JwksRecord ι) (keys : PyVal) : Prop :=
  ∃ i k target body, .performed i k ⟨.urlopen target, .response body⟩ ∈ h
    ∧ k.target self = some target ∧ readJwks libs body = .ok keys

/-- The keys the client was built with, or some that were fetched. -/
def KnownKeys (self : JwksClient) (libs : Libs) (initial : PyVal) (h : JwksRecord ι)
    (keys : PyVal) : Prop :=
  keys = initial ∨ FetchedKeys self libs h keys

theorem FetchedKeys.cons {h : JwksRecord ι} {keys : PyVal} (hkeys : FetchedKeys self libs h keys)
    (e : Event JwksAns Exc JwksReturned JwksCall ι) : FetchedKeys self libs (e :: h) keys := by
  obtain ⟨i, k, target, body, hmem, hread⟩ := hkeys
  exact ⟨i, k, target, body, List.mem_cons_of_mem _ hmem, hread⟩

theorem KnownKeys.cons {h : JwksRecord ι} {keys : PyVal}
    (hkeys : KnownKeys self libs initial h keys)
    (e : Event JwksAns Exc JwksReturned JwksCall ι) :
    KnownKeys self libs initial (e :: h) keys :=
  hkeys.imp_right fun hfetched => hfetched.cons e

/-- The keys held, and every keys that were read, are known; every keys
that were stored had been fetched. -/
structure Known (client : JwksClient) (libs : Libs) (initial : PyVal) (c : JwksConfig ι) : Prop where
  held : KnownKeys client libs initial c.history c.shared
  read : ∀ i k keys, .performed i k ⟨.getJwks, keys⟩ ∈ c.history →
    KnownKeys client libs initial c.history keys
  stored : ∀ i k keys, .performed i k ⟨.setJwks keys, ()⟩ ∈ c.history →
    FetchedKeys client libs c.history keys

/-- An event that is no operation. -/
theorem Known.event {c c' : JwksConfig ι} (h : Known self libs initial c)
    {e : Event JwksAns Exc JwksReturned JwksCall ι} (hshared : c'.shared = c.shared)
    (hhistory : c'.history = e :: c.history) (he : ∀ i k x, e ≠ .performed i k x) :
    Known self libs initial c' := by
  refine ⟨?_, fun i k keys hmem => ?_, fun i k keys hmem => ?_⟩
  · rw [hshared, hhistory]
    exact h.held.cons e
  · rw [hhistory] at hmem ⊢
    rcases List.mem_cons.mp hmem with heq | hmem
    · exact absurd heq.symm (he i k _)
    · exact (h.read i k keys hmem).cons e
  · rw [hhistory] at hmem ⊢
    rcases List.mem_cons.mp hmem with heq | hmem
    · exact absurd heq.symm (he i k _)
    · exact (h.stored i k keys hmem).cons e

variable [DecidableEq ι]

/-- **An operation of a call** leaves the client with known keys. -/
theorem Known.perform {May : JwksConfig ι → Move JwksCall ι JwksReply → Prop} {c : JwksConfig ι}
    {start : PyVal} (hreach : (self.system libs).Reaches May (.start start) c)
    (h : Known self libs initial c) {i : ι} {input : JwksReply} {k : JwksCall}
    {trace : List (Performed JwksAns)} {o : JwksOp} {next : JwksAns o → JwksM JwksReturned}
    (hi : c.threads i = some ⟨k, trace, .perform o next⟩) (hdoes : JwksDoes self libs k trace o) :
    Known self libs initial ((self.system libs).perform c i k trace input o next) := by
  have hrecorded := hreach.recorded i _ hi
  -- what is stored is what the call has received, which is on record
  have hfetched {keys : PyVal} (hstored : JwksDoes self libs k trace (.setJwks keys)) :
      FetchedKeys self libs c.history keys := by
    obtain ⟨target, body, hmem, htarget, hread⟩ := hstored
    exact ⟨i, k, target, body, hrecorded _ hmem, htarget, hread⟩
  refine ⟨?_, fun j k' keys hmem => ?_, fun j k' keys hmem => ?_⟩
  · cases o with
    | getJwks => exact h.held.cons _
    | setJwks keys => exact Or.inr ((hfetched hdoes).cons _)
    | urlopen target => exact h.held.cons _
  · rcases List.mem_cons.mp hmem with heq | hmem
    · obtain ⟨-, -, hperformed⟩ := Event.performed.inj heq
      obtain ⟨rfl, hans⟩ := Performed.mk.inj hperformed
      obtain rfl : keys = c.shared := eq_of_heq hans
      exact h.held.cons _
    · exact (h.read j k' keys hmem).cons _
  · rcases List.mem_cons.mp hmem with heq | hmem
    · obtain ⟨-, -, hperformed⟩ := Event.performed.inj heq
      obtain ⟨rfl, -⟩ := Performed.mk.inj hperformed
      exact (hfetched hdoes).cons _
    · exact (h.stored j k' keys hmem).cons _

theorem known_of_reaches {May : JwksConfig ι → Move JwksCall ι JwksReply → Prop} {c : JwksConfig ι}
    (h : (self.system libs).Reaches May (.start initial) c) :
    System.Keeping (Known self libs initial) (JwksDoes self libs) (fun _ _ _ => True)
      (JwksEnds libs) c := by
  refine h.keeps ?_ ?_ ?_ ⟨⟨Or.inl rfl, ?_, ?_⟩, ?_⟩
  · intro d i k _ _ _ hd
    exact ⟨hd.inv.event rfl rfl (Event.called_ne_performed i k), run_keeps self libs k⟩
  · intro d i input k trace o next hreach _ hi hd hdoes
    exact ⟨hd.inv.perform hreach hi hdoes, trivial⟩
  · intro d i input k trace r _ _ _ hd _
    exact hd.inv.event rfl rfl (Event.returned_ne_performed i k r)
  · intro i k keys hmem
    cases hmem
  · intro i k keys hmem
    cases hmem
  · intro i t ht
    cases ht

/-! ## What is verified -/

/-- The keys have one with the receipt's key id under which the receipt's
hash and signature are those of its payload. -/
def Vouches (crypto : Crypto) (keys receipt : PyDict) : Prop :=
  ∃ payload bytes entries jwk pub sig,
    buildPayload receipt = .ok payload ∧ canonicalize (.obj payload) = .ok bytes
      ∧ get? (lit "canonical_hash") receipt = some (.str (hex (crypto.sha256 bytes)))
      ∧ get? (lit "keys") keys = some (.arr entries) ∧ .obj jwk ∈ entries
      ∧ pyEq (getD (lit "kid") jwk) (getD (lit "key_id") receipt) = true
      ∧ b64urlDecode (getD (lit "x") jwk) = .ok pub
      ∧ b64urlDecode (getD (lit "signature") receipt) = .ok sig
      ∧ crypto.verify pub (domainSeparator ++ crypto.sha256 bytes) sig = true

theorem mem_of_findKey {keyId : PyVal} {entries : List PyVal} {jwk : PyDict}
    (h : findKey keyId entries = .ok (some jwk)) :
    .obj jwk ∈ entries ∧ pyEq (getD (lit "kid") jwk) keyId = true := by
  induction entries with
  | nil => cases h
  | cons e entries ih =>
    cases e with
    | obj k =>
      rw [findKey] at h
      by_cases hkid : pyEq (getD (lit "kid") k) keyId = true
      · rw [if_pos hkid] at h
        obtain rfl := Option.some.inj (Except.ok.inj h)
        exact ⟨List.mem_cons_self, hkid⟩
      · rw [if_neg hkid] at h
        obtain ⟨hmem, hfound⟩ := ih h
        exact ⟨List.mem_cons_of_mem _ hmem, hfound⟩
    | null | bool _ | num _ | str _ | arr _ => cases h

/-- A key is found in a list of keys only. -/
theorem keys_of_findKey {keys : PyDict} {keyId : PyVal} {entries : List PyVal} {jwk : PyDict}
    (hentries : iterate ((get? (lit "keys") keys).getD (.arr [])) = .ok entries)
    (h : findKey keyId entries = .ok (some jwk)) :
    get? (lit "keys") keys = some (.arr entries) := by
  obtain ⟨hmem, -⟩ := mem_of_findKey h
  cases hkeys : get? (lit "keys") keys with
  | none =>
    rw [hkeys] at hentries
    obtain rfl := Except.ok.inj hentries
    cases hmem
  | some v =>
    rw [hkeys, Option.getD_some] at hentries
    cases v with
    | arr xs =>
      obtain rfl := Except.ok.inj hentries
      rfl
    | obj ms =>
      obtain rfl := Except.ok.inj hentries
      obtain ⟨k, -, hk⟩ := List.mem_map.mp hmem
      cases hk
    | str s =>
      obtain rfl := Except.ok.inj hentries
      obtain ⟨u, -, hu⟩ := List.mem_map.mp hmem
      cases hu
    | null | bool _ | num _ => cases hentries

/-- **What is reported valid is vouched for.** -/
theorem vouches_of_valid {crypto : Crypto} {keys receipt : PyDict} {result : VerifyResult}
    (h : verifyReceipt crypto receipt keys = .ok result) (hvalid : result.valid = true) :
    Vouches crypto keys receipt := by
  obtain ⟨claimed, signature, keyId, digest, hclaimed, hsig, hkeyId, hdigest, hcase⟩ :=
    verifyReceipt_eq_ok_iff.mp h
  by_cases heq : claimed = .str (hex digest)
  · rw [if_pos heq] at hcase
    subst heq
    obtain ⟨payload, bytes, hpayload, hbytes, rfl⟩ := receiptDigest_eq_ok_iff.mp hdigest
    obtain ⟨entries, hentries, hcase⟩ := bind_eq_ok_iff.mp hcase
    obtain ⟨found, hfound, hcase⟩ := bind_eq_ok_iff.mp hcase
    cases found with
    | none =>
      cases hcase
      cases hvalid
    | some jwk =>
      dsimp only at hcase
      rw [checkSignature_eq] at hcase
      split_ifs at hcase with hkty hx hlen htext hsigLen hv
      -- every result but one is a failure
      all_goals try (cases hcase; cases hvalid)
      obtain ⟨pub, sig, hpub, hdecode, hverify⟩ := hv
      obtain ⟨hmem, hkid⟩ := mem_of_findKey hfound
      refine ⟨payload, bytes, entries, jwk, pub, sig, hpayload, hbytes, hclaimed,
        keys_of_findKey hentries hfound, hmem, ?_, hpub, ?_, hverify⟩
      · have hkey : getD (lit "key_id") receipt = keyId := by rw [getD, hkeyId, Option.getD_some]
        rwa [hkey]
      · rwa [getD, hsig, Option.getD_some]
  · rw [if_neg heq] at hcase
    subst hcase
    cases hvalid

/-- Only a dict of keys makes a receipt valid. -/
theorem obj_of_valid {crypto : Crypto} {receipt : PyDict} {keys : PyVal} {result : VerifyResult}
    (h : verifyWith crypto receipt keys = .ok result) (hvalid : result.valid = true) :
    ∃ ms, keys = .obj ms ∧ verifyReceipt crypto receipt ms = .ok result := by
  cases keys with
  | obj ms => exact ⟨ms, rfl, h⟩
  | null | bool _ | num _ | str _ | arr _ =>
    obtain ⟨claimed, -, h⟩ := bind_eq_ok_iff.mp h
    obtain ⟨signature, -, h⟩ := bind_eq_ok_iff.mp h
    obtain ⟨keyId, -, h⟩ := bind_eq_ok_iff.mp h
    obtain ⟨digest, -, h⟩ := bind_eq_ok_iff.mp h
    split_ifs at h
    cases h
    cases hvalid

/-- **A receipt reported valid is vouched for by known keys**: those the
caller passed, or else those the client was built with or some that came
in a response to a call's own request, whatever other callers fetch or
verify in between and however their requests end. -/
theorem valid_under_known_key {May : JwksConfig ι → Move JwksCall ι JwksReply → Prop}
    {c : JwksConfig ι} (h : (self.system libs).Reaches May (.start initial) c) {i : ι}
    {receipt : PyDict} {jwks : PyVal} {trace : List (Performed JwksAns)} {result : VerifyResult}
    (hi : c.threads i = some ⟨.verify receipt jwks, trace, .done (.ok (.verified result))⟩)
    (hvalid : result.valid = true) :
    ∃ keys, Vouches libs.crypto keys receipt
      ∧ (jwks = .obj keys ∧ trace = []
        ∨ jwks = .null ∧ KnownKeys self libs initial c.history (.obj keys)) := by
  have hkeeping := known_of_reaches h
  have hrecorded := h.recorded i _ hi
  obtain ⟨keys, result', hresult, hverify, hfrom⟩ := hkeeping.threads i _ hi
  obtain rfl := JwksReturned.verified.inj hresult
  obtain ⟨ms, rfl, hms⟩ := obj_of_valid hverify hvalid
  refine ⟨ms, vouches_of_valid hms hvalid, ?_⟩
  cases hfrom with
  | passed hkeys => exact Or.inl ⟨rfl, rfl⟩
  | held hkeys =>
    exact Or.inr ⟨rfl, hkeeping.inv.read i _ _ (hrecorded _ List.mem_cons_self)⟩
  | fetched hhead =>
    have hmem : ⟨.setJwks (.obj ms), ()⟩ ∈ trace := List.mem_of_mem_head? hhead
    exact Or.inr ⟨rfl, Or.inr (hkeeping.inv.stored i _ _ (hrecorded _ hmem))⟩

/-! ## Who asks -/

/-- Every document that comes in is one. -/
def NotNull (libs : Libs) : Move JwksCall ι JwksReply → Prop
  | .step _ (.response body) => readJwks libs body ≠ .ok .null
  | _ => True

/-- An answer that leaves the client with keys. -/
def LeavesKeys (libs : Libs) : (o : JwksOp) → JwksAns o → Prop
  | .getJwks, keys => keys ≠ .null
  | .urlopen _, .response body => readJwks libs body ≠ .ok .null
  | _, _ => True

/-- An operation of a call on a client that has keys: a `verify` asks for
none, and none that are none are stored. -/
def DoesWithKeys (k : JwksCall) : JwksOp → Prop
  | .urlopen _ => ∃ url, k = .fetchJwks url
  | .setJwks keys => keys ≠ .null
  | .getJwks => True

/-- With such answers a call does nothing else. -/
theorem doesWithKeys_of_does {k : JwksCall} {trace : List (Performed JwksAns)} {o : JwksOp}
    (htrace : ∀ x ∈ trace, LeavesKeys libs x.op x.ans) (h : JwksDoes self libs k trace o) :
    DoesWithKeys k o := by
  cases o with
  | getJwks => trivial
  | setJwks keys =>
    obtain ⟨target, body, hmem, -, hread⟩ := h
    have hbody : readJwks libs body ≠ .ok .null := htrace _ hmem
    intro hnull
    rw [hread, hnull] at hbody
    exact hbody rfl
  | urlopen target =>
    cases k with
    | fetchJwks url => exact ⟨url, rfl⟩
    | verify receipt jwks =>
      obtain ⟨-, htrace'⟩ := h
      obtain rfl := htrace' receipt jwks rfl
      have hheld : (.null : PyVal) ≠ .null := htrace ⟨.getJwks, .null⟩ List.mem_cons_self
      exact absurd rfl hheld

/-- **A client that was built with keys never asks for any by itself.** As
long as no document that comes in is `null`, each request on record was
made by a `fetch_jwks`, and the client still holds keys. -/
theorem configured_never_asks {c : JwksConfig ι} (hinitial : initial ≠ .null)
    (h : (self.system libs).Reaches (fun _ m => NotNull libs m) (.start initial) c) :
    c.shared ≠ .null ∧ ∀ i k target reply,
      .performed i k ⟨.urlopen target, reply⟩ ∈ c.history → ∃ url, k = .fetchJwks url := by
  have hkeeping : System.Keeping
      (fun d : JwksConfig ι => d.shared ≠ .null ∧ ∀ i k target reply,
        .performed i k ⟨.urlopen target, reply⟩ ∈ d.history → ∃ url, k = .fetchJwks url)
      (fun k _ o => DoesWithKeys k o) (fun _ => LeavesKeys libs) (fun _ _ _ => True) c := by
    refine h.keeps ?_ ?_ ?_ ⟨⟨hinitial, ?_⟩, ?_⟩
    · intro d i k _ _ _ hd
      refine ⟨⟨hd.inv.1, fun j k' target reply hmem => ?_⟩, ?_⟩
      · rcases List.mem_cons.mp hmem with heq | hmem
        · cases heq
        · exact hd.inv.2 j k' target reply hmem
      · refine (run_keeps self libs k).promised (by simp) ?_ (fun _ _ _ _ => trivial)
        intro tr o htr hdoes
        exact doesWithKeys_of_does htr hdoes
    · intro d i input k trace o next _ hmay hi hd hdoes
      refine ⟨⟨?_, fun j k' target reply hmem => ?_⟩, ?_⟩
      · cases o with
        | getJwks => exact hd.inv.1
        | setJwks keys => exact hdoes
        | urlopen target => exact hd.inv.1
      · rcases List.mem_cons.mp hmem with heq | hmem
        · obtain ⟨-, rfl, hperformed⟩ := Event.performed.inj heq
          obtain ⟨rfl, -⟩ := Performed.mk.inj hperformed
          exact hdoes
        · exact hd.inv.2 j k' target reply hmem
      · cases o with
        | getJwks => exact hd.inv.1
        | setJwks keys => trivial
        | urlopen target =>
          cases input with
          | response body => exact hmay
          | urlError text => trivial
          | raised name => trivial
    · intro d i input k trace r _ _ _ hd _
      refine ⟨hd.inv.1, fun j k' target reply hmem => ?_⟩
      rcases List.mem_cons.mp hmem with heq | hmem
      · cases heq
      · exact hd.inv.2 j k' target reply hmem
    · intro i k target reply hmem
      cases hmem
    · intro i t ht
      cases ht
  exact hkeeping.inv

end

section Sample

/-- A client that fetches its JWKS. -/
def Sample.jwksClient : JwksClient where
  toIngestClient := Sample.client
  jwksUrl := some (lit "http://localhost:3000/.well-known/jwks.json")

/-- The response with the JWKS of the sample key. -/
def Sample.jwksReply : JwksReply :=
  .response ((Utf8.encode (dumps (.obj (ofMembers OpenTerms.Sample.jwks)))).getD [])

/-- A `verify` of the sample receipt, without keys, and its steps. -/
def verifySample : List (Move JwksCall Unit JwksReply) :=
  .call () (.verify (ofMembers (OpenTerms.Sample.receipt (.obj []))) .null)
    :: List.replicate 3 (.step () Sample.jwksReply)

/-- Whether a `verify` without keys is about to return, and with what
verdict. -/
def verdict (c : JwksConfig Unit) : Option Bool :=
  match c.threads () with
  | some ⟨.verify _ .null, _, .done (.ok (.verified result))⟩ => some result.valid
  | _ => none

theorem verdict_spec {c : JwksConfig Unit} {valid : Bool} (h : verdict c = some valid) :
    ∃ receipt trace result, result.valid = valid
      ∧ c.threads () = some ⟨.verify receipt .null, trace, .done (.ok (.verified result))⟩ := by
  unfold verdict at h
  split at h
  · next receipt trace result hthread => exact ⟨receipt, trace, result, Option.some.inj h, hthread⟩
  · cases h

theorem valid_under_known_key_sample :
    ∃ (c : JwksConfig Unit) (receipt keys : PyDict),
      Vouches Sample.libs.crypto keys receipt
        ∧ KnownKeys Sample.jwksClient Sample.libs .null c.history (.obj keys) := by
  have hrun : ((Sample.jwksClient.system Sample.libs).run (fun _ _ => true) (.start .null)
      verifySample).bind verdict = some true := by decide +kernel
  obtain ⟨c, hc, hverdict⟩ := Option.bind_eq_some_iff.mp hrun
  obtain ⟨receipt, trace, result, hvalid, hthread⟩ := verdict_spec hverdict
  have hreach : (Sample.jwksClient.system Sample.libs).Reaches (fun _ _ => True) (.start .null) c :=
    System.reaches_of_run (fun _ _ _ => trivial) hc
  obtain ⟨keys, hvouches, ⟨hpassed, -⟩ | ⟨-, hknown⟩⟩ :=
    valid_under_known_key hreach hthread hvalid
  · cases hpassed
  · exact ⟨c, receipt, keys, hvouches, hknown⟩

/-- Moves that bring in no document. -/
def bringsNone : Move JwksCall Unit JwksReply → Bool
  | .step _ (.response _) => false
  | _ => true

theorem configured_never_asks_sample :
    ∃ c : JwksConfig Unit, verdict c = some true ∧ c.shared ≠ .null
      ∧ ∀ i k target reply, .performed i k ⟨.urlopen target, reply⟩ ∈ c.history →
        ∃ url, k = .fetchJwks url := by
  have hrun : ((Sample.jwksClient.system Sample.libs).run (fun _ m => bringsNone m)
      (.start (.obj (ofMembers OpenTerms.Sample.jwks)))
      [.call () (.verify (ofMembers (OpenTerms.Sample.receipt (.obj []))) .null),
        .step () (.urlError [])]).bind verdict = some true := by
    decide +kernel
  obtain ⟨c, hc, hverdict⟩ := Option.bind_eq_some_iff.mp hrun
  have hnotNull : ∀ (d : JwksConfig Unit) (m : Move JwksCall Unit JwksReply),
      bringsNone m = true → NotNull Sample.libs m := by
    rintro - m hm
    rcases m with ⟨i, k⟩ | ⟨i, body | text | name⟩
    · trivial
    · cases hm
    · trivial
    · trivial
  have hinitial : (.obj (ofMembers OpenTerms.Sample.jwks) : PyVal) ≠ .null := by rintro ⟨⟩
  exact ⟨c, hverdict, configured_never_asks hinitial (System.reaches_of_run hnotNull hc)⟩

end Sample

end Ingest

end Py

end OpenTerms
