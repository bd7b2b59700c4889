import OpenTerms.Common.Beside
import OpenTerms.Parity.Emission
import OpenTerms.Py.Ingest.Jwks
import OpenTerms.Ts.Ingest.Jwks

/-!
# One JWKS, two clients

The same calls are made of a client in either language, by any callers in
any order, and the replies that come in hold the same JWKS or fail in
both. The two run in step (`clients_in_step`): they ask the same addresses
in the same order, hold the same keys throughout, and judge each receipt
under the same keys. So a receipt that either SDK signed is found valid by
both whenever they find keys at all, if every JWKS they are given has the
key's JWK (`signed_found_valid`). An empty address is no part of this:
Python's `or` passes over it, `??` does not.
-/

namespace OpenTerms

namespace Parity

open Json Utf16 Prog

/-- A client, with the address its JWKS is fetched from. -/
structure KeyedSender extends Sender where
  jwksUrl : Option JsStr

def KeyedSender.py (s : KeyedSender) (privateKey : Py.PrivateKeyInput) (timeout : ℤ) :
    Py.Ingest.JwksClient where
  toIngestClient := s.toSender.py privateKey timeout
  jwksUrl := s.jwksUrl.map decode

def KeyedSender.ts (s : KeyedSender) (seed : Bytes) (timeoutMs : ℤ) : Ts.Ingest.JwksClient where
  toIngestClient := s.toSender.ts seed timeoutMs
  jwksUrl := s.jwksUrl

/-! ## What is alike -/

/-- Keys of both clients: a JWKS that `Φ` holds of, or none. -/
inductive SameKeys (Φ : List (JsStr × Doc) → Prop) : Py.PyVal → Option Ts.JsVal → Prop
  | jwks {jwks : List (JsStr × Doc)} (h : Φ jwks) :
      SameKeys Φ (.obj (Py.ofMembers jwks)) (some (.obj (Ts.ofMembers jwks)))
  | null : SameKeys Φ .null (some .null)
  | undefined : SameKeys Φ .null none

/-- Replies with one JWKS in them, or with nothing either client can use. -/
inductive SameReply (libs : Py.Ingest.Libs) (timeoutMs : ℤ) (Φ : List (JsStr × Doc) → Prop) :
    Py.Ingest.JwksReply → Ts.Ingest.Reply → Prop
  | keys {reply : Py.Ingest.JwksReply} {reply' : Ts.Ingest.Reply} {keys : Py.PyVal}
      {keys' : Ts.JsVal} (hpy : ∀ target, Py.Ingest.jwksOfReply libs target reply = .ok keys)
      (hts : ∀ target, Ts.Ingest.jwksOfReply timeoutMs target reply' = .ok keys')
      (h : SameKeys Φ keys (some keys')) : SameReply libs timeoutMs Φ reply reply'
  | failure {reply : Py.Ingest.JwksReply} {reply' : Ts.Ingest.Reply}
      (hpy : ∀ target, ¬ Succeeds (Py.Ingest.jwksOfReply libs target reply))
      (hts : ∀ target, ¬ Succeeds (Ts.Ingest.jwksOfReply timeoutMs target reply')) :
      SameReply libs timeoutMs Φ reply reply'

/-- One call of both clients. -/
inductive SameCall (Φ : List (JsStr × Doc) → Prop) :
    Py.Ingest.JwksCall → Ts.Ingest.JwksCall → Prop
  | fetchJwks {url : Option JsStr} (h : url ≠ some []) :
      SameCall Φ (.fetchJwks (url.map decode)) (.fetchJwks url)
  | verify (receipt : List (JsStr × Doc)) {jwks : Py.PyVal} {jwks' : Option Ts.JsVal}
      (h : SameKeys Φ jwks jwks') :
      SameCall Φ (.verify (Py.ofMembers receipt) jwks) (.verify (Ts.ofMembers receipt) jwks')

/-- One operation of both clients. -/
inductive SameOp (Φ : List (JsStr × Doc) → Prop) : Py.Ingest.JwksOp → Ts.Ingest.JwksOp → Prop
  | getJwks : SameOp Φ .getJwks .getJwks
  | setJwks {keys : Py.PyVal} {keys' : Ts.JsVal} (h : SameKeys Φ keys (some keys')) :
      SameOp Φ (.setJwks keys) (.setJwks keys')
  | request (target : JsStr) : SameOp Φ (.urlopen (decode target)) (.fetch target)

/-- One operation of both clients, answered alike. -/
inductive SameDid (libs : Py.Ingest.Libs) (timeoutMs : ℤ) (Φ : List (JsStr × Doc) → Prop) :
    Performed Py.Ingest.JwksAns → Performed Ts.Ingest.JwksAns → Prop
  | getJwks {keys : Py.PyVal} {keys' : Option Ts.JsVal} (h : SameKeys Φ keys keys') :
      SameDid libs timeoutMs Φ ⟨.getJwks, keys⟩ ⟨.getJwks, keys'⟩
  | setJwks {keys : Py.PyVal} {keys' : Ts.JsVal} (h : SameKeys Φ keys (some keys')) :
      SameDid libs timeoutMs Φ ⟨.setJwks keys, ()⟩ ⟨.setJwks keys', ()⟩
  | request {target : PyStr} {target' : JsStr} {reply : Py.Ingest.JwksReply}
      {reply' : Ts.Ingest.Reply} (htarget : target = decode target')
      (h : SameReply libs timeoutMs Φ reply reply') :
      SameDid libs timeoutMs Φ ⟨.urlopen target, reply⟩ ⟨.fetch target', reply'⟩

/-- Neither client finds keys: none are configured, or a reply fails in
both. -/
inductive NoKeys (libs : Py.Ingest.Libs) (timeoutMs : ℤ) (Φ : List (JsStr × Doc) → Prop) :
    Py.Ingest.Exc → Ts.Ingest.Exc → Prop
  | noUrl : NoKeys libs timeoutMs Φ
      (.py (.valueError (lit "no jwks_url configured; pass url= or set jwks_url at init")))
      (.ts (.error (lit "no jwksUrl configured; pass url= or set jwksUrl at init")))
  | noJwks : NoKeys libs timeoutMs Φ
      (.py (.valueError (lit "no JWKS available; pass jwks= or configure jwks_url / jwks at init")))
      (.ts (.error (lit "no JWKS available; pass jwks= or configure jwksUrl / jwks at init")))
  | reply (target : JsStr) {reply : Py.Ingest.JwksReply} {reply' : Ts.Ingest.Reply}
      {e : Py.Ingest.Exc} {e' : Ts.Ingest.Exc} (h : SameReply libs timeoutMs Φ reply reply')
      (hpy : Py.Ingest.jwksOfReply libs (decode target) reply = .error e)
      (hts : Ts.Ingest.jwksOfReply timeoutMs target reply' = .error e') :
      NoKeys libs timeoutMs Φ e e'

/-- Both clients find the same keys, or neither finds any. -/
inductive SameFound (libs : Py.Ingest.Libs) (timeoutMs : ℤ) (Φ : List (JsStr × Doc) → Prop) :
    Except Py.Ingest.Exc Py.PyVal → Except Ts.Ingest.Exc Ts.JsVal → Prop
  | found {keys : Py.PyVal} {keys' : Ts.JsVal} (h : SameKeys Φ keys (some keys')) :
      SameFound libs timeoutMs Φ (.ok keys) (.ok keys')
  | failed {e : Py.Ingest.Exc} {e' : Ts.Ingest.Exc} (h : NoKeys libs timeoutMs Φ e e') :
      SameFound libs timeoutMs Φ (.error e) (.error e')

/-- How a call ends in both: `fetchJwks` with what was found, `verify` with
what the verifiers make of the receipt under it. -/
inductive SameEnd (libs : Py.Ingest.Libs) (timeoutMs : ℤ) (Φ : List (JsStr × Doc) → Prop) :
    Py.Ingest.JwksCall → Ts.Ingest.JwksCall → Except Py.Ingest.Exc Py.Ingest.JwksReturned →
      Except Ts.Ingest.Exc Ts.Ingest.JwksReturned → Prop
  | fetchJwks {url : Option PyStr} {url' : Option JsStr} {r : Except Py.Ingest.Exc Py.PyVal}
      {r' : Except Ts.Ingest.Exc Ts.JsVal} (h : SameFound libs timeoutMs Φ r r') :
      SameEnd libs timeoutMs Φ (.fetchJwks url) (.fetchJwks url') (r.map .jwks) (r'.map .jwks)
  | verify {receipt : List (JsStr × Doc)} {jwks : Py.PyVal} {jwks' : Option Ts.JsVal}
      {r : Except Py.Ingest.Exc Py.PyVal} {r' : Except Ts.Ingest.Exc Ts.JsVal}
      (h : SameFound libs timeoutMs Φ r r') :
      SameEnd libs timeoutMs Φ (.verify (Py.ofMembers receipt) jwks)
        (.verify (Ts.ofMembers receipt) jwks')
        (r.bind fun keys => (Py.Ingest.liftPy
          (Py.Ingest.verifyWith libs.crypto (Py.ofMembers receipt) keys)).map .verified)
        (r'.bind fun keys => (Ts.Ingest.liftTs
          (Ts.Ingest.verifyWith libs.crypto (Ts.ofMembers receipt) keys)).map .verified)

/-- **One text, two clients**: a body that both languages read as one JWKS. -/
theorem sameReply_of_readAs {libs : Py.Ingest.Libs} {timeoutMs : ℤ}
    {Φ : List (JsStr × Doc) → Prop} {text : PyStr} {body : Bytes} {status : ℤ}
    {jwks : List (JsStr × Doc)} (hloads : libs.loads = Py.loads)
    (hbody : Utf8.encode text = some body) (hread : ReadAs text jwks)
    (hstatus : ¬ (status < 200 ∨ 299 < status)) (hΦ : Φ jwks) :
    SameReply libs timeoutMs Φ (.response body) (.response status (encode text)) := by
  refine .keys (fun target => ?_) (fun target => ?_) (.jwks hΦ)
  · unfold Py.Ingest.jwksOfReply Py.Ingest.readJwks
    simp only [Utf8.decode_encode hbody, hloads, hread.1]
  · unfold Ts.Ingest.jwksOfReply
    simp only [if_neg hstatus, hread.2]

/-! ## The programs -/

section

variable {libs : Py.Ingest.Libs} {timeoutMs : ℤ} {Φ : List (JsStr × Doc) → Prop}
variable {s : KeyedSender} {privateKey : Py.PrivateKeyInput} {timeout : ℤ} {seed : Bytes}

/-- The address asked, in either language. -/
theorem target_py {url : Option JsStr} (hurl : url ≠ some []) :
    (s.py privateKey timeout).target (url.map decode)
      = ((s.ts seed timeoutMs).target url).map decode := by
  unfold Py.Ingest.JwksClient.target Ts.Ingest.JwksClient.target
  show (Py.Ingest.given (url.map decode)).or (Py.Ingest.given (s.jwksUrl.map decode)) = _
  rw [given_map_decode, given_map_decode, given_eq_self hurl]
  cases url with
  | none => rfl
  | some url =>
    show some (decode url) = (Ts.Ingest.given (some url)).map decode
    rw [given_eq_self hurl]
    rfl

/-- **`fetchJwks` in step.** -/
theorem fetchJwks_beside {url : Option JsStr} (hurl : url ≠ some []) :
    ((s.py privateKey timeout).fetchJwks libs (url.map decode)).Beside (SameOp Φ)
      (SameDid libs timeoutMs Φ) (SameFound libs timeoutMs Φ)
      ((s.ts seed timeoutMs).fetchJwks url) := by
  unfold Py.Ingest.JwksClient.fetchJwks Ts.Ingest.JwksClient.fetchJwks
  rw [@target_py timeoutMs s privateKey timeout seed url hurl]
  cases (s.ts seed timeoutMs).target url with
  | none => exact .done (.failed .noUrl)
  | some target =>
    refine Beside.bind (.perform (.request target) fun reply reply' hreply => .done ?_)
    rw [done_ok_bind, done_ok_bind, lift_eq, lift_eq]
    cases hreply with
    | request _ hreply =>
      cases hreply with
      | keys hpy hts hkeys =>
        have hts : Ts.Ingest.jwksOfReply (s.ts seed timeoutMs).timeoutMs target reply' = _ :=
          hts target
        rw [hpy, hts]
        exact .perform (.setJwks hkeys) fun _ _ _ => .done (.found hkeys)
      | failure hpy hts =>
        cases hfail : Py.Ingest.jwksOfReply libs (decode target) reply with
        | ok keys => exact absurd ⟨keys, hfail⟩ (hpy _)
        | error e =>
          cases hfail' : Ts.Ingest.jwksOfReply (s.ts seed timeoutMs).timeoutMs target reply' with
          | ok keys => exact absurd ⟨keys, hfail'⟩ (hts _)
          | error e' => exact .done (.failed (.reply target (.failure hpy hts) hfail hfail'))

/-- **Held keys, in step**: those that are none in both are fetched. -/
theorem held_beside {held : Py.PyVal} {held' : Option Ts.JsVal} (h : SameKeys Φ held held') :
    (if held ≠ .null then pure held
      else if Py.Ingest.given (s.py privateKey timeout).jwksUrl = none then
        throw (.py (.valueError
          (lit "no JWKS available; pass jwks= or configure jwks_url / jwks at init")))
      else (s.py privateKey timeout).fetchJwks libs none : Py.Ingest.JwksM Py.PyVal).Beside
        (SameOp Φ) (SameDid libs timeoutMs Φ) (SameFound libs timeoutMs Φ)
      (match held'.filter Ts.truthy with
        | some keys => pure keys
        | none =>
          if Ts.Ingest.given (s.ts seed timeoutMs).jwksUrl = none then
            throw (.ts (.error
              (lit "no JWKS available; pass jwks= or configure jwksUrl / jwks at init")))
          else (s.ts seed timeoutMs).fetchJwks none) := by
  have hurl : Py.Ingest.given (s.py privateKey timeout).jwksUrl
      = (Ts.Ingest.given (s.ts seed timeoutMs).jwksUrl).map decode := given_map_decode s.jwksUrl
  cases h with
  | jwks hΦ => exact .done (.found (.jwks hΦ))
  | null | undefined =>
    rw [if_neg (not_not.mpr rfl)]
    by_cases hnone : Ts.Ingest.given (s.ts seed timeoutMs).jwksUrl = none
    · have hnone' : Py.Ingest.given (s.py privateKey timeout).jwksUrl = none := by
        rw [hurl, hnone, Option.map_none]
      simp only [if_pos hnone, if_pos hnone']
      exact .done (.failed .noJwks)
    · have hnone' : ¬ Py.Ingest.given (s.py privateKey timeout).jwksUrl = none := by
        rwa [hurl, Option.map_eq_none_iff]
      simp only [if_neg hnone, if_neg hnone']
      exact @fetchJwks_beside _ _ _ _ _ _ _ none (by rintro ⟨⟩)

/-- **The keys of a `verify`, in step.** -/
theorem keysFor_beside {jwks : Py.PyVal} {jwks' : Option Ts.JsVal} (h : SameKeys Φ jwks jwks') :
    ((s.py privateKey timeout).keysFor libs jwks).Beside (SameOp Φ) (SameDid libs timeoutMs Φ)
      (SameFound libs timeoutMs Φ) ((s.ts seed timeoutMs).keysFor jwks') := by
  unfold Py.Ingest.JwksClient.keysFor Ts.Ingest.JwksClient.keysFor
  cases h with
  | jwks hΦ => exact .done (.found (.jwks hΦ))
  | null | undefined =>
    refine .perform .getJwks fun held held' h => ?_
    obtain ⟨h⟩ := h
    exact held_beside h

/-- What two programs have left that only wrap what they return. -/
theorem wrap_beside {Op Op' ε ε' α α' β β' : Type} {Ans : Op → Type} {Ans' : Op' → Type}
    {O : Op → Op' → Prop} {P : Performed Ans → Performed Ans' → Prop}
    {R : Except ε β → Except ε' β' → Prop} {f : α → β} {f' : α' → β'} {r : Except ε α}
    {r' : Except ε' α'} (h : R (r.map f) (r'.map f')) :
    (Prog.done r >>= fun a => pure (f a)).Beside O P R (Prog.done r' >>= fun a => pure (f' a)) := by
  cases r <;> cases r' <;> exact .done h

/-- **The calls in step.** -/
theorem run_beside {k : Py.Ingest.JwksCall} {k' : Ts.Ingest.JwksCall} (h : SameCall Φ k k') :
    ((s.py privateKey timeout).run libs k).Beside (SameOp Φ) (SameDid libs timeoutMs Φ)
      (SameEnd libs timeoutMs Φ k k') ((s.ts seed timeoutMs).run libs.crypto k') := by
  cases h with
  | @fetchJwks url hurl =>
    refine Beside.bind ((fetchJwks_beside hurl).imp fun r r' hfound => ?_)
    exact wrap_beside (.fetchJwks hfound)
  | @verify receipt jwks jwks' hjwks =>
    refine Beside.bind (Beside.bind ((keysFor_beside hjwks).imp fun r r' hfound => ?_))
    have hend := @SameEnd.verify libs timeoutMs Φ receipt jwks jwks' _ _ hfound
    cases hfound with
    | failed _ => exact .done (.done hend)
    | found _ => exact .done (wrap_beside hend)

/-- **The two clients**, side by side. -/
def clients (libs : Py.Ingest.Libs) (s : KeyedSender) (privateKey : Py.PrivateKeyInput)
    (timeout : ℤ) (seed : Bytes) (timeoutMs : ℤ) (Φ : List (JsStr × Doc) → Prop) :
    Systems Py.Ingest.JwksOp Ts.Ingest.JwksOp Py.Ingest.JwksAns Ts.Ingest.JwksAns Py.Ingest.Exc
      Ts.Ingest.Exc Py.Ingest.JwksReturned Ts.Ingest.JwksReturned Py.Ingest.JwksCall
      Ts.Ingest.JwksCall Py.PyVal (Option Ts.JsVal) Py.Ingest.JwksReply Ts.Ingest.Reply where
  left := (s.py privateKey timeout).system libs
  right := (s.ts seed timeoutMs).system libs.crypto
  State := SameKeys Φ
  Input := SameReply libs timeoutMs Φ
  Call := SameCall Φ
  Does := SameOp Φ
  Did := SameDid libs timeoutMs Φ
  Ends := SameEnd libs timeoutMs Φ
  body h := run_beside h
  handle hstate hinput ho := by
    cases ho with
    | getJwks => exact ⟨.getJwks hstate, hstate⟩
    | setJwks h => exact ⟨.setJwks h, h⟩
    | request target => exact ⟨.request rfl hinput, hstate⟩

/-! ## Under the key -/

/-- Under keys that are `null`, what would be valid raises. -/
theorem py_null_raises {crypto : Crypto} {receipt jwks : Py.PyDict} {result : Py.VerifyResult}
    (h : Py.verifyReceipt crypto receipt jwks = .ok result) (hvalid : result.valid = true) :
    Py.Ingest.verifyWith crypto receipt .null = .error .attributeError := by
  obtain ⟨claimedHash, hclaimed, h⟩ := bind_eq_ok_iff.mp h
  obtain ⟨signature, hsignature, h⟩ := bind_eq_ok_iff.mp h
  obtain ⟨keyId, hkeyId, h⟩ := bind_eq_ok_iff.mp h
  obtain ⟨hashBytes, hhash, h⟩ := bind_eq_ok_iff.mp h
  unfold Py.Ingest.verifyWith
  dsimp only
  rw [hclaimed, ok_bind, hsignature, ok_bind, hkeyId, ok_bind, hhash, ok_bind]
  cases hsame : Py.pyEq (.str (hex hashBytes)) claimedHash with
  | true => rfl
  | false =>
    rw [hsame] at h
    obtain rfl := Except.ok.inj h
    cases hvalid

theorem ts_null_raises {crypto : Crypto} {receipt jwks : Ts.JsObject} {result : Ts.VerifyResult}
    (h : Ts.verifyReceipt crypto receipt jwks = .ok result) (hvalid : result.valid = true) :
    Ts.Ingest.verifyWith crypto receipt .null = .error .typeError := by
  obtain ⟨claimedHash, hclaimed, h⟩ := bind_eq_ok_iff.mp h
  obtain ⟨signature, hsignature, h⟩ := bind_eq_ok_iff.mp h
  obtain ⟨keyId, hkeyId, h⟩ := bind_eq_ok_iff.mp h
  obtain ⟨hashBytes, hhash, h⟩ := bind_eq_ok_iff.mp h
  unfold Ts.Ingest.verifyWith Ts.Ingest.verifyWithout
  dsimp only
  rw [hclaimed, ok_bind, hsignature, ok_bind, hkeyId, ok_bind, hhash, ok_bind]
  cases hsame : Ts.strictEq (.str (hex hashBytes)) claimedHash with
  | true => rfl
  | false =>
    rw [hsame] at h
    obtain rfl := Except.ok.inj h
    cases hvalid

/-- Both calls raise, or both report the receipt valid under the key id. -/
inductive BothOrNeither (keyId : JsStr) : Except Py.Ingest.Exc Py.Ingest.JwksReturned →
    Except Ts.Ingest.Exc Ts.Ingest.JwksReturned → Prop
  | valid (hash : JsStr) : BothOrNeither keyId
      (.ok (.verified { valid := true, error := none, keyId := .str (decode keyId),
                        canonicalHash := decode hash }))
      (.ok (.verified { valid := true, error := none, keyId := .str keyId, canonicalHash := hash }))
  | raised (e : Py.Ingest.Exc) (e' : Ts.Ingest.Exc) : BothOrNeither keyId (.error e) (.error e')

/-- The JWKS has the key's JWK first under the key id. -/
def HasKey (crypto : Crypto) (seed : Bytes) (keyId : JsStr) (jwks : List (JsStr × Doc)) : Prop :=
  FirstKeyDoc jwks keyId (jwkDoc (crypto.publicKey seed) keyId)

/-- The JWKS of the one key. -/
theorem hasKey_self (crypto : Crypto) (seed : Bytes) (keyId : JsStr) :
    HasKey crypto seed keyId
      [(lit "keys", .arr [.obj (jwkDoc (crypto.publicKey seed) keyId)])] := by
  refine ⟨[], [], rfl, rfl, fun e he => ?_⟩
  cases he

/-- **A receipt that travels**, at the end of a `verify`. -/
theorem SameFound.bothOrNeither {r : Except Py.Ingest.Exc Py.PyVal}
    {r' : Except Ts.Ingest.Exc Ts.JsVal} {keyId : JsStr} {signer : Bytes}
    {signed received : List (JsStr × Doc)}
    (htravels : Travels libs.crypto (libs.crypto.publicKey signer) keyId signed)
    (hrec : UniqueNames (.obj received)) (hsame : Same (.obj received) (.obj signed))
    (h : SameFound libs timeoutMs (HasKey libs.crypto signer keyId) r r') :
    BothOrNeither keyId
      (r.bind fun keys => (Py.Ingest.liftPy
        (Py.Ingest.verifyWith libs.crypto (Py.ofMembers received) keys)).map .verified)
      (r'.bind fun keys => (Ts.Ingest.liftTs
        (Ts.Ingest.verifyWith libs.crypto (Ts.ofMembers received) keys)).map .verified) := by
  cases h with
  | failed _ => exact .raised _ _
  | found hkeys =>
    cases hkeys with
    | jwks hjwks =>
      obtain ⟨hash, -, hpy, hts⟩ := htravels.verified received _ hrec hsame hjwks
      simp only [Except.bind, Py.Ingest.verifyWith, Ts.Ingest.verifyWith, hpy, hts]
      exact .valid hash
    | null =>
      obtain ⟨hash, -, hpy, hts⟩ :=
        htravels.verified received _ hrec hsame (hasKey_self libs.crypto signer keyId)
      simp only [Except.bind, py_null_raises hpy rfl, ts_null_raises hts rfl]
      exact .raised _ _

/-! ## Runs -/

variable {ι : Type}

/-- The address an event asks for a JWKS, in Python. -/
def pyAsked : Event Py.Ingest.JwksAns Py.Ingest.Exc Py.Ingest.JwksReturned Py.Ingest.JwksCall ι →
    Option PyStr
  | .performed _ _ ⟨.urlopen target, _⟩ => some target
  | _ => none

/-- The address an event asks for a JWKS, in TypeScript. -/
def tsAsked : Event Ts.Ingest.JwksAns Ts.Ingest.Exc Ts.Ingest.JwksReturned Ts.Ingest.JwksCall ι →
    Option JsStr
  | .performed _ _ ⟨.fetch target, _⟩ => some target
  | _ => none

/-- Alike events ask the same address, if any. -/
theorem asked_eq {e : Event Py.Ingest.JwksAns Py.Ingest.Exc Py.Ingest.JwksReturned
      Py.Ingest.JwksCall ι}
    {e' : Event Ts.Ingest.JwksAns Ts.Ingest.Exc Ts.Ingest.JwksReturned Ts.Ingest.JwksCall ι}
    (h : (clients libs s privateKey timeout seed timeoutMs Φ).SameEvent e e') :
    pyAsked e = (tsAsked e').map decode := by
  cases h with
  | called _ => rfl
  | performed _ hdid =>
    cases hdid with
    | getJwks _ => rfl
    | setJwks _ => rfl
    | request htarget _ => exact congrArg some htarget
  | returned _ _ => rfl

/-- Alike records ask the same addresses in the same order. -/
theorem filterMap_asked {h : List (Event Py.Ingest.JwksAns Py.Ingest.Exc Py.Ingest.JwksReturned
      Py.Ingest.JwksCall ι)}
    {h' : List (Event Ts.Ingest.JwksAns Ts.Ingest.Exc Ts.Ingest.JwksReturned Ts.Ingest.JwksCall ι)}
    (hsame : List.Forall₂ (clients libs s privateKey timeout seed timeoutMs Φ).SameEvent h h') :
    h.filterMap pyAsked = (h'.filterMap tsAsked).map decode := by
  induction hsame with
  | nil => rfl
  | @cons e e' h h' he _ ih =>
    have hasked := asked_eq he
    rw [List.filterMap_cons, List.filterMap_cons, hasked, ih]
    cases tsAsked e' <;> rfl

variable [DecidableEq ι] {keys : Py.PyVal} {keys' : Option Ts.JsVal}
variable {ms : List (Move Py.Ingest.JwksCall ι Py.Ingest.JwksReply)}
variable {ms' : List (Move Ts.Ingest.JwksCall ι Ts.Ingest.Reply)}

/-- **Two clients in step.** The same moves can be made of both, whatever
order the callers make them in. After any of them the clients hold the same
keys, have asked the same addresses in the same order, and have ended each
call alike. -/
theorem clients_in_step (hkeys : SameKeys Φ keys keys')
    (hms : List.Forall₂ (clients libs s privateKey timeout seed timeoutMs Φ).SameMove ms ms') :
    Option.Rel (fun c c' => SameKeys Φ c.shared c'.shared
        ∧ c.history.filterMap pyAsked = (c'.history.filterMap tsAsked).map decode
        ∧ List.Forall₂ (clients libs s privateKey timeout seed timeoutMs Φ).SameEvent c.history
          c'.history)
      (((s.py privateKey timeout).system libs).run (fun _ _ => true) (.start keys) ms)
      (((s.ts seed timeoutMs).system libs.crypto).run (fun _ _ => true) (.start keys') ms') := by
  have hstart : (clients libs s privateKey timeout seed timeoutMs Φ).Same
      (.start keys : Py.Ingest.JwksConfig ι) (.start keys') := Systems.same_start hkeys
  have hrun := hstart.run hms
  change Option.Rel _ (((s.py privateKey timeout).system libs).run (fun _ _ => true) _ ms)
    (((s.ts seed timeoutMs).system libs.crypto).run (fun _ _ => true) _ ms') at hrun
  generalize ((s.py privateKey timeout).system libs).run _ _ ms = d,
    ((s.ts seed timeoutMs).system libs.crypto).run _ _ ms' = d' at hrun
  cases hrun with
  | none => exact .none
  | some h => exact .some ⟨h.shared, filterMap_asked h.history, h.history⟩

/-- **A signed receipt in every run.** A receipt Python signs is one that
TypeScript signs. Where every JWKS the clients are given has the key's JWK
first, any `verify` of it, in whatever member order, ends in both clients
with the receipt valid, or raises in both: whatever the callers do in
between, neither client reports it invalid. -/
theorem signed_found_valid [Ucd] {r : List (JsStr × Doc)} {keyId : JsStr} {signed : Py.PyDict}
    (kp : KeyPair libs.crypto) {signer : Py.PrivateKeyInput} (hkey : signer.seed = kp.seed)
    (hr : UniqueNames (.obj r)) (hproto : Lacks (lit "__proto__") (.obj r))
    (hsign : PySigns libs.crypto r signer keyId signed)
    (hkeys : SameKeys (HasKey libs.crypto kp.seed keyId) keys keys')
    (hms : List.Forall₂ (clients libs s privateKey timeout seed timeoutMs
      (HasKey libs.crypto kp.seed keyId)).SameMove ms ms')
    {c : Py.Ingest.JwksConfig ι}
    (hc : ((s.py privateKey timeout).system libs).run (fun _ _ => true) (.start keys) ms = some c) :
    ∃ doc c', signed = Py.ofMembers doc ∧ TsSigns libs.crypto r kp.seed keyId (Ts.ofMembers doc)
      ∧ ((s.ts seed timeoutMs).system libs.crypto).run (fun _ _ => true) (.start keys') ms'
        = some c'
      ∧ ∀ (n : ℕ) i receipt jwks e,
        c.history[n]? = some (.returned i (.verify receipt jwks) e) →
        ∃ receipt' jwks' e', c'.history[n]? = some (.returned i (.verify receipt' jwks') e')
          ∧ ∀ received, receipt = Py.ofMembers received → receipt' = Ts.ofMembers received →
            UniqueNames (.obj received) → Same (.obj received) (.obj doc) →
              BothOrNeither keyId e e' := by
  obtain ⟨doc, hdoc, hts, htravels⟩ := travels_of_pySigns kp hkey hr hproto hsign
  have hstart : (clients libs s privateKey timeout seed timeoutMs
      (HasKey libs.crypto kp.seed keyId)).Same (.start keys : Py.Ingest.JwksConfig ι)
        (.start keys') := Systems.same_start hkeys
  have hrun := hstart.run hms
  change Option.Rel _ (((s.py privateKey timeout).system libs).run (fun _ _ => true) _ ms)
    (((s.ts seed timeoutMs).system libs.crypto).run (fun _ _ => true) _ ms') at hrun
  rw [hc] at hrun
  generalize hd : ((s.ts seed timeoutMs).system libs.crypto).run _ _ ms' = d' at hrun
  cases hrun with
  | @some _ c' h =>
    refine ⟨doc, c', hdoc, hts, rfl, fun n i receipt jwks e he => ?_⟩
    have hevent := (List.forall₂_iff_get.mp h.history).2
    obtain ⟨hn, he⟩ := List.getElem?_eq_some_iff.mp he
    have hn' : n < c'.history.length := h.history.length_eq ▸ hn
    have hsame := hevent n hn hn'
    rw [List.get_eq_getElem, List.get_eq_getElem, he] at hsame
    generalize he' : c'.history[n] = event' at hsame
    cases hsame with
    | returned hcall hend =>
      cases hend with
      | @verify receipt _ jwks' _ _ hfound =>
        have hget := (List.getElem?_eq_getElem hn').trans (congrArg some he')
        refine ⟨Ts.ofMembers receipt, jwks', _, hget, fun received hpy hts hrec hsame => ?_⟩
        rw [hpy, hts]
        exact hfound.bothOrNeither htravels hrec hsame

end

section Sample

attribute [local instance] Ucd.allPrintable

/-- A client that fetches its JWKS. -/
def sampleKeyed : KeyedSender where
  toSender := sampleSender
  jwksUrl := some (lit "http://localhost:3000/.well-known/jwks.json")

/-- The text of the sample key's JWKS. -/
def sampleText : PyStr := Py.dumps (.obj (Py.ofMembers Sample.jwks))

/-- The response with it, to each client. -/
def samplePyReply : Py.Ingest.JwksReply := .response ((Utf8.encode sampleText).getD [])

def sampleTsReply : Ts.Ingest.Reply := .response 200 (encode sampleText)

theorem hasKey_sample : HasKey Sample.crypto Sample.seed (lit "k1") Sample.jwks := by
  refine ⟨[], [], by decide, rfl, fun e he => ?_⟩
  cases he

theorem sameReply_sample : SameReply Py.Ingest.Sample.libs 10000
    (HasKey Sample.crypto Sample.seed (lit "k1")) samplePyReply sampleTsReply := by
  have hsafe : Every Doc.SafeLit (fun _ => True) (fun _ => True) (.obj Sample.jwks) := by
    simp [Sample.jwks, Sample.jwk]
  have hread : ReadAs sampleText Sample.jwks := readAs_dumps (by decide) hsafe
  have hsome : (Utf8.encode sampleText).isSome = true := by decide +kernel
  have hbody : Utf8.encode sampleText = some ((Utf8.encode sampleText).getD []) := by
    obtain ⟨body, hbody⟩ := Option.isSome_iff_exists.mp hsome
    rw [hbody, Option.getD_some]
  exact sameReply_of_readAs rfl hbody hread (by decide) hasKey_sample

/-- A `verify` of the sample receipt, without keys, and its steps. -/
def samplePyMoves : List (Move Py.Ingest.JwksCall Unit Py.Ingest.JwksReply) :=
  .call () (.verify (Py.ofMembers (Sample.receipt (.obj []))) .null)
    :: List.replicate 4 (.step () samplePyReply)

def sampleTsMoves : List (Move Ts.Ingest.JwksCall Unit Ts.Ingest.Reply) :=
  .call () (.verify (Ts.ofMembers (Sample.receipt (.obj []))) none)
    :: List.replicate 4 (.step () sampleTsReply)

theorem sameMoves_sample : List.Forall₂ (clients Py.Ingest.Sample.libs sampleKeyed
    (.bytes Sample.seed) 10 Sample.seed 10000 (HasKey Sample.crypto Sample.seed (lit "k1"))).SameMove
    samplePyMoves sampleTsMoves := by
  have hstep : (clients Py.Ingest.Sample.libs sampleKeyed (.bytes Sample.seed) 10 Sample.seed 10000
      (HasKey Sample.crypto Sample.seed (lit "k1"))).SameMove
      (.step () samplePyReply : Move Py.Ingest.JwksCall Unit Py.Ingest.JwksReply)
      (.step () sampleTsReply) := .step sameReply_sample
  exact .cons (.call (.verify _ .undefined))
    (.cons hstep (.cons hstep (.cons hstep (.cons hstep .nil))))

/-- A state of the calls on a TypeScript client. -/
abbrev TsConfig (ι : Type) :=
  Config Ts.Ingest.JwksOp Ts.Ingest.JwksAns Ts.Ingest.Exc Ts.Ingest.JwksReturned Ts.Ingest.JwksCall
    ι (Option Ts.JsVal)

theorem clients_in_step_sample :
    ∃ (c : Py.Ingest.JwksConfig Unit) (c' : TsConfig Unit),
      c.history.filterMap pyAsked = [decode (lit "http://localhost:3000/.well-known/jwks.json")]
        ∧ c.history.filterMap pyAsked = (c'.history.filterMap tsAsked).map decode := by
  have hasked : ((((sampleKeyed.py (.bytes Sample.seed) 10).system Py.Ingest.Sample.libs).run
      (fun _ _ => true) (.start .null) samplePyMoves).map fun c => c.history.filterMap pyAsked)
        = some [decode (lit "http://localhost:3000/.well-known/jwks.json")] := by decide +kernel
  obtain ⟨c, hc, hasked⟩ := Option.map_eq_some_iff.mp hasked
  have hstep := clients_in_step .undefined sameMoves_sample
  rw [hc] at hstep
  generalize ((sampleKeyed.ts Sample.seed 10000).system Py.Ingest.Sample.libs.crypto).run _ _
    sampleTsMoves = d at hstep
  cases hstep with
  | some h => exact ⟨c, _, hasked, h.2.1⟩

/-- The receipt whose `verify` has just returned a verdict, and whether that
is valid. -/
def justJudged (c : Py.Ingest.JwksConfig Unit) : Option (Py.PyDict × Bool) :=
  match c.history with
  | .returned () (.verify receipt _) (.ok (.verified result)) :: _ => some (receipt, result.valid)
  | _ => none

theorem justJudged_spec {c : Py.Ingest.JwksConfig Unit} {receipt : Py.PyDict} {valid : Bool}
    (h : justJudged c = some (receipt, valid)) :
    ∃ jwks result, result.valid = valid
      ∧ c.history[0]? = some (.returned () (.verify receipt jwks) (.ok (.verified result))) := by
  unfold justJudged at h
  split at h
  · next receipt' jwks result rest hhistory =>
    obtain ⟨rfl, rfl⟩ := Prod.mk.inj (Option.some.inj h)
    exact ⟨jwks, result, rfl, by rw [hhistory]; rfl⟩
  · cases h

/-- The receipt of the call that has just returned. -/
def justReturned (c : TsConfig Unit) : Option Ts.JsObject :=
  c.history[0]?.bind fun
    | .returned () (.verify receipt _) _ => some receipt
    | _ => none

theorem signed_found_valid_sample :
    ∃ (c' : TsConfig Unit) (jwks' : Option Ts.JsVal) (result : Ts.VerifyResult),
      result.valid = true ∧ c'.history[0]? = some (.returned ()
        (.verify (Ts.ofMembers (Sample.receipt (.obj []))) jwks') (.ok (.verified result))) := by
  have hpy : (((sampleKeyed.py (.bytes Sample.seed) 10).system Py.Ingest.Sample.libs).run
      (fun _ _ => true) (.start .null) samplePyMoves).bind justJudged
        = some (Py.ofMembers (Sample.receipt (.obj [])), true) := by decide +kernel
  have hts : (((sampleKeyed.ts Sample.seed 10000).system Py.Ingest.Sample.libs.crypto).run
      (fun _ _ => true) (.start none) sampleTsMoves).bind justReturned
        = some (Ts.ofMembers (Sample.receipt (.obj []))) := by decide +kernel
  have hproto : Lacks (lit "__proto__") (.obj (Sample.payload (.obj []))) := by
    unfold Lacks
    decide
  obtain ⟨c, hc, hjudged⟩ := Option.bind_eq_some_iff.mp hpy
  obtain ⟨jwks, result, hvalid, hevent⟩ := justJudged_spec hjudged
  have hsign : PySigns Py.Ingest.Sample.libs.crypto (Sample.payload (.obj []))
      (.bytes Sample.seed) (lit "k1") (Py.ofMembers (Sample.receipt (.obj []))) :=
    ⟨Py.ofMembers (Sample.payload (.obj [])), by decide +kernel, by decide +kernel⟩
  obtain ⟨doc, c', hdoc, hsign', hc', hruns⟩ :=
    signed_found_valid Sample.keyPair rfl (by decide) hproto hsign .undefined sameMoves_sample hc
  obtain ⟨receipt', jwks', e', hevent', hboth⟩ := hruns 0 () _ _ _ hevent
  -- TypeScript signs one receipt, so `doc` is the sample's to it as well
  have hreceipt : Ts.ofMembers doc = Ts.ofMembers (Sample.receipt (.obj [])) := by
    obtain ⟨payload, hp, hsigned⟩ := hsign'
    have hsample : (Ts.buildPayload (Ts.ofMembers (Sample.payload (.obj []))) >>= fun payload =>
        Ts.signReceipt Sample.crypto payload Sample.seed (lit "k1"))
          = .ok (Ts.ofMembers (Sample.receipt (.obj []))) := by decide +kernel
    exact Except.ok.inj ((bind_eq_ok_iff.mpr ⟨payload, hp, hsigned⟩).symm.trans hsample)
  have hreturned : receipt' = Ts.ofMembers doc := by
    rw [hc', Option.bind_some, justReturned, hevent'] at hts
    exact (Option.some.inj hts).trans hreceipt.symm
  have hunique : UniqueNames (.obj doc) := by
    have hu : UniqueNames (Py.ofDoc (.obj (Sample.receipt (.obj [])))) :=
      Py.uniqueNames_ofDoc (by decide)
    rw [Py.ofDoc_obj, hdoc, ← Py.ofDoc_obj] at hu
    exact hu.of_map
  have hvalid' := hboth doc hdoc hreturned hunique (Same.refl hunique)
  subst hreturned
  rw [hreceipt] at hevent'
  cases hvalid' with
  | valid hash => exact ⟨c', jwks', _, rfl, hevent'⟩

end Sample

end Parity

end OpenTerms
