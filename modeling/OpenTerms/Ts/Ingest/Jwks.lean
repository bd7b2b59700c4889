import OpenTerms.Common.Threads
import OpenTerms.Ts.Ingest.Client

/-!
# `client.ts`: the JWKS of a client

`fetchJwks` and `verify` as calls on one client. What is awaited lets other
calls in, so the keys the client holds are read, asked for and replaced in
separate steps. Keys are whatever `JSON.parse` made of a response: `verify`
takes what is falsy for no keys, except just after it has fetched them.
-/

namespace OpenTerms

namespace Ts

namespace Ingest

open Json

/-- What the two methods do to the client and the network. -/
inductive JwksOp where
  /-- `this._jwks`. -/
  | getJwks
  /-- `this._jwks = jwks`. -/
  | setJwks (jwks : JsVal)
  /-- `this._fetch`, of a JWKS, raced against the timer. -/
  | fetch (target : JsStr)

@[reducible] def JwksAns : JwksOp → Type
  | .getJwks => Option JsVal
  | .setJwks _ => Unit
  | .fetch _ => Reply

abbrev JwksM := Prog JwksOp JwksAns Exc

/-- `IngestClient`, with the address its JWKS is fetched from. -/
structure JwksClient extends IngestClient where
  jwksUrl : Option JsStr

/-- What `fetchJwks` makes of a reply. -/
def jwksOfReply (timeoutMs : ℤ) (target : JsStr) : Reply → Except Exc JsVal
  | .timeout =>
    .error (.ingest ⟨lit "request exceeded " ++ (decimal timeoutMs ++ lit "ms"), none, none,
      .json .null⟩)
  | .rejected name => .error (.other name)
  | .response status text =>
    if status < 200 ∨ 299 < status then
      .error (.ingest ⟨lit "failed to fetch JWKS from " ++ (target ++ (lit ": HTTP "
        ++ decimal status)), some status, none, .json .null⟩)
    else
      match jsonParse text with
      | none => .error .syntaxError
      | some jwks => .ok jwks

/-- `url ?? this.jwksUrl`, where it is not empty. -/
def JwksClient.target (self : JwksClient) (url : Option JsStr) : Option JsStr :=
  given (url.or self.jwksUrl)

/-- `IngestClient.fetchJwks`. -/
def JwksClient.fetchJwks (self : JwksClient) (url : Option JsStr) : JwksM JsVal :=
  match self.target url with
  | none => throw (.ts (.error (lit "no jwksUrl configured; pass url= or set jwksUrl at init")))
  | some target => do
    let reply ← Prog.op (JwksOp.fetch target)
    let jwks ← liftM (jwksOfReply self.timeoutMs target reply)
    Prog.op (JwksOp.setJwks jwks)
    pure jwks

/-- What is thrown where `keys` is asked of no object, once the hash is
found to be right. -/
def verifyWithout (crypto : Crypto) (receipt : JsObject) : Except TsErr VerifyResult := do
  let claimedHash ← requireMetadata receipt (lit "canonical_hash")
  let _ ← requireMetadata receipt (lit "signature")
  let keyId ← requireMetadata receipt (lit "key_id")
  let hashBytes ← receiptDigest crypto receipt
  if !strictEq (.str (hex hashBytes)) claimedHash then
    .ok (fail .hashMismatch keyId (hex hashBytes))
  else .error .typeError

/-- `verifyReceipt`, of keys that need not be an object. `null` has no
properties, the `keys` of an array is a function, which has no `find`, and
other values have no `keys`. -/
def verifyWith (crypto : Crypto) (receipt : JsObject) : JsVal → Except TsErr VerifyResult
  | .obj jwks => verifyReceipt crypto receipt jwks
  | .null | .arr _ => verifyWithout crypto receipt
  | _ => verifyReceipt crypto receipt []

/-- `jwks ?? …`, of an argument. -/
def passed (jwks : Option JsVal) : Option JsVal := jwks.filter (· ≠ .null)

/-- The keys `verify` goes by: those passed, those held, or those fetched
now. -/
def JwksClient.keysFor (self : JwksClient) (jwks : Option JsVal) : JwksM JsVal := do
  let keys ← match passed jwks with
    | some keys => pure (some keys)
    | none => Prog.op JwksOp.getJwks
  match keys.filter truthy with
  | some keys => pure keys
  | none =>
    if given self.jwksUrl = none then
      throw (.ts (.error
        (lit "no JWKS available; pass jwks= or configure jwksUrl / jwks at init")))
    else self.fetchJwks none

/-- `IngestClient.verify`. -/
def JwksClient.verify (self : JwksClient) (crypto : Crypto) (receipt : JsObject)
    (jwks : Option JsVal) : JwksM VerifyResult := do
  let keys ← self.keysFor jwks
  liftM (liftTs (verifyWith crypto receipt keys))

/-- What is called on the client. -/
inductive JwksCall where
  | fetchJwks (url : Option JsStr)
  | verify (receipt : JsObject) (jwks : Option JsVal)

/-- What a call resolves to. -/
inductive JwksReturned where
  | jwks (jwks : JsVal)
  | verified (result : VerifyResult)

/-- A call on the client. -/
def JwksClient.run (self : JwksClient) (crypto : Crypto) : JwksCall → JwksM JwksReturned
  | .fetchJwks url => do
    let jwks ← self.fetchJwks url
    pure (.jwks jwks)
  | .verify receipt jwks => do
    let result ← self.verify crypto receipt jwks
    pure (.verified result)

/-- What the calls share is `_jwks`; a request is met with what comes in
from outside. -/
def handleJwks (jwks : Option JsVal) (reply : Reply) : (o : JwksOp) → JwksAns o × Option JsVal
  | .getJwks => (jwks, jwks)
  | .setJwks jwks' => ((), some jwks')
  | .fetch _ => (reply, jwks)

/-- The calls on one client. -/
def JwksClient.system (self : JwksClient) (crypto : Crypto) :
    System JwksOp JwksAns Exc JwksReturned JwksCall (Option JsVal) Reply where
  body := self.run crypto
  handle := handleJwks

end Ingest

end Ts

end OpenTerms
