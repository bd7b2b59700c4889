import OpenTerms.Py.Ingest.Client

/-!
# `openterms_crewai/wrapper.py`

`wrap_tool` as a program over the network, fresh ids and the call of the
wrapped function, of any result type. `_build_args` binds the arguments of
the call to the parameters of the function as `inspect` does in Python
3.10 to 3.12: what `*args` collects is a tuple, and what `**kwargs`
collects a dict.
-/

namespace OpenTerms

namespace CrewAi

open Json Py Py.Ingest

/-! ## `inspect` -/

/-- The kinds of parameters. -/
inductive ParamKind where
  | positionalOnly
  | positionalOrKeyword
  | varPositional
  | keywordOnly
  | varKeyword
  deriving DecidableEq

/-- `inspect.Parameter`, without its default, which binding in part does not
ask for. -/
structure Param where
  name : PyStr
  kind : ParamKind

abbrev Signature := List Param

/-- The first loop of `Signature.bind_partial`: what the positional arguments
are bound to, and the parameters that are left; `none` where it raises a
`TypeError`. -/
def bindPositional (kwargs : PyDict) : Signature → List PyVal → ObjDict → Option (ObjDict × Signature)
  | [], [], arguments => some (arguments, [])
  | [], _ :: _, _ => none
  | param :: params, [], arguments =>
    match param.kind with
    | .varPositional => some (arguments, params)
    | .positionalOnly =>
      if param.name ∈ names kwargs then none else some (arguments, param :: params)
    | .positionalOrKeyword | .keywordOnly | .varKeyword => some (arguments, param :: params)
  | param :: params, argVal :: argVals, arguments =>
    match param.kind with
    | .varKeyword | .keywordOnly => none
    | .varPositional =>
      some (Json.set param.name (.num (.tuple (argVal :: argVals))) arguments, params)
    | .positionalOnly =>
      bindPositional kwargs params argVals (Json.set param.name (ofVal argVal) arguments)
    | .positionalOrKeyword =>
      if param.name ∈ names kwargs then none
      else bindPositional kwargs params argVals (Json.set param.name (ofVal argVal) arguments)

/-- The second loop of `Signature.bind_partial`, over the keyword arguments;
`none` where it raises a `TypeError`. -/
def bindKeyword : Signature → PyDict → ObjDict → Option PyStr → Option ObjDict
  | [], kwargs, arguments, kwargsParam =>
    match kwargs, kwargsParam with
    | [], _ => some arguments
    | _ :: _, some name => some (Json.set name (ofVal (.obj kwargs)) arguments)
    | _ :: _, none => none
  | param :: params, kwargs, arguments, kwargsParam =>
    match param.kind with
    | .varKeyword => bindKeyword params kwargs arguments (some param.name)
    | .varPositional => bindKeyword params kwargs arguments kwargsParam
    | .positionalOnly =>
      if param.name ∈ names kwargs then none else bindKeyword params kwargs arguments kwargsParam
    | .positionalOrKeyword | .keywordOnly =>
      match get? param.name kwargs with
      | none => bindKeyword params kwargs arguments kwargsParam
      | some argVal =>
        bindKeyword params (kwargs.filter fun m => m.1 ≠ param.name)
          (Json.set param.name (ofVal argVal) arguments) kwargsParam

/-- `Signature.bind_partial(*args, **kwargs).arguments`. -/
def bindPartial (sig : Signature) (args : List PyVal) (kwargs : PyDict) : Option ObjDict := do
  let (arguments, params) ← bindPositional kwargs sig args []
  bindKeyword params kwargs arguments none

/-! ## The wrapper -/

/-- What `wrap_tool` asks a function for: its `__name__`, and its signature,
where it has them. -/
structure Tool where
  name : Option PyStr
  signature : Option Signature

/-- The arguments by placeholders: `arg_0` and so on, then the keyword
arguments. -/
def placeholders (args : List PyVal) (kwargs : PyDict) : ObjDict :=
  let out := args.zipIdx.map fun (v, i) => (lit "arg_" ++ decimal i, ofVal v)
  kwargs.foldl (fun out m => Json.set m.1 (ofVal m.2) out) out

/-- `_build_args`. -/
def buildArgs (func : Tool) (args : List PyVal) (kwargs : PyDict) : ObjDict :=
  ((func.signature.bind fun sig => bindPartial sig args kwargs)).getD (placeholders args kwargs)

/-- `OpenTermsToolConfig`. -/
structure OpenTermsToolConfig where
  client : IngestClient
  agentId : PyStr
  termsUrl : PyStr
  termsHash : PyStr
  emitPostAction : Bool
  strict : Bool

/-- The call of the wrapped function. -/
structure FuncCall where
  args : List PyVal
  kwargs : PyDict
  deriving DecidableEq

/-- A call returns an `R` or raises. -/
@[reducible] def FuncAns (R : Type) : FuncCall → Type := fun _ => Except Exc R

abbrev WrapperM (R : Type) := IngestM (FuncAns R)

/-- `func(*args, **kwargs)`. -/
abbrev callFunc (R : Type) (args : List PyVal) (kwargs : PyDict) : WrapperM R (Except Exc R) :=
  own (FuncCall.mk args kwargs)

/-- What both emissions of a call have in common. -/
def OpenTermsToolConfig.emission (config : OpenTermsToolConfig) : Emission where
  actionType := lit "tool_call"
  termsUrl := config.termsUrl
  termsHash := config.termsHash
  agentId := some config.agentId

/-- `tool_name or getattr(func, "__name__", "tool")`. -/
def displayName (func : Tool) (toolName : Option PyStr) : PyStr :=
  (given toolName).getD (func.name.getD (lit "tool"))

/-- The `action_context` of a call. -/
def actionContext (func : Tool) (toolName : Option PyStr) (args : List PyVal) (kwargs : PyDict) :
    ObjDict :=
  [(lit "tool_id", .str (displayName func toolName)), (lit "args", .obj (buildArgs func args kwargs))]

variable [Ucd] {R : Type}

/-- The receipt before the call, and the hash it is known by: null where the
client raises an `IngestError`. -/
def OpenTermsToolConfig.before (config : OpenTermsToolConfig) (libs : Libs) (ctx : ObjDict)
    (receiptId : PyStr) : WrapperM R PyVal :=
  exceptIngestError
    (do
      let resp ← config.client.emitReceipt libs config.emission (some ctx) (some receiptId)
      pure resp.canonicalHash)
    fun err => if config.strict then throw (.ingest err) else pure .null

/-- The receipt after the call. -/
def OpenTermsToolConfig.after (config : OpenTermsToolConfig) (libs : Libs)
    (strOf : R → Except Exc PyStr) (receiptId : PyStr) (result : R) : WrapperM R Unit :=
  exceptIngestError
    (do
      let text ← liftM (strOf result)
      let bytes ← liftM (liftPy (encodeUtf8 text))
      let _ ← config.client.emitPostActionReceipt libs config.emission receiptId
        (hex (libs.crypto.sha256 bytes))
      pure ())
    fun err => if config.strict then throw (.ingest err) else pure ()

/-- The function `wrap_tool` returns. -/
def wrapper (config : OpenTermsToolConfig) (libs : Libs) (strOf : R → Except Exc PyStr) (func : Tool)
    (toolName : Option PyStr) (args : List PyVal) (kwargs : PyDict) : WrapperM R R := do
  let receiptId ← uuid4
  let preCanonicalHash ← config.before libs (actionContext func toolName args kwargs) receiptId.text
  let outcome ← callFunc R args kwargs
  let result ← liftM outcome
  if config.emitPostAction ∧ preCanonicalHash ≠ .null then
    config.after libs strOf receiptId.text result
  else pure ()
  pure result

end CrewAi

end OpenTerms
