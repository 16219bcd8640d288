import WorkloadIdentity.Config.Source
import WorkloadIdentity.Json.Parser
import WorkloadIdentity.World.Basic

/-! Subject tokens printed by a local executable. Running it has to be allowed by the
environment. An answer that it left in its output file is used while that is acceptable;
otherwise the command runs, with the configuration in its environment. -/

set_option autoImplicit false

namespace WorkloadIdentity

def jwtTokenType : String := "urn:ietf:params:oauth:token-type:jwt"

def idTokenType : String := "urn:ietf:params:oauth:token-type:id_token"

def saml2TokenType : String := "urn:ietf:params:oauth:token-type:saml2"

/-- What the executable says. -/
structure ExecutableAnswer where
  version : Option Int
  success : Option Bool
  tokenType : Option String
  expiration : Option Int
  idToken : Option String
  samlResponse : Option String
  code : Option String
  message : Option String
  deriving DecidableEq, Repr

namespace ExecutableAnswer

def fields : List String :=
  ["version", "success", "token_type", "expiration_time", "id_token", "saml_response", "code",
    "message"]

def read? (text : String) : Option ExecutableAnswer := do
  let record ← (← Tree.ofString? text).record? fields
  return {
    version := ← record.optional Record.long? "version"
    success := ← record.optional Json.bool? "success"
    tokenType := ← record.optionalText "token_type"
    expiration := ← record.optional Record.long? "expiration_time"
    idToken := ← record.optionalText "id_token"
    samlResponse := ← record.optionalText "saml_response"
    code := ← record.optionalText "code"
    message := ← record.optionalText "message" }

def flawed {α : Type} (flaw : AnswerFlaw) : Except CredentialsError α :=
  .error (.ofFault (.answer flaw))

def checkVersion (answer : ExecutableAnswer) : Except CredentialsError Unit :=
  match answer.version with
  | some v => if v = 1 then .ok () else flawed (.version v)
  | none => flawed .noVersion

def checkSuccess (answer : ExecutableAnswer) : Except CredentialsError Unit :=
  match answer.success with
  | some true => .ok ()
  | some false =>
    match answer.code, answer.message with
    | some code, some message => flawed (.unsuccessful code message)
    | _, _ => flawed .unexplained
  | none => flawed .noSuccess

/-- An answer may be used before its expiration; one that was kept has to have one. -/
def checkExpiration (answer : ExecutableAnswer) (seconds : Int) (kept : Bool) :
    Except CredentialsError Unit :=
  match answer.expiration with
  | some expiration =>
    if expiration ≤ seconds then .error ⟨.other, true, .fault .answerExpired⟩ else .ok ()
  | none => if kept then flawed .noExpiration else .ok ()

def orFlawed (flaw : AnswerFlaw) : Option String → Except CredentialsError String
  | some token => .ok token
  | none => flawed flaw

def token (answer : ExecutableAnswer) : Except CredentialsError String :=
  match answer.tokenType with
  | none => flawed .noTokenType
  | some type =>
    if type = jwtTokenType ∨ type = idTokenType then orFlawed .noIdToken answer.idToken
    else if type = saml2TokenType then orFlawed .noSamlResponse answer.samlResponse
    else flawed (.tokenType type)

/-- The subject token of an acceptable answer, at a time in Unix seconds. `kept` tells an
answer of the output file from a fresh one. -/
def accept (text : String) (seconds : Int) (kept : Bool) : Except CredentialsError String :=
  match read? text with
  | none => .error (.ofIncident .json)
  | some answer => do
    answer.checkVersion
    answer.checkSuccess
    answer.checkExpiration seconds kept
    let token ← answer.token
    if Blank.allBlank token then flawed .emptyToken else .ok token

end ExecutableAnswer

namespace ExecutableSource

def permissionVariable : String := "GOOGLE_EXTERNAL_ACCOUNT_ALLOW_EXECUTABLES"

def isAllowed (env : Environment) : Bool := env.text? permissionVariable == some "1"

/-- What the command is told besides its arguments. -/
structure Context where
  audience : String
  subjectTokenType : String
  principal : Option String

def setOptional (env : Environment) (name : String) : Option String → Environment
  | some value => env.setText name value
  | none => env

/-- The environment of the command: that of the caller with the configuration over it. -/
def childEnvironment (source : ExecutableSource) (context : Context) (env : Environment) :
    Environment :=
  let env := env.setText "GOOGLE_EXTERNAL_ACCOUNT_AUDIENCE" context.audience
  let env := env.setText "GOOGLE_EXTERNAL_ACCOUNT_TOKEN_TYPE" context.subjectTokenType
  let env := env.setText "GOOGLE_EXTERNAL_ACCOUNT_INTERACTIVE" "0"
  let env := setOptional env "GOOGLE_EXTERNAL_ACCOUNT_IMPERSONATED_EMAIL" context.principal
  setOptional env "GOOGLE_EXTERNAL_ACCOUNT_OUTPUT_FILE" source.outputFile

/-- The words of the command line; there is no quoting. -/
def invocation (source : ExecutableSource) (context : Context) (env : Environment) :
    Invocation :=
  match Blank.words source.command with
  | program :: arguments => ⟨program, arguments, childEnvironment source context env⟩
  | [] => ⟨source.command, [], childEnvironment source context env⟩

def seconds (now : Calendar.Nanoseconds) : Int := now / Calendar.second

/-- The token of the output file, if it is acceptable. -/
def kept? (source : ExecutableSource) (world : World) : Option String := do
  let path ← source.outputFile
  let text ← (world.files.read? path).bind Utf8.text?
  (ExecutableAnswer.accept text (seconds world.now) true).toOption

/-- The token of a command that has been waited for. -/
def ofCompletion (now : Calendar.Nanoseconds) : Completion → Except CredentialsError String
  | .notStarted => .error (.ofIncident .system)
  | .unfinished => .error ⟨.other, true, .incident .timeout⟩
  | .exited (some 0) stdout _ =>
    match Utf8.text? stdout with
    | none => .error (.ofIncident .utf8)
    | some text => ExecutableAnswer.accept text (seconds now) false
  | .exited code _ stderr => .error (.ofFault (.commandFailed code stderr))

def subjectToken (source : ExecutableSource) (context : Context) : Attempt String := do
  let world ← get
  if !isAllowed world.environment then Attempt.fail (.ofFault .executablesForbidden)
  else
    match source.kept? world with
    | some token => pure token
    | none =>
      let completion ← World.run (source.invocation context world.environment)
        source.allowedNanoseconds
      Attempt.ofExcept (ofCompletion (← get).now completion)

end ExecutableSource

end WorkloadIdentity
