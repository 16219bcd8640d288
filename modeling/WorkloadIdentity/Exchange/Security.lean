import WorkloadIdentity.Config.Document
import WorkloadIdentity.Encoding.Base64
import WorkloadIdentity.Exchange.Token
import WorkloadIdentity.World.Basic

/-! The exchange of a subject token at the Security Token Service: the form that is
posted, the client's authentication, and the answer. When an account is impersonated, the
federated token is asked for the platform scope alone and names the account. -/

set_option autoImplicit false

namespace WorkloadIdentity.Exchange

def grantType : String := "urn:ietf:params:oauth:grant-type:token-exchange"

def accessTokenType : String := "urn:ietf:params:oauth:token-type:access_token"

def requestedScopes (config : Configuration) : List String :=
  if config.impersonation.isSome then [defaultScope] else config.scopes

def options (i : Impersonation) : Json := .object [("serviceAccount", .string i.principal)]

def optionsPair (config : Configuration) : List (String × String) :=
  match config.impersonation with
  | some i => [("options", (options i).render)]
  | none => []

def scopePair (scopes : List String) : List (String × String) :=
  if scopes.isEmpty then [] else [("scope", String.intercalate " " scopes)]

/-- The parameters in their order. -/
def parameters (config : Configuration) (subjectToken : String) : List (String × String) :=
  [("grant_type", grantType), ("requested_token_type", accessTokenType),
    ("subject_token", subjectToken), ("subject_token_type", config.subjectTokenType)] ++
  scopePair (requestedScopes config) ++ [("audience", config.audience)] ++ optionsPair config

/-- The client authenticates if both of its texts are known. -/
def clientHeader (config : Configuration) : List RawHeader :=
  match config.clientId, config.clientSecret with
  | some id, some secret =>
    let encoded := Base64.encode (Utf8.encode (id.toList ++ ':' :: secret.toList))
    [(true, "authorization", "Basic " ++ String.ofList encoded)]
  | _, _ => []

def request? (config : Configuration) (subjectToken : String) : Option Request :=
  Request.make? .post config.tokenUrl
    ((false, "content-type", "application/x-www-form-urlencoded") :: clientHeader config)
    (Utf8.encode (Form.encode (parameters config subjectToken)))

structure Grant where
  accessToken : String
  issuedTokenType : Option String
  tokenType : String
  /-- In seconds. -/
  expiresIn : Option Nat
  scope : Option String
  deriving DecidableEq, Repr

namespace Grant

/-- The token type may be left out, but not `null`. -/
def tokenTypeOf? (record : Record) : Option String :=
  match record.field? "token_type" with
  | none => some "Bearer"
  | some value => value.string?

def read? (body : Bytes) : Option Grant := do
  let record ← (← Tree.ofBytes? body).record?
    ["access_token", "issued_token_type", "token_type", "expires_in", "scope"]
  return ⟨← record.text "access_token", ← record.optionalText "issued_token_type",
    ← tokenTypeOf? record, ← record.optional (Record.natural? 64) "expires_in",
    ← record.optionalText "scope"⟩

def metadataMember (name : String) : Option String → List (String × String)
  | some value => [(name, value)]
  | none => []

/-- What the service reported about the token; nothing at all if it reported nothing. -/
def metadata (grant : Grant) : Option (Members String) :=
  match metadataMember "issued_token_type" grant.issuedTokenType ++
      metadataMember "scope" grant.scope with
  | [] => none
  | members => some members

end Grant

/-- The greatest number of whole seconds that the monotonic clock holds. -/
def maxSeconds : Int := Int.pow 2 63 - 1

/-- The moment `seconds` from now; `none` if the clock cannot hold it. -/
def expiry? (ticks : Calendar.Nanoseconds) (seconds : Nat) : Option Calendar.Nanoseconds :=
  if ticks / Calendar.second + seconds ≤ maxSeconds then
    some (ticks + seconds * Calendar.second)
  else none

def read (response : Response) : Except CredentialsError Grant :=
  if Status.isSuccess response.status then
    match Grant.read? response.body with
    | some grant => .ok grant
    | none => .error (.ofIncident .json)
  else .error (.rejected (OAuthError.ofResponse response.status response.body))

def tokenOf (grant : Grant) (ticks : Calendar.Nanoseconds) : Except Failure Token :=
  match grant.expiresIn with
  | none => .ok ⟨grant.accessToken, grant.tokenType, none, grant.metadata⟩
  | some seconds =>
    match expiry? ticks seconds with
    | some expiry => .ok ⟨grant.accessToken, grant.tokenType, some expiry, grant.metadata⟩
    | none => .error .clockOverflow

def exchange (config : Configuration) (subjectToken : String) : Attempt Token := do
  let request ← Attempt.orIncident .request (request? config subjectToken)
  let response ← World.send request
  let grant ← Attempt.ofExcept (read response)
  liftExcept (tokenOf grant (← get).ticks)
where
  liftExcept : Except Failure Token → Attempt Token
    | .ok token => pure token
    | .error failure => throw failure

end WorkloadIdentity.Exchange
