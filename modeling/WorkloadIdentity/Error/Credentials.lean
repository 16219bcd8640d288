import WorkloadIdentity.Error.OAuth
import WorkloadIdentity.Json.Printer
import WorkloadIdentity.Http.Status

/-! Errors of obtaining an access token. Each has the stage that failed, whether a later
attempt may succeed, and a cause. The texts of all causes are in this module. -/

set_option autoImplicit false

namespace WorkloadIdentity

/-- What a metadata or subject token server was asked for. -/
inductive Errand
  | subjectToken
  | sessionToken
  | region
  | roleName
  | securityCredentials
  deriving DecidableEq, Repr

def Errand.failure : Errand → String
  | .subjectToken => "failed to request subject token"
  | .sessionToken => "failed to retrieve the IMDSv2 session token"
  | .region => "failed to retrieve the AWS region"
  | .roleName => "failed to retrieve the AWS role name"
  | .securityCredentials => "failed to retrieve the AWS security credentials"

/-- What an executable's answer lacks. -/
inductive AnswerFlaw
  | version (v : Int)
  | noVersion
  | noSuccess
  | unsuccessful (code message : String)
  | unexplained
  | noExpiration
  | noIdToken
  | noSamlResponse
  | tokenType (other : String)
  | noTokenType
  | emptyToken
  deriving DecidableEq, Repr

def AnswerFlaw.text : AnswerFlaw → String
  | .version v => "unsupported executable response version " ++ toString v
  | .noVersion => "the executable response is missing the `version` field"
  | .noSuccess => "the executable response is missing the `success` field"
  | .unsuccessful code message =>
    "response contains unsuccessful response, code=<" ++ code ++ ">, message=<" ++ message ++ ">"
  | .unexplained => "response must include `code` and `message` fields when unsuccessful"
  | .noExpiration =>
    "the `expiration_time` field is required when an output file is configured"
  | .noIdToken => "missing `id_token` field"
  | .noSamlResponse => "missing `saml_response` field"
  | .tokenType other => "unsupported token type <" ++ other ++ ">"
  | .noTokenType => "missing `token_type` field"
  | .emptyToken => "subject token is empty"

/-- What keeps AWS credentials from a subject token. -/
inductive AwsFlaw
  | noRegionUrl
  | noCredentialsUrl
  | zone (zone : String)
  | emptyRole
  deriving DecidableEq, Repr

def AwsFlaw.text : AwsFlaw → String
  | .noRegionUrl => "unable to determine the AWS region, `region_url` is not configured"
  | .noCredentialsUrl => "unable to determine the AWS credentials, `url` is not configured"
  | .zone answer => "invalid availability zone <" ++ answer ++ ">"
  | .emptyRole => "the metadata server returned an empty role name"

/-- Failures that the credentials find themselves. -/
inductive Fault
  | emptySubjectToken
  | memberNotText (name : String) (document : Json)
  | refused (errand : Errand) (status : Nat) (body : Bytes)
  | executablesForbidden
  | commandFailed (code : Option Nat) (stderr : Bytes)
  | answer (flaw : AnswerFlaw)
  | answerExpired
  | aws (flaw : AwsFlaw)
  | noHost (url : String)

def Fault.text : Fault → String
  | .emptySubjectToken => "subject token is empty"
  | .memberNotText name document =>
    "failed to read subject token field `" ++ name ++ "` as string, body=<" ++
      document.render ++ ">"
  | .refused errand status body =>
    errand.failure ++ ", failed with status " ++ Status.describe status ++ ", body=<" ++
      Utf8.lossyText body ++ ">"
  | .executablesForbidden =>
    "executables need to be explicitly allowed (set " ++
      "GOOGLE_EXTERNAL_ACCOUNT_ALLOW_EXECUTABLES to '1') to run"
  | .commandFailed code stderr =>
    "failed to read subject token, command execution failed" ++
      (match code with
        | some code => ", code=" ++ toString code
        | none => "") ++
      ", stderr=<" ++ Utf8.lossyText stderr ++ ">"
  | .answer flaw => "failed to read subject token, " ++ flaw.text
  | .answerExpired => "the token returned by the executable is expired"
  | .aws flaw => "failed to retrieve AWS subject token, " ++ flaw.text
  | .noHost url => "cannot sign request, the URL <" ++ url ++ "> has no host"

/-- Failures that are reported by what the credentials stand on. They are told apart by a
tag, their own texts are not kept. -/
inductive Incident
  | json
  | url
  | request
  | headerValue
  | utf8
  | timestamp
  | system
  | timeout
  | client
  deriving DecidableEq, Repr

def Incident.text : Incident → String
  | .json => "<json>"
  | .url => "<url>"
  | .request => "<http>"
  | .headerValue => "<header>"
  | .utf8 => "<utf8>"
  | .timestamp => "<time>"
  | .system => "<io>"
  | .timeout => "<timeout>"
  | .client => "<reqwest>"

/-- The stage that an error is attributed to. -/
inductive Stage
  | subjectToken
  | protocol
  | transport
  | other
  deriving DecidableEq, Repr

inductive Cause
  | fault (fault : Fault)
  | message (text : String)
  | incident (incident : Incident)
  | oauth (error : OAuthError)
  /-- An error of the application, by its text. -/
  | foreign (text : String)

namespace Cause

/-- Whether there is an error behind this one. -/
def hasSource : Cause → Bool
  | .fault _ | .message _ => false
  | .incident _ | .oauth _ | .foreign _ => true

def text : Cause → String
  | .fault f => f.text
  | .message t => t
  | .incident i => i.text
  | .oauth e => e.text
  | .foreign t => t

end Cause

structure CredentialsError where
  stage : Stage
  transient : Bool
  cause : Cause

namespace CredentialsError

def ofFault (fault : Fault) : CredentialsError := ⟨.other, false, .fault fault⟩

def ofIncident (incident : Incident) : CredentialsError := ⟨.other, false, .incident incident⟩

/-- A server other than an OAuth endpoint answered with a failure. -/
def refused (errand : Errand) (status : Nat) (body : Bytes) : CredentialsError :=
  ⟨.other, Status.isRetryable status, .fault (.refused errand status body)⟩

/-- An OAuth endpoint rejected the request; its status alone says whether to retry. -/
def rejected (error : OAuthError) : CredentialsError :=
  ⟨.protocol, error.status.any Status.isRetryable, .oauth error⟩

def inSubjectToken (e : CredentialsError) : CredentialsError := { e with stage := .subjectToken }

def oauth? (e : CredentialsError) : Option OAuthError :=
  match e.cause with
  | .oauth error => some error
  | _ => none

def hasSource (e : CredentialsError) : Bool := e.cause.hasSource

def text (e : CredentialsError) : String :=
  "cannot create access token, " ++
    (if e.transient then "but future attempts may succeed"
      else "and future attempts will not succeed") ++
    ", source:" ++ e.cause.text

end CredentialsError

end WorkloadIdentity
