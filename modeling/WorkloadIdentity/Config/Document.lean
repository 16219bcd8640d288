import WorkloadIdentity.Config.Impersonation
import WorkloadIdentity.Config.Source

/-! The configuration of external account credentials: building it from a document or
from single values, and rendering it as a document again. All flaws are found when the
configuration is built, in a fixed order. -/

set_option autoImplicit false

namespace WorkloadIdentity

def defaultScope : String := "https://www.googleapis.com/auth/cloud-platform"

structure Configuration where
  audience : String
  subjectTokenType : String
  tokenUrl : String
  tokenInfoUrl : Option String
  clientId : Option String
  clientSecret : Option String
  scopes : List String
  impersonation : Option Impersonation
  source : CredentialSource
  /-- The source as it was given, for a document. -/
  sourceDocument : Option Json
  quotaProject : Option String

/-- The members of a configuration document. -/
structure Document where
  audience : String
  subjectTokenType : String
  tokenUrl : String
  tokenInfoUrl : Option String
  source : Json
  impersonationUrl : Option String
  tokenLifetime : Option Nat
  quotaProject : Option String
  clientId : Option String
  clientSecret : Option String
  scopes : Option (List String)

/-- Values that take precedence over those of a document. -/
structure Overrides where
  quotaProject : Option String := none
  scopes : Option (List String) := none

/-- The values of a configuration whose subject tokens come from the application. -/
structure Settings where
  audience : Option String := none
  subjectTokenType : Option String := none
  tokenUrl : Option String := none
  tokenInfoUrl : Option String := none
  clientId : Option String := none
  clientSecret : Option String := none
  impersonationUrl : Option String := none
  tokenLifetime : Option Nat := none
  quotaProject : Option String := none
  scopes : Option (List String) := none

namespace Document

def fields : List String :=
  ["audience", "subject_token_type", "token_url", "token_info_url", "credential_source",
    "service_account_impersonation_url", "service_account_impersonation", "quota_project_id",
    "client_id", "client_secret", "scopes"]

def lifetime? (value : Json) : Option (Option Nat) := do
  let record ← value.record? ["token_lifetime_seconds"]
  record.optional (Record.natural? 64) "token_lifetime_seconds"

def read? (value : Json) : Option Document := do
  let record ← value.record? fields
  return {
    audience := ← record.text "audience"
    subjectTokenType := ← record.text "subject_token_type"
    tokenUrl := ← record.text "token_url"
    tokenInfoUrl := ← record.optionalText "token_info_url"
    source := ← record.field? "credential_source"
    impersonationUrl := ← record.optionalText "service_account_impersonation_url"
    tokenLifetime := (← record.optional lifetime? "service_account_impersonation").join
    quotaProject := ← record.optionalText "quota_project_id"
    clientId := ← record.optionalText "client_id"
    clientSecret := ← record.optionalText "client_secret"
    scopes := ← record.optional Record.texts? "scopes" }

end Document

namespace Configuration

def checkEndpoint (audience tokenUrl : String) : Checked Unit :=
  if audience.isEmpty then .error .emptyAudience
  else
    match Url.parse? tokenUrl with
    | none => .error .url
    | some url => if url.isHierarchical then .ok () else .error (.flatTokenUrl tokenUrl)

def scopesOrDefault : Option (List String) → List String
  | some (s :: ss) => s :: ss
  | _ => [defaultScope]

def flawed {α : Type} : Checked α → Except BuildError α
  | .ok a => .ok a
  | .error flaw => .error (.parsing flaw)

/-- A lifetime without a URL to impersonate is passed over unchecked. -/
def impersonated (url : Option String) (lifetime : Option Nat) :
    Except BuildError (Option Impersonation) :=
  match url with
  | none => .ok none
  | some url => (Impersonation.make? url lifetime).map some

def ofDocument (document : Document) (overrides : Overrides) :
    Except BuildError Configuration := do
  flawed (checkEndpoint document.audience document.tokenUrl)
  let impersonation ← impersonated document.impersonationUrl document.tokenLifetime
  let source ← flawed (CredentialSource.parse document.source)
  return {
    audience := document.audience
    subjectTokenType := document.subjectTokenType
    tokenUrl := document.tokenUrl
    tokenInfoUrl := document.tokenInfoUrl
    clientId := document.clientId
    clientSecret := document.clientSecret
    scopes := scopesOrDefault (overrides.scopes <|> document.scopes)
    impersonation := impersonation
    source := source
    sourceDocument := some document.source
    quotaProject := overrides.quotaProject <|> document.quotaProject }

def build (value : Json) (overrides : Overrides) : Except BuildError Configuration :=
  if value.isNull then .error .nullDocument
  else
    match Document.read? value with
    | none => .error (.parsing .json)
    | some document => ofDocument document overrides

def orMissing {α : Type} (name : String) : Option α → Except BuildError α
  | some a => .ok a
  | none => .error (.missingField name)

def ofSettings (settings : Settings) : Except BuildError Configuration := do
  let audience ← orMissing "audience" settings.audience
  let subjectTokenType ← orMissing "subject_token_type" settings.subjectTokenType
  let tokenUrl ← orMissing "token_url" settings.tokenUrl
  flawed (checkEndpoint audience tokenUrl)
  let impersonation ← impersonated settings.impersonationUrl settings.tokenLifetime
  return {
    audience := audience
    subjectTokenType := subjectTokenType
    tokenUrl := tokenUrl
    tokenInfoUrl := settings.tokenInfoUrl
    clientId := settings.clientId
    clientSecret := settings.clientSecret
    scopes := scopesOrDefault settings.scopes
    impersonation := impersonation
    source := .programmatic
    sourceDocument := none
    quotaProject := settings.quotaProject }

def lifetimeMember (i : Impersonation) : Option Json :=
  i.configuredLifetime.map fun seconds =>
    .object [("token_lifetime_seconds", .number (.integer seconds))]

def member (name : String) (value : Option Json) : List (String × Json) :=
  match value with
  | some value => [(name, value)]
  | none => []

def textMember (name : String) (text : Option String) : List (String × Json) :=
  member name (text.map .string)

/-- The document of a configuration, with its members in order of name. -/
def toJson (config : Configuration) : Json :=
  .object (
    [("audience", .string config.audience)] ++
    textMember "client_id" config.clientId ++
    textMember "client_secret" config.clientSecret ++
    member "credential_source" config.sourceDocument ++
    textMember "quota_project_id" config.quotaProject ++
    [("scopes", Json.texts config.scopes)] ++
    member "service_account_impersonation" (config.impersonation.bind lifetimeMember) ++
    textMember "service_account_impersonation_url" (config.impersonation.map (·.url)) ++
    [("subject_token_type", .string config.subjectTokenType)] ++
    textMember "token_info_url" config.tokenInfoUrl ++
    [("token_url", .string config.tokenUrl), ("type", .string "external_account")])

end Configuration

end WorkloadIdentity
