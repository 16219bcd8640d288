import WorkloadIdentity.Error.Credentials

/-! Errors of building credentials from a configuration. -/

set_option autoImplicit false

namespace WorkloadIdentity

/-- What is wrong with a configuration. -/
inductive ConfigFlaw
  | json
  | url
  | emptyAudience
  | flatTokenUrl (url : String)
  | lifetime (seconds : Nat)
  | sourceNotObject
  | unknownSource
  | awsEnvironment (id : String)
  | awsVersion (version : String)
  | noCommand
  | commandTimeout (milliseconds : Nat)
  | formatField
  | format (other : String)
  deriving DecidableEq, Repr

def ConfigFlaw.text : ConfigFlaw → String
  | .json => Incident.json.text
  | .url => Incident.url.text
  | .emptyAudience => "`audience` must not be empty"
  | .flatTokenUrl given => "`token_url` must be an absolute URL, got <" ++ given ++ ">"
  | .lifetime seconds =>
    "token_lifetime_seconds must be between 600 and 43200, got " ++ toString seconds
  | .sourceNotObject => "`credential_source` must be an object"
  | .unknownSource => "`credential_source` does not match any supported credential source"
  | .awsEnvironment id => "invalid AWS environment ID <" ++ id ++ ">"
  | .awsVersion version => "AWS version <" ++ version ++ "> is not supported"
  | .noCommand => "the executable credential source requires a `command`"
  | .commandTimeout milliseconds =>
    "executable `timeout_millis` must be between 5000 and 120000, got " ++
      toString milliseconds
  | .formatField => "the `json` format requires a `subject_token_field_name`"
  | .format other => "unsupported credential source format <" ++ other ++ ">"

inductive BuildError
  | loading
  | parsing (flaw : ConfigFlaw)
  | invalidImpersonationUrl
  | nullDocument
  | missingField (name : String)
  deriving DecidableEq, Repr

namespace BuildError

/-- The text of the error behind this one. -/
def source? : BuildError → Option String
  | .loading => some Incident.system.text
  | .parsing flaw => some flaw.text
  | .invalidImpersonationUrl | .nullDocument | .missingField _ => none

def text : BuildError → String
  | .loading => "could not find or open the credentials file " ++ Incident.system.text
  | .parsing _ => "An invalid input stream was provided."
  | .invalidImpersonationUrl =>
    "Unable to determine target principal from service account impersonation URL."
  | .nullDocument =>
    "precondition violated: the external account configuration must not be null"
  | .missingField name => "missing required field: " ++ name

end BuildError

end WorkloadIdentity
