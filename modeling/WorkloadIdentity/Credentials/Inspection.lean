import WorkloadIdentity.Credentials.Basic

/-! What credentials print of themselves for logs: the configuration, the quota project and the
cache with its locks and its provider, field by field. A fixed mark stands in the place of client
secrets, access tokens and subject tokens; texts are quoted. -/

set_option autoImplicit false

namespace WorkloadIdentity.Inspection

/-- Format characters, separators other than the space, private use, and marks that
combine with the character before them. -/
def invisibleRanges : List (Nat × Nat) :=
  [(0x00, 0x1F), (0x7F, 0xA0), (0xAD, 0xAD), (0x300, 0x36F), (0x600, 0x605), (0x61C, 0x61C),
    (0x6DD, 0x6DD), (0x70F, 0x70F), (0x1680, 0x1680), (0x180E, 0x180E), (0x2000, 0x200F),
    (0x2028, 0x202F), (0x205F, 0x206F), (0x20D0, 0x20F0), (0x3000, 0x3000), (0xE000, 0xF8FF),
    (0xFE00, 0xFE0F), (0xFE20, 0xFE2F), (0xFEFF, 0xFEFF), (0xFFF0, 0xFFFB),
    (0xFFFE, 0xFFFF), (0xE0000, 0x10FFFF)]

def isInvisible (c : Char) : Bool :=
  invisibleRanges.any fun (low, high) => low ≤ c.toNat && c.toNat ≤ high

def quoteChar (c : Char) : List Char :=
  if c = '"' then ['\\', '"']
  else if c = '\\' then ['\\', '\\']
  else if c = '\n' then ['\\', 'n']
  else if c = '\r' then ['\\', 'r']
  else if c = '\t' then ['\\', 't']
  else if c = '\x00' then ['\\', '0']
  else if isInvisible c then ['\\', 'u', '\x7b'] ++ Nat.toDigits 16 c.toNat ++ ['\x7d']
  else [c]

def quote (text : String) : String :=
  String.ofList ('"' :: text.toList.flatMap quoteChar ++ ['"'])

/-- Stands in the place of every secret. -/
def censored : String := "[censored]"

def braces (items : List String) : String :=
  "\x7b" ++ String.intercalate ", " items ++ "\x7d"

def texts (values : List String) : String :=
  "[" ++ String.intercalate ", " (values.map quote) ++ "]"

def record (name : String) (fields : List (String × String)) : String :=
  name ++ " \x7b " ++ String.intercalate ", " (fields.map fun (k, v) => k ++ ": " ++ v) ++ " \x7d"

def wrapped (name content : String) : String := name ++ "(" ++ content ++ ")"

def optional : Option String → String
  | some text => wrapped "Some" text
  | none => "None"

def optionalText (text : Option String) : String := optional (text.map quote)

def members (values : List (String × String)) : String :=
  braces (values.map fun (k, v) => quote k ++ ": " ++ quote v)

/-- A lock that nobody holds. -/
def unlocked (content : String) : String := record "Mutex" [("data", content)]

def instant (ticks : Calendar.Nanoseconds) : String :=
  record "Instant" [("tv_sec", toString (ticks / 1000000000)),
    ("tv_nsec", toString (ticks % 1000000000))]

/-- A token with its value hidden; `expiry` is shown as given. -/
def token (tokenType : String) (expiry : Option String)
    (metadata : Option (List (String × String))) : String :=
  record "Token" [("token", quote censored), ("token_type", quote tokenType),
    ("expires_at", optional expiry), ("metadata", optional (metadata.map members))]

def subjectToken : String := record "SubjectToken" [("token", quote censored)]

/-- The member that a configured source names; the text format names one to no effect. -/
def declaredMember? (source : Json) : Option String := do
  let record ← source.record? ["format"]
  let (_, member) ← (← record.optional TokenFormat.raw? "format")
  member

def format (declared : Option String) (format : TokenFormat) : String :=
  let (type, member) := match format with
    | .text => ("text", declared)
    | .json member => ("json", some member)
  record "CredentialSourceFormat" [("format_type", quote type),
    ("subject_token_field_name", optionalText member)]

def impersonation (i : Impersonation) : String :=
  record "Impersonation" [("url", quote i.url), ("service_account_email", quote i.principal),
    ("lifetime", toString i.lifetime ++ "s"),
    ("token_lifetime_seconds", optional (i.configuredLifetime.map toString))]

def stage : Stage → String
  | .subjectToken => "SubjectToken"
  | .protocol => "Protocol"
  | .transport => "Transport"
  | .other => "Other"

def oauth (e : OAuthError) : String :=
  record "OAuthError" [("status", optional (e.status.map toString)),
    ("error_code", quote e.code), ("error_description", optionalText e.description),
    ("error_uri", optionalText e.uri)]

section Within

variable (world : World)

def transport : String := world.prints.transport world.answers

def provider : String := world.prints.provider world.provider

def source (config : Configuration) : String :=
  let declared := config.sourceDocument.bind declaredMember?
  match config.source with
  | .file s => wrapped "File" <| record "FileSourcedCredentials" [("file", quote s.file),
      ("format", format declared s.format)]
  | .url s => wrapped "Url" <| record "UrlSourcedCredentials" [("url", quote s.url),
      ("headers", members (world.prints.arrange s.headers)),
      ("format", format declared s.format), ("transport", transport world)]
  | .executable s => wrapped "Executable" <| record "ExecutableSourcedCredentials"
      [("executable", record "ExecutableConfig" [("command", quote s.command),
        ("timeout_millis", optional (s.timeout.map toString)),
        ("output_file", optionalText s.outputFile)]),
      ("audience", quote config.audience),
      ("subject_token_type", quote config.subjectTokenType),
      ("service_account_email", optionalText (config.impersonation.map (·.principal)))]
  | .aws s => wrapped "Aws" <| record "AwsSourcedCredentials"
      [("config", record "AwsConfig" [("environment_id", quote s.environmentId),
        ("region_url", optionalText s.regionUrl), ("url", optionalText s.url),
        ("regional_cred_verification_url", quote s.verificationUrl),
        ("imdsv2_session_token_url", optionalText s.sessionTokenUrl)]),
      ("audience", quote config.audience), ("transport", transport world)]
  | .programmatic => wrapped "Programmatic" <| record "ProgrammaticSourcedCredentials"
      [("subject_token_provider", provider world)]

def configuration (config : Configuration) : String :=
  record "ExternalAccountConfig" [("audience", quote config.audience),
    ("subject_token_type", quote config.subjectTokenType),
    ("token_url", quote config.tokenUrl),
    ("token_info_url", optionalText config.tokenInfoUrl),
    ("client_id", optionalText config.clientId),
    ("client_secret", optional (config.clientSecret.map fun _ => quote censored)),
    ("scopes", texts config.scopes),
    ("impersonation", optional (config.impersonation.map impersonation)),
    ("credential_source", source world config)]

def cachedToken (t : Token) : String :=
  token t.tokenType (t.expiresAt.map instant) (t.metadata.map world.prints.arrange)

def cause : Cause → String
  | .fault f => wrapped "SimpleMessage" (quote f.text)
  | .message text => wrapped "SimpleMessage" (quote text)
  | .incident i => wrapped "Source" (world.prints.incident i)
  | .oauth e => wrapped "Source" (oauth e)
  | .foreign text => wrapped "Source" (world.prints.foreign text)

def error (e : CredentialsError) : String :=
  record "CredentialsError" [("is_transient", toString e.transient), ("kind", stage e.stage),
    ("source", cause world e.cause)]

def outcome : Outcome → String
  | .ok t => wrapped "Ok" (cachedToken world t)
  | .error e => wrapped "Err" (error world e)

def cache (c : Cache) : String :=
  record "State" [("token", optional (c.token.map (cachedToken world))),
    ("generation", toString c.generation), ("last", optional (c.last.map (outcome world)))]

def tokenProvider (c : Cache) (config : Configuration) : String :=
  record "TokenCache" [("state", unlocked (cache world c)),
    ("refresh_in_progress", unlocked "()"),
    ("inner", record "ExternalAccountTokenProvider" [("config", configuration world config),
      ("transport", transport world)])]

end Within

def credentials (c : Credentials) : String :=
  record "ExternalAccountCredentials" [("config", configuration c.world c.config),
    ("quota_project_id", optionalText c.config.quotaProject),
    ("token_provider", tokenProvider c.world c.cache c.config)]

def contains (text needle : List Char) : Bool :=
  match text with
  | [] => needle.isEmpty
  | c :: rest => needle.isPrefixOf (c :: rest) || contains rest needle

def mentions (c : Credentials) (needle : String) : Bool :=
  contains (credentials c).toList needle.toList

end WorkloadIdentity.Inspection
