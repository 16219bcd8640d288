import WorkloadIdentity.Error.Build
import WorkloadIdentity.Json.Record

/-! Credential sources. A source is an object without a discriminator: the first of the
names `environment_id`, `executable`, `file`, `url` that it has decides its kind. -/

set_option autoImplicit false

namespace WorkloadIdentity

/-- How a subject token is taken out of a text. -/
inductive TokenFormat
  | text
  | json (member : String)
  deriving DecidableEq, Repr

structure FileSource where
  file : String
  format : TokenFormat
  deriving DecidableEq, Repr

structure UrlSource where
  url : String
  headers : List (String × String)
  format : TokenFormat
  deriving DecidableEq, Repr

structure ExecutableSource where
  command : String
  /-- In milliseconds, as configured. -/
  timeout : Option Nat
  outputFile : Option String
  deriving DecidableEq, Repr

structure AwsSource where
  environmentId : String
  regionUrl : Option String
  url : Option String
  verificationUrl : String
  sessionTokenUrl : Option String
  deriving DecidableEq, Repr

inductive CredentialSource
  | file (source : FileSource)
  | url (source : UrlSource)
  | executable (source : ExecutableSource)
  | aws (source : AwsSource)
  | programmatic
  deriving DecidableEq, Repr

abbrev Checked := Except ConfigFlaw

/-- The value of a reader, or the complaint that the JSON has another shape. -/
def shaped {α : Type} : Option α → Checked α
  | some a => .ok a
  | none => .error .json

namespace TokenFormat

def fields : List String := ["type", "subject_token_field_name"]

/-- The declared type and member name. -/
def raw? (value : Json) : Option (String × Option String) := do
  let record ← value.record? fields
  return (← record.text "type", ← record.optionalText "subject_token_field_name")

def check : String × Option String → Checked TokenFormat
  | ("text", _) => .ok .text
  | ("json", some member) => if member.isEmpty then .error .formatField else .ok (.json member)
  | ("json", none) => .error .formatField
  | (other, _) => .error (.format other)

/-- Without a format the text as a whole is the token. -/
def checkOptional : Option (String × Option String) → Checked TokenFormat
  | none => .ok .text
  | some raw => check raw

end TokenFormat

namespace FileSource

def parse (value : Json) : Checked FileSource := do
  let (file, format) ← shaped do
    let record ← value.record? ["file", "format"]
    return (← record.text "file", ← record.optional TokenFormat.raw? "format")
  return ⟨file, ← TokenFormat.checkOptional format⟩

end FileSource

namespace UrlSource

def parse (value : Json) : Checked UrlSource := do
  let (url, headers, format) ← shaped do
    let record ← value.record? ["url", "headers", "format"]
    return (← record.text "url", ← record.optional Record.textMap? "headers",
      ← record.optional TokenFormat.raw? "format")
  return ⟨url, headers.getD [], ← TokenFormat.checkOptional format⟩

end UrlSource

namespace ExecutableSource

def minTimeout : Nat := 5000

def maxTimeout : Nat := 120000

def defaultTimeout : Nat := 30000

/-- How long the command may run, in milliseconds. -/
def allowedTime (source : ExecutableSource) : Nat := source.timeout.getD defaultTimeout

def allowedNanoseconds (source : ExecutableSource) : Nat := source.allowedTime * 1000000

def raw? (value : Json) : Option ExecutableSource := do
  let record ← value.record? ["command", "timeout_millis", "output_file"]
  return ⟨← record.text "command", ← record.optional (Record.natural? 32) "timeout_millis",
    ← record.optionalText "output_file"⟩

def check (source : ExecutableSource) : Checked ExecutableSource :=
  if Blank.allBlank source.command then .error .noCommand
  else
    match source.timeout with
    | some t => if minTimeout ≤ t ∧ t ≤ maxTimeout then .ok source else .error (.commandTimeout t)
    | none => .ok source

def parse (value : Json) : Checked ExecutableSource := do
  check (← shaped do
    let record ← value.record? ["executable"]
    record.required raw? "executable")

end ExecutableSource

namespace AwsSource

/-- The text after `aws`. -/
def version? (id : String) : Option (List Char) :=
  match id.toList with
  | 'a' :: 'w' :: 's' :: version => some version
  | _ => none

/-- A decimal numeral, with an optional plus sign, of value one. -/
def isSupported (version : List Char) : Bool :=
  let digits := match version with
    | '+' :: ds => ds
    | ds => ds
  !digits.isEmpty && digits.all Char.isDigit && Nat.ofDigitChars 10 digits 0 == 1

def check (source : AwsSource) : Checked AwsSource :=
  match version? source.environmentId with
  | none => .error (.awsEnvironment source.environmentId)
  | some version =>
    if isSupported version then .ok source
    else .error (.awsVersion (String.ofList version))

def raw? (value : Json) : Option AwsSource := do
  let record ← value.record? ["environment_id", "region_url", "url",
    "regional_cred_verification_url", "imdsv2_session_token_url"]
  return ⟨← record.text "environment_id", ← record.optionalText "region_url",
    ← record.optionalText "url", ← record.text "regional_cred_verification_url",
    ← record.optionalText "imdsv2_session_token_url"⟩

def parse (value : Json) : Checked AwsSource := do check (← shaped (raw? value))

end AwsSource

namespace CredentialSource

def describe : CredentialSource → String
  | .file _ => "file"
  | .url _ => "url"
  | .executable _ => "executable"
  | .aws _ => "aws"
  | .programmatic => "programmatic"

def parse (value : Json) : Checked CredentialSource :=
  match value with
  | .object members =>
    if Members.contains members "environment_id" then (AwsSource.parse value).map .aws
    else if Members.contains members "executable" then
      (ExecutableSource.parse value).map .executable
    else if Members.contains members "file" then (FileSource.parse value).map .file
    else if Members.contains members "url" then (UrlSource.parse value).map .url
    else .error .unknownSource
  | _ => .error .sourceNotObject

end CredentialSource

end WorkloadIdentity
