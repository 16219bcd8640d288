import WorkloadIdentity.Aws.Signature
import WorkloadIdentity.Config.Source
import WorkloadIdentity.Json.Parser
import WorkloadIdentity.World.Basic

/-! Subject tokens of AWS: a signed request for the caller's identity, which the token
endpoint can replay. Region and credentials come from the environment if it has them, and
from the metadata server otherwise. -/

set_option autoImplicit false

namespace WorkloadIdentity

namespace SignedRequest

def headerEntry (name value : String) : Json :=
  .object [("key", .string name), ("value", .string value)]

/-- The request as a document; the signature comes before the headers that it covers. -/
def toJson (signed : SignedRequest) : Json :=
  .object [
    ("url", .string signed.url),
    ("method", .string signed.method.text),
    ("headers", .array (headerEntry "Authorization" signed.authorization ::
      signed.headers.map fun h => headerEntry h.1 h.2)),
    ("body", .string signed.body)]

def token (signed : SignedRequest) : String :=
  String.ofList (Form.encodeText signed.toJson.print)

end SignedRequest

namespace AwsSource

def regionOf? (env : Environment) : Option String :=
  env.nonEmpty? "AWS_REGION" <|> env.nonEmpty? "AWS_DEFAULT_REGION"

def credentialsOf? (env : Environment) : Option AwsCredentials := do
  return ⟨← env.nonEmpty? "AWS_ACCESS_KEY_ID", ← env.nonEmpty? "AWS_SECRET_ACCESS_KEY",
    env.nonEmpty? "AWS_SESSION_TOKEN"⟩

def readText (errand : Errand) (response : Response) : Except CredentialsError String :=
  if Status.isSuccess response.status then
    match Utf8.text? response.body with
    | none => .error (.ofIncident .utf8)
    | some text => .ok text
  else .error (.refused errand response.status response.body)

def fetch (errand : Errand) (request : Option Request) : Attempt String := do
  let request ← Attempt.orIncident .request request
  let response ← World.send request
  Attempt.ofExcept (readText errand response)

def sessionRequest? (url : String) : Option Request :=
  Request.make? .put url [(false, "x-aws-ec2-metadata-token-ttl-seconds", "300")] []

/-- A request to the metadata server, with the session token if there is one. -/
def metadataRequest? (session : Option String) (url : String) : Option Request :=
  Request.make? .get url
    (match session with
      | some token => [(false, "x-aws-ec2-metadata-token", token)]
      | none => []) []

/-- A session is opened only if the metadata server is needed. -/
def openSession (source : AwsSource) (needed : Bool) : Attempt (Option String) :=
  match source.sessionTokenUrl with
  | some url =>
    if needed then do
      let token ← fetch .sessionToken (sessionRequest? url)
      return some (Blank.trim token)
    else pure none
  | none => pure none

/-- A zone without its last letter. -/
def regionOfZone (zone : String) : Except CredentialsError String :=
  let region := (Blank.trimList zone.toList).dropLast
  if region.isEmpty then .error (.ofFault (.aws (.zone zone))) else .ok (String.ofList region)

def fetchRegion (source : AwsSource) (session : Option String) : Attempt String :=
  match source.regionUrl with
  | none => Attempt.fail (.ofFault (.aws .noRegionUrl))
  | some url => do
    let zone ← fetch .region (metadataRequest? session url)
    Attempt.ofExcept (regionOfZone zone)

/-- The URL below which a role's credentials are found. -/
def roleUrl (url : String) (role : List Char) : String :=
  String.ofList ((url.toList.reverse.dropWhile (· == '/')).reverse ++ '/' :: role)

def readCredentials? (text : String) : Option AwsCredentials := do
  let record ← (← Tree.ofString? text).record? ["AccessKeyId", "SecretAccessKey", "Token"]
  return ⟨← record.text "AccessKeyId", ← record.text "SecretAccessKey",
    ← record.optionalText "Token"⟩

def fetchCredentials (source : AwsSource) (session : Option String) : Attempt AwsCredentials :=
  match source.url with
  | none => Attempt.fail (.ofFault (.aws .noCredentialsUrl))
  | some url => do
    let answer ← fetch .roleName (metadataRequest? session url)
    let role := Blank.trimList answer.toList
    if role.isEmpty then Attempt.fail (.ofFault (.aws .emptyRole))
    else
      let text ← fetch .securityCredentials (metadataRequest? session (roleUrl url role))
      Attempt.orIncident .json (readCredentials? text)

/-- Puts the region in the place of every `{region}`. -/
def fillRegion (region : List Char) : List Char → List Char
  | '\x7b' :: 'r' :: 'e' :: 'g' :: 'i' :: 'o' :: 'n' :: '\x7d' :: rest =>
    region ++ fillRegion region rest
  | c :: rest => c :: fillRegion region rest
  | [] => []

/-- The first label of the host. -/
def serviceOf (url : String) : String :=
  match (Url.parse? url).bind (·.host) with
  | some host => String.ofList (host.takeWhile (· != '.'))
  | none => "sts"

def signedToken (source : AwsSource) (audience region : String)
    (credentials : AwsCredentials) (now : Calendar.Nanoseconds) :
    Except CredentialsError String := do
  let url := String.ofList (fillRegion region.toList source.verificationUrl.toList)
  let signed ← Signature.sign credentials region (serviceOf url) .post url
    [("x-goog-cloud-target-resource", audience)] "" now
  return signed.token

def subjectToken (source : AwsSource) (audience : String) : Attempt String := do
  let world ← get
  let region := regionOf? world.environment
  let credentials := credentialsOf? world.environment
  let session ← source.openSession (region.isNone || credentials.isNone)
  let region ← match region with
    | some region => pure region
    | none => source.fetchRegion session
  let credentials ← match credentials with
    | some credentials => pure credentials
    | none => source.fetchCredentials session
  Attempt.ofExcept (source.signedToken audience region credentials world.now)

end AwsSource

end WorkloadIdentity
