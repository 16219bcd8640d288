import WorkloadIdentity.Digest.Sha256
import WorkloadIdentity.Error.Credentials
import WorkloadIdentity.Http.Message
import WorkloadIdentity.Text.Hex
import WorkloadIdentity.Time.Calendar
import WorkloadIdentity.Url.Parser

/-! Signature Version 4 of AWS. A request is brought into a canonical text: its path and
query with one spelling of every character, the query pairs in order, and the signed
headers by name. The signature is a keyed hash of that text, of the time, and of the scope
of the key. -/

set_option autoImplicit false

namespace WorkloadIdentity

structure AwsCredentials where
  accessKeyId : String
  secretAccessKey : String
  sessionToken : Option String
  deriving DecidableEq, Repr

/-- Where a derived key is valid. -/
structure SigningScope where
  date : List Char
  region : String
  service : String
  deriving DecidableEq, Repr

structure SignedRequest where
  url : String
  method : Method
  headers : Members String
  authorization : String
  body : String
  deriving DecidableEq, Repr

namespace Signature

def algorithm : List Char := "AWS4-HMAC-SHA256".toList

/-- Unreserved characters and slashes stand in a canonical path as they are. -/
def keepInPath (b : UInt8) : Bool := Percent.isUnreserved b || b == 0x2F

/-- One spelling for all paths with the same decoded text. -/
def canonicalPath? (path : List Char) : Option (List Char) := do
  let decoded ← Utf8.decode? (Percent.decode (Utf8.encode path))
  let decoded := if decoded.isEmpty then ['/'] else decoded
  return Percent.encode keepInPath (Utf8.encode decoded)

def encodeQueryText (text : String) : String :=
  String.ofList (Percent.encode Percent.isUnreserved (Utf8.ofString text))

/-- By the first text, then by the second. -/
def pairLe (a b : String × String) : Bool :=
  decide (a.1 < b.1) || (a.1 == b.1 && !decide (b.2 < a.2))

def canonicalPairs (pairs : List (String × String)) : List (String × String) :=
  (pairs.map fun (k, v) => (encodeQueryText k, encodeQueryText v)).mergeSort pairLe

def canonicalQuery (pairs : List (String × String)) : List Char :=
  ['&'].intercalate ((canonicalPairs pairs).map fun (k, v) => k.toList ++ '=' :: v.toList)

def signedNames (headers : Members String) : List Char :=
  [';'].intercalate (headers.map fun h => h.1.toList)

def headerLines (headers : Members String) : List Char :=
  headers.flatMap fun (name, value) => name.toList ++ ':' :: value.toList ++ ['\n']

def hexHash (text : List Char) : List Char := Hex.encode (Sha256.hash (Utf8.encode text))

def canonicalRequest? (method : Method) (url : Url) (headers : Members String)
    (body : String) : Option (List Char) := do
  let path ← canonicalPath? url.pathText
  return method.text.toList ++ '\n' :: path ++ '\n' :: canonicalQuery url.queryPairs ++
    '\n' :: headerLines headers ++ '\n' :: signedNames headers ++ '\n' :: hexHash body.toList

def SigningScope.text (scope : SigningScope) : List Char :=
  scope.date ++ '/' :: scope.region.toList ++ '/' :: scope.service.toList ++
    "/aws4_request".toList

def stringToSign (time scope canonical : List Char) : List Char :=
  algorithm ++ '\n' :: time ++ '\n' :: scope ++ '\n' :: hexHash canonical

/-- The key of a scope, derived from the secret by one keyed hash for each of its parts. -/
def signingKey (secret : String) (scope : SigningScope) : Bytes :=
  let key := Utf8.encode ("AWS4".toList ++ secret.toList)
  let key := Sha256.hmac key (Utf8.encode scope.date)
  let key := Sha256.hmac key (Utf8.ofString scope.region)
  let key := Sha256.hmac key (Utf8.ofString scope.service)
  Sha256.hmac key (Utf8.ofString "aws4_request")

def authorization (credentials : AwsCredentials) (scope : SigningScope)
    (headers : Members String) (time canonical : List Char) : List Char :=
  let toSign := stringToSign time (SigningScope.text scope) canonical
  let signature := Sha256.hmac (signingKey credentials.secretAccessKey scope)
    (Utf8.encode toSign)
  algorithm ++ " Credential=".toList ++ credentials.accessKeyId.toList ++
    '/' :: SigningScope.text scope ++ ", SignedHeaders=".toList ++ signedNames headers ++
    ", Signature=".toList ++ Hex.encode signature

def lowerName (name : String) : String := String.ofList (name.toList.map Char.toLower)

/-- The headers to be signed: those given, trimmed, with host, date and session token. -/
def signedHeaders (credentials : AwsCredentials) (host time : List Char)
    (additional : List (String × String)) : Members String :=
  let headers := Members.ofList (additional.map fun (k, v) => (lowerName k, Blank.trim v))
  let headers := Members.insert "host" (String.ofList host) headers
  let headers := Members.insert "x-amz-date" (String.ofList time) headers
  match credentials.sessionToken with
  | some token => Members.insert "x-amz-security-token" token headers
  | none => headers

def sign (credentials : AwsCredentials) (region service : String) (method : Method)
    (url : String) (additional : List (String × String)) (body : String)
    (now : Calendar.Nanoseconds) : Except CredentialsError SignedRequest :=
  match Url.parse? url with
  | none => .error (.ofIncident .url)
  | some parsed =>
    match parsed.authority? with
    | none => .error (.ofFault (.noHost url))
    | some host =>
      let time := Calendar.momentText now
      let headers := signedHeaders credentials host time additional
      match canonicalRequest? method parsed headers body with
      | none => .error (.ofIncident .utf8)
      | some canonical =>
        let scope : SigningScope := ⟨Calendar.dateText now, region, service⟩
        .ok ⟨url, method, headers,
          String.ofList (authorization credentials scope headers time canonical), body⟩

end Signature

end WorkloadIdentity
