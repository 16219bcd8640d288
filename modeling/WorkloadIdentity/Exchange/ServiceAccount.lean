import WorkloadIdentity.Config.Impersonation
import WorkloadIdentity.Exchange.Token
import WorkloadIdentity.Json.Record
import WorkloadIdentity.Time.Rfc3339
import WorkloadIdentity.World.Basic

/-! The exchange of a federated token for one of the impersonated service account. The
account's token expires at the moment that the answer names, taken over from the wall
clock to the monotonic clock. -/

set_option autoImplicit false

namespace WorkloadIdentity.Impersonation

def body (i : Impersonation) (scopes : List String) : Json :=
  .object [
    ("scope", Json.texts scopes),
    ("lifetime", .string (toString i.lifetime ++ "s"))]

/-- The request without its authorization. -/
def bareRequest? (i : Impersonation) (scopes : List String) : Option Request :=
  Request.make? .post i.url [(false, "content-type", "application/json")]
    (Utf8.encode (i.body scopes).print)

/-- A URL that is no request URI is reported before a token that is no header value. -/
def request (i : Impersonation) (scopes : List String) (token : Token) :
    Except CredentialsError Request :=
  match i.bareRequest? scopes with
  | none => .error (.ofIncident .request)
  | some request => do
    let headers ← token.headers none
    return { request with headers := request.headers ++ headers }

/-- The access token and the text of its expiry. -/
def readAnswer? (body : Bytes) : Option (String × String) := do
  let record ← (← Tree.ofBytes? body).record? ["accessToken", "expireTime"]
  return (← record.text "accessToken", ← record.text "expireTime")

/-- What remains until a moment of the wall clock; nothing if it has passed. -/
def remaining (now moment : Calendar.Nanoseconds) : Calendar.Nanoseconds := max 0 (moment - now)

def read (response : Response) (now ticks : Calendar.Nanoseconds) :
    Except CredentialsError Token :=
  if Status.isSuccess response.status then
    match readAnswer? response.body with
    | none => .error (.ofIncident .json)
    | some (value, expireTime) =>
      match Rfc3339.parse? expireTime with
      | none => .error (.ofIncident .timestamp)
      | some moment => .ok ⟨value, "Bearer", some (ticks + remaining now moment), none⟩
  else .error (.rejected (OAuthError.ofResponse response.status response.body))

def exchange (i : Impersonation) (scopes : List String) (token : Token) : Attempt Token := do
  let request ← Attempt.ofExcept (i.request scopes token)
  let response ← World.send request
  let world ← get
  Attempt.ofExcept (read response world.now world.ticks)

end WorkloadIdentity.Impersonation
