import WorkloadIdentity.Error.Credentials
import WorkloadIdentity.Http.Message
import WorkloadIdentity.Time.Calendar

/-! Access tokens, and the headers that carry one. -/

set_option autoImplicit false

namespace WorkloadIdentity

structure Token where
  value : String
  tokenType : String
  /-- By the monotonic clock; a token without it does not expire. -/
  expiresAt : Option Calendar.Nanoseconds
  metadata : Option (Members String)
  deriving DecidableEq, Repr

namespace Token

/-- A token is expired from its very last moment on. -/
def isExpired (token : Token) (ticks : Calendar.Nanoseconds) : Bool :=
  token.expiresAt.any fun expiry => decide (expiry ≤ ticks)

/-- The scheme is always `Bearer`, whatever type the token has. -/
def authorization (token : Token) : RawHeader := (true, "authorization", "Bearer " ++ token.value)

def quotaHeader : Option String → List RawHeader
  | some project => [(false, "x-goog-user-project", project)]
  | none => []

/-- The headers for a request, the project billed for quota among them if there is one. -/
def headers (token : Token) (quotaProject : Option String) :
    Except CredentialsError (List Header) :=
  match (token.authorization :: quotaHeader quotaProject).mapM
      fun (sensitive, name, value) => Header.make? sensitive name value with
  | some headers => .ok headers
  | none => .error (.ofIncident .headerValue)

end Token

end WorkloadIdentity
