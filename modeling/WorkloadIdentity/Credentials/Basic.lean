import WorkloadIdentity.Credentials.Cache
import WorkloadIdentity.Credentials.Retrieval

/-! Credentials in use: a configuration, its cache, and the world around them. Calls one
after another, and calls that run together. Calls that run together all look at the cache
before any retrieval among them ends; those that find no valid token then take their turns
at refreshing. -/

set_option autoImplicit false

namespace WorkloadIdentity

structure Credentials where
  config : Configuration
  cache : Cache
  world : World

/-- What a caller asks for. -/
inductive Call
  | refresh
  | headers
  deriving DecidableEq, Repr

inductive Reply
  | token (token : Token)
  | headers (headers : List Header)
  | error (error : CredentialsError)
  | clockOverflow

namespace Credentials

def new (config : Configuration) (world : World) : Credentials := ⟨config, .empty, world⟩

def outcomeOf : Outcome → Except Failure Token
  | .ok token => .ok token
  | .error e => .error (.error e)

/-- Performs a retrieval and publishes its outcome, unless the clock overflows. -/
def retrieve (c : Credentials) : Except Failure Token × Credentials :=
  match c.config.retrieve c.world with
  | (.ok token, world) =>
    (.ok token, { c with cache := c.cache.publish (.ok token), world := world })
  | (.error (.error e), world) =>
    (.error (.error e), { c with cache := c.cache.publish (.error e), world := world })
  | (.error .clockOverflow, world) => (.error .clockOverflow, { c with world := world })

/-- A turn at refreshing for a caller that saw `seen` retrievals. -/
def refreshAfter (c : Credentials) (seen : Nat) : Except Failure Token × Credentials :=
  match c.cache.shared? seen with
  | some outcome => (outcomeOf outcome, c)
  | none => c.retrieve

/-- What a call finds when it looks at the cache; a refresh never takes the token. -/
def look (c : Credentials) : Call → Reading
  | .refresh => .stale c.cache.generation
  | .headers => c.cache.read c.world.ticks

def render (c : Credentials) (call : Call) : Except Failure Token → Reply
  | .error (.error e) => .error e
  | .error .clockOverflow => .clockOverflow
  | .ok token =>
    match call with
    | .refresh => .token token
    | .headers =>
      match token.headers c.config.quotaProject with
      | .ok headers => .headers headers
      | .error e => .error e

/-- The rest of a call after its look at the cache. -/
def proceed (c : Credentials) (call : Call) : Reading → Reply × Credentials
  | .valid token => (c.render call (.ok token), c)
  | .stale seen =>
    let (result, c) := c.refreshAfter seen
    (c.render call result, c)

def call (c : Credentials) (call : Call) : Reply × Credentials := c.proceed call (c.look call)

/-- The calls take their turns in order, each after its own look. -/
def proceedAll (c : Credentials) : List (Call × Reading) → List Reply × Credentials
  | [] => ([], c)
  | (call, reading) :: rest =>
    let (reply, c) := c.proceed call reading
    let (replies, c) := c.proceedAll rest
    (reply :: replies, c)

def join (c : Credentials) (calls : List Call) : List Reply × Credentials :=
  c.proceedAll (calls.map fun call => (call, c.look call))

end Credentials

end WorkloadIdentity
