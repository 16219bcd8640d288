import WorkloadIdentity.Error.Build
import WorkloadIdentity.Url.Parser

/-! Impersonation of a service account. The account is the last segment of the URL's path
up to a colon; it has to look like an email address or follow `serviceAccounts`. -/

set_option autoImplicit false

namespace WorkloadIdentity

structure Impersonation where
  url : String
  principal : String
  /-- The lifetime that was asked for, in seconds. -/
  configuredLifetime : Option Nat
  deriving DecidableEq, Repr

namespace Impersonation

def defaultLifetime : Nat := 3600

def minLifetime : Nat := 600

def maxLifetime : Nat := 43200

def lifetime (i : Impersonation) : Nat := i.configuredLifetime.getD defaultLifetime

/-- A segment without its verb, with escapes resolved. -/
def principalOfSegment? (segment : List Char) : Option (List Char) :=
  Utf8.decode? (Percent.decode (Utf8.encode (segment.takeWhile (· != ':'))))

/-- The principal of a path, given from its last segment upwards. -/
def principalOfPath? : List (List Char) → Option (List Char)
  | [] => none
  | last :: parents => do
    let principal ← principalOfSegment? last
    if principal.isEmpty then none
    else if principal.contains '@' || parents.head? == some "serviceAccounts".toList then
      some principal
    else none

def principal? (url : String) : Option String := do
  let url ← Url.parse? url
  let segments ← url.pathSegments?
  let principal ← principalOfPath? segments.reverse
  return String.ofList principal

/-- The principal is checked before the lifetime. -/
def make? (url : String) (lifetime : Option Nat) : Except BuildError Impersonation :=
  match principal? url with
  | none => .error .invalidImpersonationUrl
  | some principal =>
    match lifetime with
    | some seconds =>
      if minLifetime ≤ seconds ∧ seconds ≤ maxLifetime then
        .ok ⟨url, principal, some seconds⟩
      else .error (.parsing (.lifetime seconds))
    | none => .ok ⟨url, principal, none⟩

end Impersonation

end WorkloadIdentity
