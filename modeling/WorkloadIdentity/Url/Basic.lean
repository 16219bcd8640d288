import WorkloadIdentity.Encoding.Form

/-! URLs as the URL Standard splits them. The path of a hierarchical URL is a list of
segments, already percent-encoded and without dot segments. User information and the
fragment are dropped. -/

set_option autoImplicit false

namespace WorkloadIdentity

inductive Url.Path
  /-- A path that does not start with a slash, as in `mailto:`. -/
  | flat (text : List Char)
  | segments (segments : List (List Char))
  deriving DecidableEq, Repr

structure Url where
  scheme : List Char
  host : Option (List Char)
  port : Option Nat
  path : Url.Path
  query : List Char
  deriving DecidableEq, Repr

namespace Url

/-- A URL with a flat path cannot be a base for relative ones. -/
def isHierarchical (url : Url) : Bool :=
  match url.path with
  | .flat _ => false
  | .segments _ => true

/-- A flat path as it stands, and of any other every segment after its slash. -/
def pathText (url : Url) : List Char :=
  match url.path with
  | .flat text => text
  | .segments segments => segments.flatMap ('/' :: ·)

/-- The segments, unless the path is flat or empty. -/
def pathSegments? (url : Url) : Option (List (List Char)) :=
  match url.path with
  | .segments (s :: ss) => some (s :: ss)
  | _ => none

def queryPairs (url : Url) : List (String × String) := Form.decode (Utf8.encode url.query)

/-- The host and, if it is not the scheme's own, the port. -/
def authority? (url : Url) : Option (List Char) :=
  url.host.map fun host =>
    match url.port with
    | none => host
    | some port => host ++ ':' :: Nat.toDigits 10 port

end Url

end WorkloadIdentity
