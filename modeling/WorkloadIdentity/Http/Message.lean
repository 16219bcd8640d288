import WorkloadIdentity.Http.Uri
import WorkloadIdentity.Http.Status

/-! Requests and responses. A request is built from raw texts; building it fails unless
the URI parses and every header has a token of bounded length as name and no control
character in its value. Several headers may share a name. -/

set_option autoImplicit false

namespace WorkloadIdentity

structure Header where
  name : String
  value : Bytes
  sensitive : Bool
  deriving DecidableEq, Repr

namespace Header

/-- Any byte but the controls, of which the tab is allowed. -/
def isValueByte (b : UInt8) : Bool := (0x20 ≤ b && b != 0x7F) || b == 0x09

def isValue (value : Bytes) : Bool := value.all isValueByte

def isTokenChar (c : Char) : Bool :=
  c.isAlphanum || "!#$%&'*+-.^_|~".toList.contains c || c == '\x60'

/-- Bytes that a name may have. -/
def maxNameLength : Nat := 65535

def isName (name : List Char) : Bool :=
  !name.isEmpty && name.length ≤ maxNameLength && name.all isTokenChar

/-- A header with its name in lower case. -/
def make? (sensitive : Bool) (name value : String) : Option Header :=
  if isName name.toList && isValue (Utf8.ofString value) then
    some ⟨String.ofList (name.toList.map Char.toLower), Utf8.ofString value, sensitive⟩
  else none

end Header

inductive Method
  | get
  | put
  | post
  deriving DecidableEq, Repr

def Method.text : Method → String
  | .get => "GET"
  | .put => "PUT"
  | .post => "POST"

structure Request where
  method : Method
  uri : Uri
  headers : List Header
  body : Bytes
  deriving DecidableEq, Repr

/-- The text of a header to be, whether its value is sensitive, name and value. -/
abbrev RawHeader := Bool × String × String

def Request.make? (method : Method) (url : String) (headers : List RawHeader)
    (body : Bytes) : Option Request := do
  let uri ← Uri.parse? url
  let headers ← headers.mapM fun (sensitive, name, value) => Header.make? sensitive name value
  return ⟨method, uri, headers, body⟩

structure Response where
  status : Nat
  body : Bytes
  deriving DecidableEq, Repr

end WorkloadIdentity
