import WorkloadIdentity.Config.Document
import WorkloadIdentity.Json.Parser
import WorkloadIdentity.World.FileTree

/-! Reading a configuration document from a file. -/

set_option autoImplicit false

namespace WorkloadIdentity.Configuration

/-- A file that cannot be read as text is told from one that is not JSON. -/
def readDocument (files : FileTree) (path : String) : Except BuildError Json :=
  match (files.read? path).bind Utf8.text? with
  | none => .error .loading
  | some text =>
    match Json.ofString? text with
    | none => .error (.parsing .json)
    | some value => .ok value

def buildFromFile (files : FileTree) (path : String) (overrides : Overrides) :
    Except BuildError Configuration := do
  build (← readDocument files path) overrides

end WorkloadIdentity.Configuration
