import WorkloadIdentity.Config.Source
import WorkloadIdentity.Json.Parser

/-! Taking a subject token out of the content of a file or an answer. A text is trimmed,
the member of a JSON document is taken verbatim, and neither may be blank. -/

set_option autoImplicit false

namespace WorkloadIdentity.TokenFormat

def memberText (member : String) (content : String) : Except CredentialsError String :=
  match Json.ofString? content with
  | none => .error (.ofIncident .json)
  | some document =>
    match (document.get? member).bind Json.string? with
    | some token => .ok token
    | none => .error (.ofFault (.memberNotText member document))

def candidate (format : TokenFormat) (content : String) : Except CredentialsError String :=
  match format with
  | .text => .ok (Blank.trim content)
  | .json member => memberText member content

def extract (format : TokenFormat) (content : String) : Except CredentialsError String := do
  let token ← candidate format content
  if Blank.allBlank token then .error (.ofFault .emptySubjectToken) else .ok token

end WorkloadIdentity.TokenFormat
