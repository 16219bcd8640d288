import WorkloadIdentity.Source.Extraction
import WorkloadIdentity.World.Basic

/-! Subject tokens from a file and from a URL. -/

set_option autoImplicit false

namespace WorkloadIdentity

namespace FileSource

def subjectToken (source : FileSource) : Attempt String := do
  let content ← World.readText source.file
  Attempt.ofExcept (source.format.extract content)

end FileSource

namespace UrlSource

def request? (source : UrlSource) : Option Request :=
  Request.make? .get source.url (source.headers.map fun (name, value) => (false, name, value)) []

def read (source : UrlSource) (response : Response) : Except CredentialsError String :=
  if Status.isSuccess response.status then
    match Utf8.text? response.body with
    | none => .error (.ofIncident .utf8)
    | some content => source.format.extract content
  else .error (.refused .subjectToken response.status response.body)

def subjectToken (source : UrlSource) : Attempt String := do
  let request ← Attempt.orIncident .request source.request?
  let response ← World.send request
  Attempt.ofExcept (source.read response)

end UrlSource

end WorkloadIdentity
