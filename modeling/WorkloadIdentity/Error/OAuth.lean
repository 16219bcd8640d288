import WorkloadIdentity.Json.Parser
import WorkloadIdentity.Text.Blank

/-! Errors of OAuth endpoints. An answer that failed is read in three ways: as an error
body of RFC 6749, as an error object with status and message, and otherwise by its status
with the text of the body. -/

set_option autoImplicit false

namespace WorkloadIdentity

structure OAuthError where
  code : String
  description : Option String
  uri : Option String
  status : Option Nat
  deriving DecidableEq, Repr

namespace OAuthError

def statusCode (status : Nat) : String := "http_" ++ toString status

/-- The body as it stands, with the status for a code. -/
def ofText (status : Nat) (body : Bytes) : OAuthError :=
  let text := Blank.trim (Utf8.lossyText body)
  { code := statusCode status
    description := if text.isEmpty then none else some text
    uri := none
    status := some status }

def textMember (value : Json) (name : String) : Option String := (value.get? name).bind Json.string?

def ofResponse (status : Nat) (body : Bytes) : OAuthError :=
  match Json.ofBytes? body with
  | none => ofText status body
  | some value =>
    match value.get? "error" with
    | some (.string code) =>
      { code := code
        description := textMember value "error_description"
        uri := textMember value "error_uri"
        status := some status }
    | some (.object members) =>
      { code := (textMember (.object members) "status").getD (statusCode status)
        description := textMember (.object members) "message"
        uri := none
        status := some status }
    | _ => ofText status body

def field (label : String) : Option String → String
  | none => ""
  | some text => ", " ++ label ++ "=<" ++ text ++ ">"

def text (e : OAuthError) : String :=
  "error=<" ++ e.code ++ ">" ++
    (match e.status with
      | none => ""
      | some status => ", status=" ++ toString status) ++
    field "description" e.description ++ field "uri" e.uri

end OAuthError

end WorkloadIdentity
