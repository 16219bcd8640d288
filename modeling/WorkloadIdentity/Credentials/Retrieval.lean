import WorkloadIdentity.Exchange.Security
import WorkloadIdentity.Exchange.ServiceAccount
import WorkloadIdentity.Source.Aws
import WorkloadIdentity.Source.Executable
import WorkloadIdentity.Source.Simple

/-! One retrieval of an access token: the subject token from its source, the exchange, and
the impersonation if there is one. It stops at the first failure. -/

set_option autoImplicit false

namespace WorkloadIdentity.Configuration

def executableContext (config : Configuration) : ExecutableSource.Context :=
  ⟨config.audience, config.subjectTokenType, config.impersonation.map (·.principal)⟩

def sourceToken (config : Configuration) : Attempt String :=
  match config.source with
  | .file source => source.subjectToken
  | .url source => source.subjectToken
  | .executable source => source.subjectToken config.executableContext
  | .aws source => source.subjectToken config.audience
  | .programmatic => World.callProvider

def subjectToken (config : Configuration) : Attempt String :=
  Attempt.inSubjectToken config.sourceToken

def retrieve (config : Configuration) : Attempt Token := do
  let subjectToken ← config.subjectToken
  let token ← Exchange.exchange config subjectToken
  match config.impersonation with
  | none => pure token
  | some impersonation => impersonation.exchange config.scopes token

end WorkloadIdentity.Configuration
