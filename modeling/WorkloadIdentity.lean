import WorkloadIdentity.Shell.System
import WorkloadIdentity.Proofs.Aws.Canonical
import WorkloadIdentity.Proofs.Aws.HeaderBlock
import WorkloadIdentity.Proofs.Aws.Metadata
import WorkloadIdentity.Proofs.Aws.SubjectToken
import WorkloadIdentity.Proofs.Retrieval.Overflow
import WorkloadIdentity.Proofs.Url.Hosts
import WorkloadIdentity.Proofs.Herd.Expiry
import WorkloadIdentity.Proofs.Herd.Sharing
import WorkloadIdentity.Proofs.Retrieval.Deferred
import WorkloadIdentity.Proofs.Session.Secrecy
import WorkloadIdentity.Proofs.Session.Headers
import WorkloadIdentity.Proofs.Session.Twins
import WorkloadIdentity.Proofs.Source.Extraction
import WorkloadIdentity.Proofs.Config.Principals
import WorkloadIdentity.Proofs.Source.Context
import WorkloadIdentity.Proofs.Time.Days
import WorkloadIdentity.Proofs.Time.Spelling
import WorkloadIdentity.Proofs.Retrieval.AccountExpiry
import WorkloadIdentity.Proofs.Text.Escapes
import WorkloadIdentity.Proofs.Url.Segments
import WorkloadIdentity.Proofs.Url.Addressing
import WorkloadIdentity.Proofs.Url.RequestUri
import WorkloadIdentity.Proofs.Retrieval.Addressee
import WorkloadIdentity.Proofs.Herd.Progress
import WorkloadIdentity.Proofs.Retrieval.ClientAuthentication
import WorkloadIdentity.Proofs.Retrieval.Granting
import WorkloadIdentity.Proofs.Source.HeaderOrder
