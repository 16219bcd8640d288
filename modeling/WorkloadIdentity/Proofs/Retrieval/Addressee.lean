import WorkloadIdentity.Proofs.Retrieval.Messages
import WorkloadIdentity.Proofs.Url.Addressing

/-!
# Principals that are declared and addressed

The grant is asked for in the name of the principal of the impersonation URL, and the account's token
from whom the same text addresses as a request URI. That is one and the same exactly if the URI can
be read in one way only.
-/

set_option autoImplicit false

namespace WorkloadIdentity.Addressee

open Addressing (AddressedTo Unambiguous lastSegment)
open Messages (AsksAccount AsksGrant Exchanged)

/-- The form has one parameter with options, which declare this service account. -/
def Declares (sts : Request) (principal : String) : Prop :=
  ∃ options, (Form.decode sts.body).filter (·.1 == "options") = [("options", options)] ∧
    Json.ofString? options = some (.object [("serviceAccount", .string principal)])

theorem asks_declares {config : Configuration} {subjectToken : String} {sts : Request}
    (asks : AsksGrant config subjectToken sts) {i : Impersonation}
    (named : config.impersonation = some i) : Declares sts i.principal := by
  have body := asks.body
  rw [named] at body
  obtain ⟨options, form, read⟩ := body
  refine ⟨options, ?_, read⟩
  rw [form]
  rfl

/-- Of two requests, the first declares the account that is impersonated, and the second goes to its
URL. -/
theorem account_asked {c : Credentials} {subjectToken : String} {w : World} {sts account : Request}
    (given : c.config.scopes ≠ [])
    (sourced : c.config.sourceToken c.world = (.ok subjectToken, w))
    (sent : (c.call .refresh).2.world.requests = w.requests ++ [sts, account]) :
    ∃ i, c.config.impersonation = some i ∧ Declares sts i.principal ∧
      Uri.parse? i.url = some account.uri := by
  obtain ⟨posted, logged, exchanged⟩ := Messages.exchanged_of_source given sourced
  have kept : c.retrieve.2.world = (c.config.retrieve c.world).2 := by
    unfold Credentials.retrieve
    rcases c.config.retrieve c.world with ⟨(e | _) | token, w'⟩ <;> rfl
  rw [Journey.refresh_retrieves, kept, logged, List.append_cancel_left_eq] at sent
  subst sent
  generalize (c.config.retrieve c.world).1 = outcome at exchanged
  cases exchanged with
  | impersonated asks granted named onward read =>
    exact ⟨_, named, asks_declares asks named, onward.uri⟩

/-- Credentials that were built, from whatever they were built: in a refresh that gets to the account,
the principal that is declared to the token service is the one that the other request is addressed
to, exactly if the URI of that request can be read in one way only; so always if the URI has a scheme,
and no backslash in its last segment. -/
theorem declared_principal_addressed {world : World} {origin : Session.Origin} {c : Credentials}
    {subjectToken : String} {w : World} {sts account : Request}
    (built : Session.configure world origin = .ok c.config)
    (sourced : c.config.sourceToken c.world = (.ok subjectToken, w))
    (sent : (c.call .refresh).2.world.requests = w.requests ++ [sts, account]) :
    ∃ i, c.config.impersonation = some i ∧ Declares sts i.principal ∧
      Uri.parse? i.url = some account.uri ∧
      (AddressedTo account.uri i.principal ↔ Unambiguous account.uri) ∧
      (account.uri.scheme.isSome = true → '\\' ∉ lastSegment account.uri.path →
        AddressedTo account.uri i.principal) := by
  obtain ⟨i, named, declares, read⟩ := account_asked (Messages.scopes_given built) sourced sent
  have principal := Principals.built_principal built i named
  have exactly_if := Addressing.addressed_iff principal read
  refine ⟨i, named, declares, read, exactly_if, ?_⟩
  intro absolute plain
  exact exactly_if.mpr (Addressing.unambiguous_of_plain absolute plain)

def plainUri : Uri := ⟨some "https".toList, "iam".toList, "/sa@project:generateAccessToken".toList, none⟩

theorem plain_read : Uri.parse? Messages.account.url = some plainUri := by decide +kernel

theorem declared_principal_addressed_plain : ∃ sts account,
    ((Credentials.new Messages.settled Messages.answering).call .refresh).2.world.requests =
      [sts, account] ∧
    Declares sts "sa@project" ∧ AddressedTo account.uri "sa@project" := by
  have both : ((Credentials.new Messages.settled Messages.answering).call
      .refresh).2.world.requests.length = 2 := by decide +kernel
  obtain ⟨sts, account, sent⟩ := List.length_eq_two.mp both
  obtain ⟨i, named, declares, read, -, addressed⟩ := declared_principal_addressed
    (c := .new Messages.settled Messages.answering) Messages.settled_built rfl sent
  cases named
  have uri : plainUri = account.uri := Option.some.inj (plain_read.symm.trans read)
  have absolute : plainUri.scheme.isSome = true := rfl
  have plain : '\\' ∉ lastSegment plainUri.path := by decide +kernel
  rw [uri] at absolute plain
  exact ⟨sts, account, sent, declares, addressed absolute plain⟩

def slashed : Impersonation :=
  ⟨"https://iam/v1/serviceAccounts/sa@project:x\\other@project", "other@project", none⟩

def slashedUri : Uri :=
  ⟨some "https".toList, "iam".toList, "/v1/serviceAccounts/sa@project:x\\other@project".toList, none⟩

theorem slashed_read : Uri.parse? slashed.url = some slashedUri := by decide +kernel

def misaddressed : Configuration := { Messages.settled with impersonation := some slashed }

theorem misaddressed_built : Session.configure Messages.answering
    (.settings { Messages.supplied with impersonationUrl := some slashed.url }) =
      .ok misaddressed := by
  refine Configuration.ofSettings_ok.mpr ⟨_, _, _, some slashed, rfl, rfl, rfl, ?_, ?_, rfl⟩
  · decide +kernel
  · decide +kernel

/-- The grant is asked for in the name of one account, and the token from another. -/
theorem other_principal_addressed :
    Session.configure Messages.answering
      (.settings { Messages.supplied with impersonationUrl := some slashed.url }) =
        .ok misaddressed ∧
    ∃ sts account,
      ((Credentials.new misaddressed Messages.answering).call .refresh).2.world.requests =
        [sts, account] ∧
      Declares sts "other@project" ∧ ¬ AddressedTo account.uri "other@project" ∧
      AddressedTo account.uri "sa@project" := by
  have both : ((Credentials.new misaddressed Messages.answering).call
      .refresh).2.world.requests.length = 2 := by decide +kernel
  obtain ⟨sts, account, sent⟩ := List.length_eq_two.mp both
  obtain ⟨i, named, declares, read⟩ := account_asked (c := .new misaddressed Messages.answering)
    (Messages.scopes_given misaddressed_built) rfl sent
  cases named
  have uri : slashedUri = account.uri := Option.some.inj (slashed_read.symm.trans read)
  refine ⟨misaddressed_built, sts, account, sent, declares, ?_⟩
  rw [← uri]
  exact ⟨by decide +kernel, by decide +kernel⟩

end WorkloadIdentity.Addressee
