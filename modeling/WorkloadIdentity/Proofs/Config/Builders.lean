import WorkloadIdentity.Proofs.Config.Acceptance

/-!
# Two ways to a configuration

The same values make the same configuration, whether they stand in a document or are given one by
one; only where the subject tokens come from is not among them.
-/

set_option autoImplicit false

namespace WorkloadIdentity.Builders

open Grammar (Describes Maybe Text Lifetime)

def settingsOf (d : Document) : Settings where
  audience := some d.audience
  subjectTokenType := some d.subjectTokenType
  tokenUrl := some d.tokenUrl
  tokenInfoUrl := d.tokenInfoUrl
  clientId := d.clientId
  clientSecret := d.clientSecret
  impersonationUrl := d.impersonationUrl
  tokenLifetime := d.tokenLifetime
  quotaProject := d.quotaProject
  scopes := d.scopes

/-- The configuration whose subject tokens are supplied by the application instead. -/
def supplied (config : Configuration) : Configuration :=
  { config with source := .programmatic, sourceDocument := none }

def written (d : Document) : Json :=
  .object (
    [("audience", .string d.audience)] ++
    Configuration.textMember "client_id" d.clientId ++
    Configuration.textMember "client_secret" d.clientSecret ++
    [("credential_source", d.source)] ++
    Configuration.textMember "quota_project_id" d.quotaProject ++
    Configuration.member "scopes" (d.scopes.map Json.texts) ++
    Configuration.member "service_account_impersonation" (d.tokenLifetime.map fun seconds : ℕ =>
      .object [("token_lifetime_seconds", .number (.integer seconds))]) ++
    Configuration.textMember "service_account_impersonation_url" d.impersonationUrl ++
    [("subject_token_type", .string d.subjectTokenType)] ++
    Configuration.textMember "token_info_url" d.tokenInfoUrl ++
    [("token_url", .string d.tokenUrl)])

theorem maybe_map {α : Type} {Reads : Json → α → Prop} {write : α → Json} {a : Option α}
    (reads : ∀ held ∈ a, Reads (write held) held) : Maybe Reads (a.map write) a := by
  cases a with
  | none => exact .absent
  | some held => exact .given (reads held rfl)

theorem maybe_text (text : Option String) : Maybe Text (text.map .string) text :=
  maybe_map fun _ _ => rfl

theorem lifetime_written {seconds : ℕ} (word : seconds < 2 ^ 64) :
    Lifetime (.object [("token_lifetime_seconds", .number (.integer seconds))]) (some seconds) :=
  ⟨_, .object _, .given ⟨word, rfl⟩⟩

theorem written_describes (d : Document) (word : ∀ seconds ∈ d.tokenLifetime, seconds < 2 ^ 64) :
    Describes (written d) d := by
  have lifetime : ∃ given, Maybe Lifetime (d.tokenLifetime.map fun seconds : ℕ =>
      .object [("token_lifetime_seconds", .number (.integer seconds))]) given ∧
        d.tokenLifetime = given.join := by
    rcases ht : d.tokenLifetime with _ | seconds
    · exact ⟨none, .absent, rfl⟩
    · exact ⟨some (some seconds), .given (lifetime_written (word seconds ht)), rfl⟩
  refine ⟨_, .object _, ?_⟩
  constructor <;> simp only [Grammar.documentFields, Members.get?, Configuration.textMember,
    Configuration.lookup_member, List.lookup_cons, List.mem_cons, List.append_assoc,
    List.cons_append, List.nil_append, String.reduceEq, String.reduceBEq, if_true, if_false, true_or,
    or_true, Option.or_none, Option.or_some, List.lookup_nil]
  case tokenInfoUrl => exact maybe_text d.tokenInfoUrl
  case impersonationUrl => exact maybe_text d.impersonationUrl
  case lifetime => exact lifetime
  case quotaProject => exact maybe_text d.quotaProject
  case clientId => exact maybe_text d.clientId
  case clientSecret => exact maybe_text d.clientSecret
  case scopes => exact maybe_map fun _ _ => rfl

/-- The checks and their order are the same, and the one that is missing cannot fail. -/
theorem ofSettings_eq {d : Document} {source : CredentialSource}
    (parsed : CredentialSource.parse d.source = .ok source) :
    Configuration.ofSettings (settingsOf d) = (Configuration.ofDocument d {}).map supplied := by
  unfold Configuration.ofSettings Configuration.ofDocument
  rw [parsed]
  simp only [settingsOf, Configuration.orMissing, bind, Except.bind]
  rcases Configuration.checkEndpoint d.audience d.tokenUrl with flaw | ⟨⟩
  · rfl
  rcases Configuration.impersonated d.impersonationUrl d.tokenLifetime with e | impersonation
  · rfl
  · rfl

theorem built_source {d : Document} {source : CredentialSource} {held : Configuration}
    (parsed : CredentialSource.parse d.source = .ok source)
    (built : Configuration.ofDocument d {} = .ok held) :
    held.source = source ∧ held.sourceDocument = some d.source := by
  obtain ⟨-, _, other, -, same, rfl⟩ := Configuration.ofDocument_ok.mp built
  exact ⟨Except.ok.inj (same.symm.trans parsed), rfl⟩

theorem filter_member (name hidden : String) (value : Option Json) :
    (Configuration.member name value).filter (fun m => m.1 != hidden) =
      if name = hidden then [] else Configuration.member name value := by
  cases value <;> by_cases h : name = hidden <;> simp [Configuration.member, h]

theorem build_written {d : Document} {impersonation : Option Impersonation}
    {source : CredentialSource} (word : ∀ seconds ∈ d.tokenLifetime, seconds < 2 ^ 64)
    (checked : Configuration.checkEndpoint d.audience d.tokenUrl = .ok ())
    (told : Configuration.impersonated d.impersonationUrl d.tokenLifetime = .ok impersonation)
    (parsed : CredentialSource.parse d.source = .ok source) :
    Configuration.build (written d) {} = .ok (Grammar.assembled d {} impersonation source) :=
  (Grammar.build_described {} (written_describes d word)).trans
    (Configuration.ofDocument_ok.mpr ⟨checked, impersonation, source, told, parsed, rfl⟩)

theorem toJson_supplied (config : Configuration) : ∃ members,
    config.toJson = .object members ∧
      (supplied config).toJson = .object (members.filter fun m => m.1 != "credential_source") := by
  refine ⟨_, rfl, ?_⟩
  simp only [supplied, Configuration.toJson, Configuration.textMember, List.filter_append,
    filter_member]
  rfl

end WorkloadIdentity.Builders
