import WorkloadIdentity.Proofs.Config.Sources

/-!
# Which documents are accepted

A configuration is built from exactly the documents of the grammar. Of the checks that fail, the
first decides the error, and only two of the errors have a kind of their own.
-/

set_option autoImplicit false

namespace WorkloadIdentity.Grammar

theorem endpoint_iff {d : Document} :
    Configuration.checkEndpoint d.audience d.tokenUrl = .ok () ↔ Endpoint d := by
  unfold Configuration.checkEndpoint Endpoint
  by_cases blank : d.audience = ""
  · simp [blank]
  · have filled : d.audience.isEmpty = false := by
      rw [Bool.eq_false_iff]
      exact fun h => blank (String.isEmpty_iff.mp h)
    rcases Url.parse? d.tokenUrl with _ | url
    · simp [filled]
    · simp [filled, blank]

theorem impersonated_iff {url : Option String} {lifetime : Option ℕ} {i : Option Impersonation} :
    Configuration.impersonated url lifetime = .ok i ↔ Impersonates url lifetime i := by
  unfold Configuration.impersonated Impersonation.make?
  constructor
  · intro h
    split at h
    · cases h
      exact .nobody
    obtain ⟨account, made, rfl⟩ := map_ok.mp h
    split at made
    · cases made
    rename_i named
    split at made
    · split at made
      · rename_i within
        cases made
        exact .account named fun _ held => Option.mem_some_iff.mp held ▸ within
      · cases made
    · cases made
      exact .account named fun seconds held => absurd held (Option.not_mem_none seconds)
  · intro h
    cases h with
    | nobody => rfl
    | account named within =>
      dsimp only
      rw [named]
      cases lifetime with
      | none => rfl
      | some seconds =>
        simp only [Impersonation.minLifetime, Impersonation.maxLifetime, within seconds rfl,
          and_self, if_true]
        rfl

/-- An account that cannot be told is an error of its own kind; a lifetime out of its bounds is a
flaw like all others. -/
theorem impersonated_error {url : Option String} {lifetime : Option ℕ} {error : BuildError}
    (h : Configuration.impersonated url lifetime = .error error) :
    ∃ u, url = some u ∧
      ((error = .invalidImpersonationUrl ∧ Impersonation.principal? u = none) ∨
        Impersonation.principal? u ≠ none ∧
          ∃ seconds ∈ lifetime, (seconds < 600 ∨ 43200 < seconds) ∧
            error = .parsing (.lifetime seconds)) := by
  unfold Configuration.impersonated at h
  split at h
  · cases h
  rename_i u
  refine ⟨u, rfl, ?_⟩
  unfold Impersonation.make? at h
  split at h
  · rename_i unnamed
    cases h
    exact .inl ⟨rfl, unnamed⟩
  · rename_i principal named
    split at h
    · rename_i seconds
      split at h
      · cases h
      · rename_i beyond
        simp only [Impersonation.minLifetime, Impersonation.maxLifetime] at beyond
        cases h
        exact .inr ⟨by simp [named], seconds, rfl, by omega, rfl⟩
    · cases h

theorem unnamed_error {url : String} {lifetime : Option ℕ}
    (h : Impersonation.principal? url = none) :
    Configuration.impersonated (some url) lifetime = .error .invalidImpersonationUrl := by
  unfold Configuration.impersonated Impersonation.make?
  simp only [h]
  rfl

theorem impersonates_named {url : Option String} {lifetime : Option ℕ} {i : Option Impersonation}
    (h : Impersonates url lifetime i) : ∀ u ∈ url, Impersonation.principal? u ≠ none := by
  cases h with
  | nobody => nofun
  | account named _ =>
    rintro u ⟨⟩
    simp [named]

theorem impersonates_within {url : Option String} {lifetime : Option ℕ} {i : Option Impersonation}
    (h : Impersonates url lifetime i) (given : url ≠ none) :
    ∀ seconds ∈ lifetime, 600 ≤ seconds ∧ seconds ≤ 43200 := by
  cases h with
  | nobody => exact absurd rfl given
  | account _ within => exact within

/-- A flaw of a document is that of its endpoint, else that of the lifetime for an account that
can be told, else that of its source. -/
inductive Flawed (d : Document) : Prop
  | endpoint (unfit : ¬ Endpoint d)
  | lifetime {url : String} {seconds : ℕ} (given : d.impersonationUrl = some url)
      (named : Impersonation.principal? url ≠ none) (asked : d.tokenLifetime = some seconds)
      (beyond : seconds < 600 ∨ 43200 < seconds)
  | source (named : ∀ url ∈ d.impersonationUrl, Impersonation.principal? url ≠ none)
      (unfit : ∀ source, ¬ Source d.source source)

theorem ofDocument_iff {document : Document} {overrides : Overrides} {config : Configuration} :
    Configuration.ofDocument document overrides = .ok config ↔ Endpoint document ∧
      ∃ impersonation source,
        Impersonates document.impersonationUrl document.tokenLifetime impersonation ∧
        Source document.source source ∧
        config = assembled document overrides impersonation source := by
  rw [Configuration.ofDocument_ok, endpoint_iff]
  simp only [impersonated_iff, source_iff]
  rfl

theorem ofDocument_error {document : Document} {overrides : Overrides} {error : BuildError}
    (h : Configuration.ofDocument document overrides = .error error) :
    (error = .invalidImpersonationUrl ∧ Endpoint document ∧
      ∃ url, document.impersonationUrl = some url ∧ Impersonation.principal? url = none) ∨
    (∃ flaw, error = .parsing flaw) ∧ Flawed document := by
  unfold Configuration.ofDocument at h
  rcases checked : Configuration.checkEndpoint document.audience document.tokenUrl with flaw | ⟨⟩
  · rw [checked] at h
    cases h
    refine .inr ⟨⟨flaw, rfl⟩, .endpoint fun fit => ?_⟩
    rw [endpoint_iff.mpr fit] at checked
    cases checked
  have fit := endpoint_iff.mp checked
  rw [checked] at h
  rcases told : Configuration.impersonated document.impersonationUrl document.tokenLifetime with
    e | impersonation
  · rw [told] at h
    cases h
    obtain ⟨url, given, ⟨rfl, unnamed⟩ | ⟨named, seconds, asked, beyond, rfl⟩⟩ :=
      impersonated_error told
    · exact .inl ⟨rfl, fit, url, given, unnamed⟩
    · exact .inr ⟨⟨_, rfl⟩, .lifetime given named asked beyond⟩
  rw [told] at h
  rcases parsed : CredentialSource.parse document.source with flaw | source
  · rw [parsed] at h
    cases h
    refine .inr ⟨⟨flaw, rfl⟩, .source (impersonates_named (impersonated_iff.mp told)) ?_⟩
    intro source held
    rw [source_iff.mpr held] at parsed
    cases parsed
  · rw [parsed] at h
    cases h

theorem ofDocument_unnamed {document : Document} (overrides : Overrides) {url : String}
    (fit : Endpoint document) (given : document.impersonationUrl = some url)
    (unnamed : Impersonation.principal? url = none) :
    Configuration.ofDocument document overrides = .error .invalidImpersonationUrl := by
  unfold Configuration.ofDocument
  rw [endpoint_iff.mpr fit, given, unnamed_error unnamed]
  rfl

theorem flawed_refused {document : Document} (h : Flawed document) (fit : Endpoint document)
    {impersonation : Option Impersonation} {source : CredentialSource}
    (told : Impersonates document.impersonationUrl document.tokenLifetime impersonation) :
    ¬ Source document.source source := by
  cases h with
  | endpoint unfit => exact absurd fit unfit
  | lifetime given _ asked beyond =>
    have within := impersonates_within told (by simp [given]) _ asked
    omega
  | source _ unfit => exact unfit source

theorem flawed_named {document : Document} (h : Flawed document) (fit : Endpoint document)
    {url : String} (given : document.impersonationUrl = some url) :
    Impersonation.principal? url ≠ none := by
  cases h with
  | endpoint unfit => exact absurd fit unfit
  | lifetime same named _ _ =>
    obtain rfl := Option.some_inj.mp (same.symm.trans given)
    exact named
  | source named _ => exact named url given

theorem build_described {value : Json} {document : Document} (overrides : Overrides)
    (h : Describes value document) :
    Configuration.build value overrides = Configuration.ofDocument document overrides := by
  have full : value.isNull = false := by
    obtain ⟨_, spelled, _⟩ := h
    cases spelled <;> rfl
  unfold Configuration.build
  rw [full, read_iff.mpr h]
  rfl

theorem build_null (overrides : Overrides) :
    Configuration.build .null overrides = .error .nullDocument :=
  rfl

theorem build_undescribed {value : Json} (overrides : Overrides) (proper : value ≠ .null)
    (h : ∀ document, ¬ Describes value document) :
    Configuration.build value overrides = .error (.parsing .json) := by
  have full : value.isNull = false := by
    cases value with
    | null => exact absurd rfl proper
    | _ => rfl
  have unread : Document.read? value = none :=
    Option.eq_none_iff_forall_ne_some.mpr fun document read => h document (read_iff.mp read)
  unfold Configuration.build
  rw [full, unread]
  rfl

/-- A document is built from exactly if it is of the grammar, and into what it spells out. One
that is not is refused as `null`, or for an account that cannot be told though the endpoint will
do, or else for a flaw: it does not describe a configuration, or one with a flaw. -/
theorem build_accepts_grammar (value : Json) (overrides : Overrides) :
    (∀ config, Configuration.build value overrides = .ok config ↔
      ∃ document impersonation source, Describes value document ∧ Endpoint document ∧
        Impersonates document.impersonationUrl document.tokenLifetime impersonation ∧
        Source document.source source ∧
        config = assembled document overrides impersonation source) ∧
    (Configuration.build value overrides = .error .nullDocument ↔ value = .null) ∧
    (Configuration.build value overrides = .error .invalidImpersonationUrl ↔
      ∃ document url, Describes value document ∧ Endpoint document ∧
        document.impersonationUrl = some url ∧ Impersonation.principal? url = none) ∧
    ((∃ flaw, Configuration.build value overrides = .error (.parsing flaw)) ↔
      value ≠ .null ∧ ∀ document, Describes value document → Flawed document) := by
  by_cases blank : value = .null
  · subst blank
    have nothing : ∀ document, ¬ Describes .null document :=
      fun _ ⟨_, spelled, _⟩ => null_spells_nothing spelled
    simp [build_null, nothing]
  by_cases described : ∃ document, Describes value document
  · obtain ⟨document, held⟩ := described
    have only : ∀ other, Describes value other ↔ other = document := by
      intro other
      rw [← read_iff, read_iff.mpr held, Option.some_inj, eq_comm]
    simp only [build_described overrides held, only]
    refine ⟨fun config => ?_, ?_, ?_, ?_⟩
    · rw [ofDocument_iff]
      constructor
      · rintro ⟨fit, impersonation, source, told, parsed, rfl⟩
        exact ⟨document, impersonation, source, rfl, fit, told, parsed, rfl⟩
      · rintro ⟨_, impersonation, source, rfl, fit, told, parsed, rfl⟩
        exact ⟨fit, impersonation, source, told, parsed, rfl⟩
    · refine ⟨fun h => ?_, fun h => absurd h blank⟩
      rcases ofDocument_error h with ⟨⟨⟩, -⟩ | ⟨⟨_, ⟨⟩⟩, -⟩
    · constructor
      · intro h
        rcases ofDocument_error h with ⟨-, fit, url, given, unnamed⟩ | ⟨⟨_, ⟨⟩⟩, -⟩
        exact ⟨document, url, rfl, fit, given, unnamed⟩
      · rintro ⟨_, url, rfl, fit, given, unnamed⟩
        exact ofDocument_unnamed overrides fit given unnamed
    · constructor
      · rintro ⟨flaw, h⟩
        rcases ofDocument_error h with ⟨⟨⟩, -⟩ | ⟨-, flawed⟩
        exact ⟨blank, fun _ same => same ▸ flawed⟩
      · rintro ⟨-, flawed⟩
        have flawed := flawed document rfl
        rcases hr : Configuration.ofDocument document overrides with error | config
        · rcases ofDocument_error hr with ⟨-, fit, url, given, unnamed⟩ | ⟨⟨flaw, rfl⟩, -⟩
          · exact absurd unnamed (flawed_named flawed fit given)
          · exact ⟨flaw, rfl⟩
        · obtain ⟨fit, _, _, told, held, -⟩ := ofDocument_iff.mp hr
          exact absurd held (flawed_refused flawed fit told)
  · have undescribed := not_exists.mp described
    rw [build_undescribed overrides blank undescribed]
    simp [blank, undescribed]

end WorkloadIdentity.Grammar
