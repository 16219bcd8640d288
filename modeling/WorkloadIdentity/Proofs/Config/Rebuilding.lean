import Mathlib.Data.List.Basic
import WorkloadIdentity.Session.Basic

/-!
# Building from a rendered document

A configuration that was built from a document is built again from its own rendering, with every
default and override resolved. One whose subject tokens come from the application renders without
a source, and no document without a source can be built from.
-/

set_option autoImplicit false

namespace WorkloadIdentity

namespace Record

variable {α : Type} {record : Record} {name : String}

theorem text_of {text : String} (h : record.field? name = some (.string text)) :
    record.text name = some text := by
  unfold Record.text required
  rw [h]
  rfl

theorem optional_none {read : Json → Option α} (h : record.field? name = none) :
    record.optional read name = some none := by
  rw [optional, h]

theorem optional_some {read : Json → Option α} {value : Json} {a : α}
    (h : record.field? name = some value) (proper : value ≠ .null) (back : read value = some a) :
    record.optional read name = some (some a) := by
  rw [optional, h]
  cases value with
  | null => exact absurd rfl proper
  | _ => simp only [back, Option.map_some]

theorem optionalText_of {text : Option String} (h : record.field? name = text.map .string) :
    record.optionalText name = some text := by
  cases text with
  | none => exact optional_none h
  | some t => exact optional_some h nofun rfl

theorem texts_back (texts : List String) : texts? (Json.texts texts) = some texts := by
  show (texts.map Json.string).mapM Json.string? = some texts
  induction texts with
  | nil => rfl
  | cons t ts ih =>
    rw [List.map_cons, List.mapM_cons, ih]
    rfl

theorem natural_back {n : Nat} (h : n < Nat.pow 2 64) :
    natural? 64 (.number (.integer n)) = some n := by
  have within : (0 : Int) ≤ n ∧ (n : Int) ≤ Int.pow 2 64 - 1 := by
    have bound : Nat.pow 2 64 = 18446744073709551616 := rfl
    have power : Int.pow 2 64 = 18446744073709551616 := rfl
    omega
  simp only [natural?, integerWithin?, Json.integer?, Option.bind_some, if_pos within,
    Option.map_some, Int.toNat_natCast]

end Record

namespace Configuration

theorem lookup_member (name key : String) (value : Option Json) (rest : List (String × Json)) :
    (member name value ++ rest).lookup key =
      if key = name then value.or (rest.lookup key) else rest.lookup key := by
  by_cases h : key = name
  · subst h
    cases value <;> simp [member]
  · have differ : (key == name) = false := by simpa using h
    cases value <;> simp [member, List.lookup_cons, h, differ]

/-- Members that are passed over hide none of the fields. -/
theorem field_known {fields : List String} (members : List (String × Json)) {name : String}
    (h : fields.contains name = true) :
    Record.field? (members.filter fun m => fields.contains m.1) name =
      Members.get? members name := by
  unfold Record.field? Members.get?
  induction members with
  | nil => rfl
  | cons m members ih =>
    obtain ⟨other, value⟩ := m
    by_cases ho : name = other
    · subst ho
      rw [List.filter_cons, if_pos h]
      simp
    · have differ : (name == other) = false := by simpa using ho
      rw [List.lookup_cons, differ, List.filter_cons]
      split
      · rw [List.lookup_cons, differ]
        exact ih
      · exact ih

structure Shows (config : Configuration) (get : String → Option Json) : Prop where
  audience : get "audience" = some (.string config.audience)
  subjectTokenType : get "subject_token_type" = some (.string config.subjectTokenType)
  tokenUrl : get "token_url" = some (.string config.tokenUrl)
  tokenInfoUrl : get "token_info_url" = config.tokenInfoUrl.map .string
  source : get "credential_source" = config.sourceDocument
  url : get "service_account_impersonation_url" =
    (config.impersonation.map (·.url)).map .string
  lifetime : get "service_account_impersonation" = config.impersonation.bind lifetimeMember
  quotaProject : get "quota_project_id" = config.quotaProject.map .string
  clientId : get "client_id" = config.clientId.map .string
  clientSecret : get "client_secret" = config.clientSecret.map .string
  scopes : get "scopes" = some (Json.texts config.scopes)

theorem toJson_shows (config : Configuration) : Shows config config.toJson.get? := by
  constructor <;>
    simp [toJson, Json.get?, Members.get?, textMember, lookup_member, List.lookup_cons]

theorem record_toJson (config : Configuration) :
    ∃ record : Record, config.toJson.record? Document.fields = some record ∧
      Shows config record.field? := by
  refine ⟨_, rfl, ?_⟩
  have shown := toJson_shows config
  constructor
  case audience => exact (field_known _ (by decide)).trans shown.audience
  case subjectTokenType => exact (field_known _ (by decide)).trans shown.subjectTokenType
  case tokenUrl => exact (field_known _ (by decide)).trans shown.tokenUrl
  case tokenInfoUrl => exact (field_known _ (by decide)).trans shown.tokenInfoUrl
  case source => exact (field_known _ (by decide)).trans shown.source
  case url => exact (field_known _ (by decide)).trans shown.url
  case lifetime => exact (field_known _ (by decide)).trans shown.lifetime
  case quotaProject => exact (field_known _ (by decide)).trans shown.quotaProject
  case clientId => exact (field_known _ (by decide)).trans shown.clientId
  case clientSecret => exact (field_known _ (by decide)).trans shown.clientSecret
  case scopes => exact (field_known _ (by decide)).trans shown.scopes

/-- What is read from a rendering: the defaults are written out, and the rest is as it was. -/
def rendered (config : Configuration) (source : Json) : Document where
  audience := config.audience
  subjectTokenType := config.subjectTokenType
  tokenUrl := config.tokenUrl
  tokenInfoUrl := config.tokenInfoUrl
  source := source
  impersonationUrl := config.impersonation.map (·.url)
  tokenLifetime := config.impersonation.bind (·.configuredLifetime)
  quotaProject := config.quotaProject
  clientId := config.clientId
  clientSecret := config.clientSecret
  scopes := some config.scopes

theorem lifetimeMember_eq (i : Impersonation) :
    lifetimeMember i = i.configuredLifetime.map fun seconds : Nat =>
      .object [("token_lifetime_seconds", .number (.integer seconds))] := by
  unfold lifetimeMember
  cases i.configuredLifetime <;> rfl

theorem lifetime_back {seconds : Nat} (h : seconds ≤ Impersonation.maxLifetime) :
    Document.lifetime? (.object [("token_lifetime_seconds", .number (.integer seconds))]) =
      some (some seconds) := by
  have small : Impersonation.maxLifetime < Nat.pow 2 64 := by decide
  have read := Record.natural_back (Nat.lt_of_le_of_lt h small)
  simp [Document.lifetime?, Json.record?, Record.optional, Record.field?, read]

theorem lifetimeMember_back {record : Record} {impersonation : Option Impersonation}
    (h : record.field? "service_account_impersonation" = impersonation.bind lifetimeMember)
    (small : ∀ seconds ∈ impersonation.bind (·.configuredLifetime),
      seconds ≤ Impersonation.maxLifetime) :
    ∃ lifetime, record.optional Document.lifetime? "service_account_impersonation" =
        some lifetime ∧ lifetime.join = impersonation.bind (·.configuredLifetime) := by
  generalize hl : impersonation.bind (·.configuredLifetime) = lifetime at small
  have written : record.field? "service_account_impersonation" = lifetime.map fun seconds =>
      .object [("token_lifetime_seconds", .number (.integer seconds))] := by
    rw [h, ← hl, Option.map_bind]
    congr 1
    funext i
    exact lifetimeMember_eq i
  rcases lifetime with _ | seconds
  · exact ⟨none, Record.optional_none written, rfl⟩
  · have back := lifetime_back (small seconds rfl)
    exact ⟨some (some seconds), Record.optional_some written nofun back, rfl⟩

theorem read_toJson {config : Configuration} {source : Json}
    (hs : config.sourceDocument = some source)
    (small : ∀ seconds ∈ config.impersonation.bind (·.configuredLifetime),
      seconds ≤ Impersonation.maxLifetime) :
    Document.read? config.toJson = some (rendered config source) := by
  obtain ⟨record, hr, shown⟩ := record_toJson config
  obtain ⟨lifetime, hl, joined⟩ := lifetimeMember_back shown.lifetime small
  have scopes : record.optional Record.texts? "scopes" = some (some config.scopes) :=
    Record.optional_some shown.scopes nofun (Record.texts_back _)
  unfold Document.read?
  rw [hr]
  simp [Record.text_of shown.audience, Record.text_of shown.subjectTokenType,
    Record.text_of shown.tokenUrl, Record.optionalText_of shown.tokenInfoUrl,
    Record.optionalText_of shown.url, Record.optionalText_of shown.quotaProject,
    Record.optionalText_of shown.clientId, Record.optionalText_of shown.clientSecret,
    shown.source, hs, hl, joined, scopes, rendered]

theorem read_sourceless {config : Configuration} (hs : config.sourceDocument = none) :
    Document.read? config.toJson = none := by
  obtain ⟨record, hr, shown⟩ := record_toJson config
  unfold Document.read?
  rw [hr]
  simp [Record.text_of shown.audience, Record.text_of shown.subjectTokenType,
    Record.text_of shown.tokenUrl, Record.optionalText_of shown.tokenInfoUrl, shown.source, hs]

theorem make_again {url : String} {lifetime : Option Nat} {i : Impersonation}
    (h : Impersonation.make? url lifetime = .ok i) :
    i.url = url ∧ i.configuredLifetime = lifetime ∧
      ∀ seconds ∈ lifetime, Impersonation.minLifetime ≤ seconds ∧
        seconds ≤ Impersonation.maxLifetime := by
  unfold Impersonation.make? at h
  split at h
  · cases h
  · rcases lifetime with _ | seconds
    · cases h
      exact ⟨rfl, rfl, nofun⟩
    · dsimp only at h
      split at h
      · rename_i within
        cases h
        refine ⟨rfl, rfl, ?_⟩
        rintro _ ⟨⟩
        exact within
      · cases h

/-- Building the impersonation again from what it shows. A lifetime that was passed over does
not come back. -/
theorem impersonated_again {url : Option String} {lifetime : Option Nat}
    {impersonation : Option Impersonation} (h : impersonated url lifetime = .ok impersonation) :
    impersonated (impersonation.map (·.url)) (impersonation.bind (·.configuredLifetime)) =
        .ok impersonation ∧
      ∀ seconds ∈ impersonation.bind (·.configuredLifetime),
        seconds ≤ Impersonation.maxLifetime := by
  rcases url with _ | url
  · cases h
    exact ⟨rfl, nofun⟩
  · unfold impersonated at h
    rcases hm : Impersonation.make? url lifetime with e | i
    · simp only [hm] at h
      cases h
    · simp only [hm] at h
      cases h
      obtain ⟨hu, hl, within⟩ := make_again hm
      simp only [Option.map_some, Option.bind_some, hu, hl]
      exact ⟨by rw [impersonated, hm]; rfl, fun seconds hs => (within seconds hs).2⟩

theorem scopes_again (scopes : Option (List String)) :
    scopesOrDefault (some (scopesOrDefault scopes)) = scopesOrDefault scopes := by
  rcases scopes with _ | _ | ⟨s, ss⟩ <;> rfl

theorem ofDocument_ok {document : Document} {overrides : Overrides} {config : Configuration} :
    ofDocument document overrides = .ok config ↔
      checkEndpoint document.audience document.tokenUrl = .ok () ∧
      ∃ impersonation source,
        impersonated document.impersonationUrl document.tokenLifetime = .ok impersonation ∧
        CredentialSource.parse document.source = .ok source ∧
        config = ⟨document.audience, document.subjectTokenType, document.tokenUrl,
          document.tokenInfoUrl, document.clientId, document.clientSecret,
          scopesOrDefault (overrides.scopes <|> document.scopes), impersonation, source,
          some document.source, overrides.quotaProject <|> document.quotaProject⟩ := by
  unfold ofDocument
  rcases checkEndpoint document.audience document.tokenUrl with _ | ⟨⟩
  · simp [flawed, bind, Except.bind]
  rcases impersonated document.impersonationUrl document.tokenLifetime with _ | impersonation
  · simp [flawed, bind, Except.bind]
  rcases CredentialSource.parse document.source with _ | source
  · simp [flawed, bind, Except.bind]
  · simp [flawed, bind, Except.bind, pure, Except.pure, eq_comm]

theorem build_ok {value : Json} {overrides : Overrides} {config : Configuration}
    (h : build value overrides = .ok config) :
    ∃ document, ofDocument document overrides = .ok config := by
  unfold build at h
  split at h
  · cases h
  · split at h
    · cases h
    · exact ⟨_, h⟩

theorem buildFromFile_ok {files : FileTree} {path : String} {overrides : Overrides}
    {config : Configuration} (h : buildFromFile files path overrides = .ok config) :
    ∃ value, build value overrides = .ok config := by
  unfold buildFromFile at h
  rcases hd : readDocument files path with e | value <;> rw [hd] at h
  · cases h
  · exact ⟨value, h⟩

theorem build_scopes {value : Json} {overrides : Overrides} {config : Configuration}
    (h : build value overrides = .ok config) : ∃ scopes, config.scopes = scopesOrDefault scopes := by
  obtain ⟨document, hd⟩ := build_ok h
  obtain ⟨-, _, _, -, -, rfl⟩ := ofDocument_ok.mp hd
  exact ⟨_, rfl⟩

theorem build_toJson {value : Json} {overrides : Overrides} {config : Configuration}
    (h : build value overrides = .ok config) : build config.toJson {} = .ok config := by
  obtain ⟨document, hd⟩ := build_ok h
  obtain ⟨checked, impersonation, source, himp, hsource, hc⟩ := ofDocument_ok.mp hd
  obtain ⟨again, small⟩ := impersonated_again himp
  have given : config.sourceDocument = some document.source := by rw [hc]
  have held : config.impersonation = impersonation := by rw [hc]
  unfold build
  rw [read_toJson given (held.symm ▸ small)]
  subst hc
  refine ofDocument_ok.mpr ⟨checked, impersonation, source, again, hsource, ?_⟩
  simp [rendered, scopes_again]

theorem ofSettings_ok {settings : Settings} {config : Configuration} :
    ofSettings settings = .ok config ↔
      ∃ audience subjectTokenType tokenUrl impersonation, settings.audience = some audience ∧
        settings.subjectTokenType = some subjectTokenType ∧ settings.tokenUrl = some tokenUrl ∧
        checkEndpoint audience tokenUrl = .ok () ∧
        impersonated settings.impersonationUrl settings.tokenLifetime = .ok impersonation ∧
        config = ⟨audience, subjectTokenType, tokenUrl, settings.tokenInfoUrl, settings.clientId,
          settings.clientSecret, scopesOrDefault settings.scopes, impersonation, .programmatic,
          none, settings.quotaProject⟩ := by
  unfold ofSettings
  rcases settings.audience with _ | audience
  · simp [orMissing, bind, Except.bind]
  rcases settings.subjectTokenType with _ | subjectTokenType
  · simp [orMissing, bind, Except.bind]
  rcases settings.tokenUrl with _ | tokenUrl
  · simp [orMissing, bind, Except.bind]
  rcases hc : checkEndpoint audience tokenUrl with _ | ⟨⟩
  · simp [orMissing, flawed, hc, bind, Except.bind]
  rcases himp : impersonated settings.impersonationUrl settings.tokenLifetime with _ | impersonation
  · simp [orMissing, flawed, hc, bind, Except.bind]
  · simp [orMissing, flawed, hc, bind, Except.bind, pure, Except.pure, eq_comm]

theorem ofSettings_source {settings : Settings} {config : Configuration}
    (h : ofSettings settings = .ok config) : config.sourceDocument = none := by
  obtain ⟨_, _, _, _, _, _, _, _, _, rfl⟩ := ofSettings_ok.mp h
  rfl

/-- A configuration that was built from a document is built from its own rendering, so both
render alike and serve every session alike. One that was put together by the application renders
without a source, and nothing is built from that, whatever takes precedence over the document. -/
theorem rendering_rebuilds :
    (∀ value overrides config, build value overrides = .ok config →
      ∃ rebuilt, build config.toJson {} = .ok rebuilt ∧ rebuilt = config ∧
        rebuilt.toJson = config.toJson ∧
        ∀ world steps, Session.run (.new rebuilt world) steps =
          Session.run (.new config world) steps) ∧
    ∀ settings config, ofSettings settings = .ok config →
      config.toJson.get? "credential_source" = none ∧
      ∀ overrides, build config.toJson overrides = .error (.parsing .json) := by
  refine ⟨fun value overrides config h => ?_, fun settings config h => ?_⟩
  · exact ⟨config, build_toJson h, rfl, rfl, fun _ _ => rfl⟩
  · have hs := ofSettings_source h
    refine ⟨(toJson_shows config).source.trans hs, fun overrides => ?_⟩
    unfold build
    rw [read_sourceless hs]
    rfl

def listed : Json :=
  .array [.string "audience", .string "type", .string "https://sts/token", .null,
    .object [("file", .string "token.txt")],
    .string "https://iam/sa@project:generateAccessToken",
    .array [.number (.integer 900)], .null, .string "id", .null, .array []]

def preferred : Overrides := ⟨some "project", some ["scope"]⟩

def supplied : Settings where
  audience := some "audience"
  subjectTokenType := some "type"
  tokenUrl := some "https://sts/token"

theorem rendering_rebuilds_listed :
    (∃ config, build listed preferred = .ok config ∧ config.scopes = ["scope"] ∧
      build config.toJson {} = .ok config) ∧
    ∃ config, ofSettings supplied = .ok config ∧
      build config.toJson preferred = .error (.parsing .json) := by
  have endpoint : checkEndpoint "audience" "https://sts/token" = .ok () := by decide +kernel
  have account : impersonated (some "https://iam/sa@project:generateAccessToken") (some 900) =
      .ok (some ⟨"https://iam/sa@project:generateAccessToken", "sa@project", some 900⟩) := by
    decide +kernel
  have source : CredentialSource.parse (.object [("file", .string "token.txt")]) =
      .ok (.file ⟨"token.txt", .text⟩) := by decide +kernel
  obtain ⟨config, built, scopes⟩ : ∃ config, build listed preferred = .ok config ∧
      config.scopes = ["scope"] :=
    ⟨_, ofDocument_ok.mpr ⟨endpoint, _, _, account, source, rfl⟩, rfl⟩
  obtain ⟨own, put⟩ : ∃ config, ofSettings supplied = .ok config :=
    ⟨_, ofSettings_ok.mpr ⟨_, _, _, _, rfl, rfl, rfl, endpoint, rfl, rfl⟩⟩
  obtain ⟨rebuilt, again, rfl, -, -⟩ := rendering_rebuilds.1 listed preferred config built
  exact ⟨⟨_, built, scopes, again⟩, own, put, (rendering_rebuilds.2 supplied own put).2 preferred⟩

end Configuration

end WorkloadIdentity
