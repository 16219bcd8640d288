import Mathlib.Algebra.Ring.Nat
import WorkloadIdentity.Proofs.Config.Rebuilding

/-!
# The grammar of configuration documents

What a document has to hold is written down apart from the readers that take it apart: the fields
of each record with their types, the shapes of a source, and the checks on their values. Fields,
records and documents are read exactly as written here.
-/

set_option autoImplicit false

namespace WorkloadIdentity.Grammar

/-- A value that stands for a record of these fields, with what it holds under each name: an
object by its members, whatever else it has, or an array with one element for each field. -/
inductive Spells (fields : List String) : Json → (String → Option Json) → Prop
  | object (members : List (String × Json)) :
      Spells fields (.object members)
        fun name => if name ∈ fields then Members.get? members name else none
  | array (elements : List Json) (whole : elements.length = fields.length) :
      Spells fields (.array elements) fun name => elements[fields.idxOf name]?

inductive Maybe {α : Type} (Reads : Json → α → Prop) : Option Json → Option α → Prop
  | absent : Maybe Reads none none
  | null : Maybe Reads (some .null) none
  | given {value : Json} {a : α} (reads : Reads value a) : Maybe Reads (some value) (some a)

def Text (value : Json) (text : String) : Prop := value = .string text

def Texts (value : Json) (texts : List String) : Prop := value = .array (texts.map .string)

def TextMap (value : Json) (texts : List (String × String)) : Prop :=
  value = .object (texts.map fun entry => (entry.1, .string entry.2))

/-- A number that is written as an integer and fits into an unsigned word. -/
def Natural (bits : ℕ) (value : Json) (n : ℕ) : Prop :=
  n < 2 ^ bits ∧ value = .number (.integer n)

def documentFields : List String :=
  ["audience", "subject_token_type", "token_url", "token_info_url", "credential_source",
    "service_account_impersonation_url", "service_account_impersonation", "quota_project_id",
    "client_id", "client_secret", "scopes"]

def Lifetime (value : Json) (seconds : Option ℕ) : Prop :=
  ∃ get, Spells ["token_lifetime_seconds"] value get ∧
    Maybe (Natural 64) (get "token_lifetime_seconds") seconds

structure Fields (get : String → Option Json) (d : Document) : Prop where
  audience : get "audience" = some (.string d.audience)
  subjectTokenType : get "subject_token_type" = some (.string d.subjectTokenType)
  tokenUrl : get "token_url" = some (.string d.tokenUrl)
  tokenInfoUrl : Maybe Text (get "token_info_url") d.tokenInfoUrl
  source : get "credential_source" = some d.source
  impersonationUrl : Maybe Text (get "service_account_impersonation_url") d.impersonationUrl
  lifetime : ∃ given, Maybe Lifetime (get "service_account_impersonation") given ∧
    d.tokenLifetime = given.join
  quotaProject : Maybe Text (get "quota_project_id") d.quotaProject
  clientId : Maybe Text (get "client_id") d.clientId
  clientSecret : Maybe Text (get "client_secret") d.clientSecret
  scopes : Maybe Texts (get "scopes") d.scopes

def Describes (value : Json) (d : Document) : Prop :=
  ∃ get, Spells documentFields value get ∧ Fields get d

/-- The audience is not empty, and the URL of the token endpoint can be a base. -/
def Endpoint (d : Document) : Prop :=
  d.audience ≠ "" ∧ ∃ url, Url.parse? d.tokenUrl = some url ∧ url.isHierarchical = true

/-- The URL names an account, and then its tokens may be asked to last ten minutes to twelve
hours. Without a URL a lifetime is passed over. -/
inductive Impersonates : Option String → Option ℕ → Option Impersonation → Prop
  | nobody {lifetime : Option ℕ} : Impersonates none lifetime none
  | account {url principal : String} {lifetime : Option ℕ}
      (named : Impersonation.principal? url = some principal)
      (within : ∀ seconds ∈ lifetime, 600 ≤ seconds ∧ seconds ≤ 43200) :
      Impersonates (some url) lifetime (some ⟨url, principal, lifetime⟩)

inductive Format (value : Json) : TokenFormat → Prop
  | text {get : String → Option Json} {member : Option String}
      (spelled : Spells ["type", "subject_token_field_name"] value get)
      (kind : get "type" = some (.string "text"))
      (unused : Maybe Text (get "subject_token_field_name") member) : Format value .text
  | json {get : String → Option Json} {member : String}
      (spelled : Spells ["type", "subject_token_field_name"] value get)
      (kind : get "type" = some (.string "json"))
      (named : get "subject_token_field_name" = some (.string member)) (proper : member ≠ "") :
      Format value (.json member)

def FirstVersion (id : String) : Prop :=
  ∃ plus zeros, (plus = [] ∨ plus = ['+']) ∧
    id.toList = ['a', 'w', 's'] ++ (plus ++ (List.replicate zeros '0' ++ ['1']))

structure Aws (get : String → Option Json) (s : AwsSource) : Prop where
  environment : get "environment_id" = some (.string s.environmentId)
  version : FirstVersion s.environmentId
  regionUrl : Maybe Text (get "region_url") s.regionUrl
  url : Maybe Text (get "url") s.url
  verificationUrl : get "regional_cred_verification_url" = some (.string s.verificationUrl)
  sessionTokenUrl : Maybe Text (get "imdsv2_session_token_url") s.sessionTokenUrl

structure Executable (get : String → Option Json) (s : ExecutableSource) : Prop where
  command : get "command" = some (.string s.command)
  words : ∃ c ∈ s.command.toList, Blank.isBlank c = false
  timeout : Maybe (Natural 32) (get "timeout_millis") s.timeout
  within : ∀ t ∈ s.timeout, 5000 ≤ t ∧ t ≤ 120000
  outputFile : Maybe Text (get "output_file") s.outputFile

structure File (get : String → Option Json) (s : FileSource) : Prop where
  file : get "file" = some (.string s.file)
  format : ∃ given, Maybe Format (get "format") given ∧ s.format = given.getD .text

structure Web (get : String → Option Json) (s : UrlSource) : Prop where
  url : get "url" = some (.string s.url)
  headers : ∃ given, Maybe TextMap (get "headers") given ∧ s.headers = given.getD []
  format : ∃ given, Maybe Format (get "format") given ∧ s.format = given.getD .text

/-- An object that has one of four names. The first of them decides what else it has to hold. -/
inductive Source : Json → CredentialSource → Prop
  | aws {members : List (String × Json)} {s : AwsSource}
      (fits : Aws (Members.get? members) s) : Source (.object members) (.aws s)
  | executable {members : List (String × Json)} {value : Json} {get : String → Option Json}
      {s : ExecutableSource}
      (first : Members.get? members "environment_id" = none)
      (held : Members.get? members "executable" = some value)
      (spelled : Spells ["command", "timeout_millis", "output_file"] value get)
      (fits : Executable get s) : Source (.object members) (.executable s)
  | file {members : List (String × Json)} {s : FileSource}
      (first : ∀ name ∈ ["environment_id", "executable"],
        Members.get? members name = none)
      (fits : File (Members.get? members) s) : Source (.object members) (.file s)
  | url {members : List (String × Json)} {s : UrlSource}
      (first : ∀ name ∈ ["environment_id", "executable", "file"],
        Members.get? members name = none)
      (fits : Web (Members.get? members) s) : Source (.object members) (.url s)

/-- What a document is built into. The overrides come first, and without scopes there is a
default. -/
def assembled (document : Document) (overrides : Overrides) (impersonation : Option Impersonation)
    (source : CredentialSource) : Configuration where
  audience := document.audience
  subjectTokenType := document.subjectTokenType
  tokenUrl := document.tokenUrl
  tokenInfoUrl := document.tokenInfoUrl
  clientId := document.clientId
  clientSecret := document.clientSecret
  scopes := match overrides.scopes <|> document.scopes with
    | some (scope :: scopes) => scope :: scopes
    | _ => ["https://www.googleapis.com/auth/cloud-platform"]
  impersonation := impersonation
  source := source
  sourceDocument := some document.source
  quotaProject := overrides.quotaProject <|> document.quotaProject

section Readers

variable {α : Type} {record : Record} {name : String}

theorem string_iff {value : Json} {text : String} :
    value.string? = some text ↔ Text value text := by
  cases value <;> simp [Json.string?, Text]

theorem text_iff {text : String} :
    record.text name = some text ↔ record.field? name = some (.string text) := by
  rw [Record.text, Record.required, Option.bind_eq_some_iff]
  constructor
  · rintro ⟨value, held, read⟩
    rw [held, string_iff.mp read]
  · intro held
    exact ⟨_, held, rfl⟩

theorem optional_given {read : Json → Option α} {value : Json}
    (h : record.field? name = some value) (proper : value ≠ .null) :
    record.optional read name = (read value).map some := by
  rw [Record.optional, h]
  cases value with
  | null => exact absurd rfl proper
  | _ => rfl

theorem optional_iff {read : Json → Option α} {Reads : Json → α → Prop} {a : Option α}
    (reads : ∀ value a, read value = some a ↔ Reads value a) (null : ∀ a, ¬ Reads .null a) :
    record.optional read name = some a ↔ Maybe Reads (record.field? name) a := by
  rcases hf : record.field? name with _ | value
  · rw [Record.optional_none hf]
    constructor
    · rintro ⟨⟩
      exact .absent
    · rintro ⟨⟩
      rfl
  by_cases blank : value = .null
  · subst blank
    rw [Record.optional, hf]
    constructor
    · rintro ⟨⟩
      exact .null
    · intro h
      cases h with
      | null => rfl
      | given held => exact absurd held (null _)
  · rw [optional_given hf blank, Option.map_eq_some_iff]
    constructor
    · rintro ⟨a, held, rfl⟩
      exact .given ((reads value a).mp held)
    · intro h
      cases h with
      | null => exact absurd rfl blank
      | given held => exact ⟨_, (reads value _).mpr held, rfl⟩

theorem optional_text_iff {text : Option String} :
    record.optionalText name = some text ↔ Maybe Text (record.field? name) text :=
  optional_iff (fun _ _ => string_iff) nofun

theorem natural_iff {bits : ℕ} {value : Json} {n : ℕ} :
    Record.natural? bits value = some n ↔ Natural bits value n := by
  have power : Int.pow 2 bits = ((2 ^ bits : ℕ) : Int) := by
    push_cast
    rfl
  unfold Record.natural? Record.integerWithin? Natural
  rw [power]
  generalize 2 ^ bits = bound
  cases value with
  | number k =>
    cases k with
    | integer k =>
      simp only [Json.integer?, Option.bind_some, Option.map_eq_some_iff,
        Option.ite_none_right_eq_some, Option.some.injEq, Json.number.injEq, Number.integer.injEq]
      constructor
      · rintro ⟨k, ⟨within, rfl⟩, rfl⟩
        omega
      · rintro ⟨small, rfl⟩
        exact ⟨n, ⟨by omega, rfl⟩, rfl⟩
    | real x => simp [Json.integer?]
  | _ => simp [Json.integer?]

theorem mapM_iff {β : Type} {read : α → Option β} {write : β → α}
    (reads : ∀ a b, read a = some b ↔ a = write b) {as : List α} {bs : List β} :
    as.mapM read = some bs ↔ as = bs.map write := by
  induction as generalizing bs with
  | nil => cases bs <;> simp
  | cons a as ih =>
    simp only [List.mapM_cons, Option.bind_eq_bind, Option.bind_eq_some_iff, reads, ih,
      Option.pure_def, Option.some.injEq]
    constructor
    · rintro ⟨b, rfl, bs, rfl, rfl⟩
      rfl
    · intro h
      cases bs with
      | nil => cases h
      | cons b bs =>
        obtain ⟨rfl, rfl⟩ := List.cons_eq_cons.mp h
        exact ⟨b, rfl, bs, rfl, rfl⟩

theorem texts_iff {value : Json} {texts : List String} :
    Record.texts? value = some texts ↔ Texts value texts := by
  cases value <;> simp [Record.texts?, Json.array?, Texts, mapM_iff fun _ _ => string_iff]

theorem entry_iff {entry : String × Json} {text : String × String} :
    (entry.2.string?.map fun s => (entry.1, s)) = some text ↔ entry = (text.1, .string text.2) := by
  obtain ⟨name, value⟩ := entry
  rw [Option.map_eq_some_iff]
  constructor
  · rintro ⟨s, read, rfl⟩
    exact congrArg _ (string_iff.mp read)
  · rintro ⟨⟩
    exact ⟨_, rfl, rfl⟩

theorem text_map_iff {value : Json} {texts : List (String × String)} :
    Record.textMap? value = some texts ↔ TextMap value texts := by
  cases value <;> simp [Record.textMap?, Json.object?, TextMap, mapM_iff fun _ _ => entry_iff]

end Readers

theorem lookup_zip {fields : List String} {elements : List Json} (name : String)
    (whole : elements.length = fields.length) :
    (fields.zip elements).lookup name = elements[fields.idxOf name]? := by
  induction fields generalizing elements with
  | nil =>
    obtain rfl := List.length_eq_zero_iff.mp whole
    rfl
  | cons field fields ih =>
    obtain ⟨element, elements, rfl⟩ := List.exists_cons_of_length_eq_add_one whole
    have rest := @ih elements (by simpa using whole)
    by_cases h : name = field
    · subst h
      simp
    · have differ : (name == field) = false := by simpa using h
      simp [List.lookup_cons, differ, Ne.symm h, rest]

theorem field_unknown {fields : List String} (members : List (String × Json)) {name : String}
    (h : name ∉ fields) :
    Record.field? (members.filter fun m => fields.contains m.1) name = none := by
  rw [Record.field?, List.lookup_eq_none_iff]
  rintro ⟨other, value⟩ held
  have known := (List.mem_filter.mp held).2
  have : name ≠ other := by
    rintro rfl
    exact h (by simpa using known)
  simpa using this

theorem object_fields (fields : List String) (members : List (String × Json)) :
    Record.field? (members.filter fun m => fields.contains m.1) =
      fun name => if name ∈ fields then Members.get? members name else none := by
  funext name
  by_cases h : name ∈ fields
  · rw [if_pos h]
    exact Configuration.field_known members (by simpa using h)
  · rw [if_neg h]
    exact field_unknown members h

theorem spells_iff {fields : List String} {value : Json} {get : String → Option Json} :
    Spells fields value get ↔
      ∃ record : Record, value.record? fields = some record ∧ record.field? = get := by
  constructor
  · intro h
    cases h with
    | object members => exact ⟨_, rfl, object_fields fields members⟩
    | array elements whole =>
      refine ⟨_, if_pos whole, ?_⟩
      funext name
      exact lookup_zip name whole
  · rintro ⟨record, read, rfl⟩
    cases value with
    | object members =>
      cases read
      rw [object_fields]
      exact .object members
    | array elements =>
      obtain ⟨whole, same⟩ := Option.ite_none_right_eq_some.mp read
      cases same
      have places : Record.field? (fields.zip elements) = fun name => elements[fields.idxOf name]? := by
        funext name
        exact lookup_zip name whole
      rw [places]
      exact .array elements whole
    | _ => cases read

theorem record_iff {α : Type} {fields : List String} {value : Json} {body : Record → Option α}
    (Holds : (String → Option Json) → α → Prop) {a : α}
    (holds : ∀ record : Record, body record = some a ↔ Holds record.field? a) :
    (value.record? fields).bind body = some a ↔ ∃ get, Spells fields value get ∧ Holds get a := by
  rw [Option.bind_eq_some_iff]
  constructor
  · rintro ⟨record, read, held⟩
    exact ⟨_, spells_iff.mpr ⟨record, read, rfl⟩, (holds record).mp held⟩
  · rintro ⟨get, spelled, held⟩
    obtain ⟨record, read, rfl⟩ := spells_iff.mp spelled
    exact ⟨record, read, (holds record).mpr held⟩

theorem null_spells_nothing {fields : List String} {get : String → Option Json} :
    ¬ Spells fields .null get := nofun

theorem lifetime_iff {value : Json} {seconds : Option ℕ} :
    Document.lifetime? value = some seconds ↔ Lifetime value seconds :=
  record_iff _ fun _ => optional_iff (fun _ _ => natural_iff) nofun

theorem lifetime_null (seconds : Option ℕ) : ¬ Lifetime .null seconds :=
  fun ⟨_, spelled, _⟩ => null_spells_nothing spelled

theorem read_iff {value : Json} {d : Document} :
    Document.read? value = some d ↔ Describes value d := by
  refine record_iff _ fun record => ?_
  have lifetimes : ∀ name given, record.optional Document.lifetime? name = some given ↔
      Maybe Lifetime (record.field? name) given :=
    fun _ _ => optional_iff (fun _ _ => lifetime_iff) lifetime_null
  have scopes : ∀ name given, record.optional Record.texts? name = some given ↔
      Maybe Texts (record.field? name) given :=
    fun _ _ => optional_iff (fun _ _ => texts_iff) fun _ => nofun
  simp only [Option.bind_eq_bind, Option.bind_eq_some_iff, text_iff, optional_text_iff, lifetimes,
    scopes, Option.pure_def, Option.some.injEq]
  constructor
  · rintro ⟨audience, ha, type, ht, tokenUrl, hu, info, hi, source, hs, url, hurl, lifetime, hl,
      quota, hq, id, hid, secret, hsecret, scopes, hscopes, rfl⟩
    exact ⟨ha, ht, hu, hi, hs, hurl, ⟨lifetime, hl, rfl⟩, hq, hid, hsecret, hscopes⟩
  · rintro ⟨ha, ht, hu, hi, hs, hurl, ⟨lifetime, hl, joined⟩, hq, hid, hsecret, hscopes⟩
    exact ⟨_, ha, _, ht, _, hu, _, hi, _, hs, _, hurl, lifetime, hl, _, hq, _, hid, _, hsecret, _,
      hscopes, by rw [← joined]⟩

end WorkloadIdentity.Grammar
