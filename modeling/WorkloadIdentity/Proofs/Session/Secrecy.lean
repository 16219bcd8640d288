import WorkloadIdentity.Proofs.Retrieval.Deferred
import WorkloadIdentity.Proofs.Session.Matching

/-!
# Where the client secret goes

Two documents that differ in their client secrets only are built alike, and the credentials go
through every session alike. The one thing in which they differ is what authenticates the client at
the token endpoint; their renderings as documents show the secret as well.
-/

set_option autoImplicit false

namespace WorkloadIdentity.Secrecy

open Matching (Matches Alike Beside)
open Messages (basic clientHeaders)
open OneCell (Sight observe)
open Session (Result Step)

def concealText : Json → Json
  | .string _ => .string ""
  | value => value

def concealMember (m : String × Json) : String × Json :=
  (m.1, if m.1 = "client_secret" then concealText m.2 else m.2)

/-- The secret is a member of an object, or the tenth element of an array. -/
def concealJson : Json → Json
  | .object members => .object (members.map concealMember)
  | .array elements => .array (elements.modify (Document.fields.idxOf "client_secret") concealText)
  | value => value

def concealDocument (d : Document) : Document :=
  { d with clientSecret := d.clientSecret.map fun _ => "" }

def conceal (config : Configuration) : Configuration :=
  { config with clientSecret := config.clientSecret.map fun _ => "" }

/-- Of all that a step shows, only a configuration as a whole has the secret in it. -/
def concealResult : Result → Result
  | .accessors config => .accessors (conceal config)
  | .document value => .document (concealJson value)
  | .rebuilt config => .rebuilt (config.map conceal)
  | result => result

theorem lookup_concealed (record : Record) (name : String) :
    (record.map concealMember).lookup name =
      if name = "client_secret" then (record.lookup name).map concealText
      else record.lookup name := by
  induction record with
  | nil => simp
  | cons m rest ih =>
    obtain ⟨other, value⟩ := m
    simp only [List.map_cons, concealMember, List.lookup_cons]
    by_cases found : name = other
    · subst found
      by_cases named : name = "client_secret" <;> simp [named]
    · have missed : (name == other) = false := by simpa using found
      simp only [missed, ih]

theorem field_kept (record : Record) {name : String} (other : name ≠ "client_secret") :
    Record.field? (record.map concealMember) name = record.field? name := by
  rw [Record.field?, lookup_concealed, if_neg other]
  rfl

theorem secret_concealed (record : Record) :
    Record.optionalText (record.map concealMember) "client_secret" =
      (record.optionalText "client_secret").map (Option.map fun _ => "") := by
  unfold Record.optionalText Record.optional Record.field?
  rw [lookup_concealed, if_pos rfl]
  rcases record.lookup "client_secret" with _ | (_ | _ | _ | _ | _ | _) <;> rfl

theorem zip_concealed (elements : List Json) :
    Document.fields.zip (elements.modify (Document.fields.idxOf "client_secret") concealText) =
      (Document.fields.zip elements).map concealMember := by
  have place : ∀ (i : ℕ) (h : i < Document.fields.length),
      Document.fields.idxOf "client_secret" = i ↔ Document.fields[i] = "client_secret" := by decide
  refine List.ext_getElem (by simp) fun i here there => ?_
  have within : i < Document.fields.length := by
    rw [List.length_zip] at here
    omega
  simp only [List.getElem_zip, List.getElem_map, List.getElem_modify, concealMember, place i within]

theorem record_concealed (value : Json) : (concealJson value).record? Document.fields =
    (value.record? Document.fields).map (List.map concealMember) := by
  cases value with
  | object members =>
    simp only [concealJson, Json.record?, List.filter_map, Option.map_some]
    rfl
  | array elements =>
    simp only [concealJson, Json.record?, Record.ofElements?, List.length_modify, zip_concealed]
    split <;> rfl
  | _ => rfl

theorem text_kept (record : Record) {name : String} (other : name ≠ "client_secret") :
    Record.text (record.map concealMember) name = record.text name := by
  unfold Record.text Record.required
  rw [field_kept record other]

theorem optional_kept {α : Type} (read : Json → Option α) (record : Record) {name : String}
    (other : name ≠ "client_secret") :
    Record.optional read (record.map concealMember) name = Record.optional read record name := by
  unfold Record.optional
  rw [field_kept record other]

section Reading

variable {α β γ δ : Type} {o : Option α} {f : α → Option β} {g : β → γ}

/-- What is read first is the same up to `s`, and so is what follows up to `g`. -/
theorem bind_mapped {o' : Option δ} {s : α → δ} {f' : δ → Option γ} (first : o' = o.map s)
    (onward : ∀ a, f' (s a) = (f a).map g) : (o' >>= f') = (o >>= f).map g := by
  subst first
  cases o with
  | none => rfl
  | some a => exact onward a

theorem bind_kept {o' : Option α} {f' : α → Option γ} (first : o' = o)
    (onward : ∀ a, f' a = (f a).map g) : (o' >>= f') = (o >>= f).map g :=
  bind_mapped (first.trans Option.map_id'.symm) onward

end Reading

theorem read_concealed (value : Json) :
    Document.read? (concealJson value) = (Document.read? value).map concealDocument :=
  bind_mapped (record_concealed value) fun record =>
    bind_kept (text_kept record (by decide)) fun audience =>
    bind_kept (text_kept record (by decide)) fun type =>
    bind_kept (text_kept record (by decide)) fun token =>
    bind_kept (optional_kept _ record (by decide)) fun info =>
    bind_kept (field_kept record (by decide)) fun source =>
    bind_kept (optional_kept _ record (by decide)) fun impersonation =>
    bind_kept (optional_kept _ record (by decide)) fun lifetime =>
    bind_kept (optional_kept _ record (by decide)) fun quota =>
    bind_kept (optional_kept _ record (by decide)) fun id =>
    bind_mapped (secret_concealed record) fun secret =>
    bind_kept (optional_kept _ record (by decide)) fun scopes => rfl

theorem ofDocument_concealed (document : Document) (overrides : Overrides) :
    Configuration.ofDocument (concealDocument document) overrides =
      (Configuration.ofDocument document overrides).map conceal := by
  unfold Configuration.ofDocument concealDocument
  rcases Configuration.checkEndpoint document.audience document.tokenUrl with flaw | ⟨⟩
  · rfl
  rcases Configuration.impersonated document.impersonationUrl document.tokenLifetime with
    error | impersonation
  · rfl
  rcases CredentialSource.parse document.source with flaw | source <;> rfl

theorem build_concealed (value : Json) (overrides : Overrides) :
    Configuration.build (concealJson value) overrides =
      (Configuration.build value overrides).map conceal := by
  have blank : (concealJson value).isNull = value.isNull := by cases value <;> rfl
  unfold Configuration.build
  rw [blank, read_concealed]
  rcases value.isNull with _ | _
  · rcases Document.read? value with _ | document
    · rfl
    · exact ofDocument_concealed document overrides
  · rfl

theorem member_concealed (name : String) (value : Option Json) :
    (Configuration.member name value).map concealMember =
      Configuration.member name
        (if name = "client_secret" then value.map concealText else value) := by
  cases value <;> by_cases named : name = "client_secret" <;>
    simp [Configuration.member, concealMember, named]

theorem toJson_concealed (config : Configuration) :
    concealJson config.toJson = (conceal config).toJson := by
  have secret : (config.clientSecret.map Json.string).map concealText =
      (config.clientSecret.map fun _ => "").map Json.string := by
    rw [Option.map_map, Option.map_map]
    rfl
  simp [Configuration.toJson, Configuration.textMember, concealJson, member_concealed,
    concealMember, conceal, secret]

theorem inspection_concealed (world : World) (config : Configuration) :
    Inspection.configuration world (conceal config) = Inspection.configuration world config := by
  unfold Inspection.configuration conceal
  simp only [Option.map_map]
  rfl

/-- Two events are the same, but for what authenticates the client at the token endpoint. -/
inductive Veiled (config config' : Configuration) : Event → Event → Prop
  | same (event : Event) : Veiled config config' event event
  | authenticated {id secret secret' : String} {uri : Uri} {kind : Header} {body : Bytes}
      (identified : config.clientId = some id)
      (held : config.clientSecret = some secret) (held' : config'.clientSecret = some secret')
      (endpoint : Uri.parse? config.tokenUrl = some uri) :
      Veiled config config' (.request ⟨.post, uri, [kind, basic id secret], body⟩)
        (.request ⟨.post, uri, [kind, basic id secret'], body⟩)

section Twins

variable {config config' : Configuration} (concealed : conceal config = conceal config')

include concealed

theorem grant_veiled (subjectToken : String) :
    Option.Rel (fun r r' => Veiled config config' (.request r) (.request r'))
      (Exchange.request? config subjectToken) (Exchange.request? config' subjectToken) := by
  have endpoint : config'.tokenUrl = config.tokenUrl := congrArg (·.tokenUrl) concealed.symm
  have identity : config'.clientId = config.clientId := congrArg (·.clientId) concealed.symm
  have form : Exchange.parameters config' subjectToken = Exchange.parameters config subjectToken :=
    show Exchange.parameters (conceal config') subjectToken =
        Exchange.parameters (conceal config) subjectToken by
      rw [concealed]
  have secrets : config.clientSecret.map (fun _ => "") = config'.clientSecret.map fun _ => "" :=
    congrArg (·.clientSecret) concealed
  rw [Messages.request_eq, Messages.request_eq, endpoint, form]
  rcases parsed : Uri.parse? config.tokenUrl with _ | uri
  · exact .none
  refine .some ?_
  unfold clientHeaders
  rw [identity]
  rcases hi : config.clientId with _ | id
  · exact .same _
  rcases hs : config.clientSecret with _ | secret <;> rcases hs' : config'.clientSecret with
    _ | secret' <;> rw [hs, hs'] at secrets
  · exact .same _
  · cases secrets
  · cases secrets
  · exact .authenticated hi hs hs' parsed

theorem retrieve_veiled : Matches (Veiled config config') config.retrieve config'.retrieve := by
  have source : (conceal config).sourceToken = (conceal config').sourceToken :=
    congrArg Configuration.sourceToken concealed
  have sources : Matches (Veiled config config') config.sourceToken config'.sourceToken :=
    source ▸ Matching.matches_source ⟨fun _ _ => .same _, fun _ => .same _, .same _⟩ config
  exact Matching.matches_retrieve sources
    (congrArg (·.impersonation) concealed) (congrArg (·.scopes) concealed)
    (fun subjectToken _ => grant_veiled concealed subjectToken) fun _ _ _ _ => .same _

theorem twins_alike :
    Alike (Veiled config config') (fun r r' => concealResult r = concealResult r')
      config config' where
  retrieves := retrieve_veiled concealed
  quota := congrArg (·.quotaProject) concealed
  inspected world := by
    rw [← inspection_concealed world config, concealed, inspection_concealed]
  same _ := rfl
  accessors := congrArg Result.accessors concealed
  document := by
    simp only [concealResult, toJson_concealed, concealed]
  rebuilt := by
    simp only [concealResult, ← build_concealed, toJson_concealed, concealed]

end Twins

theorem veiled_anonymous {config config' : Configuration} {event event' : Event}
    (anonymous : config.clientId = none) (h : Veiled config config' event event') :
    event = event' := by
  cases h with
  | same => rfl
  | authenticated identified => simp [anonymous] at identified

theorem events_anonymous {config config' : Configuration} (anonymous : config.clientId = none)
    {sights sights' : List Sight} (h : List.Forall₂ (fun sight sight' : Sight =>
      List.Forall₂ (Veiled config config') sight.2 sight'.2) sights sights') :
    sights.map Prod.snd = sights'.map Prod.snd := by
  induction h with
  | nil => rfl
  | cons first _ ih =>
    have same := first.imp fun _ _ => veiled_anonymous anonymous
    rw [List.forall₂_eq_eq_eq] at same
    rw [List.map_cons, List.map_cons, same, ih]

/-- Documents that differ in the text of the client secret only are built with the same outcome, and
what is built from them is told apart by nothing but the header that authenticates the client and
the configuration's own rendering: not by results and errors, not by the text for logs, and not by
the commands that run or by anything else in the requests. -/
theorem secret_stays_veiled {value value' : Json} (alike : concealJson value = concealJson value')
    (overrides : Overrides) :
    (Configuration.build value overrides).map conceal =
      (Configuration.build value' overrides).map conceal ∧
    ∀ config config', Configuration.build value overrides = .ok config →
      Configuration.build value' overrides = .ok config' → ∀ (world : World) (steps : List Step),
        List.Forall₂ (fun sight sight' : Sight => concealResult sight.1 = concealResult sight'.1 ∧
            List.Forall₂ (Veiled config config') sight.2 sight'.2)
          (observe (.new config world) steps).1 (observe (.new config' world) steps).1 ∧
        Inspection.credentials (observe (.new config world) steps).2 =
          Inspection.credentials (observe (.new config' world) steps).2 ∧
        (config.clientId = none → (observe (.new config world) steps).1.map Prod.snd =
          (observe (.new config' world) steps).1.map Prod.snd) := by
  have outcome : (Configuration.build value overrides).map conceal =
      (Configuration.build value' overrides).map conceal := by
    rw [← build_concealed, alike, build_concealed]
  refine ⟨outcome, fun config config' built built' world steps => ?_⟩
  have concealed : conceal config = conceal config' := by
    rw [built, built'] at outcome
    exact Except.ok.inj outcome
  have twins := twins_alike concealed
  have start : Beside (Veiled config config') config config' (.new config world)
      (.new config' world) :=
    Matching.beside_start world (List.forall₂_same.mpr fun event _ => .same event)
  obtain ⟨sights, last⟩ := Matching.observe_beside twins start steps
  exact ⟨sights, Matching.inspected_beside twins last,
    fun anonymous => events_anonymous anonymous (sights.imp fun _ _ sight => sight.2)⟩

def confidential (secret : String) : Document :=
  { Deferred.document "https://sts/token" none none with
    clientId := some "app", clientSecret := some secret }

def client (secret : String) : Configuration :=
  { Deferred.configuration "https://sts/token" none none with
    clientId := some "app", clientSecret := some secret }

theorem confidential_builds (secret : String) :
    Configuration.build (Builders.written (confidential secret)) {} = .ok (client secret) := by
  have parsed : CredentialSource.parse (.object [("file", .string "token")]) =
      .ok (.file ⟨"token", .text⟩) := by decide +kernel
  exact Builders.build_written nofun (show Configuration.checkEndpoint "//iam/pool"
    "https://sts/token" = .ok () by decide +kernel) rfl parsed

def refreshed (secret : String) : List Sight × Credentials :=
  observe (.new (client secret) Deferred.obliging) [.call ⟨.refresh, none⟩ false]

/-- Two secrets, the requests they lead to, and the text that shows neither. -/
theorem secret_stays_veiled_refreshing :
    Configuration.build (Builders.written (confidential "one")) {} = .ok (client "one") ∧
      Configuration.build (Builders.written (confidential "two")) {} = .ok (client "two") ∧
      (refreshed "one").1.map Prod.snd ≠ (refreshed "two").1.map Prod.snd ∧
      List.Forall₂ (fun sight sight' : Sight => concealResult sight.1 = concealResult sight'.1 ∧
          List.Forall₂ (Veiled (client "one") (client "two")) sight.2 sight'.2)
        (refreshed "one").1 (refreshed "two").1 ∧
      Inspection.credentials (refreshed "one").2 = Inspection.credentials (refreshed "two").2 := by
  have alike : concealJson (Builders.written (confidential "one")) =
      concealJson (Builders.written (confidential "two")) := rfl
  obtain ⟨sights, texts, -⟩ := (secret_stays_veiled alike {}).2 _ _ (confidential_builds _)
    (confidential_builds _) Deferred.obliging [.call ⟨.refresh, none⟩ false]
  exact ⟨confidential_builds _, confidential_builds _, by decide +kernel, sights, texts⟩

end WorkloadIdentity.Secrecy
