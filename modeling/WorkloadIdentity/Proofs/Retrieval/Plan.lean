import Mathlib.Data.List.DropRight
import WorkloadIdentity.Proofs.Retrieval.Asking
import WorkloadIdentity.Proofs.Text.Utf8

/-! The plan of a retrieval: the requests of the credential source, then the exchange at the
token endpoint, then the impersonation if there is one. The legs of AWS depend on the
environment, and the last of them on the role that the metadata server named. -/

set_option autoImplicit false

namespace WorkloadIdentity.Journey

/-- A leg whose answer is a text that `use` can take. -/
def textLeg {α : Type} (method : Method) (url : String)
    (use : String → Except CredentialsError α) : Leg :=
  ⟨method, url, fun body => (Utf8.text? body).any fun text => (use text).isOk⟩

section Texts

variable {α : Type} {use : String → Except CredentialsError α} {errand : Errand}
  {response : Response}

theorem concludes_text (method : Method) (url : String)
    (dull : ∀ text e, use text = .error e → Dull e) :
    Concludes (textLeg method url use) (fun r => .refused errand r.status r.body) response
      ((AwsSource.readText errand response >>= use).mapError Failure.error) := by
  unfold AwsSource.readText
  by_cases success : Status.isSuccess response.status = true
  · rw [if_pos success]
    rcases ht : Utf8.text? response.body with _ | text
    · exact .unread success (by simp [textLeg, ht]) (dull_incident .utf8)
    · rcases hu : use text with e | a
      · simp only [bind, Except.bind, hu, Except.mapError]
        exact .unread success (by simp [textLeg, ht, hu, Except.isOk, Except.toBool])
          (dull text e hu)
      · simp only [bind, Except.bind, hu, Except.mapError]
        exact .read success (by simp [textLeg, ht, hu, Except.isOk, Except.toBool])
  · rw [if_neg success]
    exact .rejected (by simpa using success)

theorem asked_text {w : World} {method : Method} {url : String} {headers : List RawHeader}
    {body : Bytes} (errand : Errand) (use : String → Except CredentialsError α)
    (dull : ∀ text e, use text = .error e → Dull e) :
    Asked (textLeg method url use) (fun r => .refused errand r.status r.body) w
      ((AwsSource.fetch errand (Request.make? method url headers body) >>=
        fun text => Attempt.ofExcept (use text)) w) := by
  simp only [AwsSource.fetch, bind_assoc]
  apply asked_of (built_of _ w)
  intro response w'
  refine ⟨_, ?_, concludes_text method url dull⟩
  rw [bind_run, ofExcept_run]
  rcases AwsSource.readText errand response with e | text
  · rfl
  · exact ofExcept_run (use text) w'

theorem readText_ok {text : String} (h : AwsSource.readText errand response = .ok text) :
    Utf8.text? response.body = some text := by
  unfold AwsSource.readText at h
  by_cases success : Status.isSuccess response.status = true
  · rw [if_pos success] at h
    rcases ht : Utf8.text? response.body with _ | read
    · simp [ht] at h
    · simpa [ht] using h
  · simp [if_neg success] at h

theorem fetch_ok {request : Option Request} {w w' : World} {text : String}
    (h : AwsSource.fetch errand request w = (.ok text, w')) :
    ∃ response, answerTo w 0 = .response response ∧ Utf8.text? response.body = some text := by
  unfold AwsSource.fetch at h
  rcases request with _ | request
  · cases h
  · rw [built_bind, bind_run] at h
    rcases hs : World.send request w with ⟨_ | response, after⟩ <;> simp only [hs] at h
    · cases h
    · rw [ofExcept_run] at h
      rcases hr : AwsSource.readText errand response with _ | read <;>
        simp only [hr, Except.mapError] at h
      · cases h
      · cases h
        exact ⟨response, (answer_met (send_ok hs)).1, readText_ok hr⟩

end Texts

def openedWith (token : String) : Except CredentialsError (Option String) :=
  .ok (some (Blank.trim token))

def roleIn (answer : String) : Except CredentialsError (List Char) :=
  if (Blank.trimList answer.toList).isEmpty then .error (.ofFault (.aws .emptyRole))
  else .ok (Blank.trimList answer.toList)

def credentialsIn (answer : String) : Except CredentialsError AwsCredentials :=
  match AwsSource.readCredentials? answer with
  | some credentials => .ok credentials
  | none => .error (.ofIncident .json)

def roleNamed : Answer → List Char
  | .response r => Blank.trimList ((Utf8.text? r.body).getD "").toList
  | .failure _ _ => []

/-- The URL without the slashes at its end, a slash, and the role. -/
def roleUrl (url role : String) : String :=
  String.ofList (url.toList.rdropWhile (· = '/')) ++ "/" ++ role

theorem role_url_eq (url : String) (role : List Char) :
    AwsSource.roleUrl url role = roleUrl url (String.ofList role) := by
  have ends : url.toList.rdropWhile (· = '/') =
      (url.toList.reverse.dropWhile (· == '/')).reverse := rfl
  rw [← String.toList_inj, AwsSource.roleUrl, roleUrl, ends]
  simp

def needsServer (env : Environment) : Bool :=
  (AwsSource.regionOf? env).isNone || (AwsSource.credentialsOf? env).isNone

def sessionLegs (source : AwsSource) (env : Environment) : List Leg :=
  match source.sessionTokenUrl with
  | some url => if needsServer env then [textLeg .put url openedWith] else []
  | none => []

def regionLegs (source : AwsSource) (env : Environment) : List Leg :=
  match AwsSource.regionOf? env, source.regionUrl with
  | none, some url => [textLeg .get url AwsSource.regionOfZone]
  | _, _ => []

def credentialLegs (source : AwsSource) (env : Environment) (role : List Char) : List Leg :=
  match AwsSource.credentialsOf? env, source.url with
  | none, some url =>
    [textLeg .get url roleIn, textLeg .get (roleUrl url (String.ofList role)) credentialsIn]
  | _, _ => []

def metadataLegs (source : AwsSource) (w : World) : List Leg :=
  let first := sessionLegs source w.environment ++ regionLegs source w.environment
  first ++ credentialLegs source w.environment (roleNamed (answerTo w first.length))

section Metadata

variable {source : AwsSource} {w : World}

theorem open_session_travels (source : AwsSource) (w : World) :
    ∃ sent, Travels (sessionLegs source w.environment) w sent
      (source.openSession (needsServer w.environment) w) := by
  unfold sessionLegs AwsSource.openSession
  rcases source.sessionTokenUrl with _ | url
  · exact ⟨[], travels_pure none w⟩
  · by_cases needed : needsServer w.environment = true
    · simp only [if_pos needed]
      exact travels_asked (asked_text .sessionToken openedWith nofun)
    · simp only [if_neg needed]
      exact ⟨[], travels_pure none w⟩

theorem region_dull (zone : String) (e : CredentialsError)
    (h : AwsSource.regionOfZone zone = .error e) : Dull e := by
  simp only [AwsSource.regionOfZone] at h
  split at h
  · cases h
    exact dull_fault _
  · cases h

theorem role_dull (answer : String) (e : CredentialsError) (h : roleIn answer = .error e) :
    Dull e := by
  unfold roleIn at h
  split at h
  · cases h
    exact dull_fault _
  · cases h

theorem credentials_dull (answer : String) (e : CredentialsError)
    (h : credentialsIn answer = .error e) : Dull e := by
  unfold credentialsIn at h
  split at h
  · cases h
  · cases h
    exact dull_incident _

theorem fetch_region_travels (source : AwsSource) (session : Option String) (env : Environment)
    (w : World) (missing : AwsSource.regionOf? env = none) :
    ∃ sent, Travels (regionLegs source env) w sent (source.fetchRegion session w) := by
  unfold regionLegs AwsSource.fetchRegion
  rw [missing]
  rcases source.regionUrl with _ | url
  · exact ⟨[], travels_unsent _ [] w⟩
  · exact travels_asked (asked_text .region AwsSource.regionOfZone region_dull)

theorem fetch_credentials_eq (source : AwsSource) (session : Option String) {url : String}
    (h : source.url = some url) :
    source.fetchCredentials session =
      (AwsSource.fetch .roleName (AwsSource.metadataRequest? session url) >>=
          fun answer => Attempt.ofExcept (roleIn answer)) >>= fun role =>
        AwsSource.fetch .securityCredentials
            (AwsSource.metadataRequest? session (AwsSource.roleUrl url role)) >>=
          fun text => Attempt.ofExcept (credentialsIn text) := by
  simp only [AwsSource.fetchCredentials, h, bind_assoc]
  congr
  funext answer
  unfold roleIn
  by_cases empty : (Blank.trimList answer.toList).isEmpty = true
  · rw [if_pos empty, if_pos empty]
    rfl
  · rw [if_neg empty, if_neg empty]
    show _ = pure _ >>= _
    rw [pure_bind]
    congr
    funext text
    unfold credentialsIn
    rcases AwsSource.readCredentials? text with _ | _ <;> rfl

theorem fetched_role {request : Option Request} {w w' : World} {role : List Char}
    (h : (AwsSource.fetch .roleName request >>= fun answer => Attempt.ofExcept (roleIn answer)) w =
      (.ok role, w')) : role = roleNamed (answerTo w 0) := by
  rw [bind_run] at h
  rcases hf : AwsSource.fetch .roleName request w with ⟨_ | answer, after⟩ <;>
    simp only [hf] at h
  · cases h
  · obtain ⟨response, met, text⟩ := fetch_ok hf
    rw [ofExcept_run, roleIn] at h
    split at h
    · cases h
    · cases h
      rw [met, roleNamed, text, Option.getD_some]

theorem fetch_credentials_travels (source : AwsSource) (session : Option String)
    (env : Environment) (w : World) (missing : AwsSource.credentialsOf? env = none) :
    ∃ sent, Travels (credentialLegs source env (roleNamed (answerTo w 0))) w sent
      (source.fetchCredentials session w) := by
  unfold credentialLegs
  rw [missing]
  rcases hu : source.url with _ | url
  · unfold AwsSource.fetchCredentials
    rw [hu]
    exact ⟨[], travels_unsent _ [] w⟩
  · rw [fetch_credentials_eq source session hu]
    show ∃ sent, Travels ([textLeg .get url roleIn] ++ [_]) w sent _
    apply travels_bind (travels_asked (asked_text .roleName roleIn role_dull))
    intro role w' sent ran _
    rw [← fetched_role ran, ← role_url_eq]
    exact travels_asked (asked_text .securityCredentials credentialsIn credentials_dull)

def regionFor (source : AwsSource) (env : Environment) (session : Option String) :
    Attempt String :=
  match AwsSource.regionOf? env with
  | some region => pure region
  | none => source.fetchRegion session

def credentialsFor (source : AwsSource) (env : Environment) (session : Option String) :
    Attempt AwsCredentials :=
  match AwsSource.credentialsOf? env with
  | some credentials => pure credentials
  | none => source.fetchCredentials session

theorem region_for_travels (source : AwsSource) (env : Environment) (session : Option String)
    (w : World) : ∃ sent, Travels (regionLegs source env) w sent (regionFor source env session w) := by
  unfold regionFor
  rcases missing : AwsSource.regionOf? env with _ | region
  · exact fetch_region_travels source session env w missing
  · simp only [regionLegs, missing]
    exact ⟨[], travels_pure region w⟩

theorem credentials_for_travels (source : AwsSource) (env : Environment)
    (session : Option String) (w : World) :
    ∃ sent, Travels (credentialLegs source env (roleNamed (answerTo w 0))) w sent
      (credentialsFor source env session w) := by
  unfold credentialsFor
  rcases missing : AwsSource.credentialsOf? env with _ | credentials
  · exact fetch_credentials_travels source session env w missing
  · simp only [credentialLegs, missing]
    exact ⟨[], travels_pure credentials w⟩

theorem subject_token_run (source : AwsSource) (audience : String) (w : World) :
    source.subjectToken audience w =
      ((do
        let session ← source.openSession (needsServer w.environment)
        let region ← regionFor source w.environment session
        pure (session, region)) >>= fun (session, region) => do
          let credentials ← credentialsFor source w.environment session
          Attempt.ofExcept (source.signedToken audience region credentials w.now)) w := by
  simp only [bind_assoc, pure_bind]
  unfold AwsSource.subjectToken regionFor credentialsFor needsServer
  rw [get_bind]
  rcases AwsSource.regionOf? w.environment with _ | region <;>
    rcases AwsSource.credentialsOf? w.environment with _ | credentials <;>
    simp only [pure_bind]

theorem metadata_travels (source : AwsSource) (audience : String) (w : World) :
    ∃ sent, Travels (metadataLegs source w) w sent (source.subjectToken audience w) := by
  rw [subject_token_run]
  refine travels_bind (travels_bind (open_session_travels source w) ?_) ?_
  · intro session w' _ _ _
    exact travels_finish (region_for_travels source w.environment session w')
      fun region after => travels_pure (session, region) after
  · intro (session, region) w' sent _ travelled
    have complete := travelled.completes _ rfl
    have role : answerTo w' 0 = answerTo w (sessionLegs source w.environment ++
        regionLegs source w.environment).length := by
      rw [answerTo_later travelled.answers, complete.whole, Nat.add_zero]
    rw [← role]
    exact travels_finish (credentials_for_travels source w.environment session w')
      fun credentials after => travels_ofExcept _ after

end Metadata

def sourceLegs (config : Configuration) (w : World) : List Leg :=
  match config.source with
  | .url source => [textLeg .get source.url source.format.extract]
  | .aws source => metadataLegs source w
  | .file _ | .executable _ | .programmatic => []

def exchangeLeg (config : Configuration) : Leg :=
  ⟨.post, config.tokenUrl, fun body => (Exchange.Grant.read? body).isSome⟩

/-- The answer for an impersonated account has a token and a moment at which it expires. -/
def accountLeg (i : Impersonation) : Leg :=
  ⟨.post, i.url, fun body =>
    (Impersonation.readAnswer? body).any fun answer => (Rfc3339.parse? answer.2).isSome⟩

def plan (config : Configuration) (w : World) : List Leg :=
  sourceLegs config w ++ exchangeLeg config :: (config.impersonation.map accountLeg).toList

theorem extract_dull (format : TokenFormat) (content : String) (e : CredentialsError)
    (h : format.extract content = .error e) : Dull e := by
  unfold TokenFormat.extract at h
  rcases hc : format.candidate content with flaw | token <;>
    simp only [hc, bind, Except.bind] at h
  · cases h
    rcases format with _ | member
    · cases hc
    · simp only [TokenFormat.candidate, TokenFormat.memberText] at hc
      split at hc
      · cases hc
        exact dull_incident .json
      · split at hc
        · cases hc
        · cases hc
          exact dull_fault _
  · split at h
    · cases h
      exact dull_fault .emptySubjectToken
    · cases h

theorem url_asked (source : UrlSource) (w : World) :
    Asked (textLeg .get source.url source.format.extract)
      (fun r => .refused .subjectToken r.status r.body) w (source.subjectToken w) := by
  apply asked_of (built_of _ w)
  intro response w'
  refine ⟨_, ofExcept_run _ w', ?_⟩
  have same : source.read response =
      AwsSource.readText .subjectToken response >>= source.format.extract := by
    unfold UrlSource.read AwsSource.readText
    split
    · split <;> simp_all [bind, Except.bind]
    · rfl
  rw [same]
  exact concludes_text .get source.url (extract_dull source.format)

theorem log_requests (event : Event) (w : World) (other : ∀ r, event ≠ .request r) :
    (w.log event).requests = w.requests := by
  cases event with
  | request r => exact absurd rfl (other r)
  | command _ => simp [World.log, World.requests]
  | provider => simp [World.log, World.requests]

theorem file_travels (source : FileSource) (w : World) :
    ∃ sent, Travels [] w sent (source.subjectToken w) := by
  refine travels_finish ⟨[], ?_⟩ fun content after => travels_ofExcept _ after
  unfold World.readText
  rw [get_bind]
  rcases (w.files.read? source.file).bind Utf8.text? with _ | content <;>
    exact travels_still rfl rfl rfl

theorem file_gives {path token : String} {w : World} (trimmed : Blank.trim token = token)
    (proper : Blank.allBlank token = false)
    (kept : w.files.read? path = some (Utf8.ofString token)) :
    FileSource.subjectToken ⟨path, .text⟩ w = (.ok token, w) := by
  have read : World.readText path w = (.ok token, w) := by
    unfold World.readText
    rw [get_bind, kept, Option.bind_some, Utf8.text_ofString]
    rfl
  have taken : TokenFormat.text.extract token = .ok token := by
    simp [TokenFormat.extract, TokenFormat.candidate, trimmed, proper, bind, Except.bind]
  unfold FileSource.subjectToken
  rw [bind_ok read, ofExcept_run, taken]
  rfl

theorem executable_travels (source : ExecutableSource) (context : ExecutableSource.Context)
    (w : World) : ∃ sent, Travels [] w sent (source.subjectToken context w) := by
  unfold ExecutableSource.subjectToken
  rw [get_bind]
  split
  · exact ⟨[], travels_unsent _ [] w⟩
  · rcases source.kept? w with _ | token
    · refine travels_finish ⟨[], ?_⟩ fun completion after => travels_ofExcept _ after
      exact travels_still (log_requests _ w nofun) rfl rfl
    · exact ⟨[], travels_pure token w⟩

theorem provider_travels (w : World) : ∃ sent, Travels [] w sent (World.callProvider w) := by
  have called := log_requests .provider w nofun
  refine ⟨[], ?_⟩
  unfold World.callProvider
  rw [get_bind]
  rcases (w.log .provider).provider with _ | ⟨token | failure, rest⟩ <;>
    exact travels_still called rfl rfl

/-- No request of the source is out of its plan, whatever the source. -/
theorem source_travels (config : Configuration) (w : World) :
    ∃ sent, Travels (sourceLegs config w) w sent (config.sourceToken w) := by
  unfold sourceLegs Configuration.sourceToken
  rcases config.source with source | source | source | source | _
  · exact file_travels source w
  · exact travels_asked (url_asked source w)
  · exact executable_travels source config.executableContext w
  · exact metadata_travels source config.audience w
  · exact provider_travels w

end WorkloadIdentity.Journey
