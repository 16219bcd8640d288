import WorkloadIdentity.Proofs.Retrieval.Plan

/-! Errors of the credential sources. Whatever source it is, an attempt for a subject token
that fails has an error, and no error of an OAuth endpoint stands behind it. -/

set_option autoImplicit false

namespace WorkloadIdentity.Journey

/-- Errors that no OAuth endpoint reported. -/
def Plain {α : Type} (x : Except CredentialsError α) : Prop :=
  ∀ e, x = .error e → e.oauth? = none

def Local {α : Type} (m : Attempt α) : Prop :=
  ∀ w f, (m w).1 = .error f → ∃ e, f = .error e ∧ e.oauth? = none

section Laws

variable {α β : Type}

theorem plain_ok (a : α) : Plain (.ok a : Except CredentialsError α) := nofun

theorem plain_error {e : CredentialsError} (h : e.oauth? = none) :
    Plain (.error e : Except CredentialsError α) := by
  intro _ he
  cases he
  exact h

theorem plain_bind {x : Except CredentialsError α} {f : α → Except CredentialsError β}
    (first : Plain x) (second : ∀ a, Plain (f a)) : Plain (x >>= f) := by
  rcases x with e | a
  · exact plain_error (first e rfl)
  · exact second a

theorem local_ofExcept {x : Except CredentialsError α} (h : Plain x) :
    Local (Attempt.ofExcept x) := by
  intro w f hf
  rw [ofExcept_run] at hf
  rcases x with e | a
  · cases hf
    exact ⟨e, rfl, h e rfl⟩
  · cases hf

theorem local_pure (a : α) : Local (pure a : Attempt α) := local_ofExcept (plain_ok a)

theorem local_fail {e : CredentialsError} (h : e.oauth? = none) :
    Local (Attempt.fail e : Attempt α) := local_ofExcept (plain_error h)

theorem local_orIncident (incident : Incident) (x : Option α) :
    Local (Attempt.orIncident incident x) := by
  rcases x with _ | a
  · exact local_fail rfl
  · exact local_pure a

theorem local_bind {m : Attempt α} {f : α → Attempt β} (first : Local m)
    (second : ∀ a, Local (f a)) : Local (m >>= f) := by
  intro w failure hf
  rw [bind_run] at hf
  rcases hm : m w with ⟨e | a, w'⟩ <;> simp only [hm] at hf
  · cases hf
    exact first w _ (by rw [hm])
  · exact second a w' failure hf

theorem local_get : Local (get : Attempt World) := by
  intro w f hf
  cases hf

theorem local_set (w : World) : Local (set w : Attempt PUnit) := by
  intro w' f hf
  cases hf

theorem local_run (invocation : Invocation) (allowed : Nat) :
    Local (World.run invocation allowed) :=
  local_bind local_get fun _ => local_bind (local_set _) fun _ => local_pure _

theorem local_send (request : Request) : Local (World.send request) := by
  intro w f hf
  rw [send_run] at hf
  rcases hn : w.network with _ | _
  · rcases met : w.answer request with ⟨response | ⟨transient, text⟩, w'⟩ <;>
      simp only [hn, met] at hf
    · cases hf
    · cases hf
      exact ⟨_, rfl, rfl⟩
  · simp only [hn] at hf
    cases hf
    exact ⟨_, rfl, rfl⟩

end Laws

theorem extract_plain (format : TokenFormat) (content : String) :
    Plain (format.extract content) :=
  fun e he => (extract_dull format content e he).2.2

theorem url_local (source : UrlSource) : Local source.subjectToken := by
  apply local_bind (local_orIncident _ _)
  intro request
  refine local_bind (local_send request) fun response => local_ofExcept ?_
  unfold UrlSource.read
  split
  · split
    · exact plain_error rfl
    · exact extract_plain _ _
  · exact plain_error rfl

theorem file_local (source : FileSource) : Local source.subjectToken := by
  refine local_bind (local_bind local_get fun w => local_orIncident _ _) fun content => ?_
  exact local_ofExcept (extract_plain _ _)

theorem flawed_plain {α : Type} (flaw : AnswerFlaw) :
    Plain (ExecutableAnswer.flawed flaw : Except CredentialsError α) := plain_error rfl

theorem version_plain (answer : ExecutableAnswer) : Plain answer.checkVersion := by
  unfold ExecutableAnswer.checkVersion
  split
  · split
    · exact plain_ok ()
    · exact flawed_plain _
  · exact flawed_plain _

theorem success_plain (answer : ExecutableAnswer) : Plain answer.checkSuccess := by
  unfold ExecutableAnswer.checkSuccess
  split
  · exact plain_ok ()
  · split <;> exact flawed_plain _
  · exact flawed_plain _

theorem expiration_plain (answer : ExecutableAnswer) (seconds : Int) (kept : Bool) :
    Plain (answer.checkExpiration seconds kept) := by
  unfold ExecutableAnswer.checkExpiration
  split
  · split
    · exact plain_error rfl
    · exact plain_ok ()
  · split
    · exact flawed_plain _
    · exact plain_ok ()

theorem or_flawed_plain (flaw : AnswerFlaw) (token : Option String) :
    Plain (ExecutableAnswer.orFlawed flaw token) := by
  rcases token with _ | token
  · exact flawed_plain flaw
  · exact plain_ok token

theorem token_plain (answer : ExecutableAnswer) : Plain answer.token := by
  unfold ExecutableAnswer.token
  split
  · exact flawed_plain _
  · split
    · exact or_flawed_plain _ _
    · split
      · exact or_flawed_plain _ _
      · exact flawed_plain _

theorem accept_plain (text : String) (seconds : Int) (kept : Bool) :
    Plain (ExecutableAnswer.accept text seconds kept) := by
  unfold ExecutableAnswer.accept
  split
  · exact plain_error rfl
  · refine plain_bind (version_plain _) fun _ => plain_bind (success_plain _) fun _ =>
      plain_bind (expiration_plain _ seconds kept) fun _ => plain_bind (token_plain _) fun token => ?_
    split
    · exact flawed_plain _
    · exact plain_ok token

theorem completion_plain (now : Calendar.Nanoseconds) (completion : Completion) :
    Plain (ExecutableSource.ofCompletion now completion) := by
  unfold ExecutableSource.ofCompletion
  split
  · exact plain_error rfl
  · exact plain_error rfl
  · split
    · exact plain_error rfl
    · exact accept_plain _ _ _
  · exact plain_error rfl

theorem executable_local (source : ExecutableSource) (context : ExecutableSource.Context) :
    Local (source.subjectToken context) := by
  apply local_bind local_get
  intro w
  split
  · exact local_fail rfl
  · rcases source.kept? w with _ | token
    · exact local_bind (local_run _ _) fun completion =>
        local_bind local_get fun _ => local_ofExcept (completion_plain _ _)
    · exact local_pure token

theorem fetch_local (errand : Errand) (request : Option Request) :
    Local (AwsSource.fetch errand request) := by
  apply local_bind (local_orIncident _ _)
  intro request
  refine local_bind (local_send request) fun response => local_ofExcept ?_
  unfold AwsSource.readText
  split
  · split
    · exact plain_error rfl
    · exact plain_ok _
  · exact plain_error rfl

theorem session_local (source : AwsSource) (needed : Bool) : Local (source.openSession needed) := by
  unfold AwsSource.openSession
  split
  · split
    · exact local_bind (fetch_local _ _) fun token => local_pure _
    · exact local_pure none
  · exact local_pure none

theorem region_local (source : AwsSource) (env : Environment) (session : Option String) :
    Local (regionFor source env session) := by
  unfold regionFor AwsSource.fetchRegion
  split
  · exact local_pure _
  · split
    · exact local_fail rfl
    · refine local_bind (fetch_local _ _) fun zone => local_ofExcept ?_
      exact fun e he => (region_dull zone e he).2.2

theorem credentials_local (source : AwsSource) (env : Environment) (session : Option String) :
    Local (credentialsFor source env session) := by
  unfold credentialsFor AwsSource.fetchCredentials
  split
  · exact local_pure _
  · split
    · exact local_fail rfl
    · apply local_bind (fetch_local _ _)
      intro answer
      dsimp only
      split
      · exact local_fail rfl
      · exact local_bind (fetch_local _ _) fun text => local_orIncident _ _

theorem signed_token_plain (source : AwsSource) (audience region : String)
    (credentials : AwsCredentials) (now : Calendar.Nanoseconds) :
    Plain (source.signedToken audience region credentials now) := by
  refine plain_bind ?_ fun signed => plain_ok _
  unfold Signature.sign
  split
  · exact plain_error rfl
  · split
    · exact plain_error rfl
    · dsimp only
      split
      · exact plain_error rfl
      · exact plain_ok _

theorem aws_local (source : AwsSource) (audience : String) :
    Local (source.subjectToken audience) := by
  intro w
  rw [subject_token_run]
  refine local_bind ?_ ?_ w
  · exact local_bind (session_local source _) fun session =>
      local_bind (region_local source _ session) fun region => local_pure _
  · exact fun (session, region) => local_bind (credentials_local source _ session)
      fun credentials => local_ofExcept (signed_token_plain source audience region credentials _)

theorem provider_local : Local World.callProvider := by
  apply local_bind local_get
  intro w
  dsimp only
  rcases (w.log .provider).provider with _ | ⟨answer, rest⟩
  · exact local_bind (local_set _) fun _ => local_fail rfl
  · apply local_bind (local_set _)
    intro _
    rcases answer with token | ⟨transient, text⟩
    · exact local_pure token
    · exact local_fail rfl

theorem source_local (config : Configuration) : Local config.sourceToken := by
  unfold Configuration.sourceToken
  rcases config.source with source | source | source | source | _
  · exact file_local source
  · exact url_local source
  · exact executable_local source config.executableContext
  · exact aws_local source config.audience
  · exact provider_local

end WorkloadIdentity.Journey
