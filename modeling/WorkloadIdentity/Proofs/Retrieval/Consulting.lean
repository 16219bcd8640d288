import WorkloadIdentity.Proofs.Retrieval.Order

/-! What leaves the credentials in one retrieval. The source is consulted first and once: a
provider is called, or a command is run unless that is forbidden or a kept token stands in for
it. All else that leaves is requests. -/

set_option autoImplicit false

namespace WorkloadIdentity.Journey

def Posts {α : Type} (m : Attempt α) : Prop :=
  ∀ w, ∃ sent : List Request, (m w).2.events = w.events ++ sent.map .request

section Laws

variable {α β : Type}

theorem posts_still {m : Attempt α} (h : ∀ w, (m w).2.events = w.events) : Posts m :=
  fun w => ⟨[], by simpa using h w⟩

theorem posts_ofExcept (x : Except CredentialsError α) : Posts (Attempt.ofExcept x) :=
  posts_still fun w => by rw [ofExcept_run]

theorem posts_pure (a : α) : Posts (pure a : Attempt α) := posts_still fun _ => rfl

theorem posts_fail (e : CredentialsError) : Posts (Attempt.fail e : Attempt α) :=
  posts_still fun _ => rfl

theorem posts_get : Posts (get : Attempt World) := posts_still fun _ => rfl

theorem posts_orIncident (incident : Incident) (x : Option α) :
    Posts (Attempt.orIncident incident x) := by
  cases x with
  | none => exact posts_fail _
  | some a => exact posts_pure a

theorem posts_bind {m : Attempt α} {f : α → Attempt β} (first : Posts m)
    (second : ∀ a, Posts (f a)) : Posts (m >>= f) := by
  intro w
  obtain ⟨sent, logged⟩ := first w
  rw [bind_run]
  rcases hm : m w with ⟨e | a, w'⟩ <;> rw [hm] at logged
  · exact ⟨sent, logged⟩
  · obtain ⟨more, onward⟩ := second a w'
    refine ⟨sent ++ more, ?_⟩
    rw [List.map_append, ← List.append_assoc, ← logged]
    exact onward

theorem answer_events (request : Request) (w : World) :
    (w.answer request).2.events = w.events ++ [.request request] := by
  unfold World.answer
  rcases h : w.answers with _ | ⟨answer, rest⟩ <;> simp only [World.log, h]

theorem posts_send (request : Request) : Posts (World.send request) := by
  intro w
  have logged := answer_events request w
  rw [send_run]
  rcases w.network with _ | _
  · rcases hm : w.answer request with ⟨_ | _, w'⟩ <;> rw [hm] at logged <;>
      exact ⟨[request], logged⟩
  · exact ⟨[], by simp⟩

end Laws

theorem posts_url (source : UrlSource) : Posts source.subjectToken :=
  posts_bind (posts_orIncident _ _) fun request =>
    posts_bind (posts_send request) fun _ => posts_ofExcept _

theorem posts_file (source : FileSource) : Posts source.subjectToken :=
  posts_bind (posts_bind posts_get fun _ => posts_orIncident _ _) fun _ => posts_ofExcept _

theorem posts_fetch (errand : Errand) (request : Option Request) :
    Posts (AwsSource.fetch errand request) :=
  posts_bind (posts_orIncident _ _) fun request =>
    posts_bind (posts_send request) fun _ => posts_ofExcept _

theorem posts_session (source : AwsSource) (needed : Bool) : Posts (source.openSession needed) := by
  unfold AwsSource.openSession
  split
  · split
    · exact posts_bind (posts_fetch _ _) fun token => posts_pure _
    · exact posts_pure none
  · exact posts_pure none

theorem posts_region (source : AwsSource) (env : Environment) (session : Option String) :
    Posts (regionFor source env session) := by
  unfold regionFor AwsSource.fetchRegion
  split
  · exact posts_pure _
  · split
    · exact posts_fail _
    · exact posts_bind (posts_fetch _ _) fun zone => posts_ofExcept _

theorem posts_credentials (source : AwsSource) (env : Environment) (session : Option String) :
    Posts (credentialsFor source env session) := by
  unfold credentialsFor AwsSource.fetchCredentials
  split
  · exact posts_pure _
  · split
    · exact posts_fail _
    · refine posts_bind (posts_fetch _ _) fun answer => ?_
      dsimp only
      split
      · exact posts_fail _
      · exact posts_bind (posts_fetch _ _) fun text => posts_orIncident _ _

theorem posts_aws (source : AwsSource) (audience : String) :
    Posts (source.subjectToken audience) := by
  intro w
  rw [subject_token_run]
  refine posts_bind (posts_bind (posts_session source _) fun session => ?_) ?_ w
  · exact posts_bind (posts_region source _ session) fun region => posts_pure _
  · exact fun (session, region) =>
      posts_bind (posts_credentials source _ session) fun credentials => posts_ofExcept _

theorem posts_exchange (config : Configuration) (subjectToken : String) :
    Posts (Exchange.exchange config subjectToken) := by
  refine posts_bind (posts_orIncident _ _) fun request => posts_bind (posts_send request)
    fun response => posts_bind (posts_ofExcept _) fun grant => posts_bind posts_get fun world => ?_
  cases Exchange.tokenOf grant world.ticks <;> exact posts_still fun _ => rfl

theorem posts_account (i : Impersonation) (scopes : List String) (token : Token) :
    Posts (i.exchange scopes token) :=
  posts_bind (posts_ofExcept _) fun request => posts_bind (posts_send request) fun _ =>
    posts_bind posts_get fun _ => posts_ofExcept _

theorem posts_exchanges (config : Configuration) (subjectToken : String) :
    Posts (Exchange.exchange config subjectToken >>= fun token =>
      match config.impersonation with
      | none => pure token
      | some impersonation => impersonation.exchange config.scopes token) := by
  refine posts_bind (posts_exchange config subjectToken) fun token => ?_
  rcases config.impersonation with _ | i
  · exact posts_pure token
  · exact posts_account i config.scopes token

/-- How a retrieval in this world consults its source, requests apart. -/
def consultation (config : Configuration) (w : World) : List Event :=
  match config.source with
  | .programmatic => [.provider]
  | .executable source =>
    if ExecutableSource.isAllowed w.environment && (source.kept? w).isNone then
      [.command (source.invocation config.executableContext w.environment)]
    else []
  | .file _ | .url _ | .aws _ => []

theorem executable_events (source : ExecutableSource) (context : ExecutableSource.Context)
    (w : World) :
    (source.subjectToken context w).2.events = w.events ++
      if ExecutableSource.isAllowed w.environment && (source.kept? w).isNone then
        [.command (source.invocation context w.environment)]
      else [] := by
  unfold ExecutableSource.subjectToken
  rw [get_bind]
  rcases ExecutableSource.isAllowed w.environment with _ | _
  · exact (List.append_nil _).symm
  · rcases source.kept? w with _ | token
    · show (World.events (((World.run _ _ >>= _) : Attempt String) w).2) = _
      rw [bind_ok (run_run _ _ w), get_bind, ofExcept_run]
      rfl
    · exact (List.append_nil _).symm

theorem provider_events (w : World) :
    (World.callProvider w).2.events = w.events ++ [.provider] := by
  unfold World.callProvider
  rw [get_bind]
  rcases (w.log .provider).provider with _ | ⟨token | failure, rest⟩ <;> rfl

theorem source_events (config : Configuration) (w : World) :
    ∃ sent : List Request, (config.sourceToken w).2.events =
      w.events ++ consultation config w ++ sent.map .request := by
  unfold Configuration.sourceToken consultation
  rcases config.source with source | source | source | source | _
  · simpa using posts_file source w
  · simpa using posts_url source w
  · exact ⟨[], by simpa using executable_events source config.executableContext w⟩
  · simpa using posts_aws source config.audience w
  · exact ⟨[], by simpa using provider_events w⟩

/-- A retrieval consults its source as the world asks for, and then only sends requests. -/
theorem retrieve_events (config : Configuration) (w : World) :
    ∃ sent : List Request, (config.retrieve w).2.events =
      w.events ++ consultation config w ++ sent.map .request := by
  obtain ⟨sent, logged⟩ := source_events config w
  rcases hs : config.sourceToken w with ⟨f | subjectToken, w'⟩ <;> rw [hs] at logged
  · obtain ⟨e, rfl, -⟩ := source_local config w f (by rw [hs])
    rw [source_fails hs]
    exact ⟨sent, logged⟩
  · obtain ⟨more, onward⟩ := posts_exchanges config subjectToken w'
    refine ⟨sent ++ more, ?_⟩
    rw [source_gives hs, List.map_append, ← List.append_assoc, ← logged]
    exact onward

end WorkloadIdentity.Journey
