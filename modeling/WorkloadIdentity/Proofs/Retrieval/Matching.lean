import WorkloadIdentity.Proofs.Retrieval.Order

/-!
# Attempts side by side

The log of events is written and never read. Two attempts match if they end alike in worlds that
differ in their logs only, and what they write there is related event by event. An attempt that
matches itself writes events that are related to themselves: this says what may leave it.
-/

set_option autoImplicit false

namespace WorkloadIdentity.Matching

open Journey (bind_ok bind_error get_bind ofExcept_run send_run answerTo
  subject_token_run regionFor credentialsFor)

def logged (w : World) (log : List Event) : World := { w with events := log }

/-- The same result and the same world, but for related events at the end of the log. -/
def Matches {α : Type} (R : Event → Event → Prop) (m m' : Attempt α) : Prop :=
  ∀ w : World, ∃ result after written written', List.Forall₂ R written written' ∧
    ∀ log, m (logged w log) = (result, logged after (log ++ written)) ∧
      m' (logged w log) = (result, logged after (log ++ written'))

def Gives {α : Type} (m : Attempt α) (a : α) : Prop := ∃ w w', m w = (.ok a, w')

section Laws

variable {α β : Type} {R : Event → Event → Prop}

theorem matches_ofExcept (x : Except CredentialsError α) :
    Matches R (Attempt.ofExcept x) (Attempt.ofExcept x) := by
  intro w
  refine ⟨x.mapError Failure.error, w, [], [], .nil, fun log => ?_⟩
  rw [ofExcept_run, List.append_nil]
  exact ⟨rfl, rfl⟩

theorem matches_pure (a : α) : Matches R (pure a : Attempt α) (pure a) := matches_ofExcept (.ok a)

theorem matches_fail (e : CredentialsError) :
    Matches R (Attempt.fail e : Attempt α) (Attempt.fail e) := matches_ofExcept (.error e)

theorem matches_orIncident (incident : Incident) (x : Option α) :
    Matches R (Attempt.orIncident incident x) (Attempt.orIncident incident x) := by
  cases x with
  | none => exact matches_fail _
  | some a => exact matches_pure a

theorem matches_bind {m m' : Attempt α} {f f' : α → Attempt β} (first : Matches R m m')
    (second : ∀ a, Gives m a → Matches R (f a) (f' a)) : Matches R (m >>= f) (m' >>= f') := by
  intro w
  obtain ⟨result, after, written, written', related, ran⟩ := first w
  rcases result with failure | a
  · refine ⟨.error failure, after, written, written', related, fun log => ?_⟩
    exact ⟨bind_error (ran log).1 f, bind_error (ran log).2 f'⟩
  · have given : Gives m a := ⟨_, _, (ran []).1⟩
    obtain ⟨result, last, more, more', onward, went⟩ := second a given after
    refine ⟨result, last, written ++ more, written' ++ more', List.rel_append related onward,
      fun log => ?_⟩
    rw [bind_ok (ran log).1, bind_ok (ran log).2, ← List.append_assoc, ← List.append_assoc]
    exact ⟨(went (log ++ written)).1, (went (log ++ written')).2⟩

theorem matches_get {f f' : World → Attempt α} (blind : ∀ w log, f (logged w log) = f w)
    (blind' : ∀ w log, f' (logged w log) = f' w) (h : ∀ w, Matches R (f w) (f' w)) :
    Matches R ((get : Attempt World) >>= f) ((get : Attempt World) >>= f') := by
  intro w
  obtain ⟨result, after, written, written', related, ran⟩ := h w w
  refine ⟨result, after, written, written', related, fun log => ?_⟩
  rw [get_bind, get_bind, blind, blind']
  exact ran log

theorem matches_built {γ : Type} {S : γ → γ → Prop} {f f' : γ → Attempt α} {x x' : Option γ}
    (incident : Incident) (built : Option.Rel S x x')
    (onward : ∀ a a', S a a' → Matches R (f a) (f' a')) :
    Matches R (Attempt.orIncident incident x >>= f) (Attempt.orIncident incident x' >>= f') := by
  cases built with
  | none => exact matches_bind (matches_fail _) fun _ ⟨_, _, h⟩ => nomatch h
  | some related => exact onward _ _ related

theorem gives_bind {m : Attempt α} {f : α → Attempt β} {b : β} (h : Gives (m >>= f) b) :
    ∃ a, Gives m a ∧ Gives (f a) b := by
  obtain ⟨w, w', ran⟩ := h
  rcases first : m w with ⟨failure | a, between⟩
  · rw [bind_error first] at ran
    cases ran
  · rw [bind_ok first] at ran
    exact ⟨a, ⟨w, between, first⟩, between, w', ran⟩

theorem gives_ofExcept {x : Except CredentialsError α} {a : α} (h : Gives (Attempt.ofExcept x) a) :
    x = .ok a := by
  obtain ⟨w, w', ran⟩ := h
  rw [ofExcept_run] at ran
  cases x <;> cases ran
  rfl

theorem logged_answer (request : Request) (w : World) (log : List Event) :
    (logged w log).answer request =
      (answerTo w 0,
        logged { w with answers := w.answers.drop 1 } (log ++ [.request request])) := by
  unfold World.answer answerTo
  rcases h : w.answers with _ | ⟨answer, rest⟩ <;> simp [World.log, logged, h]

theorem matches_send {r r' : Request} (h : R (.request r) (.request r')) :
    Matches R (World.send r) (World.send r') := by
  intro w
  have network : ∀ log, (logged w log).network = w.network := fun _ => rfl
  simp only [send_run, network, logged_answer]
  rcases w.network with _ | _
  · rcases answerTo w 0 with response | ⟨transient, text⟩
    · exact ⟨_, _, _, _, .cons h .nil, fun log => ⟨rfl, rfl⟩⟩
    · exact ⟨_, _, _, _, .cons h .nil, fun log => ⟨rfl, rfl⟩⟩
  · refine ⟨.error (.error ⟨.transport, false, .incident .client⟩), w, [], [], .nil, fun log => ?_⟩
    rw [List.append_nil]
    exact ⟨rfl, rfl⟩

/-- An attempt that writes one event, whatever comes of it. -/
theorem matches_logging {m : Attempt α} {event : Event} (h : R event event)
    (ran : ∀ w, ∃ result after, ∀ log, m (logged w log) = (result, logged after (log ++ [event]))) :
    Matches R m m := by
  intro w
  obtain ⟨result, after, same⟩ := ran w
  exact ⟨result, after, [event], [event], .cons h .nil, fun log => ⟨same log, same log⟩⟩

theorem matches_run {i : Invocation} (h : R (.command i) (.command i)) (allowed : Nat) :
    Matches R (World.run i allowed) (World.run i allowed) :=
  matches_logging h fun w =>
    ⟨.ok ((w.programs i w.files).1.within allowed),
      { w.pass ((w.programs i w.files).1.wait allowed) with files := (w.programs i w.files).2 },
      fun _ => rfl⟩

theorem matches_provider (h : R .provider .provider) :
    Matches R World.callProvider World.callProvider := by
  refine matches_logging h fun w => ?_
  unfold World.callProvider
  simp only [get_bind, World.log, logged]
  rcases w.provider with _ | ⟨token | ⟨transient, text⟩, rest⟩
  · exact ⟨.error (.error ⟨.other, false, .foreign World.exhausted⟩), { w with provider := [] },
      fun _ => rfl⟩
  · exact ⟨.ok token, { w with provider := rest }, fun _ => rfl⟩
  · exact ⟨.error (.error ⟨.other, transient, .foreign text⟩), { w with provider := rest },
      fun _ => rfl⟩

theorem matches_readText (path : String) :
    Matches R (World.readText path) (World.readText path) :=
  matches_get (fun _ _ => rfl) (fun _ _ => rfl) fun _ => matches_orIncident _ _

def attributed : Failure → Failure
  | .error e => .error e.inSubjectToken
  | .clockOverflow => .clockOverflow

theorem inSubjectToken_run (m : Attempt α) (w : World) :
    m.inSubjectToken w = ((m w).1.mapError attributed, (m w).2) := by
  unfold Attempt.inSubjectToken
  rcases m w with ⟨(e | _) | a, w'⟩ <;> rfl

theorem matches_inSubjectToken {m m' : Attempt α} (h : Matches R m m') :
    Matches R m.inSubjectToken m'.inSubjectToken := by
  intro w
  obtain ⟨result, after, written, written', related, ran⟩ := h w
  refine ⟨result.mapError attributed, after, written, written', related, fun log => ?_⟩
  rw [inSubjectToken_run, inSubjectToken_run, (ran log).1, (ran log).2]
  exact ⟨rfl, rfl⟩

end Laws

/-- What a source may write is related to itself: its requests post nothing. -/
structure Covers (R : Event → Event → Prop) : Prop where
  request {method : Method} {url : String} {headers : List RawHeader} {request : Request}
    (fetches : request.method ≠ .post) (made : Request.make? method url headers [] = some request) :
    R (.request request) (.request request)
  command (i : Invocation) : R (.command i) (.command i)
  provider : R .provider .provider

section Sources

variable {R : Event → Event → Prop}

theorem covered_request (covers : Covers R) (method : Method) (fetches : method ≠ .post)
    (url : String) (headers : List RawHeader) :
    Option.Rel (fun r r' => R (.request r) (.request r')) (Request.make? method url headers [])
      (Request.make? method url headers []) := by
  rcases made : Request.make? method url headers [] with _ | request
  · exact .none
  · have same : request.method = method := by
      simp only [Request.make?, Option.bind_eq_bind, Option.bind_eq_some_iff] at made
      obtain ⟨_, -, _, -, whole⟩ := made
      cases whole
      rfl
    exact .some (covers.request (same ▸ fetches) made)

theorem matches_file (source : FileSource) : Matches R source.subjectToken source.subjectToken :=
  matches_bind (matches_readText source.file) fun _ _ => matches_ofExcept _

theorem matches_url (covers : Covers R) (source : UrlSource) :
    Matches R source.subjectToken source.subjectToken :=
  matches_built _ (covered_request covers .get (by decide) _ _) fun _ _ related =>
    matches_bind (matches_send related) fun _ _ => matches_ofExcept _

theorem matches_executable (covers : Covers R) (source : ExecutableSource)
    (context : ExecutableSource.Context) :
    Matches R (source.subjectToken context) (source.subjectToken context) := by
  refine matches_get (fun _ _ => rfl) (fun _ _ => rfl) fun w => ?_
  split
  · exact matches_fail _
  · rcases source.kept? w with _ | token
    · exact matches_bind (matches_run (covers.command _) _) fun _ _ =>
        matches_get (fun _ _ => rfl) (fun _ _ => rfl) fun _ => matches_ofExcept _
    · exact matches_pure token

theorem matches_fetch (covers : Covers R) (errand : Errand) (method : Method)
    (fetches : method ≠ .post) (url : String) (headers : List RawHeader) :
    Matches R (AwsSource.fetch errand (Request.make? method url headers []))
      (AwsSource.fetch errand (Request.make? method url headers [])) :=
  matches_built _ (covered_request covers method fetches url headers) fun _ _ related =>
    matches_bind (matches_send related) fun _ _ => matches_ofExcept _

theorem matches_session (covers : Covers R) (source : AwsSource) (needed : Bool) :
    Matches R (source.openSession needed) (source.openSession needed) := by
  unfold AwsSource.openSession
  split
  · split
    · exact matches_bind (matches_fetch covers _ .put (by decide) _ _) fun _ _ => matches_pure _
    · exact matches_pure none
  · exact matches_pure none

theorem matches_region (covers : Covers R) (source : AwsSource) (env : Environment)
    (session : Option String) :
    Matches R (regionFor source env session) (regionFor source env session) := by
  unfold regionFor AwsSource.fetchRegion
  split
  · exact matches_pure _
  · split
    · exact matches_fail _
    · exact matches_bind (matches_fetch covers _ .get (by decide) _ _) fun _ _ => matches_ofExcept _

theorem matches_credentials (covers : Covers R) (source : AwsSource) (env : Environment)
    (session : Option String) :
    Matches R (credentialsFor source env session) (credentialsFor source env session) := by
  unfold credentialsFor AwsSource.fetchCredentials
  split
  · exact matches_pure _
  · split
    · exact matches_fail _
    · refine matches_bind (matches_fetch covers _ .get (by decide) _ _) fun answer _ => ?_
      dsimp only
      split
      · exact matches_fail _
      · exact matches_bind (matches_fetch covers _ .get (by decide) _ _)
          fun _ _ => matches_orIncident _ _

theorem matches_aws (covers : Covers R) (source : AwsSource) (audience : String) :
    Matches R (source.subjectToken audience) (source.subjectToken audience) := by
  intro w
  have clear : ∀ log, (logged w log).environment = w.environment ∧ (logged w log).now = w.now :=
    fun _ => ⟨rfl, rfl⟩
  simp only [subject_token_run, clear]
  refine matches_bind (matches_bind (matches_session covers source _) fun session _ => ?_) ?_ w
  · exact matches_bind (matches_region covers source _ session) fun _ _ => matches_pure _
  · exact fun (session, region) _ =>
      matches_bind (matches_credentials covers source _ session) fun _ _ => matches_ofExcept _

theorem matches_source (covers : Covers R) (config : Configuration) :
    Matches R config.sourceToken config.sourceToken := by
  unfold Configuration.sourceToken
  rcases config.source with source | source | source | source | _
  · exact matches_file source
  · exact matches_url covers source
  · exact matches_executable covers source config.executableContext
  · exact matches_aws covers source config.audience
  · exact matches_provider covers.provider

end Sources

section Exchanges

variable {R : Event → Event → Prop} {config config' : Configuration}

theorem matches_exchange {subjectToken : String}
    (built : Option.Rel (fun r r' => R (.request r) (.request r'))
      (Exchange.request? config subjectToken) (Exchange.request? config' subjectToken)) :
    Matches R (Exchange.exchange config subjectToken) (Exchange.exchange config' subjectToken) := by
  refine matches_built _ built fun _ _ related => matches_bind (matches_send related)
    fun response _ => matches_bind (matches_ofExcept _) fun grant _ => ?_
  refine matches_get (fun _ _ => rfl) (fun _ _ => rfl) fun w => ?_
  rcases Exchange.tokenOf grant w.ticks with failure | token
  · exact fun w => ⟨.error failure, w, [], [], .nil, fun log => by
      rw [List.append_nil]
      exact ⟨rfl, rfl⟩⟩
  · exact matches_pure token

theorem matches_account (i : Impersonation) (scopes : List String) (token : Token)
    (built : ∀ request, i.request scopes token = .ok request →
      R (.request request) (.request request)) :
    Matches R (i.exchange scopes token) (i.exchange scopes token) := by
  refine matches_bind (matches_ofExcept _) fun request given => ?_
  exact matches_bind (matches_send (built request (gives_ofExcept given))) fun _ _ =>
    matches_get (fun _ _ => rfl) (fun _ _ => rfl) fun _ => matches_ofExcept _

/-- Retrievals of configurations that impersonate the same account match if their sources and their
requests for a grant do. -/
theorem matches_retrieve (sources : Matches R config.sourceToken config'.sourceToken)
    (account : config.impersonation = config'.impersonation)
    (scopes : config.scopes = config'.scopes)
    (granting : ∀ subjectToken, Gives config.sourceToken subjectToken →
      Option.Rel (fun r r' => R (.request r) (.request r'))
        (Exchange.request? config subjectToken) (Exchange.request? config' subjectToken))
    (impersonating : ∀ (i : Impersonation) token request,
      i.request config.scopes token = .ok request →
      R (.request request) (.request request)) :
    Matches R config.retrieve config'.retrieve := by
  unfold Configuration.retrieve Configuration.subjectToken
  rw [← account, ← scopes]
  refine matches_bind (matches_inSubjectToken sources) fun subjectToken given => ?_
  have sourced : Gives config.sourceToken subjectToken := by
    obtain ⟨w, w', ran⟩ := given
    refine ⟨w, w', ?_⟩
    unfold Attempt.inSubjectToken at ran
    split at ran
    · cases ran
    · exact ran
  refine matches_bind (matches_exchange (granting subjectToken sourced)) fun token _ => ?_
  rcases config.impersonation with _ | i
  · exact matches_pure token
  · exact matches_account i config.scopes token (impersonating i token)

end Exchanges

def Only (P : Event → Prop) (e e' : Event) : Prop := e = e' ∧ P e

theorem built_only {P : Event → Prop} {x : Option Request}
    (h : ∀ request, x = some request → P (.request request)) :
    Option.Rel (fun r r' => Only P (.request r) (.request r')) x x := by
  cases x with
  | none => exact .none
  | some request => exact .some ⟨rfl, h request rfl⟩

/-- What holds of all that the sources write, and of the two requests of the exchanges, holds of all
that a retrieval writes. -/
theorem retrieve_only {P : Event → Prop} {config : Configuration} (covers : Covers (Only P))
    (granting : ∀ subjectToken, Gives config.sourceToken subjectToken → ∀ request,
      Exchange.request? config subjectToken = some request → P (.request request))
    (impersonating : ∀ (i : Impersonation) token request,
      i.request config.scopes token = .ok request → P (.request request)) :
    Matches (Only P) config.retrieve config.retrieve :=
  matches_retrieve (matches_source covers config) rfl rfl
    (fun subjectToken given => built_only (granting subjectToken given))
    fun i token request made => ⟨rfl, impersonating i token request made⟩

end WorkloadIdentity.Matching
