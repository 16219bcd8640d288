import WorkloadIdentity.Credentials.Basic
import WorkloadIdentity.Proofs.Retrieval.SourceErrors

/-! A retrieval keeps to its plan: source, exchange, impersonation. It sends each request of
the plan at most once, goes on only from answers that it accepts, and its error tells the
stage that failed. -/

set_option autoImplicit false

namespace WorkloadIdentity.Journey

def turnedDown (r : Response) : CredentialsError :=
  .rejected (OAuthError.ofResponse r.status r.body)

def grantFor (config : Configuration) (subjectToken : String) : Attempt Exchange.Grant := do
  let request ← Attempt.orIncident .request (Exchange.request? config subjectToken)
  let response ← World.send request
  Attempt.ofExcept (Exchange.read response)

theorem grant_concludes (config : Configuration) (response : Response) :
    Concludes (exchangeLeg config) turnedDown response
      ((Exchange.read response).mapError Failure.error) := by
  unfold Exchange.read
  by_cases success : Status.isSuccess response.status = true
  · rw [if_pos success]
    rcases hg : Exchange.Grant.read? response.body with _ | grant
    · exact .unread success (by simp [exchangeLeg, hg]) (dull_incident .json)
    · exact .read success (by simp [exchangeLeg, hg])
  · rw [if_neg success]
    exact .rejected (by simpa using success)

theorem grant_asked (config : Configuration) (subjectToken : String) (w : World) :
    Asked (exchangeLeg config) turnedDown w (grantFor config subjectToken w) := by
  apply asked_of (built_of _ w)
  intro response w'
  exact ⟨_, ofExcept_run _ w', grant_concludes config response⟩

theorem exchange_run (config : Configuration) (subjectToken : String) (w : World) :
    Exchange.exchange config subjectToken w = match grantFor config subjectToken w with
      | (.ok grant, w') => (Exchange.tokenOf grant w'.ticks, w')
      | (.error f, w') => (.error f, w') := by
  have parts : Exchange.exchange config subjectToken =
      grantFor config subjectToken >>= fun grant => get >>= fun world =>
        Exchange.exchange.liftExcept (Exchange.tokenOf grant world.ticks) := by
    simp only [Exchange.exchange, grantFor, bind_assoc]
  rw [parts, bind_run]
  rcases grantFor config subjectToken w with ⟨f | grant, w'⟩
  · rfl
  · dsimp only
    rw [get_bind]
    rcases Exchange.tokenOf grant w'.ticks with f | token <;> rfl

theorem account_built (i : Impersonation) (scopes : List String) (token : Token) (w : World) :
    (∃ request, Attempt.ofExcept (i.request scopes token) w = (.ok request, w) ∧
      (accountLeg i).Names request) ∨
    ∃ e, Attempt.ofExcept (i.request scopes token) w = (.error (.error e), w) ∧ Dull e := by
  unfold Impersonation.request
  rcases hb : i.bareRequest? scopes with _ | bare
  · exact .inr ⟨_, rfl, dull_incident .request⟩
  · have named : (accountLeg i).Names bare := make_names hb _
    rcases hh : token.headers none with e | headers
    · refine .inr ⟨e, rfl, ?_⟩
      unfold Token.headers at hh
      split at hh
      · cases hh
      · cases hh
        exact dull_incident .headerValue
    · exact .inl ⟨_, rfl, named.1, named.2⟩

theorem account_concludes (i : Impersonation) (response : Response)
    (now ticks : Calendar.Nanoseconds) :
    Concludes (accountLeg i) turnedDown response
      ((Impersonation.read response now ticks).mapError Failure.error) := by
  unfold Impersonation.read
  by_cases success : Status.isSuccess response.status = true
  · rw [if_pos success]
    rcases ha : Impersonation.readAnswer? response.body with _ | ⟨value, expireTime⟩
    · exact .unread success (by simp [accountLeg, ha]) (dull_incident .json)
    · rcases hm : Rfc3339.parse? expireTime with _ | moment
      · simp only [hm]
        exact .unread success (by simp [accountLeg, ha, hm]) (dull_incident .timestamp)
      · simp only [hm]
        exact .read success (by simp [accountLeg, ha, hm])
  · rw [if_neg success]
    exact .rejected (by simpa using success)

theorem account_asked (i : Impersonation) (scopes : List String) (token : Token) (w : World) :
    Asked (accountLeg i) turnedDown w (i.exchange scopes token w) := by
  apply asked_of (account_built i scopes token w)
  intro response w'
  rw [get_bind]
  exact ⟨_, ofExcept_run _ w', account_concludes i response w'.now w'.ticks⟩

/-- A failure at one leg of the plan that is not the source's: all legs before it were
completed, and nothing was sent after it. -/
def StumblesAfterSource (config : Configuration) (w : World) (sent : List Request)
    (e : CredentialsError) : Prop :=
  ∃ done leg ahead before last, plan config w = done ++ leg :: ahead ∧
    sourceLegs config w <+: done ∧ sent = before ++ last ∧ Completes done w before ∧
    Stumbles leg turnedDown w.network (answerTo w done.length) last e

/-- What the result of a retrieval says about the requests that were sent. -/
def Accounts (config : Configuration) (w : World) (sent : List Request) :
    Except Failure Token → Prop
  | .ok _ => Completes (plan config w) w sent
  | .error (.error e) =>
    (e.stage = .protocol ↔ e.oauth?.isSome = true) ∧
    if e.stage = .subjectToken then
      Follows (sourceLegs config w) w sent ∧
        ∃ e₀, (config.sourceToken w).1 = .error (.error e₀) ∧ e = e₀.inSubjectToken
    else
      StumblesAfterSource config w sent e ∧ ∃ token, (config.sourceToken w).1 = .ok token
  | .error .clockOverflow => Completes (sourceLegs config w ++ [exchangeLeg config]) w sent

section Whole

variable {config : Configuration} {w : World}

theorem next_leg {α β : Type} {done ahead : List Leg} {leg : Leg} {before : List Request}
    {a : α} {w' : World} {run : Except Failure β × World}
    (split : plan config w = done ++ leg :: ahead) (after : sourceLegs config w <+: done)
    (travelled : Travels done w before ((.ok a, w') : Except Failure α × World))
    (asked : Asked leg turnedDown w' run) :
    ∃ sent, Travels (done ++ [leg]) w sent run ∧
      ∀ f, run.1 = .error f → ∃ e, f = .error e ∧ StumblesAfterSource config w sent e := by
  have complete := travelled.completes a rfl
  obtain ⟨last, onward, stumbles⟩ := asked_travels asked
  refine ⟨before ++ last, travels_append travelled onward, ?_⟩
  intro f hf
  obtain ⟨e, rfl, stumble⟩ := stumbles f hf
  rw [answerTo_later travelled.answers, complete.whole, travelled.network] at stumble
  exact ⟨e, rfl, done, leg, ahead, before, last, split, after, rfl, complete, stumble⟩

theorem token_of_error {grant : Exchange.Grant} {ticks : Calendar.Nanoseconds} {f : Failure}
    (h : Exchange.tokenOf grant ticks = .error f) : f = .clockOverflow := by
  unfold Exchange.tokenOf at h
  split at h
  · cases h
  · split at h
    · cases h
    · cases h
      rfl

theorem plan_direct (w : World) (h : config.impersonation = none) :
    plan config w = sourceLegs config w ++ [exchangeLeg config] := by
  rw [plan, h]
  rfl

theorem plan_impersonated {i : Impersonation} (w : World) (h : config.impersonation = some i) :
    plan config w = (sourceLegs config w ++ [exchangeLeg config]) ++ [accountLeg i] := by
  rw [plan, h, List.append_assoc]
  rfl

theorem source_fails {e : CredentialsError} {w' : World}
    (h : config.sourceToken w = (.error (.error e), w')) :
    config.retrieve w = (.error (.error e.inSubjectToken), w') := by
  unfold Configuration.retrieve
  refine bind_error ?_ _
  unfold Configuration.subjectToken Attempt.inSubjectToken
  rw [h]

theorem source_gives {subjectToken : String} {w' : World}
    (h : config.sourceToken w = (.ok subjectToken, w')) :
    config.retrieve w = (Exchange.exchange config subjectToken >>= fun token =>
      match config.impersonation with
      | none => pure token
      | some impersonation => impersonation.exchange config.scopes token) w' := by
  unfold Configuration.retrieve
  refine bind_ok ?_ _
  unfold Configuration.subjectToken Attempt.inSubjectToken
  rw [h]

theorem accounts_source {sent : List Request} {e : CredentialsError}
    (failed : (config.sourceToken w).1 = .error (.error e)) (plain : e.oauth? = none)
    (followed : Follows (sourceLegs config w) w sent) :
    Accounts config w sent (.error (.error e.inSubjectToken)) := by
  have stage : e.inSubjectToken.stage = .subjectToken := rfl
  have same : e.inSubjectToken.oauth? = none := plain
  constructor
  · rw [stage, same]
    simp
  · rw [if_pos stage]
    exact ⟨followed, e, failed, rfl⟩

theorem stumbles_stage {leg : Leg} {network : Network} {answer : Answer} {last : List Request}
    {e : CredentialsError} (h : Stumbles leg turnedDown network answer last e) :
    e.stage ≠ .subjectToken ∧ (e.stage = .protocol ↔ e.oauth?.isSome = true) := by
  cases h with
  | unbuilt dull => simp [dull.1, dull.2.2]
  | refused _ => exact ⟨by simp, by simp [CredentialsError.oauth?]⟩
  | unanswered _ => exact ⟨by simp, by simp [CredentialsError.oauth?]⟩
  | rejected _ _ => exact ⟨by simp [turnedDown, CredentialsError.rejected], by
      simp [turnedDown, CredentialsError.rejected, CredentialsError.oauth?]⟩
  | unread _ _ _ dull => simp [dull.1, dull.2.2]

theorem accounts_exchange {sent : List Request} {e : CredentialsError}
    (sourced : ∃ token, (config.sourceToken w).1 = .ok token)
    (h : StumblesAfterSource config w sent e) : Accounts config w sent (.error (.error e)) := by
  obtain ⟨_, _, _, _, _, _, _, _, _, stumbles⟩ := id h
  obtain ⟨other, oauth⟩ := stumbles_stage stumbles
  refine ⟨oauth, ?_⟩
  rw [if_neg other]
  exact ⟨h, sourced⟩

theorem plan_starts (config : Configuration) (w : World) :
    ∃ ahead, plan config w = (sourceLegs config w ++ [exchangeLeg config]) ++ ahead := by
  refine ⟨(config.impersonation.map accountLeg).toList, ?_⟩
  rw [plan, List.append_assoc]
  rfl

theorem retrieve_accounts (config : Configuration) (w : World) :
    ∃ sent, (config.retrieve w).2.requests = w.requests ++ sent ∧
      Follows (plan config w) w sent ∧ Accounts config w sent (config.retrieve w).1 := by
  obtain ⟨sent, travelled⟩ := source_travels config w
  rcases hs : config.sourceToken w with ⟨f | subjectToken, w'⟩ <;> rw [hs] at travelled
  · obtain ⟨e, rfl, plain⟩ := source_local config w f (by rw [hs])
    rw [source_fails hs]
    refine ⟨sent, travelled.requests, follows_extend travelled.follows _, ?_⟩
    exact accounts_source (by rw [hs]) plain travelled.follows
  have sourced : ∃ token, (config.sourceToken w).1 = .ok token := ⟨_, by rw [hs]⟩
  obtain ⟨ahead, starts⟩ := plan_starts config w
  rw [source_gives hs, bind_run, exchange_run]
  obtain ⟨posted, onward, stumbles⟩ := next_leg rfl (List.prefix_refl _) travelled
    (grant_asked config subjectToken w')
  have followed : Follows (plan config w) w posted := by
    rw [starts]
    exact follows_extend onward.follows ahead
  rcases hg : grantFor config subjectToken w' with ⟨f | grant, w''⟩ <;> rw [hg] at onward stumbles
  · obtain ⟨e, rfl, stumble⟩ := stumbles f rfl
    exact ⟨posted, onward.requests, followed, accounts_exchange sourced stumble⟩
  rcases ht : Exchange.tokenOf grant w''.ticks with f | token <;> simp only [ht]
  · obtain rfl := token_of_error ht
    exact ⟨posted, onward.requests, followed, onward.completes grant rfl⟩
  rcases hi : config.impersonation with _ | i <;> simp only
  · refine ⟨posted, onward.requests, followed, ?_⟩
    show Completes (plan config w) w posted
    rw [plan_direct w hi]
    exact onward.completes grant rfl
  · have whole := plan_impersonated w hi
    obtain ⟨all, arrived, stumbles⟩ := next_leg whole (List.prefix_append _ _) onward
      (account_asked i config.scopes token w'')
    rw [← whole] at arrived
    refine ⟨all, arrived.requests, arrived.follows, ?_⟩
    rcases hr : i.exchange config.scopes token w'' with ⟨f | final, _⟩ <;>
      rw [hr] at arrived stumbles
    · obtain ⟨e, rfl, stumble⟩ := stumbles f rfl
      exact accounts_exchange sourced stumble
    · exact arrived.completes final rfl

end Whole

/-- A call that finds no valid token and is alone never shares: no retrieval ends between its
look and its turn. -/
theorem call_retrieves {c : Credentials} {call : Call}
    (stale : c.look call = .stale c.cache.generation) :
    c.call call = (c.render call c.retrieve.1, c.retrieve.2) := by
  unfold Credentials.call
  rw [stale]
  unfold Credentials.proceed Credentials.refreshAfter Credentials.retrieve
  simp only [Cache.shared?, if_true]
  rcases c.config.retrieve c.world with ⟨(e | _) | token, w⟩ <;> rfl

theorem refresh_retrieves (c : Credentials) :
    c.call .refresh = (c.render .refresh c.retrieve.1, c.retrieve.2) :=
  call_retrieves rfl

end WorkloadIdentity.Journey
