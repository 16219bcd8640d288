import WorkloadIdentity.Proofs.Retrieval.Journey

/-! One request and what it comes to. Building the request may fail, the network may refuse
it or lose it, the answer may report a failure, and its body may be of no use. -/

set_option autoImplicit false

namespace WorkloadIdentity.Journey

/-- An error found by the credentials themselves: no other attempt will help. -/
def Dull (e : CredentialsError) : Prop :=
  e.stage = .other ∧ e.transient = false ∧ e.oauth? = none

theorem dull_fault (fault : Fault) : Dull (.ofFault fault) := ⟨rfl, rfl, rfl⟩

theorem dull_incident (incident : Incident) : Dull (.ofIncident incident) := ⟨rfl, rfl, rfl⟩

/-- What an answer is turned into; `reject` is the error for one that reports a failure. -/
inductive Concludes {α : Type} (leg : Leg) (reject : Response → CredentialsError)
    (response : Response) : Except Failure α → Prop
  | rejected (failed : Status.isSuccess response.status = false) :
      Concludes leg reject response (.error (.error (reject response)))
  | unread {e : CredentialsError} (success : Status.isSuccess response.status = true)
      (unfit : leg.accepts response.body = false) (dull : Dull e) :
      Concludes leg reject response (.error (.error e))
  | read {a : α} (success : Status.isSuccess response.status = true)
      (fit : leg.accepts response.body = true) : Concludes leg reject response (.ok a)

inductive Asked {α : Type} (leg : Leg) (reject : Response → CredentialsError) (w : World) :
    Except Failure α × World → Prop
  | unbuilt {e : CredentialsError} (dull : Dull e) : Asked leg reject w (.error (.error e), w)
  | refused (refusing : w.network = .refusing) :
      Asked leg reject w (.error (.error ⟨.transport, false, .incident .client⟩), w)
  | unanswered {request : Request} {w' : World} {transient : Bool} {text : String}
      (named : leg.Names request) (met : w.answer request = (.failure transient text, w')) :
      Asked leg reject w (.error (.error ⟨.transport, transient, .foreign text⟩), w')
  | answered {request : Request} {w' : World} {response : Response} {result : Except Failure α}
      (named : leg.Names request) (met : w.answer request = (.response response, w'))
      (concludes : Concludes leg reject response result) : Asked leg reject w (result, w')

/-- How a single request fails, by the network and the answer that it meets with. Only an
answer that reports a failure is turned into the error `reject`. -/
inductive Stumbles (leg : Leg) (reject : Response → CredentialsError) (network : Network)
    (answer : Answer) : List Request → CredentialsError → Prop
  | unbuilt {e : CredentialsError} (dull : Dull e) : Stumbles leg reject network answer [] e
  | refused (refusing : network = .refusing) :
      Stumbles leg reject network answer [] ⟨.transport, false, .incident .client⟩
  | unanswered {request : Request} {transient : Bool} {text : String}
      (met : answer = .failure transient text) :
      Stumbles leg reject network answer [request] ⟨.transport, transient, .foreign text⟩
  | rejected {request : Request} {response : Response} (met : answer = .response response)
      (failed : Status.isSuccess response.status = false) :
      Stumbles leg reject network answer [request] (reject response)
  | unread {request : Request} {response : Response} {e : CredentialsError}
      (met : answer = .response response) (success : Status.isSuccess response.status = true)
      (unfit : leg.accepts response.body = false) (dull : Dull e) :
      Stumbles leg reject network answer [request] e

section Sending

variable {w w' : World} {request : Request} {answer : Answer}

theorem answer_met (h : w.answer request = (answer, w')) :
    answerTo w 0 = answer ∧ w'.requests = w.requests ++ [request] ∧
      w'.answers = w.answers.drop 1 ∧ w'.network = w.network := by
  unfold World.answer at h
  rcases hw : w.answers with _ | ⟨next, rest⟩
  · simp only [World.log, hw, Prod.mk.injEq] at h
    obtain ⟨rfl, rfl⟩ := h
    exact ⟨by simp [answerTo, hw], by simp [World.requests], rfl, rfl⟩
  · simp only [World.log, hw, Prod.mk.injEq] at h
    obtain ⟨rfl, rfl⟩ := h
    exact ⟨by simp [answerTo, hw], by simp [World.requests], rfl, rfl⟩

theorem answer_next (request : Request) (w : World) :
    w.answer request = (answerTo w 0, (w.answer request).2) :=
  Prod.ext (answer_met rfl).1.symm rfl

theorem answer_ticks (request : Request) (w : World) : (w.answer request).2.ticks = w.ticks := by
  unfold World.answer
  rcases h : w.answers with _ | ⟨answer, rest⟩ <;> simp only [World.log, h]

theorem send_run (request : Request) (w : World) :
    World.send request w = match w.network, w.answer request with
      | .refusing, _ => (.error (.error ⟨.transport, false, .incident .client⟩), w)
      | .scripted, (.response response, w') => (.ok response, w')
      | .scripted, (.failure transient text, w') =>
        (.error (.error ⟨.transport, transient, .foreign text⟩), w') := by
  unfold World.send
  rw [get_bind]
  rcases w.network with _ | _
  · rcases w.answer request with ⟨_ | _, w'⟩ <;> rfl
  · rfl

theorem send_ok {response : Response} (h : World.send request w = (.ok response, w')) :
    w.answer request = (.response response, w') := by
  rw [send_run] at h
  rcases hn : w.network with _ | _
  · rcases met : w.answer request with ⟨response | _, after⟩ <;> simp only [hn, met] at h
    · cases h
      rfl
    · cases h
  · simp only [hn] at h
    cases h

end Sending

section Shapes

variable {α : Type} {leg : Leg} {reject : Response → CredentialsError} {w : World}

theorem asked_of {build : Attempt Request} {finish : Response → Attempt α}
    (built : (∃ request, build w = (.ok request, w) ∧ leg.Names request) ∨
      ∃ e, build w = (.error (.error e), w) ∧ Dull e)
    (finished : ∀ response w', ∃ result, finish response w' = (result, w') ∧
      Concludes leg reject response result) :
    Asked leg reject w ((do
      let request ← build
      let response ← World.send request
      finish response) w) := by
  obtain ⟨request, hbuild, named⟩ | ⟨e, hbuild, dull⟩ := built
  · rw [bind_ok hbuild, bind_run, send_run]
    rcases hn : w.network with _ | _
    · rcases met : w.answer request with ⟨response | ⟨transient, text⟩, w'⟩
      · obtain ⟨result, hfinish, concludes⟩ := finished response w'
        simp only [hfinish]
        exact .answered named met concludes
      · exact .unanswered named met
    · exact .refused hn
  · rw [bind_error hbuild]
    exact .unbuilt dull

theorem make_names {method : Method} {url : String} {headers : List RawHeader} {body : Bytes}
    {request : Request} (h : Request.make? method url headers body = some request)
    (accepts : Bytes → Bool) : Leg.Names ⟨method, url, accepts⟩ request := by
  unfold Request.make? at h
  rcases hu : Uri.parse? url with _ | uri
  · simp [hu] at h
  · rcases hh : headers.mapM fun x => Header.make? x.1 x.2.1 x.2.2 with _ | made
    · simp [hu, hh] at h
    · simp only [hu, hh, Option.bind_eq_bind, Option.bind_some, Option.pure_def,
        Option.some.injEq] at h
      subst h
      exact ⟨rfl, hu⟩

theorem built_of {method : Method} {url : String} {headers : List RawHeader} {body : Bytes}
    (accepts : Bytes → Bool) (w : World) :
    (∃ request, Attempt.orIncident .request (Request.make? method url headers body) w =
      (.ok request, w) ∧ Leg.Names ⟨method, url, accepts⟩ request) ∨
    ∃ e, Attempt.orIncident .request (Request.make? method url headers body) w =
      (.error (.error e), w) ∧ Dull e := by
  rcases h : Request.make? method url headers body with _ | request
  · exact .inr ⟨_, rfl, dull_incident .request⟩
  · exact .inl ⟨request, rfl, make_names h accepts⟩

theorem travels_unsent (e : Failure) (legs : List Leg) (w : World) :
    Travels legs w [] ((.error e, w) : Except Failure α × World) := by
  have still : Travels [] w [] ((.error e, w) : Except Failure α × World) :=
    travels_still rfl rfl rfl
  exact travels_extend still legs

theorem travels_sent {request : Request} {answer : Answer} {w' : World}
    {result : Except Failure α} (named : leg.Names request)
    (met : w.answer request = (answer, w')) (fit : ∀ a, result = .ok a → leg.Accepts answer) :
    Travels [leg] w [request] (result, w') := by
  obtain ⟨next, requests, answers, network⟩ := answer_met met
  refine ⟨requests, answers, network, ⟨?_, ?_⟩, ?_⟩
  · exact .cons named .nil
  · intro k _ hk
    simp at hk
  · intro a ha
    refine ⟨rfl, ?_⟩
    intro k only hk
    obtain ⟨rfl, rfl⟩ : k = 0 ∧ leg = only := by
      rcases k with _ | k
      · exact ⟨rfl, by simpa using hk⟩
      · simp at hk
    rw [next]
    exact fit a ha

theorem asked_travels {run : Except Failure α × World} (h : Asked leg reject w run) :
    ∃ sent, Travels [leg] w sent run ∧
      ∀ f, run.1 = .error f → ∃ e, f = .error e ∧
        Stumbles leg reject w.network (answerTo w 0) sent e := by
  cases h with
  | unbuilt dull =>
    refine ⟨[], travels_unsent _ [leg] w, ?_⟩
    intro f hf
    cases hf
    exact ⟨_, rfl, .unbuilt dull⟩
  | refused refusing =>
    refine ⟨[], travels_unsent _ [leg] w, ?_⟩
    intro f hf
    cases hf
    exact ⟨_, rfl, .refused refusing⟩
  | unanswered named met =>
    refine ⟨_, travels_sent named met nofun, ?_⟩
    intro f hf
    cases hf
    exact ⟨_, rfl, .unanswered (answer_met met).1⟩
  | answered named met concludes =>
    cases concludes with
    | rejected failed =>
      refine ⟨_, travels_sent named met nofun, ?_⟩
      intro f hf
      cases hf
      exact ⟨_, rfl, .rejected (answer_met met).1 failed⟩
    | unread success unfit dull =>
      refine ⟨_, travels_sent named met nofun, ?_⟩
      intro f hf
      cases hf
      exact ⟨_, rfl, .unread (answer_met met).1 success unfit dull⟩
    | read success fit =>
      exact ⟨_, travels_sent named met fun _ _ => ⟨success, fit⟩, nofun⟩

theorem travels_asked {run : Except Failure α × World} (h : Asked leg reject w run) :
    ∃ sent, Travels [leg] w sent run := by
  obtain ⟨sent, travelled, _⟩ := asked_travels h
  exact ⟨sent, travelled⟩

end Shapes

end WorkloadIdentity.Journey
