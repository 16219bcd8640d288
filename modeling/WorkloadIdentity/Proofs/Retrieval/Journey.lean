import Mathlib.Data.List.Forall2
import WorkloadIdentity.Credentials.Retrieval

/-! Requests in their order. A leg is one request that a retrieval may come to, with what it
demands of the answer. An attempt travels along a list of legs when it sends requests for the
first of them, one for each and in that order, goes on only after an answer that the leg
accepts, and has a value only at the end of the list. Legs of attempts that follow one
another are put one after the other. -/

set_option autoImplicit false

namespace WorkloadIdentity.Journey

structure Leg where
  method : Method
  url : String
  /-- Whether the body of a successful answer can be used. -/
  accepts : Bytes → Bool

def Leg.Names (leg : Leg) (request : Request) : Prop :=
  request.method = leg.method ∧ Uri.parse? leg.url = some request.uri

def Leg.Accepts (leg : Leg) : Answer → Prop
  | .response r => Status.isSuccess r.status = true ∧ leg.accepts r.body = true
  | .failure _ _ => False

/-- What a request meets with that is sent after `n` others. -/
def answerTo (w : World) (n : Nat) : Answer :=
  w.answers.getD n (.failure false World.exhausted)

structure Follows (legs : List Leg) (w : World) (sent : List Request) : Prop where
  named : List.Forall₂ Leg.Names (legs.take sent.length) sent
  accepted : ∀ (k : Nat) (leg : Leg), k + 1 < sent.length → legs[k]? = some leg → leg.Accepts (answerTo w k)

structure Completes (legs : List Leg) (w : World) (sent : List Request) : Prop where
  whole : sent.length = legs.length
  accepted : ∀ (k : Nat) (leg : Leg), legs[k]? = some leg → leg.Accepts (answerTo w k)

structure Travels {α : Type} (legs : List Leg) (w : World) (sent : List Request)
    (run : Except Failure α × World) : Prop where
  requests : run.2.requests = w.requests ++ sent
  answers : run.2.answers = w.answers.drop sent.length
  network : run.2.network = w.network
  follows : Follows legs w sent
  completes : ∀ a, run.1 = .ok a → Completes legs w sent

section Composition

variable {α β : Type} {legs rest : List Leg} {w w' : World} {sent sent' : List Request}

theorem bind_run (m : Attempt α) (f : α → Attempt β) (w : World) :
    (m >>= f) w = match m w with
      | (.ok a, w') => f a w'
      | (.error e, w') => (.error e, w') := by
  show (ExceptT.bind m f : Attempt β) w = _
  simp only [ExceptT.bind, ExceptT.mk, bind, StateT.bind, ExceptT.bindCont]
  rcases m w with ⟨_ | _, _⟩ <;> rfl

theorem bind_ok {m : Attempt α} {a : α} (h : m w = (.ok a, w')) (f : α → Attempt β) :
    (m >>= f) w = f a w' := by
  rw [bind_run, h]

theorem bind_error {m : Attempt α} {e : Failure} (h : m w = (.error e, w')) (f : α → Attempt β) :
    (m >>= f) w = (.error e, w') := by
  rw [bind_run, h]

theorem get_bind (f : World → Attempt β) (w : World) : ((get : Attempt World) >>= f) w = f w w :=
  bind_ok rfl f

theorem built_bind (incident : Incident) (a : α) (f : α → Attempt β) (w : World) :
    (Attempt.orIncident incident (some a) >>= f) w = f a w :=
  bind_ok rfl f

theorem answerTo_later (h : w'.answers = w.answers.drop sent.length) (n : Nat) :
    answerTo w' n = answerTo w (sent.length + n) := by
  simp only [answerTo, List.getD_eq_getElem?_getD, h, List.getElem?_drop]

theorem follows_nil (legs : List Leg) (w : World) : Follows legs w [] :=
  ⟨by simp, fun k _ hk => absurd hk (by simp)⟩

theorem follows_within (h : Follows legs w sent) : sent.length ≤ legs.length := by
  have length := h.named.length_eq
  rw [List.length_take] at length
  omega

theorem follows_extend (h : Follows legs w sent) (rest : List Leg) :
    Follows (legs ++ rest) w sent := by
  have within := follows_within h
  constructor
  · rw [List.take_append_of_le_length within]
    exact h.named
  · intro k leg hk hleg
    rw [List.getElem?_append_left (by omega)] at hleg
    exact h.accepted k leg hk hleg

theorem completes_append (first : Completes legs w sent)
    (answers : w'.answers = w.answers.drop sent.length) (second : Completes rest w' sent') :
    Completes (legs ++ rest) w (sent ++ sent') := by
  constructor
  · rw [List.length_append, List.length_append, first.whole, second.whole]
  · intro k leg hleg
    by_cases hk : k < legs.length
    · rw [List.getElem?_append_left hk] at hleg
      exact first.accepted k leg hleg
    · rw [List.getElem?_append_right (by omega)] at hleg
      have later := second.accepted _ leg hleg
      rw [answerTo_later answers, first.whole] at later
      rwa [show legs.length + (k - legs.length) = k by omega] at later

theorem follows_append (start : Follows legs w sent) (first : Completes legs w sent)
    (answers : w'.answers = w.answers.drop sent.length) (second : Follows rest w' sent') :
    Follows (legs ++ rest) w (sent ++ sent') := by
  constructor
  · have named := start.named
    rw [first.whole, List.take_length] at named
    rw [List.length_append, first.whole, List.take_length_add_append]
    exact List.rel_append named second.named
  · intro k leg hk hleg
    rw [List.length_append] at hk
    by_cases inside : k < legs.length
    · rw [List.getElem?_append_left inside] at hleg
      exact first.accepted k leg hleg
    · have whole := first.whole
      rw [List.getElem?_append_right (by omega)] at hleg
      have later := second.accepted _ leg (by omega) hleg
      rw [answerTo_later answers, whole] at later
      rwa [show legs.length + (k - legs.length) = k by omega] at later

theorem travels_still {run : Except Failure α × World} (requests : run.2.requests = w.requests)
    (answers : run.2.answers = w.answers) (network : run.2.network = w.network) :
    Travels [] w [] run := by
  refine ⟨by simpa using requests, by simpa using answers, network, follows_nil [] w, ?_⟩
  intro a ha
  exact ⟨rfl, fun k leg hleg => by simp at hleg⟩

theorem travels_extend {e : Failure}
    (h : Travels legs w sent ((.error e, w') : Except Failure α × World)) (rest : List Leg) :
    Travels (legs ++ rest) w sent ((.error e, w') : Except Failure β × World) :=
  ⟨h.requests, h.answers, h.network, follows_extend h.follows rest, nofun⟩

theorem travels_append {a : α} {run : Except Failure β × World}
    (first : Travels legs w sent (.ok a, w')) (second : Travels rest w' sent' run) :
    Travels (legs ++ rest) w (sent ++ sent') run := by
  have complete := first.completes a rfl
  refine ⟨?_, ?_, second.network.trans first.network,
    follows_append first.follows complete first.answers second.follows, ?_⟩
  · rw [second.requests, first.requests, List.append_assoc]
  · rw [second.answers, first.answers, List.drop_drop, List.length_append]
  · intro b hb
    exact completes_append complete first.answers (second.completes b hb)

/-- Attempts one after the other travel along their legs one after the other. The later legs
may depend on how the first attempt went. -/
theorem travels_bind {m : Attempt α} {f : α → Attempt β}
    (first : ∃ sent, Travels legs w sent (m w))
    (second : ∀ a w' sent, m w = (.ok a, w') → Travels legs w sent (.ok a, w') →
      ∃ sent', Travels rest w' sent' (f a w')) :
    ∃ sent, Travels (legs ++ rest) w sent ((m >>= f) w) := by
  obtain ⟨sent, travelled⟩ := first
  rcases hm : m w with ⟨e | a, w'⟩
  · rw [hm] at travelled
    rw [bind_error hm]
    exact ⟨sent, travels_extend travelled rest⟩
  · rw [hm] at travelled
    obtain ⟨sent', onward⟩ := second a w' sent hm travelled
    rw [bind_ok hm]
    exact ⟨sent ++ sent', travels_append travelled onward⟩

theorem travels_finish {m : Attempt α} {f : α → Attempt β}
    (first : ∃ sent, Travels legs w sent (m w)) (still : ∀ a w', Travels [] w' [] (f a w')) :
    ∃ sent, Travels legs w sent ((m >>= f) w) := by
  have onward := travels_bind first fun a w' _ _ _ => ⟨[], still a w'⟩
  rwa [List.append_nil] at onward

theorem travels_pure (a : α) (w : World) : Travels [] w [] ((pure a : Attempt α) w) :=
  travels_still rfl rfl rfl

theorem ofExcept_run (x : Except CredentialsError α) (w : World) :
    Attempt.ofExcept x w = (x.mapError Failure.error, w) := by
  cases x <;> rfl

theorem run_run (i : Invocation) (allowed : Nat) (w : World) :
    World.run i allowed w = (.ok ((w.programs i w.files).1.within allowed),
      { (w.log (.command i)).pass ((w.programs i w.files).1.wait allowed) with
        files := (w.programs i w.files).2 }) := rfl

theorem travels_ofExcept (x : Except CredentialsError α) (w : World) :
    Travels [] w [] (Attempt.ofExcept x w) := by
  rw [ofExcept_run]
  exact travels_still rfl rfl rfl

end Composition

end WorkloadIdentity.Journey
