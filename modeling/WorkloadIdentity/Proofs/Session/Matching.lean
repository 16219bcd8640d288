import WorkloadIdentity.Proofs.Retrieval.Matching
import WorkloadIdentity.Proofs.Session.OneCell

/-!
# Sessions side by side

Two credentials whose retrievals match go through the same steps. What they share is the cache and
the world but for its log, so they answer alike and write events that are related one by one, in
every step, whether the calls come one after another or at once.
-/

set_option autoImplicit false

namespace WorkloadIdentity.Matching

open OneCell (Sight observe)
open Session (Result Step onWorld)

/-- Worlds that differ in their logs only, and there event by event. -/
def Level (R : Event → Event → Prop) (w w' : World) : Prop :=
  ∃ v log log', List.Forall₂ R log log' ∧ w = logged v log ∧ w' = logged v log'

/-- What two configurations have to have in common. Results that show the configuration itself are
compared by `S`. -/
structure Alike (R : Event → Event → Prop) (S : Result → Result → Prop)
    (config config' : Configuration) : Prop where
  retrieves : Matches R config.retrieve config'.retrieve
  quota : config.quotaProject = config'.quotaProject
  inspected : ∀ world,
    Inspection.configuration world config = Inspection.configuration world config'
  same : ∀ result, S result result
  accessors : S (.accessors config) (.accessors config')
  document : S (.document config.toJson) (.document config'.toJson)
  rebuilt : S (.rebuilt (Configuration.build config.toJson {}))
    (.rebuilt (Configuration.build config'.toJson {}))

structure Beside (R : Event → Event → Prop) (config config' : Configuration)
    (c c' : Credentials) : Prop where
  own : c.config = config
  held : c'.config = config'
  cache : c.cache = c'.cache
  level : Level R c.world c'.world

section Worlds

variable {R : Event → Event → Prop} {w w' : World}

theorem level_matched {α : Type} {m m' : Attempt α} (h : Matches R m m') (level : Level R w w') :
    (m w).1 = (m' w').1 ∧ Level R (m w).2 (m' w').2 := by
  obtain ⟨v, log, log', related, rfl, rfl⟩ := level
  obtain ⟨result, after, written, written', onward, ran⟩ := h v
  rw [(ran log).1, (ran log').2]
  exact ⟨rfl, after, _, _, List.rel_append related onward, rfl, rfl⟩

theorem level_events (level : Level R w w') : List.Forall₂ R w.events w'.events := by
  obtain ⟨v, log, log', related, rfl, rfl⟩ := level
  exact related

theorem level_ticks (level : Level R w w') : w.ticks = w'.ticks := by
  obtain ⟨v, log, log', related, rfl, rfl⟩ := level
  rfl

theorem level_change (level : Level R w w') (change : World → World)
    (apart : ∀ v log, change (logged v log) = logged (change v) log) :
    Level R (change w) (change w') := by
  obtain ⟨v, log, log', related, rfl, rfl⟩ := level
  exact ⟨change v, log, log', related, apart v log, apart v log'⟩

theorem level_resume {before before' : World} (then' : Level R before before')
    (level : Level R w w') : Level R (Session.resume before w) (Session.resume before' w') := by
  obtain ⟨u, -, -, -, rfl, rfl⟩ := then'
  obtain ⟨v, log, log', related, rfl, rfl⟩ := level
  exact ⟨Session.resume u v, log, log', related, rfl, rfl⟩

theorem level_files (level : Level R w w') : w.files = w'.files := by
  obtain ⟨v, log, log', related, rfl, rfl⟩ := level
  rfl

end Worlds

section Calls

variable {R : Event → Event → Prop} {S : Result → Result → Prop} {config config' : Configuration}
  {c c' : Credentials}

theorem beside_start (world : World) (related : List.Forall₂ R world.events world.events) :
    Beside R config config' (.new config world) (.new config' world) :=
  ⟨rfl, rfl, rfl, world, _, _, related, rfl, rfl⟩

theorem beside_cleared (h : Beside R config config' c c') :
    Beside R config config' (onWorld c ({ · with events := [] }))
      (onWorld c' ({ · with events := [] })) := by
  obtain ⟨v, log, log', related, hw, hw'⟩ := h.level
  have cleared : ∀ w log, w = logged v log → { w with events := [] } = logged v [] := by
    rintro _ log rfl
    rfl
  exact ⟨h.own, h.held, h.cache, v, [], [], .nil, cleared _ log hw, cleared _ log' hw'⟩

theorem beside_change (h : Beside R config config' c c') (change : World → World)
    (apart : ∀ v log, change (logged v log) = logged (change v) log) :
    Beside R config config' (onWorld c change) (onWorld c' change) :=
  ⟨h.own, h.held, h.cache, level_change h.level change apart⟩

theorem look_beside (h : Beside R config config' c c') (call : Call) :
    c.look call = c'.look call := by
  unfold Credentials.look
  rw [h.cache, level_ticks h.level]

variable (alike : Alike R S config config')

include alike

theorem render_beside (h : Beside R config config' c c') (call : Call)
    (outcome : Except Failure Token) : c.render call outcome = c'.render call outcome := by
  unfold Credentials.render
  rw [h.own, h.held, alike.quota]

theorem inspected_beside (h : Beside R config config' c c') :
    Inspection.credentials c = Inspection.credentials c' := by
  obtain ⟨v, log, log', -, hw, hw'⟩ := h.level
  unfold Inspection.credentials Inspection.tokenProvider
  rw [h.own, h.held, h.cache, hw, hw', alike.inspected, alike.quota]
  -- nothing that is printed comes from the log
  rfl

theorem retrieve_beside (h : Beside R config config' c c') :
    c.retrieve.1 = c'.retrieve.1 ∧ Beside R config config' c.retrieve.2 c'.retrieve.2 := by
  obtain ⟨result, after⟩ := level_matched alike.retrieves h.level
  unfold Credentials.retrieve
  rw [h.own, h.held]
  rcases hr : config.retrieve c.world with ⟨outcome, v⟩
  rcases hr' : config'.retrieve c'.world with ⟨outcome', v'⟩
  rw [hr, hr'] at result after
  obtain rfl : outcome = outcome' := result
  rcases outcome with (e | _) | token
  · exact ⟨rfl, rfl, rfl, congrArg (·.publish (.error e)) h.cache, after⟩
  · exact ⟨rfl, rfl, rfl, h.cache, after⟩
  · exact ⟨rfl, rfl, rfl, congrArg (·.publish (.ok token)) h.cache, after⟩

theorem proceed_beside (h : Beside R config config' c c') (call : Call) (reading : Reading) :
    (c.proceed call reading).1 = (c'.proceed call reading).1 ∧
      Beside R config config' (c.proceed call reading).2 (c'.proceed call reading).2 := by
  cases reading with
  | valid token => exact ⟨render_beside alike h call (.ok token), h⟩
  | stale seen =>
    obtain ⟨result, after⟩ : (c.refreshAfter seen).1 = (c'.refreshAfter seen).1 ∧
        Beside R config config' (c.refreshAfter seen).2 (c'.refreshAfter seen).2 := by
      unfold Credentials.refreshAfter
      rw [h.cache]
      cases c'.cache.shared? seen with
      | some outcome => exact ⟨rfl, h⟩
      | none => exact retrieve_beside alike h
    refine ⟨?_, after⟩
    simp only [Credentials.proceed, result]
    exact render_beside alike after call _

theorem proceedAll_beside (calls : List (Call × Reading)) (h : Beside R config config' c c') :
    (c.proceedAll calls).1 = (c'.proceedAll calls).1 ∧
      Beside R config config' (c.proceedAll calls).2 (c'.proceedAll calls).2 := by
  induction calls generalizing c c' with
  | nil => exact ⟨rfl, h⟩
  | cons first rest ih =>
    obtain ⟨call, reading⟩ := first
    obtain ⟨reply, after⟩ := proceed_beside alike h call reading
    obtain ⟨replies, last⟩ := ih after
    simp only [Credentials.proceedAll, reply, replies]
    exact ⟨trivial, last⟩

theorem join_beside (h : Beside R config config' c c') (calls : List Call) :
    (c.join calls).1 = (c'.join calls).1 ∧
      Beside R config config' (c.join calls).2 (c'.join calls).2 := by
  unfold Credentials.join
  simp only [look_beside h]
  exact proceedAll_beside alike _ h

theorem ask_beside (h : Beside R config config' c c') (request : Session.Request) :
    (Session.call c request).1 = (Session.call c' request).1 ∧
      Beside R config config' (Session.call c request).2 (Session.call c' request).2 := by
  unfold Session.call
  split
  · obtain ⟨reply, after⟩ := proceed_beside alike h request.call (c.look request.call)
    simp only [Credentials.call, ← look_beside h, reply]
    exact ⟨trivial, after⟩
  · exact ⟨rfl, h⟩

theorem stalled_beside (h : Beside R config config' c c') (request : Session.Request) :
    (Session.stalledCall c request).1 = (Session.stalledCall c' request).1 ∧
      Beside R config config' (Session.stalledCall c request).2
        (Session.stalledCall c' request).2 := by
  have begun := beside_change h Session.hang fun _ _ => rfl
  obtain ⟨response, after⟩ := ask_beside alike begun request
  exact ⟨response, after.own, after.held, after.cache, level_resume h.level after.level⟩

theorem step_beside (h : Beside R config config' c c') (step : Step) :
    S (Session.step c step).1 (Session.step c' step).1 ∧
      Beside R config config' (Session.step c step).2 (Session.step c' step).2 := by
  have changed : ∀ change : OneCell.Change,
      Beside R config config' (onWorld c change.apply) (onWorld c' change.apply) :=
    fun change => beside_change h change.apply fun _ _ => by cases change <;> rfl
  cases step with
  | accessors =>
    simp only [Session.step, h.own, h.held]
    exact ⟨alike.accessors, h⟩
  | toJson =>
    simp only [Session.step, h.own, h.held]
    exact ⟨alike.document, h⟩
  | roundTrip =>
    simp only [Session.step, h.own, h.held]
    exact ⟨alike.rebuilt, h⟩
  | call request hang =>
    cases hang with
    | false =>
      obtain ⟨response, after⟩ := ask_beside alike h request
      simp only [Session.step, Bool.false_eq_true, if_false, response, level_ticks after.level]
      exact ⟨alike.same _, after⟩
    | true =>
      obtain ⟨response, after⟩ := stalled_beside alike h request
      simp only [Session.step, if_true, response, level_ticks after.level]
      exact ⟨alike.same _, after⟩
  | join requests =>
    obtain ⟨replies, after⟩ := join_beside alike h ((requests.filter (·.isAskable)).map (·.call))
    simp only [Session.step, Session.join, replies, level_ticks after.level]
    exact ⟨alike.same _, after⟩
  | advance milliseconds => exact ⟨alike.same _, changed (.advance milliseconds)⟩
  | putFile path content => exact ⟨alike.same _, changed (.putFile path content)⟩
  | dropFile path => exact ⟨alike.same _, changed (.dropFile path)⟩
  | setEnvironment changes => exact ⟨alike.same _, changed (.setEnvironment changes)⟩
  | showFile path =>
    simp only [Session.step, level_files h.level]
    exact ⟨alike.same _, h⟩
  | mentions needles =>
    have found : Inspection.mentions c = Inspection.mentions c' := by
      funext needle
      unfold Inspection.mentions
      rw [inspected_beside alike h]
    simp only [Session.step, found]
    exact ⟨alike.same _, h⟩

/-- What holds of one step holds of every step of a session. -/
theorem observe_beside (h : Beside R config config' c c') (steps : List Step) :
    List.Forall₂ (fun sight sight' : Sight => S sight.1 sight'.1 ∧ List.Forall₂ R sight.2 sight'.2)
        (observe c steps).1 (observe c' steps).1 ∧
      Beside R config config' (observe c steps).2 (observe c' steps).2 := by
  induction steps generalizing c c' with
  | nil => exact ⟨.nil, h⟩
  | cons step rest ih =>
    obtain ⟨shown, after⟩ := step_beside alike (beside_cleared h) step
    obtain ⟨sights, last⟩ := ih after
    exact ⟨.cons ⟨shown, level_events after.level⟩ sights, last⟩

end Calls

theorem alike_itself {R : Event → Event → Prop} {config : Configuration}
    (retrieves : Matches R config.retrieve config.retrieve) : Alike R Eq config config :=
  ⟨retrieves, rfl, fun _ => rfl, fun _ => rfl, rfl, rfl, rfl⟩

theorem observe_cleared (c : Credentials) (steps : List Step) :
    (observe (onWorld c ({ · with events := [] })) steps).1 = (observe c steps).1 := by
  cases steps <;> rfl

/-- What holds of all that a retrieval writes holds of all that leaves the credentials. -/
theorem observe_only {P : Event → Prop} {config : Configuration}
    (retrieves : Matches (Only P) config.retrieve config.retrieve) (world : World)
    (steps : List Step) :
    ∀ sight ∈ (observe (.new config world) steps).1, ∀ event ∈ sight.2, P event := by
  have start : Beside (Only P) config config (.new config { world with events := [] })
      (.new config { world with events := [] }) := beside_start _ .nil
  have sights := (observe_beside (alike_itself retrieves) start steps).1
  rw [← observe_cleared]
  intro sight member event left
  have events := (List.forall₂_same.mp sights sight member).2
  exact (List.forall₂_same.mp events event left).2

end WorkloadIdentity.Matching
