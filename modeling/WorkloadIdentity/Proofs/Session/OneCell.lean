import WorkloadIdentity.Session.Basic
import WorkloadIdentity.Proofs.Retrieval.Consulting

/-!
# A session as a single cell

Calls that follow one another cannot tell the cache from one optional token. A refresh retrieves,
and so does any other call whose token is missing or expired; a retrieval that succeeds fills the
cell, and nothing else changes it. The sessions compared here show all that leaves the
credentials: requests, commands and calls of a provider, in their order.
-/

set_option autoImplicit false

namespace WorkloadIdentity.OneCell

open Session (Result Step onWorld)

inductive Change
  | advance (milliseconds : Nat)
  | putFile (path : String) (content : Bytes)
  | dropFile (path : String)
  | setEnvironment (changes : List (String × Option Bytes))

def Change.apply : Change → World → World
  | .advance milliseconds, w =>
    let d : Calendar.Nanoseconds := milliseconds * 1000000
    { w with now := w.now + d, ticks := w.ticks + d }
  | .putFile path content, w => { w with files := w.files.create path content }
  | .dropFile path, w => { w with files := w.files.remove path }
  | .setEnvironment changes, w =>
    { w with environment := Session.changeEnvironment w.environment changes }

/-- A step that does not overlap with others. A call may meet with commands that never end. -/
inductive Move
  | ask (request : Session.Request) (hang : Bool)
  | change (change : Change)

def Move.step : Move → Step
  | .ask request hang => .call request hang
  | .change (.advance milliseconds) => .advance milliseconds
  | .change (.putFile path content) => .putFile path content
  | .change (.dropFile path) => .dropFile path
  | .change (.setEnvironment changes) => .setEnvironment changes

structure State where
  cell : Option Token
  world : World
  /-- How the retrievals ended, the latest one last. No step depends on them. -/
  retrievals : List (Except Failure Token)

def start (world : World) : State := ⟨none, world, []⟩

/-- The token does not expire, or does so strictly later than now. -/
def Usable (token : Token) (ticks : Calendar.Nanoseconds) : Prop :=
  ∀ expiry ∈ token.expiresAt, ticks < expiry

instance (token : Token) (ticks : Calendar.Nanoseconds) : Decidable (Usable token ticks) :=
  inferInstanceAs (Decidable (∀ expiry ∈ token.expiresAt, ticks < expiry))

variable (config : Configuration)

/-- One full retrieval. Only a token that it brings changes the cell. -/
def retrieve (s : State) : Except Failure Token × State :=
  let (outcome, world) := config.retrieve s.world
  (outcome, ⟨match outcome with
    | .ok token => some token
    | .error _ => s.cell, world, s.retrievals ++ [outcome]⟩)

def serve (s : State) : Call → Except Failure Token × State
  | .refresh => retrieve config s
  | .headers =>
    match s.cell with
    | some token => if Usable token s.world.ticks then (.ok token, s) else retrieve config s
    | none => retrieve config s

/-- A refresh shows the token, the other calls show headers that carry it. -/
def reply (call : Call) (outcome : Except Failure Token) : Reply :=
  match outcome, call with
  | .error (.error e), _ => .error e
  | .error .clockOverflow, _ => .clockOverflow
  | .ok token, .refresh => .token token
  | .ok token, .headers =>
    match token.headers config.quotaProject with
    | .ok headers => .headers headers
    | .error e => .error e

def State.onWorld (s : State) (change : World → World) : State :=
  { s with world := change s.world }

def ask (s : State) (request : Session.Request) : Session.Response × State :=
  if request.isAskable then
    let (outcome, s) := serve config s request.call
    (.reply (reply config request.call outcome), s)
  else (.badUri, s)

/-- The same request in a world where no command ends, and where no time is spent on it. -/
def askStalled (s : State) (request : Session.Request) : Session.Response × State :=
  let (response, after) := ask config (s.onWorld Session.hang) request
  (response, after.onWorld (Session.resume s.world))

def step (s : State) : Move → Result × State
  | .ask request hanging =>
    let (response, s) := if hanging then askStalled config s request else ask config s request
    (.response response s.world.ticks, s)
  | .change change => (.done, s.onWorld change.apply)

/-- What a step shows: its result, and all that left the credentials. -/
abbrev Sight := Result × List Event

def run (s : State) : List Move → List Sight × State
  | [] => ([], s)
  | move :: rest =>
    let (result, s) := step config (s.onWorld ({ · with events := [] })) move
    let (sights, last) := run s rest
    ((result, s.world.events) :: sights, last)

def observe (c : Credentials) : List Step → List Sight × Credentials
  | [] => ([], c)
  | s :: rest =>
    let (result, c) := Session.step (onWorld c ({ · with events := [] })) s
    let (sights, last) := observe c rest
    ((result, c.world.events) :: sights, last)

def requestsOf (events : List Event) : List Request :=
  events.filterMap fun
    | .request r => some r
    | _ => none

theorem run_observed (c : Credentials) (steps : List Step) :
    Session.run c steps = (observe c steps).1.map fun sight => (sight.1, requestsOf sight.2) := by
  induction steps generalizing c with
  | nil => rfl
  | cons s rest ih =>
    simp only [Session.run, observe, ih, List.map_cons]
    rfl

variable {config}

structure Represents (config : Configuration) (c : Credentials) (s : State) : Prop where
  config_eq : c.config = config
  world_eq : c.world = s.world
  token_eq : c.cache.token = s.cell

variable {c : Credentials} {s : State}

theorem usable_iff {token : Token} {ticks : Calendar.Nanoseconds} :
    Usable token ticks ↔ token.isExpired ticks = false := by
  unfold Usable Token.isExpired
  cases token.expiresAt with
  | none => simp
  | some expiry => simp

theorem represents_onWorld (h : Represents config c s) (change : World → World) :
    Represents config (onWorld c change) (s.onWorld change) :=
  ⟨h.config_eq, congrArg change h.world_eq, h.token_eq⟩

theorem retrieve_refines (h : Represents config c s) :
    c.retrieve.1 = (retrieve config s).1 ∧ Represents config c.retrieve.2 (retrieve config s).2 := by
  obtain ⟨rfl, hw, ht⟩ := h
  unfold Credentials.retrieve retrieve
  rw [hw]
  rcases c.config.retrieve s.world with ⟨(e | _) | token, world⟩
  · exact ⟨rfl, rfl, rfl, ht⟩
  · exact ⟨rfl, rfl, rfl, ht⟩
  · exact ⟨rfl, rfl, rfl, rfl⟩

theorem render_reply (h : c.config = config) (call : Call) (outcome : Except Failure Token) :
    c.render call outcome = reply config call outcome := by
  subst h
  rcases outcome with (e | _) | token <;> cases call <;> rfl

theorem call_refines (h : Represents config c s) (call : Call) :
    (c.call call).1 = reply config call (serve config s call).1 ∧
      Represents config (c.call call).2 (serve config s call).2 := by
  obtain ⟨outcome, after⟩ := retrieve_refines h
  have retrieves : c.look call = .stale c.cache.generation → serve config s call = retrieve config s →
      (c.call call).1 = reply config call (serve config s call).1 ∧
        Represents config (c.call call).2 (serve config s call).2 := by
    intro hl hs
    rw [Journey.call_retrieves hl, hs, ← outcome]
    exact ⟨render_reply h.config_eq call _, after⟩
  cases call with
  | refresh => exact retrieves rfl rfl
  | headers =>
    rcases hc : s.cell with _ | token
    · apply retrieves
      · simp [Credentials.look, Cache.read, h.token_eq, hc]
      · simp [serve, hc]
    · by_cases hu : Usable token s.world.ticks
      · have hl : c.look .headers = .valid token := by
          simp [Credentials.look, Cache.read, h.token_eq, hc, h.world_eq, usable_iff.mp hu]
        have hs : serve config s .headers = (.ok token, s) := by simp [serve, hc, hu]
        rw [Credentials.call, hl, hs]
        exact ⟨render_reply h.config_eq .headers (.ok token), h⟩
      · have he : token.isExpired s.world.ticks = true := by simpa [usable_iff] using hu
        apply retrieves
        · simp [Credentials.look, Cache.read, h.token_eq, hc, h.world_eq, he]
        · simp [serve, hc, hu]

theorem ask_refines (h : Represents config c s) (request : Session.Request) :
    (Session.call c request).1 = (ask config s request).1 ∧
      Represents config (Session.call c request).2 (ask config s request).2 := by
  unfold Session.call ask
  split
  · obtain ⟨replied, after⟩ := call_refines h request.call
    exact ⟨congrArg Session.Response.reply replied, after⟩
  · exact ⟨rfl, h⟩

theorem askStalled_refines (h : Represents config c s) (request : Session.Request) :
    (Session.stalledCall c request).1 = (askStalled config s request).1 ∧
      Represents config (Session.stalledCall c request).2 (askStalled config s request).2 := by
  obtain ⟨answered, after⟩ := ask_refines (represents_onWorld h Session.hang) request
  refine ⟨answered, ?_⟩
  unfold Session.stalledCall askStalled
  rw [h.world_eq]
  exact represents_onWorld after (Session.resume s.world)

theorem step_refines (h : Represents config c s) (move : Move) :
    (Session.step c move.step).1 = (step config s move).1 ∧
      Represents config (Session.step c move.step).2 (step config s move).2 := by
  cases move with
  | ask request hanging =>
    cases hanging with
    | false =>
      obtain ⟨answered, after⟩ := ask_refines h request
      exact ⟨congrArg₂ Result.response answered (congrArg World.ticks after.world_eq), after⟩
    | true =>
      obtain ⟨answered, after⟩ := askStalled_refines h request
      exact ⟨congrArg₂ Result.response answered (congrArg World.ticks after.world_eq), after⟩
  | change change =>
    have changed := represents_onWorld h change.apply
    cases change <;> exact ⟨rfl, changed⟩

theorem observe_refines (h : Represents config c s) (moves : List Move) :
    (observe c (moves.map Move.step)).1 = (run config s moves).1 ∧
      Represents config (observe c (moves.map Move.step)).2 (run config s moves).2 := by
  induction moves generalizing c s with
  | nil => exact ⟨rfl, h⟩
  | cons move rest ih =>
    obtain ⟨result, after⟩ := step_refines (represents_onWorld h ({ · with events := [] })) move
    obtain ⟨sights, last⟩ := ih after
    simp only [List.map_cons, observe, run, result, sights, after.world_eq]
    exact ⟨trivial, last⟩

def latest (retrievals : List (Except Failure Token)) : Option Token :=
  (retrievals.filterMap Except.toOption).getLast?

theorem latest_retrieve (config : Configuration) (h : s.cell = latest s.retrievals) :
    (retrieve config s).2.cell = latest (retrieve config s).2.retrievals := by
  unfold retrieve
  rcases config.retrieve s.world with ⟨failure | token, world⟩
  · simpa [latest, Except.toOption] using h
  · simp [latest, Except.toOption]

theorem latest_serve (h : s.cell = latest s.retrievals) (call : Call) :
    (serve config s call).2.cell = latest (serve config s call).2.retrievals := by
  cases call with
  | refresh => exact latest_retrieve config h
  | headers =>
    have renewed := latest_retrieve config h
    rcases hc : s.cell with _ | token
    · simpa [serve, hc] using renewed
    · by_cases hu : Usable token s.world.ticks
      · simpa [serve, hc, hu] using h
      · simpa [serve, hc, hu] using renewed

theorem latest_step (config : Configuration) (h : s.cell = latest s.retrievals) (move : Move) :
    (step config s move).2.cell = latest (step config s move).2.retrievals := by
  cases move with
  | ask request hanging =>
    have asked : ∀ t : State, t.cell = latest t.retrievals →
        (ask config t request).2.cell = latest (ask config t request).2.retrievals := by
      intro t ht
      unfold ask
      split
      · exact latest_serve ht request.call
      · exact ht
    cases hanging
    · exact asked s h
    · exact asked (s.onWorld Session.hang) h
  | change => exact h

theorem latest_run (h : s.cell = latest s.retrievals) (moves : List Move) :
    (run config s moves).2.cell = latest (run config s moves).2.retrievals := by
  induction moves generalizing s with
  | nil => exact h
  | cons move rest ih =>
    have cleared : (s.onWorld ({ · with events := [] })).cell =
        latest (s.onWorld ({ · with events := [] })).retrievals := h
    have after := latest_step config cleared move
    exact ih after

/-- A session of calls one after another shows exactly what the cell shows: results, requests,
commands and calls of a provider. The token of the cache is that of the cell, which is the one
of the latest retrieval that succeeded, and each retrieval consults its source once. -/
theorem session_refines_one_cell (config : Configuration) (world : World) (moves : List Move) :
    (observe (.new config world) (moves.map Move.step)).1 = (run config (start world) moves).1 ∧
    Session.run (.new config world) (moves.map Move.step) =
      (run config (start world) moves).1.map (fun sight => (sight.1, requestsOf sight.2)) ∧
    (observe (.new config world) (moves.map Move.step)).2.cache.token =
      (run config (start world) moves).2.cell ∧
    (run config (start world) moves).2.cell =
      latest (run config (start world) moves).2.retrievals ∧
    ∀ s : State, ∃ sent : List Request, (retrieve config s).2.world.events =
      s.world.events ++ Journey.consultation config s.world ++ sent.map .request := by
  have begun : Represents config (.new config world) (start world) := ⟨rfl, rfl, rfl⟩
  obtain ⟨sights, last⟩ := observe_refines begun moves
  refine ⟨sights, by rw [run_observed, sights], last.token_eq, latest_run rfl moves, fun s => ?_⟩
  exact Journey.retrieve_events config s.world

end WorkloadIdentity.OneCell
