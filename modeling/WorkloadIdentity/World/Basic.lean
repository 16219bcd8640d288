import WorkloadIdentity.World.Environment
import WorkloadIdentity.World.FileTree
import WorkloadIdentity.Http.Message
import WorkloadIdentity.Error.Credentials
import WorkloadIdentity.Time.Calendar

/-! What the credentials act on: environment, files, clocks, programs, and the parties
that answer requests. Everything that leaves the credentials is kept in a log of events.
An attempt is a computation on a world that may fail. -/

set_option autoImplicit false

namespace WorkloadIdentity

structure Invocation where
  program : String
  arguments : List String
  environment : Environment
  deriving DecidableEq, Repr

/-- What becomes of a command that nobody stops; its duration is in nanoseconds. A command that
was killed has no exit code. -/
inductive Course
  | notStarted
  | endless
  | exits (duration : Nat) (code : Option Nat) (stdout stderr : Bytes)
  deriving DecidableEq, Repr

/-- What those see of a command who wait for it for a limited time. -/
inductive Completion
  | notStarted
  | unfinished
  | exited (code : Option Nat) (stdout stderr : Bytes)
  deriving DecidableEq, Repr

/-- A command that exits in the very last moment has still ended in time. -/
def Course.within (allowed : Nat) : Course → Completion
  | .notStarted => .notStarted
  | .endless => .unfinished
  | .exits duration code stdout stderr =>
    if duration ≤ allowed then .exited code stdout stderr else .unfinished

/-- How long they wait. -/
def Course.wait (allowed : Nat) : Course → Nat
  | .notStarted => 0
  | .endless => allowed
  | .exits duration _ _ _ => min duration allowed

/-- The course of a command, and the files as it leaves them when it ends or is stopped. -/
abbrev Programs := Invocation → FileTree → Course × FileTree

/-- What a request meets with. -/
inductive Answer
  | response (response : Response)
  | failure (transient : Bool) (text : String)
  deriving DecidableEq, Repr

/-- What a provider of subject tokens returns. -/
inductive ProviderAnswer
  | token (token : String)
  | failure (transient : Bool) (text : String)
  deriving DecidableEq, Repr

/-- Requests are answered from a script, or refused before they are sent. -/
inductive Network
  | scripted
  | refusing
  deriving DecidableEq, Repr

inductive Event
  | request (request : Request)
  | command (invocation : Invocation)
  | provider
  deriving DecidableEq, Repr

/-- What others print of themselves where the credentials print them: the transport and the
provider by the answers that they have left, and errors from outside. A map lists its members in
an order of its own. -/
structure Prints where
  transport : List Answer → String
  provider : List ProviderAnswer → String
  incident : Incident → String
  foreign : String → String
  arrange : List (String × String) → List (String × String)

def Prints.plain : Prints where
  transport _ := "Transport"
  provider _ := "Provider"
  incident := Incident.text
  foreign := id
  arrange := id

structure World where
  environment : Environment
  files : FileTree
  programs : Programs
  network : Network
  answers : List Answer
  provider : List ProviderAnswer
  /-- The wall clock, from 1970-01-01 in UTC. -/
  now : Calendar.Nanoseconds
  /-- The monotonic clock. -/
  ticks : Calendar.Nanoseconds
  events : List Event
  prints : Prints := .plain

/-- Why an attempt ended without a value. An expiry that the monotonic clock cannot hold
ends it without an error. -/
inductive Failure
  | error (error : CredentialsError)
  | clockOverflow

abbrev Attempt := ExceptT Failure (StateM World)

namespace Attempt

def fail {α : Type} (e : CredentialsError) : Attempt α := throw (.error e)

def ofExcept {α : Type} : Except CredentialsError α → Attempt α
  | .ok a => pure a
  | .error e => fail e

/-- The value, or the error of an incident. -/
def orIncident {α : Type} (incident : Incident) : Option α → Attempt α
  | some a => pure a
  | none => fail (.ofIncident incident)

/-- Attributes every error to the subject token. -/
def inSubjectToken {α : Type} (attempt : Attempt α) : Attempt α := fun world =>
  match attempt world with
  | (.error (.error e), world) => (.error (.error e.inSubjectToken), world)
  | result => result

end Attempt

namespace World

def exhausted : String := "script exhausted"

def log (event : Event) (world : World) : World := { world with events := world.events ++ [event] }

/-- Both clocks move on. -/
def pass (nanoseconds : Nat) (world : World) : World :=
  { world with now := world.now + nanoseconds, ticks := world.ticks + nanoseconds }

def requests (world : World) : List Request :=
  world.events.filterMap fun
    | .request r => some r
    | _ => none

def commands (world : World) : List Invocation :=
  world.events.filterMap fun
    | .command i => some i
    | _ => none

/-- The next answer of the script, once the request is in the log. -/
def answer (request : Request) (world : World) : Answer × World :=
  let world := world.log (.request request)
  match world.answers with
  | [] => (.failure false exhausted, world)
  | answer :: rest => (answer, { world with answers := rest })

def send (request : Request) : Attempt Response := do
  let world ← get
  match world.network with
  | .refusing => Attempt.fail ⟨.transport, false, .incident .client⟩
  | .scripted =>
    let (answer, world) := world.answer request
    set world
    match answer with
    | .response response => pure response
    | .failure transient text => Attempt.fail ⟨.transport, transient, .foreign text⟩

/-- Waits for a command, for `allowed` nanoseconds at most. -/
def run (invocation : Invocation) (allowed : Nat) : Attempt Completion := do
  let world ← get
  let (course, files) := world.programs invocation world.files
  set { (world.log (.command invocation)).pass (course.wait allowed) with files := files }
  return course.within allowed

def callProvider : Attempt String := do
  let world ← get
  let world := world.log .provider
  match world.provider with
  | [] =>
    set world
    Attempt.fail ⟨.other, false, .foreign exhausted⟩
  | answer :: rest =>
    set { world with provider := rest }
    match answer with
    | .token token => pure token
    | .failure transient text => Attempt.fail ⟨.other, transient, .foreign text⟩

def readText (path : String) : Attempt String := do
  let world ← get
  Attempt.orIncident .system ((world.files.read? path).bind Utf8.text?)

end World

end WorkloadIdentity
