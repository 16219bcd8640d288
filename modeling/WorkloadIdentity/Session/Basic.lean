import WorkloadIdentity.Config.File
import WorkloadIdentity.Credentials.Inspection

/-! Sessions: credentials are built once and then go through a list of steps, each of
which shows its result and the requests that it sent. -/

set_option autoImplicit false

namespace WorkloadIdentity.Session

/-- Where the configuration of a session comes from. -/
inductive Origin
  | document (value : Json) (overrides : Overrides)
  | file (path : String) (overrides : Overrides)
  | settings (settings : Settings)

/-- A call for headers may name the URI of the request that they are for. -/
structure Request where
  call : Call
  uri : Option String

inductive Step
  | accessors
  | toJson
  | roundTrip
  | call (request : Request) (hang : Bool)
  | join (requests : List Request)
  | advance (milliseconds : Nat)
  | putFile (path : String) (content : Bytes)
  | dropFile (path : String)
  | setEnvironment (changes : List (String × Option Bytes))
  | showFile (path : String)
  | mentions (needles : List String)

/-- The answer to a request; a text that is no URI is not asked about. -/
inductive Response
  | reply (reply : Reply)
  | badUri

inductive Result
  | accessors (config : Configuration)
  | document (value : Json)
  | rebuilt (config : Except BuildError Configuration)
  | response (response : Response) (ticks : Calendar.Nanoseconds)
  | responses (responses : List Response) (ticks : Calendar.Nanoseconds)
  | content (content : Option Bytes)
  | found (flags : List Bool)
  | done

def configure (world : World) : Origin → Except BuildError Configuration
  | .document value overrides => Configuration.build value overrides
  | .file path overrides => Configuration.buildFromFile world.files path overrides
  | .settings settings => Configuration.ofSettings settings

def changeEnvironment (env : Environment) (changes : List (String × Option Bytes)) :
    Environment :=
  changes.foldl
    (fun env change =>
      match change.2 with
      | some value => env.set change.1 value
      | none => env.unset change.1) env

def Request.isAskable (request : Request) : Bool :=
  match request.uri with
  | some uri => (Uri.parse? uri).isSome
  | none => true

def onWorld (c : Credentials) (change : World → World) : Credentials :=
  { c with world := change c.world }

/-- No command ever ends. -/
def hanging : Programs := fun _ files => (.endless, files)

def call (c : Credentials) (request : Request) : Response × Credentials :=
  if request.isAskable then
    let (reply, c) := c.call request.call
    (.reply reply, c)
  else (.badUri, c)

def hang (world : World) : World := { world with programs := hanging }

/-- Programs and clocks as they were before. -/
def resume (before after : World) : World :=
  { after with programs := before.programs, now := before.now, ticks := before.ticks }

/-- A call whose command never ends. The time that it is waited for passes at once, so the clocks
stay where they are. -/
def stalledCall (c : Credentials) (request : Request) : Response × Credentials :=
  let (response, after) := call (onWorld c hang) request
  (response, onWorld after (resume c.world))

/-- Puts the replies in the places of the requests that were asked. -/
def place : List Request → List Reply → List Response
  | [], _ => []
  | r :: rs, replies =>
    if r.isAskable then
      match replies with
      | reply :: rest => .reply reply :: place rs rest
      | [] => place rs []
    else .badUri :: place rs replies

def join (c : Credentials) (requests : List Request) : List Response × Credentials :=
  let (replies, c) := c.join ((requests.filter (·.isAskable)).map (·.call))
  (place requests replies, c)

def step (c : Credentials) : Step → Result × Credentials
  | .accessors => (.accessors c.config, c)
  | .toJson => (.document c.config.toJson, c)
  | .roundTrip => (.rebuilt (Configuration.build c.config.toJson {}), c)
  | .call request hang =>
    let (response, c) := if hang then stalledCall c request else call c request
    (.response response c.world.ticks, c)
  | .join requests =>
    let (responses, c) := join c requests
    (.responses responses c.world.ticks, c)
  | .advance milliseconds =>
    let d : Calendar.Nanoseconds := milliseconds * 1000000
    (.done, onWorld c fun w => { w with now := w.now + d, ticks := w.ticks + d })
  | .putFile path content =>
    (.done, onWorld c fun w => { w with files := w.files.create path content })
  | .dropFile path => (.done, onWorld c fun w => { w with files := w.files.remove path })
  | .setEnvironment changes =>
    (.done, onWorld c fun w => { w with environment := changeEnvironment w.environment changes })
  | .showFile path => (.content (c.world.files.read? path), c)
  | .mentions needles => (.found (needles.map (Inspection.mentions c)), c)

/-- Runs the steps and shows for each its result and the requests it sent. -/
def run (c : Credentials) : List Step → List (Result × List WorkloadIdentity.Request)
  | [] => []
  | s :: rest =>
    let (result, c) := step (onWorld c ({ · with events := [] })) s
    (result, c.world.requests) :: run c rest

end WorkloadIdentity.Session
