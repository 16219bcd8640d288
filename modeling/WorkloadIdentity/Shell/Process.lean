import WorkloadIdentity.Shell.Word
import WorkloadIdentity.World.Environment
import WorkloadIdentity.World.FileTree

/-! A shell at work: its arguments and variables, the files around it, and what has been
printed so far. -/

set_option autoImplicit false

namespace WorkloadIdentity.Shell

/-- How a process ends before its script does. A suspended process never ends. -/
inductive Ending
  | exited (status : Nat)
  | killed (signal : Nat)
  | suspended
  deriving DecidableEq, Repr

structure Process where
  id : Nat
  script : List Char
  arguments : List (List Char)
  /-- What further programs are given. -/
  environment : Environment
  /-- Variables of the shell alone. -/
  bindings : List (List Char × List Char)
  status : Nat
  files : FileTree
  output : List Char
  errors : List Char
  deriving DecidableEq, Repr

/-- Where output goes. -/
inductive Sink
  | output
  | errors
  | discarded
  | file (path : String)
  deriving DecidableEq, Repr

/-- What is left of a process that has ended. -/
structure Remains where
  ending : Ending
  output : List Char
  errors : List Char
  files : FileTree
  deriving DecidableEq, Repr

/-- Runs another shell: its arguments, environment, input and files. -/
abbrev Nested := List (List Char) → Environment → List Char → FileTree → Remains

namespace Process

def named? (p : Process) (name : List Char) : Option (List Char) :=
  (p.bindings.lookup name).or ((p.environment.get? (String.ofList name)).map Latin1.chars)

def values (p : Process) : Values :=
  { named? := p.named?
    script := p.script
    arguments := p.arguments
    status := p.status
    process := p.id }

def publish (p : Process) (name value : List Char) : Process :=
  { p with
    environment := p.environment.set (String.ofList name) (Latin1.bytes value)
    bindings := p.bindings.filter fun v => v.1 != name }

/-- A variable of the environment stays there. -/
def assign (p : Process) (name value : List Char) : Process :=
  if (p.environment.get? (String.ofList name)).isSome then p.publish name value
  else { p with bindings := (name, value) :: p.bindings.filter fun v => v.1 != name }

def place (p : Process) (line : Nat) : String :=
  String.ofList p.script ++ ": " ++ toString line ++ ": "

def write (p : Process) (sink : Sink) (text : List Char) : Process :=
  match sink with
  | .output => { p with output := p.output ++ text }
  | .errors => { p with errors := p.errors ++ text }
  | .discarded => p
  | .file path =>
    let content := (p.files.read? path).getD []
    { p with files := (p.files.write? path (content ++ Latin1.bytes text)).getD p.files }

def complain (p : Process) (line : Nat) (text : String) : Process :=
  p.write .errors (p.place line ++ text ++ "\n").toList

end Process

end WorkloadIdentity.Shell
