import WorkloadIdentity.Shell.Process
import WorkloadIdentity.Shell.Script
import WorkloadIdentity.Shell.Utility

/-! Where a command reads from and prints to. Redirections change that, and open or empty
files, before the command runs. -/

set_option autoImplicit false

namespace WorkloadIdentity.Shell

structure Wiring where
  input : List Char
  output : Sink
  errors : Sink
  deriving DecidableEq, Repr

namespace Wiring

def sink? (wiring : Wiring) (target : List Char) : Option Sink :=
  if target = ['1'] then some wiring.output
  else if target = ['2'] then some wiring.errors
  else if target = ['-'] then some .discarded
  else none

/-- Only the two descriptors for output are kept track of. -/
def setSink (wiring : Wiring) (descriptor : Nat) (sink : Sink) : Wiring :=
  if descriptor = 1 then { wiring with output := sink }
  else if descriptor = 2 then { wiring with errors := sink }
  else wiring

end Wiring

def cannotCreate (files : FileTree) (path : List Char) (text : String) : String :=
  let reason := match open? files path with
    | .error .directory => "Is a directory"
    | .error .notDirectory => "Not a directory"
    | _ => "Directory nonexistent"
  "cannot create " ++ text ++ ": " ++ reason

def cannotOpen (obstacle : Obstacle) (text : String) : String :=
  let reason := match obstacle with
    | .missing => "No such file"
    | _ => obstacle.text
  "cannot open " ++ text ++ ": " ++ reason

/-- Opens a file for output, empty unless it is appended to. -/
def openOutput (files : FileTree) (target : List Char) (append : Bool) :
    Except String (Sink × FileTree) :=
  let text := String.ofList target
  match pathOf target with
  | none => .error (cannotCreate files target text)
  | some path =>
    if path = nullPath then .ok (.discarded, files)
    else
      let content := if append then (files.read? path).getD [] else []
      match files.write? path content with
      | some files => .ok (.file path, files)
      | none => .error (cannotCreate files target text)

def redirect (p : Process) (wiring : Wiring) (r : Redirection) :
    Except String (Wiring × FileTree) :=
  let target := textOf p.values r.target
  let descriptor := r.descriptor.getD 1
  match r.symbol with
  | .input =>
    match open? p.files target with
    | .ok content => .ok ({ wiring with input := content }, p.files)
    | .error obstacle => .error (cannotOpen obstacle (String.ofList target))
  | .copyOutput =>
    match wiring.sink? target with
    | some sink => .ok (wiring.setSink descriptor sink, p.files)
    | none => .error (String.ofList target ++ ": Bad file descriptor")
  | .output => do
    let (sink, files) ← openOutput p.files target false
    return (wiring.setSink descriptor sink, files)
  | .append => do
    let (sink, files) ← openOutput p.files target true
    return (wiring.setSink descriptor sink, files)
  | _ => .ok (wiring, p.files)

/-- Redirections take effect one after another, up to one that cannot. -/
def redirectAll (p : Process) (wiring : Wiring) :
    List Redirection → Except String Wiring × Process
  | [] => (.ok wiring, p)
  | r :: rest =>
    match redirect p wiring r with
    | .ok (wiring, files) => redirectAll { p with files := files } wiring rest
    | .error text => (.error text, p)

namespace Process

/-- Ends a command with the report of a utility. -/
def report (p : Process) (wiring : Wiring) (r : Report) : Process :=
  { (p.write wiring.output r.output).write wiring.errors r.complaints with status := r.status }

end Process

end WorkloadIdentity.Shell
