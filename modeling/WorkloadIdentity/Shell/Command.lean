import WorkloadIdentity.Shell.Signal
import WorkloadIdentity.Shell.Wiring

/-! Commands whose words are expanded: assignments, the commands that the shell performs
itself, programs, and shells within the shell. -/

set_option autoImplicit false

namespace WorkloadIdentity.Shell

/-- The word of an assignment: a name, an equals sign, and a value. -/
def assignment? (word : Word) : Option (List Char × Word) :=
  let name := (word.takeWhile fun m => m.bareChar?.any isNameChar).filterMap Mark.bareChar?
  if name.head?.any isNameStart && word[name.length]? == some (.char '=' .bare) then
    some (name, word.drop (name.length + 1))
  else none

def assignments (words : List Word) : List (List Char × Word) :=
  (words.takeWhile fun w => (assignment? w).isSome).filterMap assignment?

def afterAssignments (words : List Word) : List Word :=
  words.dropWhile fun w => (assignment? w).isSome

/-- Commands of the shell whose failing redirections end it. -/
def endsOnFailure (name : List Char) : Bool :=
  ["exit", ":", "export"].contains (String.ofList name)

/-- The program that a name or a path stands for. -/
def program? (name : List Char) : Option String :=
  let base := ["/bin/".toList, "/usr/bin/".toList].findSome? fun folder =>
    if folder.isPrefixOf name then some (name.drop folder.length) else none
  let base := String.ofList (base.getD name)
  if ["cat", "echo", "false", "printf", "sh", "sleep", "tr", "true"].contains base then some base
  else none

/-- Runs a program that is no shell. -/
def utility (program : String) (files : FileTree) (input : List Char)
    (arguments : List (List Char)) : Report :=
  match program with
  | "cat" => Utility.cat files input arguments
  | "echo" => Utility.echo arguments
  | "printf" => Utility.printf arguments
  | "sleep" => Utility.sleep arguments
  | "tr" => Utility.tr input arguments
  | "true" => .quiet 0
  | _ => .quiet 1

namespace Process

def exit (p : Process) (line : Nat) (wiring : Wiring) (arguments : List (List Char)) :
    Process × Option Ending :=
  match arguments with
  | [] => (p, some (.exited p.status))
  | status :: _ =>
    if isDigits status then (p, some (.exited (number status % 256)))
    else
      let text := p.place line ++ "exit: Illegal number: " ++ String.ofList status ++ "\n"
      (p.write wiring.errors text.toList, some (.exited 2))

/-- The signal and the processes that a command names; `none` if it is ill-formed. -/
def killArguments : List (List Char) → Except String (Nat × List (List Char))
  | ['-', 's'] :: name :: processes => numbered name processes
  | [['-', 's']] => .error "No arg for -s option"
  | ('-' :: name) :: processes => numbered name processes
  | processes => .ok (15, processes)
where
  numbered (name : List Char) (processes : List (List Char)) :
      Except String (Nat × List (List Char)) :=
    match Signal.number? name with
    | some n => .ok (n, processes)
    | none => .error ("Illegal option -" ++ String.ofList (name.take 1))

def killUsage : String :=
  "Usage: kill [-s sigspec | -signum | -sigspec] [pid | job]... or\nkill -l [exitstatus]"

/-- Sends a signal; only the shell itself can be found. -/
def kill (p : Process) (line : Nat) (wiring : Wiring) (arguments : List (List Char)) :
    Process × Option Ending :=
  let refuse (status : Nat) (text : String) : Process × Option Ending :=
    (p.report wiring (.complaint status (p.place line ++ "kill: " ++ text)), none)
  match killArguments arguments with
  | .error text => refuse 2 text
  | .ok (_, []) => refuse 2 killUsage
  | .ok (signal, target :: _) =>
    if !isDigits target then refuse 2 ("Illegal number: " ++ String.ofList target)
    else if number target ≠ p.id then refuse 1 "No such process\n"
    else
      match Signal.ofNumber signal with
      | .ignored => ({ p with status := 0 }, none)
      | .suspending => (p, some .suspended)
      | .fatal n => (p, some (.killed n))

def publishAll (p : Process) (arguments : List (List Char)) : Process :=
  arguments.foldl
    (fun p argument =>
      let name := argument.takeWhile (· != '=')
      match argument.drop name.length with
      | [] =>
        match p.named? name with
        | some value => p.publish name value
        | none => p
      | _ :: value => p.publish name value)
    { p with status := 0 }

def ofEnding (p : Process) : Ending → Process
  | .exited status => { p with status := status }
  | .killed signal => { p with status := 128 + signal }
  | .suspended => p

/-- Runs a further shell for a command. -/
def nest (p : Process) (nested : Nested) (wiring : Wiring) (arguments : List (List Char))
    (environment : Environment) : Process × Option Ending :=
  let remains := nested arguments environment wiring.input p.files
  let p := ({ p with files := remains.files }.write wiring.output remains.output).write
    wiring.errors remains.errors
  (p.ofEnding remains.ending, if remains.ending = .suspended then some .suspended else none)

/-- Why a command of this name cannot run, and the status that tells it. -/
def refusal (p : Process) (name : List Char) : Nat × String :=
  match pathOf name with
  | some path =>
    if path.contains '/' && (p.files.locate? path).any (fun l => (p.files.node? l).isSome) then
      (126, String.ofList name ++ ": Permission denied")
    else if path.isEmpty then (127, ": Permission denied")
    else (127, String.ofList name ++ ": not found")
  | none => (127, String.ofList name ++ ": not found")

/-- Runs a command whose words are expanded. `environment` is what a program is given. -/
def perform (p : Process) (nested : Nested) (line : Nat) (wiring : Wiring)
    (environment : Environment) (name : List Char) (arguments : List (List Char)) :
    Process × Option Ending :=
  match String.ofList name with
  | "exit" => p.exit line wiring arguments
  | "kill" => p.kill line wiring arguments
  | "export" => (p.publishAll arguments, none)
  | ":" => ({ p with status := 0 }, none)
  | "echo" => (p.report wiring (Utility.echoCommand arguments), none)
  | "printf" => (p.report wiring (Utility.printfCommand (p.place line) arguments), none)
  | _ =>
    match program? name with
    | some "sh" => p.nest nested wiring arguments environment
    | some program =>
      (p.report wiring (utility program p.files wiring.input arguments), none)
    | none =>
      let (status, text) := p.refusal name
      (p.report wiring (.complaint status (p.place line ++ text)), none)

/-- Assignments before a command hold for the command alone, others from then on. -/
def command (p : Process) (nested : Nested) (input : List Char) (c : Command) :
    Process × Option Ending :=
  let settings := (assignments c.words).map fun (name, word) => (name, textOf p.values word)
  let words := (afterAssignments c.words).flatMap (fields p.values)
  match redirectAll p ⟨input, .output, .errors⟩ c.redirections with
  | (.error text, p) =>
    ({ p.complain c.line text with status := 2 },
      if words.head?.any endsOnFailure then some (.exited 2) else none)
  | (.ok wiring, p) =>
    match words with
    | [] => ({ settings.foldl (fun p s => p.assign s.1 s.2) p with status := 0 }, none)
    | name :: arguments =>
      let environment := settings.foldl
        (fun env s => env.set (String.ofList s.1) (Latin1.bytes s.2)) p.environment
      p.perform nested c.line wiring environment name arguments

end Process

end WorkloadIdentity.Shell
