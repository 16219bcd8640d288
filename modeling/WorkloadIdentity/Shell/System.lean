import WorkloadIdentity.Shell.Command
import WorkloadIdentity.World.Basic

/-! Scripts at work, and a system that has a shell and some utilities. Pipelines run one
after another as their joints say; a shell may run further shells, down to a fixed depth. -/

set_option autoImplicit false

namespace WorkloadIdentity.Shell

namespace Process

/-- Commands side by side, each with the output of the one before as its input. What they
do to variables is lost, and only a signal ends the shell itself. -/
def pipe (p : Process) (nested : Nested) (input : List Char) :
    List Command → Process × Option Ending
  | [] => (p, none)
  | c :: rest =>
    let (q, ending) := { p with output := [] }.command nested input c
    let q := match ending with
      | some e => q.ofEnding e
      | none => q
    let p := { p with files := q.files, errors := q.errors, status := q.status }
    match ending, rest with
    | some (.killed signal), _ => ({ p with output := p.output ++ q.output }, some (.killed signal))
    | some .suspended, _ => (p, some .suspended)
    | _, [] => ({ p with output := p.output ++ q.output }, none)
    | _, _ => p.pipe nested q.output rest

def runs (joint : Joint) (status : Nat) : Bool :=
  match joint with
  | .always => true
  | .onSuccess => status == 0
  | .onFailure => status != 0

def pipeline (p : Process) (nested : Nested) (line : Pipeline) : Process × Option Ending :=
  if runs line.joint p.status then
    let (p, ending) := match line.commands with
      | [c] => p.command nested [] c
      | commands => p.pipe nested [] commands
    if line.negated then ({ p with status := if p.status = 0 then 1 else 0 }, ending)
    else (p, ending)
  else (p, none)

def pipelines (p : Process) (nested : Nested) : List Pipeline → Process × Option Ending
  | [] => (p, none)
  | line :: rest =>
    match p.pipeline nested line with
    | (p, none) => p.pipelines nested rest
    | ended => ended

/-- Runs the lines of a script; a flaw shows when the lines before it have run. -/
def run (p : Process) (nested : Nested) (script : Script) : Remains :=
  let finish (p : Process) (ending : Ending) : Remains := ⟨ending, p.output, p.errors, p.files⟩
  match p.pipelines nested script.lines.flatten with
  | (p, some ending) => finish p ending
  | (p, none) =>
    match script.flaw with
    | some (line, flaw) => finish (p.complain line flaw.text) (.exited 2)
    | none => finish p (.exited p.status)

end Process

/-- What a shell is asked to do: the name of its script, the text, and the arguments. -/
inductive Task
  | script (name text : List Char) (arguments : List (List Char))
  | refused (complaint : String)
  deriving DecidableEq, Repr

def shellName : List Char := ['s', 'h']

def task (files : FileTree) (input : List Char) : List (List Char) → Task
  | [] => .script shellName input []
  | [['-', 'c']] => .refused "-c requires an argument"
  | ['-', 'c'] :: text :: rest => .script (rest.headD shellName) text rest.tail
  | ('-' :: option :: _) :: _ => .refused ("Illegal option -" ++ option.toString)
  | path :: arguments =>
    match open? files path with
    | .ok text => .script path text arguments
    | .error .directory => .script path [] arguments
    | .error obstacle => .refused (cannotOpen obstacle (String.ofList path))

/-- A shell; `depth` bounds how far shells run within shells. -/
def shell : Nat → Nested
  | 0, _, _, _, files => ⟨.exited 2, [], "sh: 0: too many shells\n".toList, files⟩
  | depth + 1, arguments, environment, input, files =>
    match task files input arguments with
    | .refused complaint => ⟨.exited 2, [], ("sh: 0: " ++ complaint ++ "\n").toList, files⟩
    | .script name text arguments =>
      let p : Process :=
        { id := 1000 - depth
          script := name
          arguments := arguments
          environment := environment
          bindings := []
          status := 0
          files := files
          output := []
          errors := [] }
      p.run (shell depth) (Script.ofText text)

def depth : Nat := 32

/-- No time passes while a script runs; it ends at once or never. -/
def Remains.course (remains : Remains) : Course :=
  let stdout := Latin1.bytes remains.output
  let stderr := Latin1.bytes remains.errors
  match remains.ending with
  | .exited status => .exits 0 (some status) stdout stderr
  | .killed _ => .exits 0 none stdout stderr
  | .suspended => .endless

/-- Nothing that a program is given may hold a zero character. -/
def isAdmissible (invocation : Invocation) : Bool :=
  let texts := invocation.program :: invocation.arguments
  texts.all (fun t => !t.toList.contains '\x00') &&
    invocation.environment.entries.all fun v =>
      !v.1.toList.contains '\x00' && !v.2.contains 0

/-- The programs of a system that has a shell and the utilities beside it. -/
def programs : Programs := fun invocation files =>
  let octets (text : String) : List Char := Latin1.chars (Utf8.ofString text)
  let arguments := invocation.arguments.map octets
  if !isAdmissible invocation then (.notStarted, files)
  else
    match program? (octets invocation.program) with
    | none => (.notStarted, files)
    | some "sh" =>
      let remains := shell depth arguments invocation.environment [] files
      (remains.course, remains.files)
    | some program =>
      let report := utility program files [] arguments
      (.exits 0 (some report.status) (Latin1.bytes report.output)
        (Latin1.bytes report.complaints), files)

end WorkloadIdentity.Shell
