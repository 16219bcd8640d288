import WorkloadIdentity.Shell.Format
import WorkloadIdentity.World.FileTree

/-! The programs that scripts are made of: they read files and their input, and report a
status, output and complaints. Arguments and texts are bytes. -/

set_option autoImplicit false

namespace WorkloadIdentity.Shell

structure Report where
  status : Nat
  output : List Char
  complaints : List Char
  deriving DecidableEq, Repr

namespace Report

def quiet (status : Nat) : Report := ⟨status, [], []⟩

def printing (text : List Char) : Report := ⟨0, text, []⟩

def complaint (status : Nat) (text : String) : Report := ⟨status, [], text.toList ++ ['\n']⟩

end Report

/-- A path is text; bytes that are none are no path. -/
def pathOf (cs : List Char) : Option String := Utf8.text? (Latin1.bytes cs)

/-- Why a file cannot be read. -/
inductive Obstacle
  | missing
  | directory
  | notDirectory
  deriving DecidableEq, Repr

def Obstacle.text : Obstacle → String
  | .missing => "No such file or directory"
  | .directory => "Is a directory"
  | .notDirectory => "Not a directory"

/-- A file stands where a path needs a directory. -/
def isBlocked (files : FileTree) (path : String) : Bool :=
  let steps := FileTree.steps path
  (List.range (steps.length - 1)).any fun n =>
    (files.read? (String.intercalate "/" (steps.take (n + 1)))).isSome

/-- The path of the file that is always empty and keeps nothing. -/
def nullPath : String := "/dev/null"

def open? (files : FileTree) (path : List Char) : Except Obstacle (List Char) :=
  match pathOf path with
  | none => .error .missing
  | some path =>
    if path = nullPath then .ok []
    else
      match files.read? path with
      | some content => .ok (Latin1.chars content)
      | none =>
        match files.locate? path with
        | some location => .error (if files.isDirectory location then .directory else .missing)
        | none => .error (if isBlocked files path then .notDirectory else .missing)

namespace Utility

def hint (program : String) : String := "\nTry '" ++ program ++ " --help' for more information."

def misuse (program complaint : String) : Report :=
  Report.complaint 1 (program ++ ": " ++ complaint ++ hint program)

def invalidOption (program : String) (option : List Char) : Report :=
  misuse program ("invalid option -- '" ++ String.ofList (option.take 1) ++ "'")

/-- Files one after another; a single dash stands for the input. -/
def cat (files : FileTree) (input : List Char) (arguments : List (List Char)) : Report :=
  match arguments.find? fun a => a.head? == some '-' && 1 < a.length && a != ['-', 'u'] with
  | some option => invalidOption "cat" option.tail
  | none =>
    let paths := arguments.filter (· != ['-', 'u'])
    (if paths.isEmpty then [['-']] else paths).foldl
      (fun report path =>
        if path = ['-'] then { report with output := report.output ++ input }
        else
          match open? files path with
          | .ok content => { report with output := report.output ++ content }
          | .error obstacle =>
            let text := "cat: ".toList ++ path ++ (": " ++ obstacle.text ++ "\n").toList
            ⟨1, report.output, report.complaints ++ text⟩)
      (Report.quiet 0)

/-- The characters of a set: escapes stand for bytes and a dash for a range. -/
def characters : List Char → List Char
  | [] => []
  | [c] => [c]
  | [c, d] => [c, d]
  | c :: '-' :: d :: rest =>
    if c ≤ d then
      (List.range (d.toNat - c.toNat + 1)).map (fun n => Char.ofNat (c.toNat + n)) ++
        characters rest
    else characters rest
  | c :: d :: e :: rest => c :: characters (d :: e :: rest)

def characterSet (text : List Char) : List Char :=
  characters (Format.unescape ⟨false, false, false⟩ text).1

/-- The last character of the second set stands for all that it lacks. -/
def replacement (source target : List Char) (c : Char) : Char :=
  let n := source.length - 1 - source.reverse.idxOf c
  if source.contains c then (target[n]?.or target.getLast?).getD c else c

def tr (input : List Char) (arguments : List (List Char)) : Report :=
  match arguments with
  | [['-', 'd'], set] => .printing (input.filter fun c => !(characterSet set).contains c)
  | ('-' :: option :: _) :: _ =>
    if option = 'd' then misuse "tr" "missing operand" else invalidOption "tr" [option]
  | [source, target] =>
    .printing (input.map (replacement (characterSet source) (characterSet target)))
  | [] => misuse "tr" "missing operand"
  | [set] =>
    misuse "tr" ("missing operand after '" ++ String.ofList set ++
      "'\nTwo strings must be given when translating.")
  | _ :: _ :: extra :: _ => misuse "tr" ("extra operand '" ++ String.ofList extra ++ "'")

/-- A number of seconds, perhaps with a fraction and a unit. -/
def isInterval (text : List Char) : Bool :=
  let text := if ['s', 'm', 'h', 'd'].contains (text.getLast?.getD '0') then text.dropLast else text
  let whole := text.takeWhile Char.isDigit
  match text.drop whole.length with
  | [] => !whole.isEmpty
  | '.' :: fraction => fraction.all Char.isDigit && !(whole ++ fraction).isEmpty
  | _ => false

/-- Waiting takes no time by the clocks of the world. -/
def sleep (arguments : List (List Char)) : Report :=
  if arguments.isEmpty then misuse "sleep" "missing operand"
  else
    match arguments.find? (!isInterval ·) with
    | some text => misuse "sleep" ("invalid time interval '" ++ String.ofList text ++ "'")
    | none => .quiet 0

/-- Options of the program that shows its arguments: no line end, and escapes or not. -/
def isEchoOption (text : List Char) : Bool :=
  text.head? == some '-' && 1 < text.length &&
    text.tail.all fun c => c == 'n' || c == 'e' || c == 'E'

def echoed (dialect : Option Format.Dialect) (lineEnd : Bool) (arguments : List (List Char)) :
    List Char :=
  let text := List.intercalate [' '] arguments
  let (text, goesOn) := match dialect with
    | some d => Format.unescape d text
    | none => (text, true)
  if lineEnd && goesOn then text ++ ['\n'] else text

/-- The program of its own; the last of two contrary options counts. -/
def echo (arguments : List (List Char)) : Report :=
  let options := (arguments.takeWhile isEchoOption).flatMap List.tail
  let escapes := (options.filter (· != 'n')).getLast? == some 'e'
  .printing (echoed (if escapes then some ⟨true, true, true⟩ else none) (!options.contains 'n')
    (arguments.dropWhile isEchoOption))

/-- The command of the shell, which always reads escapes. -/
def echoCommand (arguments : List (List Char)) : Report :=
  let (lineEnd, arguments) := match arguments with
    | ['-', 'n'] :: rest => (false, rest)
    | rest => (true, rest)
  .printing (echoed (some ⟨false, true, true⟩) lineEnd arguments)

def withoutDashes : List (List Char) → List (List Char)
  | ['-', '-'] :: rest => rest
  | arguments => arguments

def complaintText (dialect : Format.Dialect) : Format.Complaint → String
  | .notNumeric text =>
    if dialect.hexadecimal then "'" ++ String.ofList text ++ "': expected a numeric value"
    else String.ofList text ++ ": expected numeric value"
  | .invalidDirective c =>
    if dialect.hexadecimal then "%" ++ c.toString ++ ": invalid conversion specification"
    else "%" ++ c.toString ++ ": invalid directive"
  | .missingDirective =>
    if dialect.hexadecimal then "%: invalid conversion specification"
    else "missing format character"

/-- Complaints name the program; `place` is what the shell puts before the name. -/
def formatted (dialect : Format.Dialect) (place : String) (format : List Char)
    (arguments : List (List Char)) : Report :=
  let filling := Format.print dialect format arguments
  let lines := filling.complaints.map fun c =>
    place ++ "printf: " ++ complaintText dialect c ++ "\n"
  let isNumeric : Format.Complaint → Bool
    | .notNumeric _ => true
    | _ => false
  let status :=
    if filling.complaints.isEmpty then 0
    else if dialect.hexadecimal || filling.complaints.all isNumeric then 1 else 2
  ⟨status, filling.output, (String.join lines).toList⟩

def printf (arguments : List (List Char)) : Report :=
  match withoutDashes arguments with
  | [] => misuse "printf" "missing operand"
  | format :: rest => formatted ⟨true, true, false⟩ "" format rest

/-- The command of the shell. -/
def printfCommand (place : String) (arguments : List (List Char)) : Report :=
  match withoutDashes arguments with
  | [] => .complaint 2 (place ++ "printf: usage: printf format [arg ...]")
  | format :: rest => formatted ⟨false, false, false⟩ place format rest

end Utility

end WorkloadIdentity.Shell
