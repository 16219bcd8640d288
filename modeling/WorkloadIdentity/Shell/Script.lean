import WorkloadIdentity.Shell.Token

/-! Scripts: lines of commands that are joined by operators. A script that is ill-formed
somewhere is still read up to the line where that shows. -/

set_option autoImplicit false

namespace WorkloadIdentity.Shell

structure Redirection where
  symbol : Symbol
  descriptor : Option Nat
  target : Word
  deriving DecidableEq, Repr

structure Command where
  line : Nat
  words : List Word
  redirections : List Redirection
  deriving DecidableEq, Repr

/-- When a pipeline runs, in view of the one before it. -/
inductive Joint
  | always
  | onSuccess
  | onFailure
  deriving DecidableEq, Repr

structure Pipeline where
  joint : Joint
  negated : Bool
  commands : List Command
  deriving DecidableEq, Repr

/-- What is wrong with a script. -/
inductive SyntaxFlaw
  | unexpected (token : String)
  | openQuotes
  deriving DecidableEq, Repr

def SyntaxFlaw.text : SyntaxFlaw → String
  | .unexpected token => "Syntax error: " ++ token ++ " unexpected"
  | .openQuotes => "Syntax error: Unterminated quoted string"

structure Script where
  lines : List (List Pipeline)
  flaw : Option (Nat × SyntaxFlaw)
  deriving DecidableEq, Repr

namespace Script

/-- What has been read of a line, the latest parts first. -/
structure Reader where
  lines : List (List Pipeline)
  pipelines : List Pipeline
  joint : Joint
  negated : Bool
  commands : List Command
  /-- The command that is being read, with its words and redirections in reverse. -/
  command : Option Command
  pending : Option (Symbol × Option Nat)
  /-- An operator asks for a further command, if need be on the next line. -/
  awaiting : Bool
  deriving DecidableEq, Repr

namespace Reader

def start : Reader := ⟨[], [], .always, false, [], none, none, false⟩

def isNegation (word : Word) : Bool := word == [.char '!' .bare]

def commandAt (reader : Reader) (line : Nat) : Command := reader.command.getD ⟨line, [], []⟩

def addWord (reader : Reader) (line : Nat) (word : Word) : Reader :=
  let command := reader.commandAt line
  match reader.pending with
  | some (symbol, descriptor) =>
    { reader with
      command := some { command with
        redirections := ⟨symbol, descriptor, word⟩ :: command.redirections }
      pending := none
      awaiting := false }
  | none =>
    if isNegation word && reader.command.isNone && reader.commands.isEmpty then
      { reader with negated := true, awaiting := true }
    else
      { reader with
        command := some { command with words := word :: command.words }, awaiting := false }

def endCommand (reader : Reader) : Reader :=
  match reader.command with
  | some c =>
    { reader with
      command := none
      commands := { c with words := c.words.reverse, redirections := c.redirections.reverse } ::
        reader.commands }
  | none => reader

/-- Ends a pipeline; the next one depends on it as `joint` says. -/
def endPipeline (reader : Reader) (joint : Joint) : Reader :=
  let reader := reader.endCommand
  let pipelines :=
    if reader.commands.isEmpty then reader.pipelines
    else ⟨reader.joint, reader.negated, reader.commands.reverse⟩ :: reader.pipelines
  { reader with pipelines := pipelines, joint := joint, negated := false, commands := [] }

def endLine (reader : Reader) : Reader :=
  let reader := reader.endPipeline .always
  { reader with lines := reader.pipelines.reverse :: reader.lines, pipelines := [] }

def quoted (text : String) : String := "\"" ++ text ++ "\""

def unexpected {α : Type} (line : Nat) (token : String) : Except (Nat × SyntaxFlaw) α :=
  .error (line, .unexpected token)

def operator (reader : Reader) (line : Nat) (symbol : Symbol) (descriptor : Option Nat) :
    Except (Nat × SyntaxFlaw) Reader :=
  if reader.pending.isSome then unexpected line (quoted symbol.text)
  else if symbol.redirects then
    .ok { reader with
      command := some (reader.commandAt line), pending := some (symbol, descriptor) }
  else if reader.command.isNone then unexpected line (quoted symbol.text)
  else
    match symbol with
    | .pipe => .ok { reader.endCommand with awaiting := true }
    | .both => .ok { reader.endPipeline .onSuccess with awaiting := true }
    | .either => .ok { reader.endPipeline .onFailure with awaiting := true }
    | .semicolon | .background => .ok (reader.endPipeline .always)
    | _ => unexpected line (quoted symbol.text)

def next (reader : Reader) : Nat × Token → Except (Nat × SyntaxFlaw) Reader
  | (line, .word word) => .ok (reader.addWord line word)
  | (line, .operator symbol descriptor) => reader.operator line symbol descriptor
  | (line, .newline) =>
    if reader.pending.isSome || reader.negated && reader.awaiting then
      unexpected (line + 1) "newline"
    else if reader.awaiting then .ok reader
    else .ok reader.endLine

end Reader

def read : Reader → Nat → List (Nat × Token) → Script
  | reader, line, [] =>
    if reader.awaiting || reader.pending.isSome then
      ⟨reader.lines.reverse, some (line, .unexpected "end of file")⟩
    else ⟨reader.endLine.lines.reverse, none⟩
  | reader, _, token :: rest =>
    match reader.next token with
    | .ok reader => read reader (if token.2 = .newline then token.1 + 1 else token.1) rest
    | .error flaw => ⟨reader.lines.reverse, some flaw⟩

/-- The lines of a text. Where quotes stay open, only the lines before them are read. -/
def ofText (text : List Char) : Script :=
  match tokens text with
  | (tokens, none) => read .start 1 tokens
  | (tokens, some line) =>
    let ended := (tokens.reverse.dropWhile fun t => t.2 != .newline).reverse
    let script := read .start 1 ended
    ⟨script.lines, some (script.flaw.getD (line, .openQuotes))⟩

end Script

end WorkloadIdentity.Shell
