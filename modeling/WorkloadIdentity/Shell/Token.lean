import WorkloadIdentity.Shell.Word

/-! Tokens of a script: words, operators and the ends of lines. One character after another
changes a state that knows the quotes it is in. -/

set_option autoImplicit false

namespace WorkloadIdentity.Shell

inductive Symbol
  | semicolon
  | background
  | pipe
  | both
  | either
  | openParen
  | closeParen
  | input
  | output
  | append
  | copyOutput
  | copyInput
  deriving DecidableEq, Repr

namespace Symbol

def text : Symbol → String
  | .semicolon => ";"
  | .background => "&"
  | .pipe => "|"
  | .both => "&&"
  | .either => "||"
  | .openParen => "("
  | .closeParen => ")"
  | .input => "<"
  | .output => ">"
  | .append => ">>"
  | .copyOutput => ">&"
  | .copyInput => "<&"

def ofChar? (c : Char) : Option Symbol :=
  if c = ';' then some .semicolon
  else if c = '&' then some .background
  else if c = '|' then some .pipe
  else if c = '(' then some .openParen
  else if c = ')' then some .closeParen
  else if c = '<' then some .input
  else if c = '>' then some .output
  else none

/-- The symbol that a further character makes of a symbol. -/
def extend? : Symbol → Char → Option Symbol
  | .background, '&' => some .both
  | .pipe, '|' => some .either
  | .output, '>' => some .append
  | .output, '&' => some .copyOutput
  | .input, '&' => some .copyInput
  | _, _ => none

def redirects : Symbol → Bool
  | .input | .output | .append | .copyOutput | .copyInput => true
  | _ => false

end Symbol

/-- A redirecting operator may have the number of a descriptor directly before it. -/
inductive Token
  | word (word : Word)
  | operator (symbol : Symbol) (descriptor : Option Nat)
  | newline
  deriving DecidableEq, Repr

inductive Mode
  | plain
  | comment
  | single
  | double
  /-- Behind a backslash. -/
  | escape
  | doubleEscape
  /-- Within the braces of a parameter. -/
  | braces (quoting : Quoting)
  /-- Behind an operator that may go on. -/
  | operator (symbol : Symbol) (descriptor : Option Nat)
  deriving DecidableEq, Repr

/-- Tokens with the lines that they stand in, the latest first, and the word that is being
read. -/
structure Lexer where
  mode : Mode
  line : Nat
  tokens : List (Nat × Token)
  word : Option (List Mark)
  deriving DecidableEq, Repr

namespace Lexer

def start : Lexer := ⟨.plain, 1, [], none⟩

def emit (lexer : Lexer) (token : Token) : Lexer :=
  { lexer with tokens := (lexer.line, token) :: lexer.tokens }

def add (lexer : Lexer) (mark : Mark) : Lexer :=
  { lexer with word := some (mark :: lexer.word.getD []) }

def addChar (lexer : Lexer) (c : Char) (quoting : Quoting) : Lexer := lexer.add (.char c quoting)

def setMode (lexer : Lexer) (mode : Mode) : Lexer := { lexer with mode := mode }

def endWord (lexer : Lexer) : Lexer :=
  match lexer.word with
  | some marks => { lexer with word := none }.emit (.word marks.reverse)
  | none => lexer

/-- The descriptor that an unquoted number before a redirecting operator names. -/
def descriptor? (lexer : Lexer) (symbol : Symbol) : Option Nat :=
  match symbol.redirects, lexer.word with
  | true, some marks =>
    let cs := marks.reverse.filterMap Mark.bareChar?
    if cs.length = marks.length ∧ isDigits cs then some (number cs) else none
  | _, _ => none

def beginOperator (lexer : Lexer) (symbol : Symbol) : Lexer :=
  match lexer.descriptor? symbol with
  | some n => { lexer with word := none, mode := .operator symbol (some n) }
  | none => lexer.endWord.setMode (.operator symbol none)

def endOperator (lexer : Lexer) : Lexer :=
  match lexer.mode with
  | .operator symbol descriptor => (lexer.emit (.operator symbol descriptor)).setMode .plain
  | _ => lexer

def endLine (lexer : Lexer) : Lexer :=
  let lexer := lexer.endWord.emit .newline
  { lexer with line := lexer.line + 1, mode := .plain }

/-- An opening brace directly behind a dollar sign that is not literal. -/
def opensBraces (lexer : Lexer) (c : Char) : Bool :=
  c == '\x7b' &&
    match lexer.word with
    | some (.char '$' quoting :: _) => quoting != .literal
    | _ => false

def plain (lexer : Lexer) (c : Char) : Lexer :=
  if c = '\n' then lexer.endLine
  else if c = ' ' ∨ c = '\t' then lexer.endWord
  else if c = '\x27' then (lexer.add .quote).setMode .single
  else if c = '"' then (lexer.add .quote).setMode .double
  else if c = '\\' then lexer.setMode .escape
  else if c = '#' ∧ lexer.word.isNone then lexer.setMode .comment
  else if lexer.opensBraces c then (lexer.addChar c .bare).setMode (.braces .bare)
  else
    match Symbol.ofChar? c with
    | some symbol => lexer.beginOperator symbol
    | none => lexer.addChar c .bare

def countLine (lexer : Lexer) (c : Char) : Lexer :=
  if c = '\n' then { lexer with line := lexer.line + 1 } else lexer

def next (lexer : Lexer) (c : Char) : Lexer :=
  match lexer.mode with
  | .plain => lexer.plain c
  | .comment => if c = '\n' then lexer.endLine else lexer
  | .single =>
    if c = '\x27' then lexer.setMode .plain else (lexer.addChar c .literal).countLine c
  | .double =>
    if c = '"' then lexer.setMode .plain
    else if c = '\\' then lexer.setMode .doubleEscape
    else if lexer.opensBraces c then (lexer.addChar c .double).setMode (.braces .double)
    else (lexer.addChar c .double).countLine c
  | .escape =>
    let lexer := lexer.setMode .plain
    if c = '\n' then lexer.countLine c else (lexer.add .quote).addChar c .literal
  | .doubleEscape =>
    let lexer := lexer.setMode .double
    if c = '\n' then lexer.countLine c
    else if c = '$' ∨ c = '\x60' ∨ c = '"' ∨ c = '\\' then lexer.addChar c .literal
    else (lexer.addChar '\\' .literal).addChar c .double
  | .braces quoting =>
    let after := (lexer.addChar c quoting).countLine c
    if c = '\x7d' then after.setMode (if quoting = .double then .double else .plain) else after
  | .operator symbol descriptor =>
    match symbol.extend? c with
    | some longer => lexer.setMode (.operator longer descriptor)
    | none => lexer.endOperator.plain c

/-- The tokens once all characters are read; quotes have to be closed. -/
def finish (lexer : Lexer) : Except Nat (List (Nat × Token)) :=
  match lexer.mode with
  | .single | .double | .doubleEscape | .braces _ => .error lexer.line
  | .escape => .ok ((lexer.addChar '\\' .literal).endWord.tokens.reverse)
  | _ => .ok (lexer.endOperator.endWord.tokens.reverse)

end Lexer

/-- The tokens of a script, and the line where quotes stay open if they do. -/
def tokens (script : List Char) : List (Nat × Token) × Option Nat :=
  let lexer := script.foldl Lexer.next .start
  match lexer.finish with
  | .ok tokens => (tokens, none)
  | .error line => (lexer.tokens.reverse, some line)

end WorkloadIdentity.Shell
