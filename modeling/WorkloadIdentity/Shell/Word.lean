import WorkloadIdentity.Text.Latin1

/-! Words of a script. A word is a row of marks: characters with the way in which they are
quoted, and the places where quotes open. Expansion puts the values of parameters into
words and splits what is not quoted at blanks. -/

set_option autoImplicit false

namespace WorkloadIdentity.Shell

inductive Quoting
  | bare
  | double
  | literal
  deriving DecidableEq, Repr

inductive Mark
  | char (char : Char) (quoting : Quoting)
  | quote
  deriving DecidableEq, Repr

abbrev Word := List Mark

namespace Mark

def char? : Mark → Option Char
  | .char c _ => some c
  | .quote => none

def bareChar? : Mark → Option Char
  | .char c .bare => some c
  | _ => none

end Mark

inductive Parameter
  | variable (name : List Char)
  /-- The argument of a number; that of zero is the name of the script. -/
  | argument (number : Nat)
  | count
  | arguments (joined : Bool)
  | status
  | process
  deriving DecidableEq, Repr

/-- A text that takes the place of a parameter that has a value or that has none; `orEmpty`
counts an empty value as none. -/
structure Substitute where
  whenSet : Bool
  orEmpty : Bool
  text : List Char
  deriving DecidableEq, Repr

inductive Piece
  | char (char : Char)
  /-- Stands for quotes, which make a field even around nothing. -/
  | anchor
  | parameter (parameter : Parameter) (substitute : Option Substitute) (quoted : Bool)
  deriving DecidableEq, Repr

def isNameStart (c : Char) : Bool := c.isAlpha || c == '_'

def isNameChar (c : Char) : Bool := c.isAlphanum || c == '_'

def isDigits (cs : List Char) : Bool := !cs.isEmpty && cs.all Char.isDigit

def number (digits : List Char) : Nat :=
  digits.foldl (fun n d => n * 10 + (d.toNat - '0'.toNat)) 0

def digits (n : Nat) : List Char := Nat.toDigits 10 n

/-- A parameter of one character. -/
def special? (c : Char) : Option Parameter :=
  if c = '#' then some .count
  else if c = '@' then some (.arguments false)
  else if c = '*' then some (.arguments true)
  else if c = '?' then some .status
  else if c = '$' then some .process
  else if c.isDigit then some (.argument (number [c]))
  else none

/-- The parameter at the front and how many characters it takes. -/
def parameter? (cs : List Char) : Option (Parameter × Nat) :=
  match cs with
  | [] => none
  | c :: _ =>
    if isNameStart c then
      let name := cs.takeWhile isNameChar
      some (.variable name, name.length)
    else (special? c).map (·, 1)

/-- The parameter at the front of braces, where numbers may have several digits. -/
def bracedParameter? (cs : List Char) : Option (Parameter × Nat) :=
  let digits := cs.takeWhile Char.isDigit
  if digits.isEmpty then parameter? cs else some (.argument (number digits), digits.length)

def substitute? : List Char → Option Substitute
  | ':' :: '-' :: text => some ⟨false, true, text⟩
  | ':' :: '+' :: text => some ⟨true, true, text⟩
  | '-' :: text => some ⟨false, false, text⟩
  | '+' :: text => some ⟨true, false, text⟩
  | _ => none

/-- The parameter of a text in braces; `none` if the text is none. -/
def braced? (cs : List Char) : Option (Parameter × Option Substitute) := do
  let (parameter, n) ← bracedParameter? cs
  match cs.drop n with
  | [] => some (parameter, none)
  | rest => (substitute? rest).map fun s => (parameter, some s)

/-- What follows a dollar sign, and how many marks it takes. A dollar sign before anything
else stands for itself. -/
def expansion (quoted : Bool) (rest : List Mark) : Piece × Nat :=
  let cs := rest.map fun m => m.char?.getD '\x00'
  match cs with
  | '\x7b' :: inner =>
    let text := inner.takeWhile (· != '\x7d')
    match braced? text with
    | some (parameter, substitute) => (.parameter parameter substitute quoted, text.length + 2)
    | none => (.char '$', 0)
  | _ =>
    match parameter? cs with
    | some (parameter, n) => (.parameter parameter none quoted, n)
    | none => (.char '$', 0)

def pieces : Word → List Piece
  | [] => []
  | .quote :: rest => .anchor :: pieces rest
  | .char c quoting :: rest =>
    if c = '$' ∧ quoting ≠ .literal then
      let (piece, n) := expansion (quoting == .double) rest
      piece :: pieces (rest.drop n)
    else .char c :: pieces rest
termination_by word => word.length
decreasing_by all_goals simp only [List.length_drop, List.length_cons]; omega

/-- What parameters stand for. -/
structure Values where
  named? : List Char → Option (List Char)
  script : List Char
  arguments : List (List Char)
  status : Nat
  process : Nat

namespace Values

def argument? (values : Values) (number : Nat) : Option (List Char) :=
  if number = 0 then some values.script else values.arguments[number - 1]?

def value? (values : Values) : Parameter → Option (List Char)
  | .variable name => values.named? name
  | .argument number => values.argument? number
  | .count => some (digits values.arguments.length)
  | .arguments _ =>
    if values.arguments.isEmpty then none else some (List.intercalate [' '] values.arguments)
  | .status => some (digits values.status)
  | .process => some (digits values.process)

def substituted (value : Option (List Char)) (s : Substitute) : List Char :=
  let isSet := value.any fun v => !(s.orEmpty && v.isEmpty)
  if s.whenSet then if isSet then s.text else []
  else if isSet then value.getD [] else s.text

end Values

/-- A part of expanded text: a character, quotes, or the end of a field. -/
inductive Atom
  | char (char : Char)
  | anchor
  | gap
  deriving DecidableEq, Repr

def isGap (c : Char) : Bool := c == ' ' || c == '\t' || c == '\n'

def atoms (quoted : Bool) (value : List Char) : List Atom :=
  value.map fun c => if !quoted && isGap c then .gap else .char c

def expandPiece (values : Values) : Piece → List Atom
  | .char c => [.char c]
  | .anchor => [.anchor]
  | .parameter (.arguments joined) none quoted =>
    if joined && quoted then (List.intercalate [' '] values.arguments).map .char
    else List.intercalate [.gap] (values.arguments.map fun a =>
      if quoted then .anchor :: atoms true a else atoms false a)
  | .parameter parameter none quoted => atoms quoted ((values.value? parameter).getD [])
  | .parameter parameter (some s) quoted =>
    atoms quoted (Values.substituted (values.value? parameter) s)

def Atom.char? : Atom → Option Char
  | .char c => some c
  | _ => none

/-- The fields of expanded text; one without characters counts if there were quotes. -/
def fieldsOf (text : List Atom) : List (List Char) :=
  ((text.splitOn .gap).filter (!·.isEmpty)).map fun field => field.filterMap Atom.char?

/-- The fields of a word. All arguments in quotes are no field if there are none. -/
def fields (values : Values) (word : Word) : List (List Char) :=
  let pieces := pieces word
  if pieces = [.anchor, .parameter (.arguments false) none true] ∧ values.arguments = [] then []
  else fieldsOf (pieces.flatMap (expandPiece values))

/-- The text of a word that is not split. -/
def textOf (values : Values) (word : Word) : List Char :=
  (pieces word).flatMap fun
    | .char c => [c]
    | .anchor => []
    | .parameter parameter none _ => (values.value? parameter).getD []
    | .parameter parameter (some s) _ => Values.substituted (values.value? parameter) s

end WorkloadIdentity.Shell
