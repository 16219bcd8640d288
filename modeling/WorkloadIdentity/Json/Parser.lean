import WorkloadIdentity.Json.Tree
import WorkloadIdentity.Text.Hex

/-! Parsing of JSON texts into trees. The text comes as scalar values with a `none` for
each ill-formed part, which may stand inside strings only. Each recursive call is made on
a shorter text, so the length of the text is fuel enough. -/

set_option autoImplicit false

namespace WorkloadIdentity.Tree

abbrev Text := List (Option Char)

def isSpace : Option Char → Bool
  | some ' ' | some '\n' | some '\t' | some '\r' => true
  | _ => false

def skip (text : Text) : Text := text.dropWhile isSpace

def isDigit : Option Char → Bool
  | some c => '0' ≤ c && c ≤ '9'
  | none => false

/-- The longest run of digits at the front, and what follows it. -/
def digits (text : Text) : List Char × Text :=
  ((text.takeWhile isDigit).filterMap id, text.dropWhile isDigit)

/-- The digits and what follows, unless there is none. -/
def someDigits? (text : Text) : Option (List Char × Text) :=
  match digits text with
  | ([], _) => none
  | r => some r

/-- A single zero, or digits that do not start with one. -/
def whole? (text : Text) : Option (List Char × Text) :=
  match someDigits? text with
  | some ('0' :: _ :: _, _) => none
  | r => r

def fraction? : Text → Option (Option (List Char) × Text)
  | some '.' :: rest => (someDigits? rest).map fun (ds, r) => (some ds, r)
  | text => some (none, text)

def exponentDigits? : Text → Option ((Bool × List Char) × Text)
  | some '-' :: rest => (someDigits? rest).map fun (ds, r) => ((true, ds), r)
  | some '+' :: rest => (someDigits? rest).map fun (ds, r) => ((false, ds), r)
  | rest => (someDigits? rest).map fun (ds, r) => ((false, ds), r)

def exponent? : Text → Option (Option (Bool × List Char) × Text)
  | some 'e' :: rest => (exponentDigits? rest).map fun (e, r) => (some e, r)
  | some 'E' :: rest => (exponentDigits? rest).map fun (e, r) => (some e, r)
  | text => some (none, text)

def magnitude? (negative : Bool) (text : Text) : Option (Numeral × Text) := do
  let (whole, text) ← whole? text
  let (fraction, text) ← fraction? text
  let (exponent, text) ← exponent? text
  return (⟨negative, whole, fraction, exponent⟩, text)

def numeral? : Text → Option (Numeral × Text)
  | some '-' :: rest => magnitude? true rest
  | text => magnitude? false text

/-- A piece of a string: a character, a `\u` escape by its code unit, or a stray part. -/
inductive Piece
  | scalar (c : Char)
  | escape (code : Nat)
  | stray
  deriving DecidableEq, Repr

def hexValue? (unit : Option Char) : Option Nat := unit.bind Hex.value?

def shortEscape? : Char → Option Char
  | '"' => some '"'
  | '\\' => some '\\'
  | '/' => some '/'
  | 'b' => some '\x08'
  | 'f' => some '\x0c'
  | 'n' => some '\n'
  | 'r' => some '\r'
  | 't' => some '\t'
  | _ => none

/-- The pieces up to the closing quote and what follows it. Control characters have to
be escaped. -/
def pieces? : Text → Option (List Piece × Text)
  | [] => none
  | some '"' :: rest => some ([], rest)
  | some '\\' :: some 'u' :: a :: b :: c :: d :: rest => do
    let code := (((← hexValue? a) * 16 + (← hexValue? b)) * 16 + (← hexValue? c)) * 16
      + (← hexValue? d)
    let (ps, rest) ← pieces? rest
    return (.escape code :: ps, rest)
  | some '\\' :: some e :: rest => do
    let c ← shortEscape? e
    let (ps, rest) ← pieces? rest
    return (.scalar c :: ps, rest)
  | some '\\' :: _ => none
  | some c :: rest =>
    if c.toNat < 0x20 then none
    else do
      let (ps, rest) ← pieces? rest
      return (.scalar c :: ps, rest)
  | none :: rest => do
    let (ps, rest) ← pieces? rest
    return (.stray :: ps, rest)

def isHigh (code : Nat) : Bool := 0xD800 ≤ code && code ≤ 0xDBFF

def isLow (code : Nat) : Bool := 0xDC00 ≤ code && code ≤ 0xDFFF

/-- Joins surrogate pairs; a surrogate on its own and a stray part name no text. -/
def text? : List Piece → Option (List Char)
  | [] => some []
  | .scalar c :: rest => (text? rest).map (c :: ·)
  | .stray :: _ => none
  | .escape high :: .escape low :: rest =>
    if isHigh high then
      if isLow low then
        (text? rest).map
          (Char.ofNat (0x10000 + (high - 0xD800) * 0x400 + (low - 0xDC00)) :: ·)
      else none
    else if isLow high then none
    else (text? (.escape low :: rest)).map (Char.ofNat high :: ·)
  | .escape code :: rest =>
    if isHigh code || isLow code then none else (text? rest).map (Char.ofNat code :: ·)

/-- A string after its opening quote. -/
def string? (text : Text) : Option (Option String × Text) :=
  (pieces? text).map fun (ps, rest) => ((text? ps).map String.ofList, rest)

/-- The text after a word that has to stand at its front. -/
def word? : List Char → Text → Option Text
  | [], text => some text
  | c :: cs, some d :: rest => if c = d then word? cs rest else none
  | _ :: _, _ => none

mutual

def parseValue : Nat → Text → Option (Tree × Text)
  | 0, _ => none
  | fuel + 1, text =>
    match skip text with
    | some '\x7b' :: rest =>
      match skip rest with
      | some '\x7d' :: rest => some (.object [], rest)
      | rest => (parseMembers fuel rest).map fun (ms, r) => (.object ms, r)
    | some '[' :: rest =>
      match skip rest with
      | some ']' :: rest => some (.array [], rest)
      | rest => (parseElements fuel rest).map fun (xs, r) => (.array xs, r)
    | some '"' :: rest => (string? rest).map fun (s, r) => (.string s, r)
    | some 'n' :: rest => (word? ['u', 'l', 'l'] rest).map (.null, ·)
    | some 't' :: rest => (word? ['r', 'u', 'e'] rest).map (.bool true, ·)
    | some 'f' :: rest => (word? ['a', 'l', 's', 'e'] rest).map (.bool false, ·)
    | rest => (numeral? rest).map fun (n, r) => (.number n, r)

/-- One or more values with commas between them, up to the closing bracket. -/
def parseElements : Nat → Text → Option (List Tree × Text)
  | 0, _ => none
  | fuel + 1, text => do
    let (x, rest) ← parseValue fuel text
    match skip rest with
    | some ']' :: rest => return ([x], rest)
    | some ',' :: rest =>
      let (xs, rest) ← parseElements fuel rest
      return (x :: xs, rest)
    | _ => none

/-- One or more named values with commas between them, up to the closing brace. -/
def parseMembers : Nat → Text → Option (List (Option String × Tree) × Text)
  | 0, _ => none
  | fuel + 1, text => do
    let some '"' :: rest := skip text | none
    let (name, rest) ← string? rest
    let some ':' :: rest := skip rest | none
    let (x, rest) ← parseValue fuel rest
    match skip rest with
    | some '\x7d' :: rest => return ([(name, x)], rest)
    | some ',' :: rest =>
      let (ms, rest) ← parseMembers fuel rest
      return ((name, x) :: ms, rest)
    | _ => none

end

/-- A value with nothing but spaces around it. Every call takes a character, save that a
list calls its first member on the same text. -/
def parse? (text : Text) : Option Tree := do
  let (tree, rest) ← parseValue (2 * text.length + 2) text
  if (skip rest).isEmpty then some tree else none

def ofBytes? (bytes : Bytes) : Option Tree := parse? (Utf8.units bytes)

def ofString? (text : String) : Option Tree := parse? (text.toList.map some)

end WorkloadIdentity.Tree

namespace WorkloadIdentity

namespace Json

def ofBytes? (bytes : Bytes) : Option Json := (Tree.ofBytes? bytes).bind Tree.value?

def ofString? (text : String) : Option Json := (Tree.ofString? text).bind Tree.value?

end Json

end WorkloadIdentity
