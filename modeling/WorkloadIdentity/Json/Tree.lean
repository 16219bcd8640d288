import WorkloadIdentity.Json.Basic

/-! What a JSON text spells, before it is a value. A tree keeps members in the order of
the text with all repetitions, the digits of numbers, and a `none` for strings that name
no text because of an unpaired surrogate or stray bytes. Turning it into a value checks
nesting, the range of numbers and the strings, and merges members. -/

set_option autoImplicit false

namespace WorkloadIdentity

/-- A number as written, without its point and exponent letter. -/
structure Numeral where
  negative : Bool
  whole : List Char
  fraction : Option (List Char)
  exponent : Option (Bool × List Char)
  deriving DecidableEq, Repr

namespace Numeral

def natOf (digits : List Char) : Nat := Nat.ofDigitChars 10 digits 0

/-- The largest significand that is kept exactly. -/
def maxSignificand : Nat := Nat.pow 2 64 - 1

/-- Appends digits as long as the significand fits; the rest is left over. -/
def absorb (significand : Nat) : List Char → Nat × List Char
  | [] => (significand, [])
  | d :: ds =>
    let next := 10 * significand + (d.toNat - '0'.toNat)
    if next ≤ maxSignificand then absorb next ds else (significand, d :: ds)

/-- An integer of at most 64 bits stays one, with `-0` and everything else a double. -/
def number? (n : Numeral) : Option Number :=
  let (significand, excess) := absorb 0 n.whole
  if excess.isEmpty && n.fraction.isNone && n.exponent.isNone &&
      (!n.negative || (significand != 0 && significand ≤ Nat.pow 2 63)) then
    some (.integer (if n.negative then -(significand : Int) else significand))
  else
    let digits := n.fraction.getD []
    let (significand, unread) := absorb significand digits
    let point : Int := excess.length - ((digits.length - unread.length : Nat) : Int)
    let exponent : Int := match n.exponent with
      | none => point
      | some (true, ds) => point - natOf ds
      | some (false, ds) => point + natOf ds
    (Binary64.ofDecimal? n.negative significand exponent).map .real

end Numeral

inductive Tree
  | null
  | bool (b : Bool)
  | number (n : Numeral)
  | string (s : Option String)
  | array (elements : List Tree)
  | object (members : List (Option String × Tree))
  deriving Repr, Inhabited

namespace Tree

/-- Containers may stand in one another this often. -/
def maxDepth : Nat := 127

mutual

def valueAt? (depth : Nat) : Tree → Option Json
  | .null => some .null
  | .bool b => some (.bool b)
  | .number n => n.number?.map .number
  | .string s => s.map .string
  | .array elements =>
    match depth with
    | 0 => none
    | depth + 1 => (elementsAt? depth elements).map .array
  | .object members =>
    match depth with
    | 0 => none
    | depth + 1 => (membersAt? depth members).map Json.ofMembers

def elementsAt? (depth : Nat) : List Tree → Option (List Json)
  | [] => some []
  | x :: xs => do return (← valueAt? depth x) :: (← elementsAt? depth xs)

def membersAt? (depth : Nat) : List (Option String × Tree) → Option (List (String × Json))
  | [] => some []
  | (name, x) :: ms => do return (← name, ← valueAt? depth x) :: (← membersAt? depth ms)

end

def value? (tree : Tree) : Option Json := valueAt? maxDepth tree

end Tree

end WorkloadIdentity
