import WorkloadIdentity.Json.Basic
import WorkloadIdentity.Text.Hex

/-! The compact text of a value: no spaces, members in their order, and the two-character
escapes where JSON has them. -/

set_option autoImplicit false

namespace WorkloadIdentity.Json

/-- Quotes, backslashes and control characters are escaped, all else stands as it is. -/
def escapeChar (c : Char) : List Char :=
  if c = '"' then ['\\', '"']
  else if c = '\\' then ['\\', '\\']
  else if c = '\n' then ['\\', 'n']
  else if c = '\r' then ['\\', 'r']
  else if c = '\t' then ['\\', 't']
  else if c = '\x08' then ['\\', 'b']
  else if c = '\x0c' then ['\\', 'f']
  else if c.toNat < 0x20 then
    ['\\', 'u', '0', '0', Hex.lowerDigit (c.toNat / 16), Hex.lowerDigit (c.toNat % 16)]
  else [c]

def quote (text : List Char) : List Char := '"' :: text.flatMap escapeChar ++ ['"']

def printNumber : Number → List Char
  | .integer n => if n < 0 then '-' :: Nat.toDigits 10 n.natAbs else Nat.toDigits 10 n.natAbs
  | .real x => x.text

mutual

def print : Json → List Char
  | .null => ['n', 'u', 'l', 'l']
  | .bool true => ['t', 'r', 'u', 'e']
  | .bool false => ['f', 'a', 'l', 's', 'e']
  | .number n => printNumber n
  | .string s => quote s.toList
  | .array [] => ['[', ']']
  | .array (x :: xs) => '[' :: print x ++ printElements xs
  | .object [] => ['\x7b', '\x7d']
  | .object ((k, v) :: ms) => '\x7b' :: quote k.toList ++ ':' :: print v ++ printMembers ms

/-- The further elements of an array and its closing bracket. -/
def printElements : List Json → List Char
  | [] => [']']
  | x :: xs => ',' :: print x ++ printElements xs

def printMembers : List (String × Json) → List Char
  | [] => ['\x7d']
  | (k, v) :: ms => ',' :: quote k.toList ++ ':' :: print v ++ printMembers ms

end

def render (value : Json) : String := String.ofList value.print

end WorkloadIdentity.Json
