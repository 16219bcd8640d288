import WorkloadIdentity.Encoding.Percent
import WorkloadIdentity.Text.Blank

/-! Hosts of URLs: names, IPv4 addresses in any of their spellings, and IPv6 addresses
in brackets. A host is kept as its canonical text. Names outside ASCII are kept as they
are written; of their mapping to ASCII only its refusal of white space is modelled. -/

set_option autoImplicit false

namespace WorkloadIdentity.Url

def natText (n : Nat) : List Char := Nat.toDigits 10 n

def decimal? (cs : List Char) : Option Nat :=
  if cs.isEmpty || !cs.all Char.isDigit then none else some (Nat.ofDigitChars 10 cs 0)

def radixDigits? (radix : Nat) : List Char → Option (List Nat)
  | [] => some []
  | c :: cs => do
    let d ← Hex.value? c
    if d < radix then return d :: (← radixDigits? radix cs) else none

/-- A number with the usual prefixes for base 16 and base 8. A bare prefix is zero. -/
def ipv4Number? : List Char → Option Nat
  | [] => none
  | '0' :: 'x' :: ds | '0' :: 'X' :: ds => number 16 ds
  | '0' :: d :: ds => number 8 (d :: ds)
  | ds => number 10 ds
where
  number (radix : Nat) (ds : List Char) : Option Nat :=
    (radixDigits? radix ds).map fun values => values.foldl (fun n d => n * radix + d) 0

/-- The labels of a name without the empty one after a final dot. -/
def labels (name : List Char) : List (List Char) :=
  let parts := name.splitOn '.'
  if parts.length > 1 ∧ parts.getLast? = some [] then parts.dropLast else parts

/-- Such a name has to be an IPv4 address. -/
def endsInNumber (name : List Char) : Bool :=
  match (labels name).getLast? with
  | none => false
  | some label => (decimal? label).isSome || (ipv4Number? label).isSome

/-- Up to four numbers; the last one fills the bytes that the others leave. -/
def ipv4Value? (numbers : List Nat) : Option Nat :=
  match numbers.reverse with
  | [] => none
  | last :: front =>
    if numbers.length ≤ 4 ∧ front.all (· ≤ 255) ∧ last < Nat.pow 256 (5 - numbers.length) then
      some (front.reverse.foldl (fun n b => n * 256 + b) 0 * Nat.pow 256 (5 - numbers.length) + last)
    else none

def ipv4? (name : List Char) : Option (List Char) := do
  let numbers ← (labels name).mapM ipv4Number?
  let n ← ipv4Value? numbers
  return natText (n / 16777216) ++ '.' :: natText (n / 65536 % 256) ++
    '.' :: natText (n / 256 % 256) ++ '.' :: natText (n % 256)

/-- One to four hexadecimal digits. -/
def piece? (cs : List Char) : Option Nat :=
  if cs.isEmpty || cs.length > 4 then none
  else (radixDigits? 16 cs).map fun ds => ds.foldl (fun n d => n * 16 + d) 0

/-- A byte in decimal without leading zeros. -/
def byte? (cs : List Char) : Option Nat := do
  let n ← decimal? cs
  if n ≤ 255 ∧ (cs.length = 1 ∨ cs.head? ≠ some '0') then some n else none

/-- The last two pieces may be written as four bytes in decimal. -/
def dotted? (cs : List Char) : Option (List Nat) := do
  let bytes ← (cs.splitOn '.').mapM byte?
  match bytes with
  | [a, b, c, d] => some [a * 256 + b, c * 256 + d]
  | _ => none

/-- Pieces separated by single colons; `dots` allows the dotted form at the end. -/
def pieces? (dots : Bool) (cs : List Char) : Option (List Nat) :=
  if cs.isEmpty then some []
  else go (cs.splitOn ':')
where
  go : List (List Char) → Option (List Nat)
    | [] => some []
    | [cs] => if dots && cs.contains '.' then dotted? cs else (piece? cs).map ([·])
    | cs :: rest => do return (← piece? cs) :: (← go rest)

/-- The texts before and after the first double colon. -/
def splitDouble : List Char → Option (List Char × List Char)
  | ':' :: ':' :: rest => some ([], rest)
  | c :: rest => (splitDouble rest).map fun (a, b) => (c :: a, b)
  | [] => none

def ipv6Pieces? (cs : List Char) : Option (List Nat) :=
  match splitDouble cs with
  | none => do
    let pieces ← if cs.isEmpty then none else pieces? true cs
    if pieces.length = 8 then some pieces else none
  | some (left, right) => do
    let left ← pieces? false left
    let right ← pieces? true right
    if left.length + right.length ≤ 7 then
      some (left ++ List.replicate (8 - left.length - right.length) 0 ++ right)
    else none

/-- The first of the longest runs of zero pieces, as start and length. -/
def longestZeros (pieces : List Nat) : Nat × Nat :=
  let runs := (List.range 8).map fun i => (i, ((pieces.drop i).takeWhile (· == 0)).length)
  runs.foldl (fun best run => if run.2 > best.2 then run else best) (0, 0)

def hexText (n : Nat) : List Char := Nat.toDigits 16 n

def colonText (pieces : List Nat) : List Char := [':'].intercalate (pieces.map hexText)

/-- The longest run of at least two zero pieces is left out. -/
def ipv6Text (pieces : List Nat) : List Char :=
  let (start, length) := longestZeros pieces
  if length < 2 then colonText pieces
  else colonText (pieces.take start) ++ ':' :: ':' :: colonText (pieces.drop (start + length))

def ipv6? (cs : List Char) : Option (List Char) :=
  (ipv6Pieces? cs).map fun pieces => '[' :: ipv6Text pieces ++ [']']

/-- An address in brackets, if the text opens one. -/
def bracketed? : List Char → Option (Option (List Char))
  | '[' :: rest => some (if rest.getLast? = some ']' then ipv6? rest.dropLast else none)
  | _ => none

/-- Characters that no host contains. -/
def isForbidden (c : Char) : Bool :=
  ['\x00', '\t', '\n', '\r', ' ', '#', '/', ':', '<', '>', '?', '@', '[', '\\', ']', '^',
    '|'].contains c

def isForbiddenInName (c : Char) : Bool :=
  isForbidden c || Blank.isBlank c || c.toNat < 0x20 || c == '%' || c == '\x7f'

/-- What stands as it is in a host or a path without structure. -/
def keepOpaque (b : UInt8) : Bool := 0x20 ≤ b && b < 0x7F

/-- The host of a URL whose scheme is not special: taken as it is. -/
def opaqueHost? (cs : List Char) : Option (List Char) :=
  match bracketed? cs with
  | some address => address
  | none =>
    if cs.any isForbidden then none else some (Percent.encode keepOpaque (Utf8.encode cs))

/-- The host of a URL with a special scheme: escapes are resolved and letters lowered. -/
def namedHost? (cs : List Char) : Option (List Char) :=
  match bracketed? cs with
  | some address => address
  | none => do
    let name ← Utf8.decode? (Percent.decode (Utf8.encode cs))
    let name := name.map Char.toLower
    if name.isEmpty || name.any isForbiddenInName then none
    else if endsInNumber name then ipv4? name
    else some name

end WorkloadIdentity.Url
