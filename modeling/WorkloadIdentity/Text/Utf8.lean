/-! UTF-8, read so that ill-formed input stays visible. `units` gives the scalar
values of a byte string and a `none` for each maximal ill-formed part; the strict
and the lossy reading are two views of it. -/

set_option autoImplicit false

namespace WorkloadIdentity

abbrev Bytes := List UInt8

namespace Utf8

def encode (text : List Char) : Bytes := text.flatMap String.utf8EncodeChar

def isTail (b : UInt8) : Bool := 0x80 ≤ b && b ≤ 0xBF

/-- The bytes that may follow the lead byte `b` directly. -/
def isSecond (b c : UInt8) : Bool :=
  if b == 0xE0 then 0xA0 ≤ c && c ≤ 0xBF
  else if b == 0xED then 0x80 ≤ c && c ≤ 0x9F
  else if b == 0xF0 then 0x90 ≤ c && c ≤ 0xBF
  else if b == 0xF4 then 0x80 ≤ c && c ≤ 0x8F
  else isTail c

/-- How many bytes follow the lead byte `b`; `none` if no sequence starts with it. -/
def tails (b : UInt8) : Option Nat :=
  if b < 0x80 then some 0
  else if 0xC2 ≤ b && b ≤ 0xDF then some 1
  else if 0xE0 ≤ b && b ≤ 0xEF then some 2
  else if 0xF0 ≤ b && b ≤ 0xF4 then some 3
  else none

def low (b : UInt8) : Nat := b.toNat % 0x40

/-- The scalar value at the front of `b :: rest`, if well formed, and how many bytes
of `rest` belong to it or to the maximal ill-formed part. -/
def front (b : UInt8) (rest : Bytes) : Option Char × Nat :=
  match tails b, rest with
  | none, _ => (none, 0)
  | some 0, _ => (some (Char.ofNat b.toNat), 0)
  | some _, [] => (none, 0)
  | some 1, c :: _ =>
    if isSecond b c then (some (Char.ofNat (b.toNat % 0x20 * 0x40 + low c)), 1) else (none, 0)
  | some 2, [c] => if isSecond b c then (none, 1) else (none, 0)
  | some 2, c :: d :: _ =>
    if isSecond b c then
      if isTail d then
        (some (Char.ofNat (b.toNat % 0x10 * 0x1000 + low c * 0x40 + low d)), 2)
      else (none, 1)
    else (none, 0)
  | some _, [c] => if isSecond b c then (none, 1) else (none, 0)
  | some _, [c, d] =>
    if isSecond b c then if isTail d then (none, 2) else (none, 1) else (none, 0)
  | some _, c :: d :: e :: _ =>
    if isSecond b c then
      if isTail d then
        if isTail e then
          (some (Char.ofNat
            (b.toNat % 8 * 0x40000 + low c * 0x1000 + low d * 0x40 + low e)), 3)
        else (none, 2)
      else (none, 1)
    else (none, 0)

def units : Bytes → List (Option Char)
  | [] => []
  | b :: rest => (front b rest).1 :: units (rest.drop (front b rest).2)
termination_by bytes => bytes.length
decreasing_by simp only [List.length_drop, List.length_cons]; omega

/-- A stray part reads as the replacement character. -/
def decodeLossy (bytes : Bytes) : List Char := (units bytes).map (·.getD '\uFFFD')

def decode? (bytes : Bytes) : Option (List Char) := (units bytes).mapM id

def ofString (s : String) : Bytes := encode s.toList

def text? (bytes : Bytes) : Option String := (decode? bytes).map String.ofList

def lossyText (bytes : Bytes) : String := String.ofList (decodeLossy bytes)

end Utf8

end WorkloadIdentity
