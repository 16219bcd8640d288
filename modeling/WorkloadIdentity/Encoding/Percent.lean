import WorkloadIdentity.Text.Hex

/-! Percent encoding. A set of bytes is kept, every other byte is written as `%` and two
upper-case digits. Decoding leaves alone a `%` that no two digits follow. -/

set_option autoImplicit false

namespace WorkloadIdentity.Percent

def isAlphanumeric (b : UInt8) : Bool :=
  (0x30 ≤ b && b ≤ 0x39) || (0x41 ≤ b && b ≤ 0x5A) || (0x61 ≤ b && b ≤ 0x7A)

/-- Letters, digits and `-._~`, the unreserved characters of RFC 3986. -/
def isUnreserved (b : UInt8) : Bool :=
  isAlphanumeric b || b == 0x2D || b == 0x2E || b == 0x5F || b == 0x7E

def escape (b : UInt8) : List Char :=
  ['%', Hex.upperDigit (b.toNat / 16), Hex.upperDigit (b.toNat % 16)]

def encodeByte (keep : UInt8 → Bool) (b : UInt8) : List Char :=
  if keep b && b < 0x80 then [Char.ofNat b.toNat] else escape b

def encode (keep : UInt8 → Bool) (bytes : Bytes) : List Char :=
  bytes.flatMap (encodeByte keep)

def digit? (b : UInt8) : Option Nat := Hex.value? (Char.ofNat b.toNat)

def decode : Bytes → Bytes
  | [] => []
  | [b] => [b]
  | [b, c] => [b, c]
  | b :: c :: d :: rest =>
    match b == 0x25, digit? c, digit? d with
    | true, some high, some low => UInt8.ofNat (high * 16 + low) :: decode rest
    | _, _, _ => b :: decode (c :: d :: rest)

end WorkloadIdentity.Percent
