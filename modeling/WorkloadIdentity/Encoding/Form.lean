import WorkloadIdentity.Encoding.Percent

/-! `application/x-www-form-urlencoded`: pairs of texts as `name=value` joined by `&`,
with a space as `+` and every byte but letters, digits and `*-._` as an escape. -/

set_option autoImplicit false

namespace WorkloadIdentity.Form

def isKept (b : UInt8) : Bool :=
  Percent.isAlphanumeric b || b == 0x2A || b == 0x2D || b == 0x2E || b == 0x5F

def encodeByte (b : UInt8) : List Char :=
  if b == 0x20 then ['+'] else Percent.encodeByte isKept b

def encodeText (text : List Char) : List Char := (Utf8.encode text).flatMap encodeByte

def encodePair (pair : String × String) : List Char :=
  encodeText pair.1.toList ++ '=' :: encodeText pair.2.toList

def encode (pairs : List (String × String)) : List Char :=
  ['&'].intercalate (pairs.map encodePair)

/-- A `+` stands for a space, and bytes that are not UTF-8 are replaced. -/
def decodeText (bytes : Bytes) : List Char :=
  Utf8.decodeLossy (Percent.decode (bytes.map fun b => if b == 0x2B then 0x20 else b))

/-- The bytes before the first `b`, and those after it. -/
def cut (b : UInt8) : Bytes → Bytes × Bytes
  | [] => ([], [])
  | c :: rest =>
    if c == b then ([], rest) else ((cut b rest).map (c :: ·) id)

def decodePair (bytes : Bytes) : String × String :=
  let (name, value) := cut 0x3D bytes
  (String.ofList (decodeText name), String.ofList (decodeText value))

/-- The maximal parts without an `&`, the empty ones left out. -/
def parts (bytes : Bytes) : List Bytes :=
  (bytes.splitOn 0x26).filter (!·.isEmpty)

def decode (bytes : Bytes) : List (String × String) := (parts bytes).map decodePair

end WorkloadIdentity.Form
