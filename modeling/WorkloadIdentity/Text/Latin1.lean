import WorkloadIdentity.Text.Utf8

/-! Bytes as characters: a byte is read as the character of its number. Scripts and the
arguments of programs are bytes, whatever text they hold. -/

set_option autoImplicit false

namespace WorkloadIdentity.Latin1

def chars (bytes : Bytes) : List Char := bytes.map fun b => Char.ofNat b.toNat

def bytes (cs : List Char) : Bytes := cs.map fun c => UInt8.ofNat c.toNat

end WorkloadIdentity.Latin1
