import WorkloadIdentity.Json.Tree

/-! Records: JSON values read against a list of field names. An object may have further
members, which are passed over; an array stands for a record if it lists every field in
order. In a text, a field may not be repeated, and a passed-over member may hold
anything that is well formed. -/

set_option autoImplicit false

namespace WorkloadIdentity

/-- The fields that are present, by name. -/
abbrev Record := List (String × Json)

namespace Record

def field? (record : Record) (name : String) : Option Json := record.lookup name

/-- A field that may be missing or `null`. -/
def optional {α : Type} (read : Json → Option α) (record : Record) (name : String) :
    Option (Option α) :=
  match record.field? name with
  | none => some none
  | some .null => some none
  | some value => (read value).map some

def required {α : Type} (read : Json → Option α) (record : Record) (name : String) :
    Option α :=
  (record.field? name).bind read

def text (record : Record) (name : String) : Option String := required Json.string? record name

def optionalText (record : Record) (name : String) : Option (Option String) :=
  optional Json.string? record name

/-- An integer from `least` to `greatest`. -/
def integerWithin? (least greatest : Int) (value : Json) : Option Int :=
  value.integer?.bind fun n => if least ≤ n ∧ n ≤ greatest then some n else none

/-- A natural number of at most `bits` bits. -/
def natural? (bits : Nat) (value : Json) : Option Nat :=
  (integerWithin? 0 (Int.pow 2 bits - 1) value).map Int.toNat

def long? (value : Json) : Option Int := integerWithin? (-Int.pow 2 63) (Int.pow 2 63 - 1) value

def texts? (value : Json) : Option (List String) :=
  value.array?.bind fun elements => elements.mapM Json.string?

def textMap? (value : Json) : Option (List (String × String)) :=
  value.object?.bind fun members =>
    members.mapM fun (name, v) => v.string?.map fun s => (name, s)

/-- The array form: one element for each field. -/
def ofElements? (fields : List String) (elements : List Json) : Option Record :=
  if elements.length = fields.length then some (fields.zip elements) else none

end Record

namespace Json

def record? (fields : List String) : Json → Option Record
  | .object members => some (members.filter fun m => fields.contains m.1)
  | .array elements => Record.ofElements? fields elements
  | _ => none

end Json

namespace Tree

/-- The known members of an object, each of which may stand once. Every name has to be a
text, whether known or not. -/
def known? (fields : List String) : List (Option String × Tree) → Option Record
  | [] => some []
  | (name, tree) :: rest => do
    let name ← name
    let record ← known? fields rest
    if fields.contains name then
      if (record.lookup name).isSome then none else return (name, ← tree.value?) :: record
    else return record

def record? (fields : List String) : Tree → Option Record
  | .object members => known? fields members
  | .array elements => do Record.ofElements? fields (← elements.mapM Tree.value?)
  | _ => none

end Tree

end WorkloadIdentity
