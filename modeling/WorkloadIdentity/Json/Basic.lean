import WorkloadIdentity.Json.Binary64

/-! JSON values. An object lists its members in ascending order of name, each name
once: `insert` keeps this order and `ofMembers` establishes it. -/

set_option autoImplicit false

namespace WorkloadIdentity

inductive Number
  | integer (n : Int)
  | real (x : Binary64)
  deriving DecidableEq, Repr

inductive Json
  | null
  | bool (b : Bool)
  | number (n : Number)
  | string (s : String)
  | array (elements : List Json)
  | object (members : List (String × Json))
  deriving Repr, Inhabited

/-- Members sorted by name. -/
abbrev Members (α : Type) := List (String × α)

namespace Members

variable {α : Type}

/-- Adds a member at its place, in the stead of one of the same name. -/
def insert (name : String) (value : α) : Members α → Members α
  | [] => [(name, value)]
  | (other, v) :: rest =>
    if name < other then (name, value) :: (other, v) :: rest
    else if name = other then (name, value) :: rest
    else (other, v) :: insert name value rest

theorem insert_nil (name : String) (value : α) : insert name value [] = [(name, value)] := rfl

theorem insert_before {name other : String} (value v : α) (rest : Members α) (h : name < other) :
    insert name value ((other, v) :: rest) = (name, value) :: (other, v) :: rest := by
  rw [insert, if_pos h]

theorem insert_after {name other : String} (value v : α) (rest : Members α)
    (h : ¬ name < other ∧ name ≠ other) :
    insert name value ((other, v) :: rest) = (other, v) :: insert name value rest := by
  rw [insert, if_neg h.1, if_neg h.2]

/-- Of several members of one name the last one stays. -/
def ofList (members : List (String × α)) : Members α :=
  members.foldl (fun sorted m => insert m.1 m.2 sorted) []

def get? (members : Members α) (name : String) : Option α := members.lookup name

def contains (members : Members α) (name : String) : Bool := (get? members name).isSome

theorem get?_insert_self (members : Members α) (name : String) (value : α) :
    get? (insert name value members) name = some value := by
  induction members with
  | nil => simp [insert, get?]
  | cons m rest ih =>
    obtain ⟨other, v⟩ := m
    unfold insert
    split
    · simp [get?]
    · split
      · simp [get?]
      · rename_i _ hne
        have : (name == other) = false := by simpa using hne
        simpa [get?, List.lookup_cons, this] using ih

theorem get?_insert_of_ne (members : Members α) {name other : String} (value : α)
    (h : name ≠ other) : get? (insert other value members) name = get? members name := by
  have hne : (name == other) = false := by simpa using h
  induction members with
  | nil => simp [insert, get?, List.lookup_cons, hne]
  | cons m rest ih =>
    obtain ⟨k, v⟩ := m
    unfold insert
    split
    · simp [get?, List.lookup_cons, hne]
    · split
      · rename_i _ he
        subst he
        simp [get?, List.lookup_cons, hne]
      · simp only [get?, List.lookup_cons] at ih ⊢
        split
        · rfl
        · exact ih

end Members

namespace Json

def ofMembers (members : List (String × Json)) : Json := .object (Members.ofList members)

def get? (value : Json) (name : String) : Option Json :=
  match value with
  | .object members => Members.get? members name
  | _ => none

def string? : Json → Option String
  | .string s => some s
  | _ => none

def integer? : Json → Option Int
  | .number (.integer n) => some n
  | _ => none

def bool? : Json → Option Bool
  | .bool b => some b
  | _ => none

def array? : Json → Option (List Json)
  | .array elements => some elements
  | _ => none

def object? : Json → Option (List (String × Json))
  | .object members => some members
  | _ => none

def isNull : Json → Bool
  | .null => true
  | _ => false

def texts (values : List String) : Json := .array (values.map .string)

end Json

end WorkloadIdentity
