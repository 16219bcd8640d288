import WorkloadIdentity.Proofs.Json.Documents
import WorkloadIdentity.Proofs.Text.Utf8

/-! The text of a value without numbers reads as that value. Parsing recovers the printed tree
with its members in their order; turning the tree into a value sorts them. -/

set_option autoImplicit false

namespace WorkloadIdentity.Tree

open Json (quote print printElements printMembers)

mutual

def Wordy : Json → Prop
  | .null | .bool _ | .string _ => True
  | .number _ => False
  | .array xs => WordyElements xs
  | .object ms => WordyMembers ms

def WordyElements : List Json → Prop
  | [] => True
  | x :: xs => Wordy x ∧ WordyElements xs

def WordyMembers : List (String × Json) → Prop
  | [] => True
  | (_, v) :: ms => Wordy v ∧ WordyMembers ms

end

mutual

def ofJson : Json → Tree
  | .null | .number _ => .null
  | .bool b => .bool b
  | .string s => .string (some s)
  | .array xs => .array (ofElements xs)
  | .object ms => .object (ofMembers ms)

def ofElements : List Json → List Tree
  | [] => []
  | x :: xs => ofJson x :: ofElements xs

def ofMembers : List (String × Json) → List (Option String × Tree)
  | [] => []
  | (k, v) :: ms => (some k, ofJson v) :: ofMembers ms

end

theorem quote_written (s : String) : WritesString (some s) ((quote s.toList).map some) := by
  obtain ⟨inner, written, parts⟩ := string_sound (string_quoted s [])
  rw [List.append_nil] at parts
  rw [← parts] at written
  simpa [quote] using written

theorem written_spaced {tree : Tree} {text : Text} (h : Writes tree text) : Spaced tree text := by
  have around := @Spaced.around tree [] text [] nofun h nofun
  rwa [List.nil_append, List.append_nil] at around

mutual

theorem print_written (v : Json) (h : Wordy v) : Writes (ofJson v) ((print v).map some) := by
  match v with
  | .null => exact .null
  | .bool true => exact .yes
  | .bool false => exact .no
  | .string s => exact .string (quote_written s)
  | .array [] => exact @Writes.bare [] nofun
  | .array (x :: xs) =>
    obtain ⟨text, held, parts⟩ := elements_written (x :: xs) h nofun
    rw [parts]
    exact .array held
  | .object [] => exact @Writes.hollow [] nofun
  | .object ((k, v) :: ms) =>
    obtain ⟨text, held, parts⟩ := members_written ((k, v) :: ms) h nofun
    rw [parts]
    exact .object held

theorem elements_written (xs : List Json) (h : WordyElements xs) (filled : xs ≠ []) :
    ∃ text, WritesElements (ofElements xs) text ∧
      (print (.array xs)).map some = some '[' :: (text ++ [some ']']) := by
  match xs with
  | [x] => exact ⟨_, .last (written_spaced (print_written x h.1)), by simp [print, printElements]⟩
  | x :: y :: ys =>
    obtain ⟨text, held, parts⟩ := elements_written (y :: ys) h.2 nofun
    have later : (print y ++ printElements ys).map some = text ++ [some ']'] :=
      (List.cons.inj parts).2
    refine ⟨_, .more (written_spaced (print_written x h.1)) held, ?_⟩
    rw [List.append_assoc, List.cons_append, ← later]
    simp [print, printElements]

theorem members_written (ms : List (String × Json)) (h : WordyMembers ms) (filled : ms ≠ []) :
    ∃ text, WritesMembers (ofMembers ms) text ∧
      (print (.object ms)).map some = some '\x7b' :: (text ++ [some '\x7d']) := by
  match ms with
  | [(k, v)] =>
    have key := written_spaced (.string (quote_written k))
    exact ⟨_, .last key (written_spaced (print_written v h.1)), by simp [print, printMembers]⟩
  | (k, v) :: (k', v') :: ms =>
    have key := written_spaced (.string (quote_written k))
    obtain ⟨text, held, parts⟩ := members_written ((k', v') :: ms) h.2 nofun
    have later : (quote k'.toList ++ ':' :: (print v' ++ printMembers ms)).map some =
        text ++ [some '\x7d'] := by
      simpa [print] using (List.cons.inj parts).2
    refine ⟨_, .more key (written_spaced (print_written v h.1)) held, ?_⟩
    rw [List.append_assoc, List.cons_append, List.append_assoc, List.cons_append, ← later]
    simp [print, printMembers]

end

theorem parse_print (v : Json) (h : Wordy v) : parse? ((print v).map some) = some (ofJson v) :=
  parse_iff.mpr (written_spaced (print_written v h))

mutual

def nesting : Json → Nat
  | .null | .bool _ | .number _ | .string _ => 0
  | .array xs => nestingElements xs + 1
  | .object ms => nestingMembers ms + 1

def nestingElements : List Json → Nat
  | [] => 0
  | x :: xs => max (nesting x) (nestingElements xs)

def nestingMembers : List (String × Json) → Nat
  | [] => 0
  | (_, v) :: ms => max (nesting v) (nestingMembers ms)

end

mutual

/-- The value with the members of all objects in order of name. -/
def sorted : Json → Json
  | .null => .null
  | .bool b => .bool b
  | .number n => .number n
  | .string s => .string s
  | .array xs => .array (sortedElements xs)
  | .object ms => Json.ofMembers (sortedMembers ms)

def sortedElements : List Json → List Json
  | [] => []
  | x :: xs => sorted x :: sortedElements xs

def sortedMembers : List (String × Json) → List (String × Json)
  | [] => []
  | (k, v) :: ms => (k, sorted v) :: sortedMembers ms

end

mutual

theorem value_ofJson (v : Json) (depth : Nat) (h : Wordy v) (deep : nesting v ≤ depth) :
    valueAt? depth (ofJson v) = some (sorted v) := by
  match v, depth with
  | .null, _ => rfl
  | .bool b, _ => rfl
  | .string s, _ => rfl
  | .array xs, depth + 1 =>
    rw [ofJson, valueAt?, elements_ofJson xs depth h (Nat.le_of_succ_le_succ deep)]
    rfl
  | .object ms, depth + 1 =>
    rw [ofJson, valueAt?, members_ofJson ms depth h (Nat.le_of_succ_le_succ deep)]
    rfl

theorem elements_ofJson (xs : List Json) (depth : Nat) (h : WordyElements xs)
    (deep : nestingElements xs ≤ depth) :
    elementsAt? depth (ofElements xs) = some (sortedElements xs) := by
  match xs with
  | [] => rfl
  | x :: xs =>
    rw [ofElements, elementsAt?, value_ofJson x depth h.1 (by rw [nestingElements] at deep; omega),
      elements_ofJson xs depth h.2 (by rw [nestingElements] at deep; omega)]
    rfl

theorem members_ofJson (ms : List (String × Json)) (depth : Nat) (h : WordyMembers ms)
    (deep : nestingMembers ms ≤ depth) :
    membersAt? depth (ofMembers ms) = some (sortedMembers ms) := by
  match ms with
  | [] => rfl
  | (k, v) :: ms =>
    rw [ofMembers, membersAt?, value_ofJson v depth h.1 (by rw [nestingMembers] at deep; omega),
      members_ofJson ms depth h.2 (by rw [nestingMembers] at deep; omega)]
    rfl

end

section Elements

variable {α : Type} (f : α → Json)

theorem wordy_map (h : ∀ a, Wordy (f a)) (as : List α) : WordyElements (as.map f) := by
  induction as with
  | nil => trivial
  | cons a as ih => exact ⟨h a, ih⟩

theorem nesting_map {n : Nat} (h : ∀ a, nesting (f a) ≤ n) (as : List α) :
    nestingElements (as.map f) ≤ n := by
  induction as with
  | nil => exact Nat.zero_le n
  | cons a as ih => exact Nat.max_le.mpr ⟨h a, ih⟩

theorem sorted_map (h : ∀ a, sorted (f a) = f a) (as : List α) :
    sortedElements (as.map f) = as.map f := by
  induction as with
  | nil => rfl
  | cons a as ih => rw [List.map_cons, sortedElements, h a, ih]

end Elements

/-- Text that was printed from a value reads as that value, with its members sorted. -/
theorem read_print (v : Json) (h : Wordy v) (shallow : nesting v ≤ maxDepth) :
    Json.ofString? (String.ofList (print v)) = some (sorted v) := by
  rw [Json.ofString?, ofString?, String.toList_ofList, parse_print v h, Option.bind_some]
  exact value_ofJson v maxDepth h shallow

theorem read_print_bytes (v : Json) (h : Wordy v) (shallow : nesting v ≤ maxDepth) :
    Json.ofBytes? (Utf8.encode (print v)) = some (sorted v) := by
  rw [Json.ofBytes?, ofBytes?, Utf8.units_encode, parse_print v h, Option.bind_some]
  exact value_ofJson v maxDepth h shallow

end WorkloadIdentity.Tree
