import Mathlib.Data.List.DropRight
import WorkloadIdentity.Proofs.Json.Tokens

/-!
# Documents as they may be written

The grammar of JSON texts, with spaces wherever it has them. A text parses as a tree exactly if it is
one of the texts of the tree, so no text has two, and a text goes on after its document only with
spaces.
-/

set_option autoImplicit false

namespace WorkloadIdentity.Tree

def Gap (text : Text) : Prop := ∀ c ∈ text, isSpace c = true

mutual

/-- The text starts and ends with the value. -/
inductive Writes : Tree → Text → Prop
  | null : Writes .null [some 'n', some 'u', some 'l', some 'l']
  | yes : Writes (.bool true) [some 't', some 'r', some 'u', some 'e']
  | no : Writes (.bool false) [some 'f', some 'a', some 'l', some 's', some 'e']
  | number {n : Numeral} {text : List Char} (written : WritesNumeral n text) :
      Writes (.number n) (text.map some)
  | string {s : Option String} {text : Text} (written : WritesString s text) :
      Writes (.string s) text
  | bare {gap : Text} (blank : Gap gap) : Writes (.array []) (some '[' :: (gap ++ [some ']']))
  | array {xs : List Tree} {text : Text} (held : WritesElements xs text) :
      Writes (.array xs) (some '[' :: (text ++ [some ']']))
  | hollow {gap : Text} (blank : Gap gap) :
      Writes (.object []) (some '\x7b' :: (gap ++ [some '\x7d']))
  | object {members : List (Option String × Tree)} {text : Text} (held : WritesMembers members text) :
      Writes (.object members) (some '\x7b' :: (text ++ [some '\x7d']))

inductive Spaced : Tree → Text → Prop
  | around {tree : Tree} {front text back : Text} (before : Gap front) (value : Writes tree text)
      (after : Gap back) : Spaced tree (front ++ (text ++ back))

inductive WritesElements : List Tree → Text → Prop
  | last {x : Tree} {text : Text} (value : Spaced x text) : WritesElements [x] text
  | more {x : Tree} {xs : List Tree} {text rest : Text} (value : Spaced x text)
      (others : WritesElements xs rest) : WritesElements (x :: xs) (text ++ some ',' :: rest)

inductive WritesMembers : List (Option String × Tree) → Text → Prop
  | last {name : Option String} {x : Tree} {named text : Text} (key : Spaced (.string name) named)
      (value : Spaced x text) : WritesMembers [(name, x)] (named ++ some ':' :: text)
  | more {name : Option String} {x : Tree} {members : List (Option String × Tree)}
      {named text rest : Text} (key : Spaced (.string name) named) (value : Spaced x text)
      (others : WritesMembers members rest) :
      WritesMembers ((name, x) :: members) (named ++ some ':' :: (text ++ some ',' :: rest))

end

theorem skip_gap {gap : Text} (blank : Gap gap) (rest : Text) : skip (gap ++ rest) = skip rest :=
  List.dropWhile_append_of_pos blank

theorem skip_all {gap : Text} (blank : Gap gap) : skip gap = [] :=
  List.dropWhile_eq_nil_iff.mpr blank

theorem skip_parts (text : Text) : ∃ gap, Gap gap ∧ text = gap ++ skip text :=
  ⟨text.takeWhile isSpace, fun _ => List.mem_takeWhile_imp,
    (List.takeWhile_append_dropWhile).symm⟩

theorem skip_of_not_space {c : Char} (h : isSpace (some c) = false) (rest : Text) :
    skip (some c :: rest) = some c :: rest := by
  rw [skip, List.dropWhile_cons, h]
  rfl

theorem gap_append {front back : Text} (before : Gap front) (after : Gap back) :
    Gap (front ++ back) :=
  List.forall_mem_append.mpr ⟨before, after⟩

theorem parse_gap {gap : Text} (blank : Gap gap) (fuel : ℕ) (rest : Text) :
    parseValue fuel (gap ++ rest) = parseValue fuel rest := by
  cases fuel with
  | zero => rfl
  | succ fuel => rw [parseValue, parseValue, skip_gap blank]

theorem spaced_front {tree : Tree} {text gap : Text} (blank : Gap gap) (h : Spaced tree text) :
    Spaced tree (gap ++ text) := by
  cases h with
  | around before value after =>
    rw [← List.append_assoc]
    exact .around (gap_append blank before) value after

theorem elements_front {xs : List Tree} {text gap : Text} (blank : Gap gap)
    (h : WritesElements xs text) : WritesElements xs (gap ++ text) := by
  cases h with
  | last value => exact .last (spaced_front blank value)
  | more value others =>
    rw [← List.append_assoc]
    exact .more (spaced_front blank value) others

theorem members_front {members : List (Option String × Tree)} {text gap : Text} (blank : Gap gap)
    (h : WritesMembers members text) : WritesMembers members (gap ++ text) := by
  cases h with
  | last key value =>
    rw [← List.append_assoc]
    exact .last (spaced_front blank key) value
  | more key value others =>
    rw [← List.append_assoc]
    exact .more (spaced_front blank key) value others

def Opening (tree : Tree) (c : Char) : Prop :=
  match tree with
  | .null => c = 'n'
  | .bool b => c = if b then 't' else 'f'
  | .number _ => c = '-' ∨ isDigit (some c) = true
  | .string _ => c = '"'
  | .array _ => c = '['
  | .object _ => c = '\x7b'

theorem writes_opens {tree : Tree} {text : Text} (h : Writes tree text) :
    ∃ c more, text = some c :: more ∧ Opening tree c := by
  cases h with
  | number written =>
    cases written with
    | positive _ written =>
      obtain ⟨d, more, rfl, digit⟩ := magnitude_opens written
      exact ⟨d, _, rfl, .inr digit⟩
    | negative _ written => exact ⟨'-', _, rfl, .inl rfl⟩
  | string written => cases written <;> exact ⟨_, _, rfl, rfl⟩
  | _ => exact ⟨_, _, rfl, rfl⟩

theorem digit_solid {c : Char} (h : c = '-' ∨ isDigit (some c) = true) :
    isSpace (some c) = false ∧ c ∉ ['n', 't', 'f', '"', '[', '\x7b', ']', '\x7d'] := by
  rcases h with rfl | digit
  · decide
  · constructor
    · by_contra space
      rw [Bool.not_eq_false] at space
      unfold isSpace at space
      split at space <;> simp_all [isDigit]
    · simp only [List.mem_cons, List.not_mem_nil, or_false]
      rintro (rfl | rfl | rfl | rfl | rfl | rfl | rfl | rfl) <;> exact absurd digit (by decide)

theorem opening_solid {tree : Tree} {c : Char} (h : Opening tree c) :
    isSpace (some c) = false ∧ c ≠ ']' ∧ c ≠ '\x7d' := by
  cases tree with
  | number n =>
    obtain ⟨solid, unlike⟩ := digit_solid h
    simp only [List.mem_cons, List.not_mem_nil, or_false, not_or] at unlike
    exact ⟨solid, unlike.2.2.2.2.2.2⟩
  | bool b =>
    obtain rfl : c = _ := h
    cases b <;> decide
  | null | string | array | object =>
    obtain rfl : c = _ := h
    decide

theorem opening_number {n : Numeral} {tree : Tree} {c : Char} (h : Opening (.number n) c)
    (h' : Opening tree c) : ∃ m, tree = .number m := by
  obtain ⟨-, unlike⟩ := digit_solid h
  cases tree with
  | number m => exact ⟨m, rfl⟩
  | bool b =>
    obtain rfl : c = _ := h'
    cases b <;> exact absurd (by decide) unlike
  | null | string | array | object =>
    obtain rfl : c = _ := h'
    exact absurd (by decide) unlike

theorem spaced_opens {tree : Tree} {text : Text} (h : Spaced tree text) :
    ∃ c more, Opening tree c ∧ ∀ rest, skip (text ++ rest) = some c :: (more ++ rest) := by
  cases h with
  | @around _ front text back before value after =>
    obtain ⟨c, more, rfl, opening⟩ := writes_opens value
    refine ⟨c, more ++ back, opening, fun rest => ?_⟩
    rw [List.append_assoc, skip_gap before]
    exact skip_of_not_space (opening_solid opening).1 _

theorem elements_open {xs : List Tree} {text : Text} (h : WritesElements xs text) :
    ∃ c more, c ≠ ']' ∧ ∀ rest, skip (text ++ rest) = some c :: (more ++ rest) := by
  cases h with
  | last value =>
    obtain ⟨c, more, opening, skipped⟩ := spaced_opens value
    exact ⟨c, more, (opening_solid opening).2.1, skipped⟩
  | @more _ _ _ later value _ =>
    obtain ⟨c, more, opening, skipped⟩ := spaced_opens value
    refine ⟨c, more ++ some ',' :: later, (opening_solid opening).2.1, fun rest => ?_⟩
    rw [List.append_assoc, skipped, List.append_assoc]

theorem members_open {members : List (Option String × Tree)} {text : Text}
    (h : WritesMembers members text) :
    ∃ more, ∀ rest, skip (text ++ rest) = some '"' :: (more ++ rest) := by
  cases h with
  | @last _ _ _ text key _ =>
    obtain ⟨c, more, rfl, skipped⟩ := spaced_opens key
    refine ⟨more ++ some ':' :: text, fun rest => ?_⟩
    rw [List.append_assoc, skipped, List.append_assoc]
  | @more _ _ _ _ text later key _ _ =>
    obtain ⟨c, more, rfl, skipped⟩ := spaced_opens key
    refine ⟨more ++ some ':' :: (text ++ some ',' :: later), fun rest => ?_⟩
    rw [List.append_assoc, skipped, List.append_assoc]

theorem parse_quote (fuel : Nat) (rest : Text) :
    parseValue (fuel + 1) (some '"' :: rest) =
      (string? rest).map fun r => (.string r.1, r.2) := by
  rw [parseValue, skip_of_not_space rfl]
  rfl

theorem parse_bracket (fuel : Nat) (rest : Text) :
    parseValue (fuel + 1) (some '[' :: rest) = match skip rest with
      | some ']' :: rest => some (.array [], rest)
      | rest => (parseElements fuel rest).map fun r => (.array r.1, r.2) := by
  rw [parseValue, skip_of_not_space rfl]
  rfl

theorem parse_brace (fuel : Nat) (rest : Text) :
    parseValue (fuel + 1) (some '\x7b' :: rest) = match skip rest with
      | some '\x7d' :: rest => some (.object [], rest)
      | rest => (parseMembers fuel rest).map fun r => (.object r.1, r.2) := by
  rw [parseValue, skip_of_not_space rfl]
  rfl

theorem elements_end {fuel : Nat} {text valued rest : Text} {x : Tree}
    (first : parseValue fuel text = some (x, valued)) (closed : skip valued = some ']' :: rest) :
    parseElements (fuel + 1) text = some ([x], rest) := by
  rw [parseElements, first, Option.bind_eq_bind, Option.bind_some]
  dsimp only
  rw [closed]
  rfl

theorem elements_next {fuel : Nat} {text valued more : Text} {x : Tree}
    (first : parseValue fuel text = some (x, valued)) (comma : skip valued = some ',' :: more) :
    parseElements (fuel + 1) text =
      (parseElements fuel more).map fun r => (x :: r.1, r.2) := by
  rw [parseElements, first, Option.bind_eq_bind, Option.bind_some]
  dsimp only
  rw [comma]
  show (parseElements fuel more).bind _ = _
  rcases parseElements fuel more with _ | ⟨xs, r⟩ <;> rfl

section Members

variable {fuel : Nat} {text quoted named colon valued : Text} {name : Option String} {x : Tree}

theorem members_end {rest : Text} (opened : skip text = some '"' :: quoted)
    (read : string? quoted = some (name, named)) (separated : skip named = some ':' :: colon)
    (value : parseValue fuel colon = some (x, valued)) (closed : skip valued = some '\x7d' :: rest) :
    parseMembers (fuel + 1) text = some ([(name, x)], rest) := by
  rw [parseMembers, opened]
  simp only [read, Option.bind_eq_bind, Option.bind_some]
  rw [separated]
  simp only [value, Option.bind_some]
  rw [closed]
  rfl

theorem members_next {more : Text} (opened : skip text = some '"' :: quoted)
    (read : string? quoted = some (name, named)) (separated : skip named = some ':' :: colon)
    (value : parseValue fuel colon = some (x, valued)) (comma : skip valued = some ',' :: more) :
    parseMembers (fuel + 1) text =
      (parseMembers fuel more).map fun r => ((name, x) :: r.1, r.2) := by
  rw [parseMembers, opened]
  simp only [read, Option.bind_eq_bind, Option.bind_some]
  rw [separated]
  simp only [value, Option.bind_some]
  rw [comma]
  show (parseMembers fuel more).bind _ = _
  rcases parseMembers fuel more with _ | ⟨ms, r⟩ <;> rfl

end Members

theorem stops_gap {gap rest : Text} (blank : Gap gap) (stop : Stops rest) : Stops (gap ++ rest) := by
  cases gap with
  | nil => exact stop
  | cons c gap =>
    have space := blank c List.mem_cons_self
    rintro _ ⟨⟩
    unfold isSpace at space
    split at space
    all_goals first | decide | cases space

theorem stops_mark {c : Char} (mark : c ∈ [',', ']', '\x7d']) (rest : Text) :
    Stops (some c :: rest) := by
  simp only [List.mem_cons, List.not_mem_nil, or_false] at mark
  rintro _ ⟨⟩
  rcases mark with rfl | rfl | rfl <;> decide

/-- A number takes as much as it can. -/
def Ends (tree : Tree) (rest : Text) : Prop := ∀ n, tree = .number n → Stops rest

theorem ends_gap {tree : Tree} {gap rest : Text} (blank : Gap gap) (ends : Ends tree rest) :
    Ends tree (gap ++ rest) :=
  fun n number => stops_gap blank (ends n number)

theorem ends_nil (tree : Tree) : Ends tree [] := by
  intro n number c first
  cases first

theorem elements_skip (fuel : ℕ) (text : Text) :
    parseElements fuel (skip text) = parseElements fuel text := by
  obtain ⟨gap, blank, parts⟩ := skip_parts text
  cases fuel with
  | zero => rfl
  | succ fuel =>
    conv_rhs => rw [parts]
    rw [parseElements, parseElements, parse_gap blank]

theorem members_skip (fuel : ℕ) (text : Text) :
    parseMembers fuel (skip text) = parseMembers fuel text := by
  cases fuel with
  | zero => rfl
  | succ fuel =>
    have twice : skip (skip text) = skip text := List.dropWhile_idempotent isSpace text
    rw [parseMembers, parseMembers, twice]

theorem parse_numeral {c : Char} (h : c = '-' ∨ isDigit (some c) = true) (fuel : ℕ) (rest : Text) :
    parseValue (fuel + 1) (some c :: rest) =
      (numeral? (some c :: rest)).map fun r => (.number r.1, r.2) := by
  obtain ⟨solid, unlike⟩ := digit_solid h
  rw [parseValue, skip_of_not_space solid]
  split
  case h_7 => rfl
  all_goals
    rename_i same
    cases same
    exact absurd (by decide) unlike

/-- With this much fuel every text of a tree is read, if it is not too long. -/
structure Reads (fuel : ℕ) : Prop where
  value : ∀ tree text rest, Writes tree text → Ends tree rest → 2 * text.length ≤ fuel →
    parseValue fuel (text ++ rest) = some (tree, rest)
  elements : ∀ xs text rest, WritesElements xs text → 2 * text.length + 1 ≤ fuel →
    parseElements fuel (text ++ some ']' :: rest) = some (xs, rest)
  members : ∀ members text rest, WritesMembers members text → 2 * text.length + 1 ≤ fuel →
    parseMembers fuel (text ++ some '\x7d' :: rest) = some (members, rest)

theorem spaced_read {fuel : ℕ} (ih : Reads fuel) {tree : Tree} {text rest : Text}
    (h : Spaced tree text) (ends : Ends tree rest) (enough : 2 * text.length ≤ fuel) :
    ∃ back, Gap back ∧ parseValue fuel (text ++ rest) = some (tree, back ++ rest) := by
  cases h with
  | @around tree front text back before value after =>
    refine ⟨back, after, ?_⟩
    simp only [List.length_append] at enough
    rw [List.append_assoc, List.append_assoc, parse_gap before,
      ih.value tree text _ value (ends_gap after ends) (by omega)]

theorem key_read {name : Option String} {text : Text} (h : Spaced (.string name) text) (rest : Text) :
    ∃ quoted back, Gap back ∧ skip (text ++ rest) = some '"' :: quoted ∧
      string? quoted = some (name, back ++ rest) := by
  cases h with
  | @around _ front text back before value after =>
    cases value with
    | string written =>
      obtain ⟨inner, rfl, read⟩ := string_complete written
      refine ⟨inner ++ (back ++ rest), back, after, ?_, read _⟩
      rw [List.append_assoc, List.append_assoc, skip_gap before]
      exact skip_of_not_space rfl _

section Step

variable {fuel : ℕ} (ih : Reads fuel)

include ih

theorem reads_value {tree : Tree} {text rest : Text} (h : Writes tree text) (ends : Ends tree rest)
    (enough : 2 * text.length ≤ fuel + 1) : parseValue (fuel + 1) (text ++ rest) = some (tree, rest) := by
  cases h with
  | null | yes | no => rfl
  | @number n text written =>
    obtain ⟨c, more, parts, opening⟩ := writes_opens (.number written)
    rw [parts, List.cons_append, parse_numeral opening, ← List.cons_append, ← parts,
      numeral_complete written (ends n rfl)]
    rfl
  | string written =>
    obtain ⟨inner, rfl, read⟩ := string_complete written
    rw [List.cons_append, parse_quote, read, Option.map_some]
  | bare blank =>
    rw [List.cons_append, List.append_assoc, parse_bracket, skip_gap blank]
    rfl
  | @array xs text held =>
    simp only [List.length_cons, List.length_append, List.length_nil] at enough
    have read := ih.elements xs text rest held (by omega)
    obtain ⟨c, more, open_, skipped⟩ := elements_open held
    rw [← elements_skip, skipped] at read
    rw [List.cons_append, List.append_assoc, List.singleton_append, parse_bracket, skipped]
    split
    · rename_i same
      cases same
      exact absurd rfl open_
    · rw [read, Option.map_some]
  | hollow blank =>
    rw [List.cons_append, List.append_assoc, parse_brace, skip_gap blank]
    rfl
  | @object members text held =>
    simp only [List.length_cons, List.length_append, List.length_nil] at enough
    have read := ih.members members text rest held (by omega)
    obtain ⟨more, skipped⟩ := members_open held
    rw [← members_skip, skipped] at read
    rw [List.cons_append, List.append_assoc, List.singleton_append, parse_brace, skipped]
    show (parseMembers fuel _).map _ = _
    rw [read, Option.map_some]

theorem reads_elements {xs : List Tree} {text rest : Text} (h : WritesElements xs text)
    (enough : 2 * text.length + 1 ≤ fuel + 1) :
    parseElements (fuel + 1) (text ++ some ']' :: rest) = some (xs, rest) := by
  cases h with
  | last value =>
    obtain ⟨back, after, first⟩ :=
      spaced_read ih value (fun _ _ => stops_mark (c := ']') (by decide) rest) (by omega)
    exact elements_end first (skip_gap after _)
  | @more x xs text others value held =>
    simp only [List.length_append, List.length_cons] at enough
    obtain ⟨back, after, first⟩ := spaced_read ih value
      (fun _ _ => stops_mark (c := ',') (by decide) (others ++ some ']' :: rest)) (by omega)
    rw [List.append_assoc, List.cons_append, elements_next first (skip_gap after _),
      ih.elements xs others rest held (by omega)]
    rfl

theorem reads_members {members : List (Option String × Tree)} {text rest : Text}
    (h : WritesMembers members text) (enough : 2 * text.length + 1 ≤ fuel + 1) :
    parseMembers (fuel + 1) (text ++ some '\x7d' :: rest) = some (members, rest) := by
  cases h with
  | @last name x named text key value =>
    simp only [List.length_append, List.length_cons] at enough
    obtain ⟨quoted, back, after, opened, read⟩ := key_read key (some ':' :: (text ++ some '\x7d' :: rest))
    obtain ⟨back', after', valued⟩ :=
      spaced_read ih value (fun _ _ => stops_mark (c := '\x7d') (by decide) rest) (by omega)
    rw [List.append_assoc, List.cons_append]
    exact members_end opened read (skip_gap after _) valued (skip_gap after' _)
  | @more name x members named text others key value held =>
    simp only [List.length_append, List.length_cons] at enough
    obtain ⟨quoted, back, after, opened, read⟩ :=
      key_read key (some ':' :: (text ++ some ',' :: (others ++ some '\x7d' :: rest)))
    obtain ⟨back', after', valued⟩ := spaced_read ih value
      (fun _ _ => stops_mark (c := ',') (by decide) (others ++ some '\x7d' :: rest)) (by omega)
    rw [List.append_assoc, List.cons_append, List.append_assoc, List.cons_append,
      members_next opened read (skip_gap after _) valued (skip_gap after' _),
      ih.members members others rest held (by omega)]
    rfl

end Step

theorem reads (fuel : ℕ) : Reads fuel := by
  induction fuel with
  | zero =>
    refine ⟨fun tree text rest h _ enough => ?_, fun _ _ _ _ enough => by omega,
      fun _ _ _ _ enough => by omega⟩
    obtain ⟨c, more, rfl, -⟩ := writes_opens h
    simp only [List.length_cons] at enough
    omega
  | succ fuel ih =>
    exact ⟨fun _ _ _ => reads_value ih, fun _ _ _ => reads_elements ih,
      fun _ _ _ => reads_members ih⟩

/-- What the parsers take, with fuel for so many calls. -/
structure Takes (fuel : ℕ) : Prop where
  value : ∀ text tree rest, parseValue fuel text = some (tree, rest) →
    ∃ front inner, Gap front ∧ Writes tree inner ∧ text = front ++ (inner ++ rest)
  elements : ∀ text xs rest, parseElements fuel text = some (xs, rest) →
    ∃ inner, WritesElements xs inner ∧ text = inner ++ some ']' :: rest
  members : ∀ text members rest, parseMembers fuel text = some (members, rest) →
    ∃ inner, WritesMembers members inner ∧ text = inner ++ some '\x7d' :: rest

theorem skipped {text rest : Text} (h : skip text = rest) : ∃ gap, Gap gap ∧ text = gap ++ rest :=
  h ▸ skip_parts text

theorem word_sound {word : List Char} {text rest : Text} (h : word? word text = some rest) :
    text = word.map some ++ rest := by
  fun_induction word? word text with
  | case1 =>
    cases h
    rfl
  | case2 _ _ _ ih => rw [ih h, List.map_cons, List.cons_append]
  | _ => cases h

section Taken

variable {fuel : ℕ} (ih : Takes fuel)

include ih

theorem takes_object {text rest first : Text} {tree : Tree} (opened : skip text = some '\x7b' :: first)
    (h : (match skip first with
      | some '\x7d' :: rest => some (Tree.object [], rest)
      | rest => (parseMembers fuel rest).map fun r => (.object r.1, r.2)) = some (tree, rest)) :
    ∃ front inner, Gap front ∧ Writes tree inner ∧ text = front ++ (inner ++ rest) := by
  obtain ⟨front, before, rfl⟩ := skipped opened
  refine ⟨front, ?_⟩
  split at h
  · rename_i closed
    cases h
    obtain ⟨gap, blank, rfl⟩ := skipped closed
    exact ⟨_, before, .hollow blank, by simp⟩
  · obtain ⟨⟨members, _⟩, read, same⟩ := Option.map_eq_some_iff.mp h
    cases same
    obtain ⟨inner, written, parts⟩ := ih.members _ _ _ read
    obtain ⟨gap, blank, rfl⟩ := skipped parts
    exact ⟨_, before, .object (members_front blank written), by simp⟩

theorem takes_array {text rest first : Text} {tree : Tree} (opened : skip text = some '[' :: first)
    (h : (match skip first with
      | some ']' :: rest => some (Tree.array [], rest)
      | rest => (parseElements fuel rest).map fun r => (.array r.1, r.2)) = some (tree, rest)) :
    ∃ front inner, Gap front ∧ Writes tree inner ∧ text = front ++ (inner ++ rest) := by
  obtain ⟨front, before, rfl⟩ := skipped opened
  refine ⟨front, ?_⟩
  split at h
  · rename_i closed
    cases h
    obtain ⟨gap, blank, rfl⟩ := skipped closed
    exact ⟨_, before, .bare blank, by simp⟩
  · obtain ⟨⟨xs, _⟩, read, same⟩ := Option.map_eq_some_iff.mp h
    cases same
    obtain ⟨inner, written, parts⟩ := ih.elements _ _ _ read
    obtain ⟨gap, blank, rfl⟩ := skipped parts
    exact ⟨_, before, .array (elements_front blank written), by simp⟩

theorem takes_value {text rest : Text} {tree : Tree}
    (h : parseValue (fuel + 1) text = some (tree, rest)) :
    ∃ front inner, Gap front ∧ Writes tree inner ∧ text = front ++ (inner ++ rest) := by
  unfold parseValue at h
  split at h
  case h_1 opened => exact takes_object ih opened h
  case h_2 opened => exact takes_array ih opened h
  case h_3 opened =>
    obtain ⟨⟨s, _⟩, read, same⟩ := Option.map_eq_some_iff.mp h
    cases same
    obtain ⟨front, before, rfl⟩ := skipped opened
    obtain ⟨inner, written, rfl⟩ := string_sound read
    exact ⟨front, _, before, .string written, rfl⟩
  case h_7 =>
    obtain ⟨⟨n, _⟩, read, same⟩ := Option.map_eq_some_iff.mp h
    cases same
    obtain ⟨inner, written, parts⟩ := numeral_sound read
    obtain ⟨front, before, rfl⟩ := skipped parts
    exact ⟨front, _, before, .number written, rfl⟩
  -- the three words
  all_goals
    rename_i opened
    obtain ⟨_, read, same⟩ := Option.map_eq_some_iff.mp h
    cases same
    obtain ⟨front, before, rfl⟩ := skipped opened
    obtain rfl := word_sound read
  · exact ⟨front, _, before, .null, rfl⟩
  · exact ⟨front, _, before, .yes, rfl⟩
  · exact ⟨front, _, before, .no, rfl⟩

theorem takes_spaced {text valued : Text} {x : Tree} (value : parseValue fuel text = some (x, valued))
    {c : Char} {rest : Text} (next : skip valued = some c :: rest) :
    ∃ inner, Spaced x inner ∧ text = inner ++ some c :: rest := by
  obtain ⟨front, inner, before, written, rfl⟩ := ih.value _ _ _ value
  obtain ⟨back, after, rfl⟩ := skipped next
  exact ⟨_, .around before written after, by simp⟩

theorem takes_elements {text rest : Text} {xs : List Tree}
    (h : parseElements (fuel + 1) text = some (xs, rest)) :
    ∃ inner, WritesElements xs inner ∧ text = inner ++ some ']' :: rest := by
  simp only [parseElements, Option.bind_eq_bind, Option.bind_eq_some_iff] at h
  obtain ⟨⟨x, valued⟩, first, h⟩ := h
  split at h
  · rename_i closed
    cases h
    obtain ⟨inner, value, parts⟩ := takes_spaced ih first closed
    exact ⟨inner, .last value, parts⟩
  · rename_i comma
    obtain ⟨⟨xs, _⟩, more, same⟩ := Option.bind_eq_some_iff.mp h
    cases same
    obtain ⟨inner, value, rfl⟩ := takes_spaced ih first comma
    obtain ⟨others, held, rfl⟩ := ih.elements _ _ _ more
    exact ⟨_, .more value held, by simp⟩
  · cases h

theorem takes_members {text rest : Text} {members : List (Option String × Tree)}
    (h : parseMembers (fuel + 1) text = some (members, rest)) :
    ∃ inner, WritesMembers members inner ∧ text = inner ++ some '\x7d' :: rest := by
  obtain ⟨quoted, named, colon, valued, name, x, opened, read, separated, value, ends⟩ :=
    members_cases h
  obtain ⟨front, before, rfl⟩ := skipped opened
  obtain ⟨inner, written, rfl⟩ := string_sound read
  obtain ⟨back, after, rfl⟩ := skipped separated
  have key : Spaced (.string name) _ := .around before (.string written) after
  rcases ends with ⟨closed, rfl⟩ | ⟨comma, others, next, more, rfl⟩
  · obtain ⟨text, spaced, rfl⟩ := takes_spaced ih value closed
    exact ⟨_, .last key spaced, by simp⟩
  · obtain ⟨text, spaced, rfl⟩ := takes_spaced ih value next
    obtain ⟨tail, held, rfl⟩ := ih.members _ _ _ more
    exact ⟨_, .more key spaced held, by simp⟩

end Taken

theorem takes (fuel : ℕ) : Takes fuel := by
  induction fuel with
  | zero => exact ⟨nofun, nofun, nofun⟩
  | succ fuel ih =>
    exact ⟨fun _ _ _ => takes_value ih, fun _ _ _ => takes_elements ih,
      fun _ _ _ => takes_members ih⟩

theorem parse_value {tree : Tree} {text : Text} (h : Spaced tree text) (rest : Text)
    (ends : Ends tree rest) : ∃ back, Gap back ∧
      parseValue (2 * (text ++ rest).length + 2) (text ++ rest) = some (tree, back ++ rest) :=
  spaced_read (reads _) h ends (by rw [List.length_append]; omega)

/-- The texts of a tree, with spaces around it or without, are those that it is parsed from. -/
theorem parse_iff {text : Text} {tree : Tree} : parse? text = some tree ↔ Spaced tree text := by
  constructor
  · intro h
    simp only [parse?, Option.bind_eq_bind, Option.bind_eq_some_iff] at h
    obtain ⟨⟨_, rest⟩, read, h⟩ := h
    split at h
    · rename_i ends
      cases h
      obtain ⟨front, inner, before, written, rfl⟩ := (takes _).value _ _ _ read
      exact .around before written (List.dropWhile_eq_nil_iff.mp (List.isEmpty_iff.mp ends))
    · cases h
  · intro h
    obtain ⟨back, after, read⟩ := parse_value h [] (ends_nil tree)
    rw [List.append_nil, List.append_nil] at read
    rw [parse?, read, Option.bind_eq_bind, Option.bind_some]
    dsimp only
    rw [skip_all after]
    rfl

/-- Nothing but spaces may follow a document, unless another number comes of it. -/
theorem parse_trailing {text rest : Text} {tree other : Tree} (h : Spaced tree text)
    (solid : ¬ Gap rest) (parsed : parse? (text ++ rest) = some other) :
    ∃ n, other = .number n := by
  by_cases number : ∃ n, tree = .number n
  · obtain ⟨n, rfl⟩ := number
    obtain ⟨c, more, opening, first⟩ := spaced_opens h
    obtain ⟨d, more', opening', first'⟩ := spaced_opens (parse_iff.mp parsed)
    have same := first' []
    rw [List.append_nil, first rest] at same
    obtain rfl : c = d := Option.some.inj (List.cons.inj same).1
    exact opening_number opening opening'
  · obtain ⟨back, after, read⟩ := parse_value h rest fun n same => (number ⟨n, same⟩).elim
    rw [parse?, read, Option.bind_eq_bind, Option.bind_some] at parsed
    dsimp only at parsed
    rw [skip_gap after] at parsed
    split at parsed
    · rename_i ends
      exact absurd (List.dropWhile_eq_nil_iff.mp (List.isEmpty_iff.mp ends)) solid
    · cases parsed

end WorkloadIdentity.Tree
