import Mathlib.Algebra.Ring.Nat
import Mathlib.Data.List.Basic
import WorkloadIdentity.Json.Parser
import WorkloadIdentity.Text.Blank

/-!
# How much of a text is read

A parser leaves an end of the text that it was given. By the number of characters that are not
blank, what it takes weighs more than the strings that it reads there, so no string in a document
weighs as much as the document.
-/

set_option autoImplicit false

namespace WorkloadIdentity.Tree

def isSolid : Option Char → Bool
  | some c => !Blank.isBlank c
  | none => false

def weight (text : Text) : ℕ := text.countP isSolid

theorem weight_cons (c : Option Char) (text : Text) :
    weight (c :: text) = weight text + if isSolid c then 1 else 0 := List.countP_cons

theorem weight_front (c : Option Char) (text : Text) : weight (c :: text) ≤ weight text + 1 := by
  rw [weight_cons]
  split <;> omega

theorem weight_le {text rest : Text} (h : rest <:+ text) : weight rest ≤ weight text :=
  h.sublist.countP_le

def pieceWeight : Piece → ℕ
  | .scalar c => if isSolid (some c) then 1 else 0
  | .escape _ => 1
  | .stray => 0

/-- Two escapes may make one character. -/
theorem text_weight {pieces : List Piece} {text : List Char} (h : text? pieces = some text) :
    weight (text.map some) ≤ (pieces.map pieceWeight).sum := by
  fun_induction text? pieces generalizing text with
  | case1 =>
    cases h
    exact Nat.zero_le _
  | case2 c rest ih =>
    obtain ⟨more, read, rfl⟩ := Option.map_eq_some_iff.mp h
    have := ih read
    simp only [List.map_cons, weight_cons, List.sum_cons, pieceWeight]
    omega
  | case4 high low rest _ _ ih =>
    obtain ⟨more, read, rfl⟩ := Option.map_eq_some_iff.mp h
    have := ih read
    refine Nat.le_trans (weight_front _ _) ?_
    simp only [List.map_cons, List.sum_cons, pieceWeight] at this ⊢
    omega
  | case7 high low rest _ _ ih =>
    obtain ⟨more, read, rfl⟩ := Option.map_eq_some_iff.mp h
    have := ih read
    refine Nat.le_trans (weight_front _ _) ?_
    simp only [List.map_cons, List.sum_cons, pieceWeight] at this ⊢
    omega
  | case9 code rest _ _ ih =>
    obtain ⟨more, read, rfl⟩ := Option.map_eq_some_iff.mp h
    have := ih read
    refine Nat.le_trans (weight_front _ _) ?_
    simp only [List.map_cons, List.sum_cons, pieceWeight] at this ⊢
    omega
  | _ => cases h

theorem pieces_weight {text rest : Text} {pieces : List Piece}
    (h : pieces? text = some (pieces, rest)) :
    rest <:+ text ∧ (pieces.map pieceWeight).sum + weight rest < weight text := by
  have quote : isSolid (some '"') = true ∧ isSolid (some '\\') = true := by decide
  fun_induction pieces? text generalizing pieces rest with
  | case2 rest =>
    cases h
    refine ⟨List.suffix_cons _ _, ?_⟩
    simp [weight_cons, quote.1]
  | case3 a b c d rest ih =>
    simp only [Option.bind_eq_bind, Option.bind_eq_some_iff] at h
    obtain ⟨_, -, _, -, _, -, _, -, ⟨ps, rest⟩, read, whole⟩ := h
    cases whole
    obtain ⟨ends, lighter⟩ := ih read
    have front : rest <:+ some '\\' :: some 'u' :: a :: b :: c :: d :: _ :=
      ends.trans (List.suffix_append [some '\\', some 'u', a, b, c, d] _)
    refine ⟨front, ?_⟩
    simp only [List.map_cons, List.sum_cons, pieceWeight, weight_cons, quote.2, if_true]
    omega
  | case4 e rest _ ih =>
    simp only [Option.bind_eq_bind, Option.bind_eq_some_iff] at h
    obtain ⟨c, -, ⟨ps, rest⟩, read, whole⟩ := h
    cases whole
    obtain ⟨ends, lighter⟩ := ih read
    refine ⟨ends.trans (List.suffix_append [some '\\', some e] _), ?_⟩
    simp only [List.map_cons, List.sum_cons, pieceWeight, weight_cons, quote.2, if_true]
    split <;> omega
  | case7 c rest _ _ _ _ _ ih =>
    simp only [Option.bind_eq_bind, Option.bind_eq_some_iff] at h
    obtain ⟨⟨ps, rest⟩, read, whole⟩ := h
    cases whole
    obtain ⟨ends, lighter⟩ := ih read
    refine ⟨ends.trans (List.suffix_cons _ _), ?_⟩
    simp only [List.map_cons, List.sum_cons, pieceWeight, weight_cons]
    omega
  | case8 rest ih =>
    simp only [Option.bind_eq_bind, Option.bind_eq_some_iff] at h
    obtain ⟨⟨ps, rest⟩, read, whole⟩ := h
    cases whole
    obtain ⟨ends, lighter⟩ := ih read
    refine ⟨ends.trans (List.suffix_cons _ _), ?_⟩
    simp only [List.map_cons, List.sum_cons, pieceWeight, weight_cons]
    omega
  | _ => cases h

theorem string_weight {text rest : Text} {s : Option String} (h : string? text = some (s, rest)) :
    rest <:+ text ∧ ∀ t ∈ s, weight (t.toList.map some) + weight rest < weight text := by
  obtain ⟨⟨pieces, rest⟩, read, same⟩ := Option.map_eq_some_iff.mp h
  cases same
  obtain ⟨ends, lighter⟩ := pieces_weight read
  refine ⟨ends, fun t spelled => ?_⟩
  obtain ⟨letters, joined, rfl⟩ := Option.map_eq_some_iff.mp spelled
  have := text_weight joined
  rw [String.toList_ofList]
  omega

theorem skip_suffix (text : Text) : skip text <:+ text := List.dropWhile_suffix _

theorem digits_suffix {text rest : Text} {ds : List Char} (h : someDigits? text = some (ds, rest)) :
    rest <:+ text := by
  unfold someDigits? digits at h
  split at h
  · cases h
  · cases h
    exact List.dropWhile_suffix _

theorem whole_suffix {text rest : Text} {ds : List Char} (h : whole? text = some (ds, rest)) :
    rest <:+ text := by
  unfold whole? at h
  split at h
  · cases h
  · exact digits_suffix h

theorem fraction_suffix {text rest : Text} {ds : Option (List Char)}
    (h : fraction? text = some (ds, rest)) : rest <:+ text := by
  unfold fraction? at h
  split at h
  · obtain ⟨⟨ds, rest⟩, read, same⟩ := Option.map_eq_some_iff.mp h
    cases same
    exact (digits_suffix read).trans (List.suffix_cons _ _)
  · cases h
    exact List.suffix_refl _

theorem exponent_digits_suffix {text rest : Text} {e : Bool × List Char}
    (h : exponentDigits? text = some (e, rest)) : rest <:+ text := by
  unfold exponentDigits? at h
  split at h <;> obtain ⟨⟨ds, rest⟩, read, same⟩ := Option.map_eq_some_iff.mp h <;> cases same
  · exact (digits_suffix read).trans (List.suffix_cons _ _)
  · exact (digits_suffix read).trans (List.suffix_cons _ _)
  · exact digits_suffix read

theorem exponent_suffix {text rest : Text} {e : Option (Bool × List Char)}
    (h : exponent? text = some (e, rest)) : rest <:+ text := by
  unfold exponent? at h
  split at h
  · obtain ⟨⟨e, rest⟩, read, same⟩ := Option.map_eq_some_iff.mp h
    cases same
    exact (exponent_digits_suffix read).trans (List.suffix_cons _ _)
  · obtain ⟨⟨e, rest⟩, read, same⟩ := Option.map_eq_some_iff.mp h
    cases same
    exact (exponent_digits_suffix read).trans (List.suffix_cons _ _)
  · cases h
    exact List.suffix_refl _

theorem magnitude_suffix {negative : Bool} {text rest : Text} {n : Numeral}
    (h : magnitude? negative text = some (n, rest)) : rest <:+ text := by
  simp only [magnitude?, Option.bind_eq_bind, Option.bind_eq_some_iff] at h
  obtain ⟨⟨_, _⟩, whole, ⟨_, _⟩, fraction, ⟨_, _⟩, exponent, same⟩ := h
  cases same
  exact (exponent_suffix exponent).trans ((fraction_suffix fraction).trans (whole_suffix whole))

theorem numeral_suffix {text rest : Text} {n : Numeral} (h : numeral? text = some (n, rest)) :
    rest <:+ text := by
  unfold numeral? at h
  split at h
  · exact (magnitude_suffix h).trans (List.suffix_cons _ _)
  · exact magnitude_suffix h

theorem word_suffix {word : List Char} {text rest : Text} (h : word? word text = some rest) :
    rest <:+ text := by
  fun_induction word? word text with
  | case1 =>
    cases h
    exact List.suffix_refl _
  | case2 _ _ _ ih => exact (ih h).trans (List.suffix_cons _ _)
  | _ => cases h

/-- What the parsers leave, with fuel for so many calls. -/
def Leaves (fuel : ℕ) : Prop :=
  (∀ text tree rest, parseValue fuel text = some (tree, rest) → rest <:+ text) ∧
  (∀ text trees rest, parseElements fuel text = some (trees, rest) → rest <:+ text) ∧
  ∀ text members rest, parseMembers fuel text = some (members, rest) → rest <:+ text

theorem after_skip {c : Option Char} {text rest : Text} (h : skip text = c :: rest) :
    rest <:+ text :=
  (List.suffix_cons c rest).trans (h ▸ skip_suffix text)

theorem value_leaves {fuel : ℕ} (ih : Leaves fuel) {text rest : Text} {tree : Tree}
    (h : parseValue (fuel + 1) text = some (tree, rest)) : rest <:+ text := by
  obtain ⟨-, elements, members⟩ := ih
  unfold parseValue at h
  split at h
  · rename_i first opened
    refine List.IsSuffix.trans ?_ (after_skip opened)
    split at h
    · rename_i closed
      cases h
      exact after_skip closed
    · obtain ⟨⟨_, _⟩, read, same⟩ := Option.map_eq_some_iff.mp h
      cases same
      exact (members _ _ _ read).trans (skip_suffix _)
  · rename_i first opened
    refine List.IsSuffix.trans ?_ (after_skip opened)
    split at h
    · rename_i closed
      cases h
      exact after_skip closed
    · obtain ⟨⟨_, _⟩, read, same⟩ := Option.map_eq_some_iff.mp h
      cases same
      exact (elements _ _ _ read).trans (skip_suffix _)
  · rename_i opened
    obtain ⟨⟨_, _⟩, read, same⟩ := Option.map_eq_some_iff.mp h
    cases same
    exact (string_weight read).1.trans (after_skip opened)
  case h_7 =>
    obtain ⟨⟨_, _⟩, read, same⟩ := Option.map_eq_some_iff.mp h
    cases same
    exact (numeral_suffix read).trans (skip_suffix text)
  -- the three words
  all_goals
    rename_i opened
    obtain ⟨_, read, same⟩ := Option.map_eq_some_iff.mp h
    cases same
    exact (word_suffix read).trans (after_skip opened)

theorem elements_leaves {fuel : ℕ} (ih : Leaves fuel) {text rest : Text} {trees : List Tree}
    (h : parseElements (fuel + 1) text = some (trees, rest)) : rest <:+ text := by
  obtain ⟨values, elements, -⟩ := ih
  simp only [parseElements, Option.bind_eq_bind, Option.bind_eq_some_iff] at h
  obtain ⟨⟨x, after⟩, first, h⟩ := h
  refine List.IsSuffix.trans ?_ (values _ _ _ first)
  split at h
  · rename_i closed
    cases h
    exact after_skip closed
  · rename_i comma
    obtain ⟨⟨_, _⟩, more, same⟩ := Option.bind_eq_some_iff.mp h
    cases same
    exact (elements _ _ _ more).trans (after_skip comma)
  · cases h

theorem members_cases {fuel : ℕ} {text rest : Text} {members : List (Option String × Tree)}
    (h : parseMembers (fuel + 1) text = some (members, rest)) :
    ∃ quoted named colon valued name x, skip text = some '"' :: quoted ∧
      string? quoted = some (name, named) ∧ skip named = some ':' :: colon ∧
      parseValue fuel colon = some (x, valued) ∧
      (skip valued = some '\x7d' :: rest ∧ members = [(name, x)] ∨
        ∃ comma others, skip valued = some ',' :: comma ∧
          parseMembers fuel comma = some (others, rest) ∧ members = (name, x) :: others) := by
  simp only [parseMembers, Option.bind_eq_bind] at h
  split at h
  · rename_i quoted opened
    obtain ⟨⟨name, named⟩, read, h⟩ := Option.bind_eq_some_iff.mp h
    dsimp only at h
    split at h
    · rename_i colon separated
      obtain ⟨⟨x, valued⟩, value, h⟩ := Option.bind_eq_some_iff.mp h
      refine ⟨quoted, named, colon, valued, name, x, opened, read, separated, value, ?_⟩
      dsimp only at h
      split at h
      · rename_i closed
        cases h
        exact .inl ⟨closed, rfl⟩
      · rename_i comma separated
        obtain ⟨⟨others, _⟩, more, same⟩ := Option.bind_eq_some_iff.mp h
        cases same
        exact .inr ⟨comma, others, separated, more, rfl⟩
      · cases h
    · cases h
  · cases h

theorem members_leave {fuel : ℕ} (ih : Leaves fuel) {text rest : Text}
    {members : List (Option String × Tree)}
    (h : parseMembers (fuel + 1) text = some (members, rest)) : rest <:+ text := by
  obtain ⟨values, -, later⟩ := ih
  obtain ⟨quoted, named, colon, valued, name, x, opened, read, separated, value, ends⟩ :=
    members_cases h
  have front : valued <:+ text := (values _ _ _ value).trans
    ((after_skip separated).trans ((string_weight read).1.trans (after_skip opened)))
  rcases ends with ⟨closed, -⟩ | ⟨comma, others, separated, more, -⟩
  · exact (after_skip closed).trans front
  · exact (later _ _ _ more).trans ((after_skip separated).trans front)

theorem leaves (fuel : ℕ) : Leaves fuel := by
  induction fuel with
  | zero => exact ⟨nofun, nofun, nofun⟩
  | succ fuel ih =>
    exact ⟨fun _ _ _ => value_leaves ih, fun _ _ _ => elements_leaves ih,
      fun _ _ _ => members_leave ih⟩

theorem value_weight {fuel : ℕ} {text rest : Text} {t : String}
    (h : parseValue fuel text = some (.string (some t), rest)) :
    weight (t.toList.map some) < weight text := by
  cases fuel with
  | zero => cases h
  | succ fuel =>
    unfold parseValue at h
    split at h
    case h_3 quoted opened =>
      obtain ⟨⟨_, _⟩, read, same⟩ := Option.map_eq_some_iff.mp h
      cases same
      have := (string_weight read).2 t rfl
      have := weight_le (after_skip opened)
      omega
    case h_1 | h_2 =>
      split at h
      · cases h
      · obtain ⟨_, -, same⟩ := Option.map_eq_some_iff.mp h
        cases same
    all_goals
      obtain ⟨_, -, same⟩ := Option.map_eq_some_iff.mp h
      cases same

theorem members_weight {fuel : ℕ} {text rest : Text} {members : List (Option String × Tree)}
    (h : parseMembers fuel text = some (members, rest)) {name : Option String} {t : String}
    (held : (name, .string (some t)) ∈ members) : weight (t.toList.map some) < weight text := by
  induction fuel generalizing text members with
  | zero => cases h
  | succ fuel ih =>
    obtain ⟨quoted, named, colon, valued, other, x, opened, read, separated, value, ends⟩ :=
      members_cases h
    have front : weight colon ≤ weight text := weight_le
      ((after_skip separated).trans ((string_weight read).1.trans (after_skip opened)))
    rcases ends with ⟨-, rfl⟩ | ⟨comma, others, separated, more, rfl⟩
    · cases List.mem_singleton.mp held
      exact Nat.lt_of_lt_of_le (value_weight value) front
    · rcases List.mem_cons.mp held with same | later
      · cases same
        exact Nat.lt_of_lt_of_le (value_weight value) front
      · have := weight_le ((after_skip separated).trans ((leaves fuel).1 _ _ _ value))
        have := ih more later
        omega

theorem object_weight {fuel : ℕ} {text rest : Text} {members : List (Option String × Tree)}
    (h : parseValue fuel text = some (.object members, rest)) {name : Option String} {t : String}
    (held : (name, .string (some t)) ∈ members) : weight (t.toList.map some) < weight text := by
  cases fuel with
  | zero => cases h
  | succ fuel =>
    unfold parseValue at h
    split at h
    case h_1 opened =>
      split at h
      · cases h
        cases held
      · obtain ⟨⟨_, _⟩, read, same⟩ := Option.map_eq_some_iff.mp h
        cases same
        exact Nat.lt_of_lt_of_le (members_weight read held)
          (weight_le ((skip_suffix _).trans (after_skip opened)))
    case h_2 =>
      split at h
      · cases h
      · obtain ⟨_, -, same⟩ := Option.map_eq_some_iff.mp h
        cases same
    all_goals
      obtain ⟨_, -, same⟩ := Option.map_eq_some_iff.mp h
      cases same

/-- A string that a member has weighs less than the document. -/
theorem document_weight {text : Text} {members : List (Option String × Tree)}
    (h : parse? text = some (.object members)) {name : Option String} {t : String}
    (held : (name, .string (some t)) ∈ members) : weight (t.toList.map some) < weight text := by
  simp only [parse?, Option.bind_eq_bind, Option.bind_eq_some_iff] at h
  obtain ⟨⟨tree, rest⟩, read, whole⟩ := h
  split at whole
  · cases whole
    exact object_weight read held
  · cases whole

end WorkloadIdentity.Tree
