import Mathlib.Data.List.Basic
import WorkloadIdentity.Json.Tree

/-!
# Which trees have a value

A tree has a value within limits: on its depth, on its numbers, and on its strings. Each value comes
from a tree of its kind.
-/

set_option autoImplicit false

namespace WorkloadIdentity.Tree

theorem value_kind {depth : ℕ} {x : Tree} {v : Json} (h : valueAt? depth x = some v) :
    match x with
    | .null => v = .null
    | .bool b => v = .bool b
    | .number n => ∃ k, n.number? = some k ∧ v = .number k
    | .string s => ∃ t, s = some t ∧ v = .string t
    | .array xs => ∃ d vs, depth = d + 1 ∧ elementsAt? d xs = some vs ∧ v = .array vs
    | .object members => ∃ d vs, depth = d + 1 ∧ membersAt? d members = some vs ∧
        v = .object (Members.ofList vs) := by
  cases x with
  | null | bool =>
    rw [valueAt?] at h
    exact (Option.some.inj h).symm
  | number | string =>
    rw [valueAt?] at h
    obtain ⟨_, read, rfl⟩ := Option.map_eq_some_iff.mp h
    exact ⟨_, read, rfl⟩
  | array | object =>
    cases depth <;> rw [valueAt?] at h
    · cases h
    · obtain ⟨_, read, rfl⟩ := Option.map_eq_some_iff.mp h
      exact ⟨_, _, rfl, read, rfl⟩

theorem value_null_iff {depth : ℕ} {x : Tree} : valueAt? depth x = some .null ↔ x = .null := by
  constructor
  · intro h
    have kind := value_kind h
    cases x <;> simp at kind ⊢
  · rintro rfl
    rw [valueAt?]

theorem value_string_iff {depth : ℕ} {x : Tree} {t : String} :
    valueAt? depth x = some (.string t) ↔ x = .string (some t) := by
  constructor
  · intro h
    have kind := value_kind h
    cases x <;> simp_all
  · rintro rfl
    rw [valueAt?]
    rfl

theorem value_number_iff {depth : ℕ} {x : Tree} {k : Number} :
    valueAt? depth x = some (.number k) ↔ ∃ n, x = .number n ∧ n.number? = some k := by
  constructor
  · intro h
    have kind := value_kind h
    cases x <;> simp_all
  · rintro ⟨n, rfl, read⟩
    rw [valueAt?, read]
    rfl

theorem value_object_iff {depth : ℕ} {x : Tree} {held : List (String × Json)} :
    valueAt? (depth + 1) x = some (.object held) ↔ ∃ members vs, x = .object members ∧
      membersAt? depth members = some vs ∧ held = Members.ofList vs := by
  constructor
  · intro h
    have kind := value_kind h
    cases x <;> simp_all
  · rintro ⟨members, vs, rfl, read, rfl⟩
    rw [valueAt?, read]
    rfl

/-- The tree has a value: it is no deeper, its numbers are doubles, and all of its strings are texts. -/
inductive Within : ℕ → Tree → Prop
  | null {depth : ℕ} : Within depth .null
  | bool {depth : ℕ} {b : Bool} : Within depth (.bool b)
  | number {depth : ℕ} {n : Numeral} (fits : n.number? ≠ none) : Within depth (.number n)
  | string {depth : ℕ} {t : String} : Within depth (.string (some t))
  | array {depth : ℕ} {xs : List Tree} (each : ∀ x ∈ xs, Within depth x) :
      Within (depth + 1) (.array xs)
  | object {depth : ℕ} {members : List (Option String × Tree)}
      (named : ∀ m ∈ members, m.1 ≠ none) (each : ∀ m ∈ members, Within depth m.2) :
      Within (depth + 1) (.object members)

theorem elements_valued {depth : ℕ} {xs : List Tree}
    (each : ∀ x ∈ xs, ∃ v, valueAt? depth x = some v) : ∃ vs, elementsAt? depth xs = some vs := by
  induction xs with
  | nil => exact ⟨[], rfl⟩
  | cons x xs ih =>
    obtain ⟨⟨v, first⟩, others⟩ := List.forall_mem_cons.mp each
    obtain ⟨vs, rest⟩ := ih others
    exact ⟨v :: vs, by rw [elementsAt?, first, rest]; rfl⟩

theorem members_valued {depth : ℕ} {members : List (Option String × Tree)}
    (named : ∀ m ∈ members, m.1 ≠ none) (each : ∀ m ∈ members, ∃ v, valueAt? depth m.2 = some v) :
    ∃ vs, membersAt? depth members = some vs := by
  induction members with
  | nil => exact ⟨[], rfl⟩
  | cons m members ih =>
    obtain ⟨name, x⟩ := m
    obtain ⟨known, names⟩ := List.forall_mem_cons.mp named
    obtain ⟨⟨v, first⟩, others⟩ := List.forall_mem_cons.mp each
    obtain ⟨key, rfl⟩ := Option.ne_none_iff_exists'.mp known
    obtain ⟨vs, rest⟩ := ih names others
    refine ⟨(key, v) :: vs, ?_⟩
    rw [membersAt?, first, rest]
    rfl

theorem value_of_within {depth : ℕ} {tree : Tree} (h : Within depth tree) :
    ∃ v, valueAt? depth tree = some v := by
  induction h with
  | null | bool => exact ⟨_, valueAt?.eq_def _ _⟩
  | string => exact ⟨_, by rw [valueAt?]; rfl⟩
  | number fits =>
    obtain ⟨x, read⟩ := Option.ne_none_iff_exists'.mp fits
    exact ⟨.number x, by rw [valueAt?, read]; rfl⟩
  | array _ each =>
    obtain ⟨vs, read⟩ := elements_valued each
    exact ⟨.array vs, by rw [valueAt?, read]; rfl⟩
  | object named _ each =>
    obtain ⟨vs, read⟩ := members_valued named each
    exact ⟨_, by rw [valueAt?, read]; rfl⟩

mutual

theorem within_of_value {depth : ℕ} (tree : Tree) {v : Json} (h : valueAt? depth tree = some v) :
    Within depth tree := by
  match tree with
  | .null => exact .null
  | .bool _ => exact .bool
  | .number _ =>
    obtain ⟨k, read, -⟩ := value_kind h
    exact .number (by rw [read]; nofun)
  | .string _ =>
    obtain ⟨t, rfl, -⟩ := value_kind h
    exact .string
  | .array xs =>
    obtain ⟨_, vs, rfl, read, -⟩ := value_kind h
    exact .array (within_of_elements xs read)
  | .object members =>
    obtain ⟨_, vs, rfl, read, -⟩ := value_kind h
    exact .object (fun m member => (within_of_members members read m member).1)
      fun m member => (within_of_members members read m member).2

theorem within_of_elements {depth : ℕ} (xs : List Tree) {vs : List Json}
    (h : elementsAt? depth xs = some vs) : ∀ x ∈ xs, Within depth x := by
  match xs with
  | [] => nofun
  | x :: xs =>
    simp only [elementsAt?, Option.bind_eq_bind, Option.bind_eq_some_iff] at h
    obtain ⟨_, first, _, rest, -⟩ := h
    exact List.forall_mem_cons.mpr ⟨within_of_value x first, within_of_elements xs rest⟩

theorem within_of_members {depth : ℕ} (members : List (Option String × Tree))
    {vs : List (String × Json)} (h : membersAt? depth members = some vs) :
    ∀ m ∈ members, m.1 ≠ none ∧ Within depth m.2 := by
  match members with
  | [] => nofun
  | (name, x) :: members =>
    simp only [membersAt?, Option.bind_eq_bind, Option.bind_eq_some_iff] at h
    obtain ⟨_, known, _, first, _, rest, -⟩ := h
    exact List.forall_mem_cons.mpr
      ⟨⟨by rw [known]; nofun, within_of_value x first⟩, within_of_members members rest⟩

end

theorem within_iff {depth : ℕ} {tree : Tree} :
    Within depth tree ↔ ∃ v, valueAt? depth tree = some v :=
  ⟨value_of_within, fun ⟨_, read⟩ => within_of_value tree read⟩

end WorkloadIdentity.Tree
