import WorkloadIdentity.Json.Parser
import WorkloadIdentity.Proofs.Config.Grammar

/-!
# Records in a text

What a text has to hold for a record to be read straight from it. Here a known name may stand only
once, every name has to be a text, and only the values of known names are looked at.
-/

set_option autoImplicit false

namespace WorkloadIdentity.Tree

/-- An object, of whose members those with known names count, or an array with one element for
each field. -/
inductive Spells (fields : List String) : Tree → (String → Option Json) → Prop
  | object {members : List (Option String × Tree)} {get : String → Option Json}
      (named : ∀ m ∈ members, m.1 ≠ none)
      (once : members.Pairwise fun m later => ∀ field ∈ fields, m.1 = some field →
        later.1 ≠ some field)
      (held : ∀ field ∈ fields, ∀ tree, (some field, tree) ∈ members →
        ∃ value, tree.value? = some value ∧ get field = some value)
      (missing : ∀ field, (field ∈ fields → ∀ tree, (some field, tree) ∉ members) →
        get field = none) :
      Spells fields (.object members) get
  | array {elements : List Tree} {values : List Json}
      (read : List.Forall₂ (fun tree value => tree.value? = some value) elements values)
      (whole : values.length = fields.length) :
      Spells fields (.array elements) fun name => values[fields.idxOf name]?

variable {fields : List String}

theorem spells_passed {name : String} {tree : Tree} {rest : List (Option String × Tree)}
    {get : String → Option Json} (unknown : name ∉ fields) (h : Spells fields (.object rest) get) :
    Spells fields (.object ((some name, tree) :: rest)) get := by
  obtain @⟨_, _, named, once, held, missing⟩ := h
  have other : ∀ field ∈ fields, field ≠ name := fun _ known same => unknown (same ▸ known)
  refine .object (List.forall_mem_cons.mpr ⟨Option.some_ne_none _, named⟩) (.cons ?_ once) ?_ ?_
  · intro _ _ field known same
    exact absurd (Option.some.inj same).symm (other field known)
  · intro field known value member
    rcases List.mem_cons.mp member with here | there
    · cases here
      exact absurd known unknown
    · exact held field known value there
  · intro field absent
    exact missing field fun known value there => absent known value (List.mem_cons_of_mem _ there)

theorem spells_known {name : String} {tree : Tree} {value : Json}
    {rest : List (Option String × Tree)} {record : Record} (known : name ∈ fields)
    (read : tree.value? = some value) (fresh : record.field? name = none)
    (h : Spells fields (.object rest) record.field?) :
    Spells fields (.object ((some name, tree) :: rest))
      (Record.field? ((name, value) :: record)) := by
  obtain @⟨_, _, named, once, held, missing⟩ := h
  have first : ∀ field ∈ fields, ∀ tree, (some field, tree) ∈ rest → field ≠ name := by
    rintro field within other there rfl
    obtain ⟨_, -, found⟩ := held field within other there
    rw [fresh] at found
    cases found
  have later {field : String} (other : field ≠ name) :
      Record.field? ((name, value) :: record) field = record.field? field := by
    have differ : (field == name) = false := by simpa using other
    simp [Record.field?, List.lookup_cons, differ]
  refine .object (List.forall_mem_cons.mpr ⟨Option.some_ne_none _, named⟩) (.cons ?_ once) ?_ ?_
  · rintro ⟨_, other⟩ there field within same rfl
    exact first field within other there (Option.some.inj same).symm
  · intro field within other member
    rcases List.mem_cons.mp member with here | there
    · cases here
      exact ⟨value, read, by simp [Record.field?]⟩
    · rw [later (first field within other there)]
      exact held field within other there
  · intro field absent
    have other : field ≠ name := by
      rintro rfl
      exact absent known tree List.mem_cons_self
    rw [later other]
    exact missing field fun within value there => absent within value (List.mem_cons_of_mem _ there)

theorem known_sound {members : List (Option String × Tree)} {record : Record}
    (h : known? fields members = some record) :
    Spells fields (.object members) record.field? := by
  induction members generalizing record with
  | nil =>
    cases h
    exact .object nofun .nil nofun fun _ _ => rfl
  | cons m rest ih =>
    obtain ⟨name, tree⟩ := m
    simp only [known?, Option.bind_eq_bind, Option.bind_eq_some_iff] at h
    obtain ⟨name, rfl, others, read, h⟩ := h
    split at h
    · rename_i known
      split at h
      · cases h
      · rename_i fresh
        obtain ⟨value, valued, same⟩ := Option.bind_eq_some_iff.mp h
        cases same
        exact spells_known (by simpa using known) valued
          (Option.not_isSome_iff_eq_none.mp fresh) (ih read)
    · rename_i unknown
      cases h
      exact spells_passed (by simpa using unknown) (ih read)

theorem known_complete {members : List (Option String × Tree)}
    (named : ∀ m ∈ members, m.1 ≠ none)
    (once : members.Pairwise fun m later => ∀ field ∈ fields, m.1 = some field →
      later.1 ≠ some field)
    (readable : ∀ field ∈ fields, ∀ tree, (some field, tree) ∈ members → ∃ value,
      tree.value? = some value) : ∃ record, known? fields members = some record := by
  induction members with
  | nil => exact ⟨[], rfl⟩
  | cons m rest ih =>
    obtain ⟨name, tree⟩ := m
    obtain ⟨name, rfl⟩ := Option.ne_none_iff_exists'.mp (named _ List.mem_cons_self)
    obtain ⟨first, once⟩ := List.pairwise_cons.mp once
    obtain ⟨others, read⟩ := ih (fun m there => named m (List.mem_cons_of_mem _ there)) once
      fun field known tree there => readable field known tree (List.mem_cons_of_mem _ there)
    by_cases known : name ∈ fields
    · obtain ⟨value, valued⟩ := readable name known tree List.mem_cons_self
      obtain @⟨_, _, -, -, -, missing⟩ := known_sound read
      have fresh : others.lookup name = none := missing name fun _ other there =>
        first (some name, other) there name known rfl rfl
      exact ⟨(name, value) :: others, by simp [known?, read, known, fresh, valued]⟩
    · exact ⟨others, by simp [known?, read, known]⟩

theorem spells_object_unique {members : List (Option String × Tree)}
    {get get' : String → Option Json}
    (h : Spells fields (.object members) get) (h' : Spells fields (.object members) get') :
    get = get' := by
  obtain @⟨_, _, -, -, held, missing⟩ := h
  obtain @⟨_, _, -, -, held', missing'⟩ := h'
  funext field
  by_cases listed : field ∈ fields ∧ ∃ tree, (some field, tree) ∈ members
  · obtain ⟨known, tree, member⟩ := listed
    obtain ⟨value, read, found⟩ := held field known tree member
    obtain ⟨value', read', found'⟩ := held' field known tree member
    rw [found, found', ← read, read']
  · have absent : field ∈ fields → ∀ tree, (some field, tree) ∉ members :=
      fun known tree member => listed ⟨known, tree, member⟩
    rw [missing field absent, missing' field absent]

theorem values_iff {elements : List Tree} {values : List Json} :
    elements.mapM Tree.value? = some values ↔
      List.Forall₂ (fun tree value => tree.value? = some value) elements values := by
  induction elements generalizing values with
  | nil =>
    cases values with
    | nil => simp
    | cons => exact ⟨by simp, nofun⟩
  | cons tree rest ih =>
    simp only [List.mapM_cons, Option.bind_eq_bind, Option.bind_eq_some_iff, ih, Option.pure_def,
      Option.some.injEq]
    constructor
    · rintro ⟨value, read, others, reads, rfl⟩
      exact .cons read reads
    · intro h
      cases h with
      | cons read reads => exact ⟨_, read, _, reads, rfl⟩

theorem spells_iff {tree : Tree} {get : String → Option Json} :
    Spells fields tree get ↔ ∃ record, tree.record? fields = some record ∧ record.field? = get := by
  constructor
  · intro h
    cases h with
    | object named once held missing =>
      obtain ⟨record, read⟩ := known_complete named once fun field known tree member =>
        (held field known tree member).imp fun _ found => found.1
      exact ⟨record, read,
        spells_object_unique (known_sound read) (.object named once held missing)⟩
    | @array elements values read whole =>
      refine ⟨fields.zip values, ?_, ?_⟩
      · simp [Tree.record?, values_iff.mpr read, Record.ofElements?, whole]
      · funext name
        exact Grammar.lookup_zip name whole
  · rintro ⟨record, read, rfl⟩
    cases tree with
    | object members => exact known_sound read
    | array elements =>
      obtain ⟨values, reads, placed⟩ := Option.bind_eq_some_iff.mp read
      obtain ⟨whole, same⟩ := Option.ite_none_right_eq_some.mp placed
      cases same
      have places : Record.field? (fields.zip values) = fun name => values[fields.idxOf name]? := by
        funext name
        exact Grammar.lookup_zip name whole
      rw [places]
      exact .array (values_iff.mp reads) whole
    | _ => cases read

/-- A reader of records gives what the fields of the record say. -/
theorem record_iff {α : Type} {tree : Tree} {body : Record → Option α}
    (Holds : (String → Option Json) → α → Prop) {a : α}
    (holds : ∀ record : Record, body record = some a ↔ Holds record.field? a) :
    (tree.record? fields).bind body = some a ↔ ∃ get, Spells fields tree get ∧ Holds get a := by
  rw [Option.bind_eq_some_iff]
  constructor
  · rintro ⟨record, read, held⟩
    exact ⟨_, spells_iff.mpr ⟨record, read, rfl⟩, (holds record).mp held⟩
  · rintro ⟨get, spelled, held⟩
    obtain ⟨record, read, rfl⟩ := spells_iff.mp spelled
    exact ⟨record, read, (holds record).mpr held⟩

end WorkloadIdentity.Tree
