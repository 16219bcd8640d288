import WorkloadIdentity.Proofs.Config.Sources
import WorkloadIdentity.Proofs.Json.Documents
import WorkloadIdentity.Proofs.Json.Records
import WorkloadIdentity.Proofs.Json.Values
import WorkloadIdentity.Proofs.Source.Extraction

/-!
# Objects in a body

What an object has under a name is a list of trees, in the order of the text. A value keeps the last of
them, and a record has room for one.
-/

set_option autoImplicit false

namespace WorkloadIdentity.Tree

def Holds (body : Bytes) (members : List (Option String × Tree)) : Prop :=
  Spaced (.object members) (Utf8.units body)

theorem holds_iff {body : Bytes} {members : List (Option String × Tree)} :
    Holds body members ↔ ofBytes? body = some (.object members) := parse_iff.symm

def isObject : Option Tree → Bool
  | some (.object _) => true
  | _ => false

theorem holds_of_object (body : Bytes) (h : isObject (ofBytes? body) = true) :
    ∃ members, Holds body members := by
  unfold isObject at h
  split at h
  · rename_i members parsed
    exact ⟨members, holds_iff.mpr parsed⟩
  · cases h

def under (members : List (Option String × Tree)) (name : String) : List Tree :=
  (members.filter fun m => m.1 = some name).map Prod.snd

section Under

variable {members : List (Option String × Tree)} {name : String}

theorem under_here (x : Tree) (members : List (Option String × Tree)) (name : String) :
    under ((some name, x) :: members) name = x :: under members name := by
  simp [under]

theorem under_other {key : Option String} (x : Tree) (members : List (Option String × Tree))
    (other : key ≠ some name) : under ((key, x) :: members) name = under members name := by
  simp [under, other]

theorem under_iff {x : Tree} : x ∈ under members name ↔ (some name, x) ∈ members := by
  simp [under]

def last? (members : List (Option String × Tree)) (name : String) : Option Tree :=
  (under members name).getLast?

def lastText? (members : List (Option String × Tree)) (name : String) : Option String :=
  match last? members name with
  | some (.string t) => t
  | _ => none

end Under

theorem lastText_iff {members : List (Option String × Tree)} {name t : String} :
    lastText? members name = some t ↔ last? members name = some (.string (some t)) := by
  unfold lastText?
  split
  · simp_all
  · rename_i other
    exact ⟨nofun, fun same => (other _ same).elim⟩

section Values

variable {depth : ℕ} {members : List (Option String × Tree)} {vs : List (String × Json)}

theorem get_last (h : membersAt? depth members = some vs) (name : String) :
    Members.get? (Members.ofList vs) name = (last? members name).bind (valueAt? depth) := by
  rw [Extraction.get_ofList]
  unfold last?
  induction members generalizing vs with
  | nil =>
    cases h
    rfl
  | cons m members ih =>
    obtain ⟨key, x⟩ := m
    simp only [membersAt?, Option.bind_eq_bind, Option.bind_eq_some_iff] at h
    obtain ⟨key, rfl, v, first, others, rest, same⟩ := h
    cases same
    rw [List.reverse_cons, List.lookup_append, ih rest]
    by_cases here : key = name
    · subst here
      rw [under_here, List.getLast?_cons]
      rcases later : (under members key).getLast? with _ | y
      · simp [first]
      · have held := under_iff.mp (List.mem_of_getLast? later)
        obtain ⟨w, valued⟩ := value_of_within (within_of_members members rest _ held).2
        simp [valued]
    · have other : (name == key) = false := by simpa using Ne.symm here
      rw [under_other x members (by simpa using here)]
      simp [List.lookup_cons, other]

theorem get_text (h : membersAt? depth members = some vs) (name : String) :
    OAuthError.textMember (.object (Members.ofList vs)) name = lastText? members name := by
  refine Option.ext fun t => ?_
  rw [OAuthError.textMember, Json.get?, get_last h, lastText_iff, Option.bind_assoc,
    Option.bind_eq_some_iff]
  constructor
  · rintro ⟨x, last, read⟩
    obtain ⟨v, valued, text⟩ := Option.bind_eq_some_iff.mp read
    rw [Grammar.string_iff.mp text] at valued
    rw [last, value_string_iff.mp valued]
  · intro last
    exact ⟨_, last, Option.bind_eq_some_iff.mpr ⟨_, value_string_iff.mpr rfl, rfl⟩⟩

end Values

theorem absorb_fits {ds : List Char} {start : ℕ}
    (fits : Nat.ofDigitChars 10 ds start ≤ Numeral.maxSignificand) :
    Numeral.absorb start ds = (Nat.ofDigitChars 10 ds start, []) := by
  induction ds generalizing start with
  | nil => rfl
  | cons d ds ih =>
    rw [Nat.ofDigitChars_cons] at fits ⊢
    have grown := Grammar.digits_grow ds (10 * start + (d.toNat - '0'.toNat))
    rw [Numeral.absorb, if_pos (Nat.le_trans grown fits), ih fits]

theorem absorb_whole {ds : List Char} {start significand : ℕ}
    (h : Numeral.absorb start ds = (significand, [])) :
    Nat.ofDigitChars 10 ds start = significand := by
  induction ds generalizing start with
  | nil =>
    cases h
    rfl
  | cons d ds ih =>
    rw [Numeral.absorb] at h
    split at h
    · rw [Nat.ofDigitChars_cons]
      exact ih h
    · cases h

theorem number_natural_iff {n : Numeral} {k : ℕ} (small : k < 2 ^ 64) :
    n.number? = some (.integer k) ↔ n.negative = false ∧ n.fraction = none ∧ n.exponent = none ∧
      Nat.ofDigitChars 10 n.whole 0 = k := by
  constructor
  · intro h
    rcases read : Numeral.absorb 0 n.whole with ⟨significand, excess⟩
    simp only [Numeral.number?, read] at h
    split at h
    · rename_i plain
      simp only [Bool.and_eq_true, List.isEmpty_iff, Option.isNone_iff_eq_none, Bool.or_eq_true,
        Bool.not_eq_true', bne_iff_ne, decide_eq_true_eq] at plain
      obtain ⟨⟨⟨rfl, fraction⟩, exponent⟩, sign⟩ := plain
      have integer := Number.integer.inj (Option.some.inj h)
      have positive : n.negative = false := by
        rcases sign with positive | ⟨nonzero, -⟩
        · exact positive
        · by_contra negative
          rw [Bool.not_eq_false] at negative
          rw [if_pos negative] at integer
          omega
      rw [positive, if_neg nofun] at integer
      exact ⟨positive, fraction, exponent, (absorb_whole read).trans (by omega)⟩
    · obtain ⟨_, -, same⟩ := Option.map_eq_some_iff.mp h
      cases same
  · rintro ⟨positive, fraction, exponent, rfl⟩
    have fits : Nat.ofDigitChars 10 n.whole 0 ≤ Numeral.maxSignificand := Nat.le_sub_one_of_lt small
    simp [Numeral.number?, absorb_fits fits, positive, fraction, exponent]

section Fields

variable {fields : List String} {members : List (Option String × Tree)} {get : String → Option Json}

/-- A field of a record is what stands under its name, which is one tree at most. -/
theorem spells_under (h : Spells fields (.object members) get) {name : String}
    (known : name ∈ fields) : (under members name = [] ∧ get name = none) ∨
      ∃ x v, under members name = [x] ∧ x.value? = some v ∧ get name = some v := by
  obtain @⟨_, _, -, once, held, missing⟩ := h
  rcases listed : under members name with _ | ⟨x, _ | ⟨y, more⟩⟩
  · refine .inl ⟨rfl, missing name fun _ x member => ?_⟩
    rw [← under_iff, listed] at member
    cases member
  · obtain ⟨v, valued, found⟩ := held name known x (under_iff.mp (by rw [listed]; exact .head _))
    exact .inr ⟨x, v, rfl, valued, found⟩
  · have named : ∀ m ∈ members.filter fun m => m.1 = some name, m.1 = some name :=
      fun m member => of_decide_eq_true (List.mem_filter.mp member).2
    have apart := once.filter fun m => m.1 = some name
    obtain ⟨m, rest, first, -, others⟩ := List.map_eq_cons_iff.mp listed
    obtain ⟨m', rest', second, -, -⟩ := List.map_eq_cons_iff.mp others
    rw [first, second] at named apart
    have later := (List.pairwise_cons.mp apart).1 m' (.head _) name known (named m (.head _))
    exact absurd (named m' (.tail _ (.head _))) later

/-- An object is a record if it has one readable tree at most under each field. -/
theorem spells_of_under (named : ∀ m ∈ members, m.1 ≠ none)
    (each : ∀ name ∈ fields, under members name = [] ∨
      ∃ x v, under members name = [x] ∧ x.value? = some v) :
    ∃ get, Spells fields (.object members) get := by
  have once : members.Pairwise fun m later => ∀ field ∈ fields, m.1 = some field →
      later.1 ≠ some field := by
    refine List.pairwise_iff_forall_sublist.mpr fun {m later} pair field known first second => ?_
    have both : 2 ≤ (under members field).length := by
      simpa [under, first, second] using ((pair.filter fun m => m.1 = some field).map Prod.snd).length_le
    obtain empty | ⟨x, v, single, -⟩ := each field known
    · simp [empty] at both
    · simp [single] at both
  obtain ⟨record, read⟩ := known_complete named once fun field known x member => by
    have held := under_iff.mpr member
    obtain empty | ⟨y, v, single, valued⟩ := each field known
    · rw [empty] at held
      cases held
    · rw [single, List.mem_singleton] at held
      exact ⟨v, held ▸ valued⟩
  exact ⟨record.field?, known_sound read⟩

end Fields

end WorkloadIdentity.Tree
