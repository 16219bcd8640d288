import WorkloadIdentity.Proofs.Retrieval.Overflow
import WorkloadIdentity.Proofs.Retrieval.Rejections

/-!
# What a grant is read from

A grant is an object with five known members, each of which may stand once, in any order and among
any others. The text around them and the way that they are written do not count. All that an object
can have wrong is known, too, and then there is neither a grant nor a reason to try again.
-/

set_option autoImplicit false

namespace WorkloadIdentity.Granting

open Grammar (Maybe Natural Text natural_iff optional_iff optional_text_iff text_iff)
open WorkloadIdentity.Tree (Gap Holds Spaced Spells Writes WritesNumeral holds_iff holds_of_object number_natural_iff
  parse_trailing record_iff spells_of_under spells_under under value_null_iff value_number_iff
  value_string_iff)
open Journey (answer_met answer_next answer_ticks bind_ok call_retrieves exchange_run source_gives)
open Deferred (grant_answered)
open Overflow (Held expiry_eq read_iff)
open Rejections (Asks call_fails retrieve_refused)

def known : List String := ["access_token", "issued_token_type", "token_type", "expires_in", "scope"]

/-- A member that may be left out or null. -/
inductive Optional {α : Type} (Prints : α → Tree → Prop) : List Tree → Option α → Prop
  | absent : Optional Prints [] none
  | null : Optional Prints [.null] none
  | given {a : α} {x : Tree} (prints : Prints a x) : Optional Prints [x] (some a)

def PrintsText (t : String) (x : Tree) : Prop := x = .string (some t)

inductive PrintsSeconds (seconds : ℕ) : Tree → Prop
  | digits {ds : List Char} (value : Nat.ofDigitChars 10 ds 0 = seconds) (small : seconds < 2 ^ 64) :
      PrintsSeconds seconds (.number ⟨false, ds, none, none⟩)

structure Describes (members : List (Option String × Tree)) (grant : Exchange.Grant) : Prop where
  named : ∀ m ∈ members, m.1 ≠ none
  access : under members "access_token" = [.string (some grant.accessToken)]
  issued : Optional PrintsText (under members "issued_token_type") grant.issuedTokenType
  kind : under members "token_type" = [.string (some grant.tokenType)] ∨
    under members "token_type" = [] ∧ grant.tokenType = "Bearer"
  lifetime : Optional PrintsSeconds (under members "expires_in") grant.expiresIn
  scope : Optional PrintsText (under members "scope") grant.scope

inductive Fits : String → Tree → Prop
  | text {name t : String}
      (textual : name ∈ ["access_token", "issued_token_type", "token_type", "scope"]) :
      Fits name (.string (some t))
  | null {name : String} (optional : name ∈ ["issued_token_type", "expires_in", "scope"]) :
      Fits name .null
  | seconds {n : ℕ} {x : Tree} (prints : PrintsSeconds n x) : Fits "expires_in" x

inductive Flawed (members : List (Option String × Tree)) : Prop
  | missing (absent : under members "access_token" = [])
  | mistyped {name : String} {x : Tree} (listed : name ∈ known) (held : x ∈ under members name)
      (unfit : ¬ Fits name x)
  | repeated {name : String} (listed : name ∈ known) (twice : 2 ≤ (under members name).length)

/-- A document, and then something that is not blank. -/
def Trails (body : Bytes) : Prop :=
  ∃ tree text rest, Spaced tree text ∧ ¬ Gap rest ∧ Utf8.units body = text ++ rest

/-- The fields of a record, for a grant. -/
structure Fields (get : String → Option Json) (grant : Exchange.Grant) : Prop where
  access : get "access_token" = some (.string grant.accessToken)
  issued : Maybe Text (get "issued_token_type") grant.issuedTokenType
  kind : get "token_type" = some (.string grant.tokenType) ∨
    get "token_type" = none ∧ grant.tokenType = "Bearer"
  lifetime : Maybe (Natural 64) (get "expires_in") grant.expiresIn
  scope : Maybe Text (get "scope") grant.scope

theorem kind_iff {record : Record} {t : String} : Exchange.Grant.tokenTypeOf? record = some t ↔
    record.field? "token_type" = some (.string t) ∨
      record.field? "token_type" = none ∧ t = "Bearer" := by
  unfold Exchange.Grant.tokenTypeOf?
  rcases record.field? "token_type" with _ | value
  · simp [eq_comm]
  · simp [Grammar.string_iff, Text]

theorem fields_iff {record : Record} {grant : Exchange.Grant} :
    (do
      let access ← record.text "access_token"
      let issued ← record.optionalText "issued_token_type"
      let kind ← Exchange.Grant.tokenTypeOf? record
      let lifetime ← record.optional (Record.natural? 64) "expires_in"
      let scope ← record.optionalText "scope"
      return (⟨access, issued, kind, lifetime, scope⟩ : Exchange.Grant)) = some grant ↔
        Fields record.field? grant := by
  have seconds (lifetime : Option ℕ) :
      record.optional (Record.natural? 64) "expires_in" = some lifetime ↔
        Maybe (Natural 64) (record.field? "expires_in") lifetime :=
    optional_iff (fun _ _ => natural_iff) nofun
  simp only [Option.bind_eq_bind, Option.bind_eq_some_iff, text_iff, optional_text_iff, kind_iff,
    seconds, Option.pure_def, Option.some.injEq]
  constructor
  · rintro ⟨_, access, _, issued, _, kind, _, lifetime, _, scope, rfl⟩
    exact ⟨access, issued, kind, lifetime, scope⟩
  · rintro ⟨access, issued, kind, lifetime, scope⟩
    exact ⟨_, access, _, issued, _, kind, _, lifetime, _, scope, rfl⟩

section Members

variable {members : List (Option String × Tree)} {get : String → Option Json} {name : String}

theorem text_field (spelled : Spells known (.object members) get) (listed : name ∈ known)
    {t : String} : get name = some (.string t) ↔ under members name = [.string (some t)] := by
  obtain ⟨empty, absent⟩ | ⟨x, v, single, valued, found⟩ := spells_under spelled listed
  · simp [empty, absent]
  · have worth : v = .string t ↔ x = .string (some t) := by
      rw [← value_string_iff, ← Option.some_inj, ← valued, Tree.value?]
    simp [single, found, worth]

theorem maybe_field {α : Type} {Reads : Json → α → Prop} {Prints : α → Tree → Prop}
    (agree : ∀ x v a, x.value? = some v → (Reads v a ↔ Prints a x))
    (spelled : Spells known (.object members) get) (listed : name ∈ known) {a : Option α} :
    Maybe Reads (get name) a ↔ Optional Prints (under members name) a := by
  obtain ⟨empty, absent⟩ | ⟨x, v, single, valued, found⟩ := spells_under spelled listed
  · rw [empty, absent]
    constructor <;> rintro ⟨⟩ <;> constructor
  · have null : v = .null ↔ x = .null := by
      rw [← value_null_iff, ← Option.some_inj, ← valued, Tree.value?]
    rw [single, found]
    constructor
    · intro h
      cases h with
      | null => exact null.mp rfl ▸ .null
      | given reads => exact .given ((agree _ _ _ valued).mp reads)
    · intro h
      cases h with
      | null => exact null.mpr rfl ▸ .null
      | given prints => exact .given ((agree _ _ _ valued).mpr prints)

theorem text_agrees (x : Tree) (v : Json) (t : String) (valued : x.value? = some v) :
    Text v t ↔ PrintsText t x := by
  rw [Text, PrintsText, ← value_string_iff, ← Option.some_inj, ← valued, Tree.value?]

theorem seconds_agree (x : Tree) (v : Json) (n : ℕ) (valued : x.value? = some v) :
    Natural 64 v n ↔ PrintsSeconds n x := by
  rw [Natural, ← Option.some_inj (b := Json.number _), ← valued, Tree.value?, value_number_iff]
  constructor
  · rintro ⟨small, numeral, rfl, read⟩
    obtain ⟨negative, whole, fraction, exponent⟩ := numeral
    obtain ⟨rfl, rfl, rfl, value⟩ := (number_natural_iff small).mp read
    exact .digits value small
  · rintro ⟨value, small⟩
    exact ⟨small, _, rfl, (number_natural_iff small).mpr ⟨rfl, rfl, rfl, value⟩⟩

theorem absent_field (spelled : Spells known (.object members) get) (listed : name ∈ known) :
    get name = none ↔ under members name = [] := by
  obtain ⟨empty, absent⟩ | ⟨x, v, single, -, found⟩ := spells_under spelled listed
  · simp [empty, absent]
  · simp [single, found]

variable {grant : Exchange.Grant}

theorem described_fields (spelled : Spells known (.object members) get) :
    Fields get grant ↔ Describes members grant := by
  have kind : get "token_type" = some (.string grant.tokenType) ∨
        get "token_type" = none ∧ grant.tokenType = "Bearer" ↔
      under members "token_type" = [.string (some grant.tokenType)] ∨
        under members "token_type" = [] ∧ grant.tokenType = "Bearer" := by
    rw [text_field spelled (by decide), absent_field spelled (by decide)]
  have access : get "access_token" = some (.string grant.accessToken) ↔
      under members "access_token" = [.string (some grant.accessToken)] :=
    text_field spelled (by decide)
  have issued : Maybe Text (get "issued_token_type") grant.issuedTokenType ↔
      Optional PrintsText (under members "issued_token_type") grant.issuedTokenType :=
    maybe_field text_agrees spelled (by decide)
  have lifetime : Maybe (Natural 64) (get "expires_in") grant.expiresIn ↔
      Optional PrintsSeconds (under members "expires_in") grant.expiresIn :=
    maybe_field seconds_agree spelled (by decide)
  have scope : Maybe Text (get "scope") grant.scope ↔
      Optional PrintsText (under members "scope") grant.scope :=
    maybe_field text_agrees spelled (by decide)
  constructor
  · intro h
    obtain @⟨_, _, named, -, -, -⟩ := spelled
    exact ⟨named, access.mp h.access, issued.mp h.issued, kind.mp h.kind, lifetime.mp h.lifetime,
      scope.mp h.scope⟩
  · intro h
    exact ⟨access.mpr h.access, issued.mpr h.issued, kind.mpr h.kind, lifetime.mpr h.lifetime,
      scope.mpr h.scope⟩

theorem optional_readable {α : Type} {Prints : α → Tree → Prop} {xs : List Tree} {a : Option α}
    (h : Optional Prints xs a) (readable : ∀ a x, Prints a x → ∃ v, x.value? = some v) :
    xs = [] ∨ ∃ x v, xs = [x] ∧ x.value? = some v := by
  cases h with
  | absent => exact .inl rfl
  | null => exact .inr ⟨_, _, rfl, value_null_iff.mpr rfl⟩
  | given prints =>
    obtain ⟨v, valued⟩ := readable _ _ prints
    exact .inr ⟨_, v, rfl, valued⟩

theorem text_readable (t : String) (x : Tree) (h : PrintsText t x) : ∃ v, x.value? = some v :=
  ⟨.string t, value_string_iff.mpr h⟩

theorem seconds_readable (n : ℕ) (x : Tree) (h : PrintsSeconds n x) : ∃ v, x.value? = some v := by
  obtain ⟨value, small⟩ := h
  exact ⟨.number (.integer n),
    value_number_iff.mpr ⟨_, rfl, (number_natural_iff small).mpr ⟨rfl, rfl, rfl, value⟩⟩⟩

theorem described_readable (h : Describes members grant) : ∀ name ∈ known, under members name = [] ∨
    ∃ x v, under members name = [x] ∧ x.value? = some v := by
  simp only [known, List.forall_mem_cons, List.not_mem_nil, false_implies, implies_true, and_true]
  refine ⟨.inr ⟨_, _, h.access, value_string_iff.mpr rfl⟩, optional_readable h.issued text_readable,
    ?_, optional_readable h.lifetime seconds_readable, optional_readable h.scope text_readable⟩
  obtain single | ⟨empty, -⟩ := h.kind
  · exact .inr ⟨_, _, single, value_string_iff.mpr rfl⟩
  · exact .inl empty

/-- An object is read as what it describes. -/
theorem read_described {body : Bytes} (held : Holds body members) :
    Exchange.Grant.read? body = some grant ↔ Describes members grant := by
  have read : Exchange.Grant.read? body = some grant ↔
      ∃ get, Spells known (.object members) get ∧ Fields get grant := by
    rw [← record_iff Fields fun _ => fields_iff, Exchange.Grant.read?, holds_iff.mp held]
    rfl
  rw [read]
  constructor
  · rintro ⟨get, spelled, fields⟩
    exact (described_fields spelled).mp fields
  · intro h
    obtain ⟨get, spelled⟩ := spells_of_under h.named (described_readable h)
    exact ⟨get, spelled, (described_fields spelled).mpr h⟩

theorem optional_fits {α : Type} {Prints : α → Tree → Prop} {xs : List Tree} {a : Option α}
    (h : Optional Prints xs a) (fits : ∀ a x, Prints a x → Fits name x) (null : Fits name .null) :
    xs.length ≤ 1 ∧ ∀ x ∈ xs, Fits name x := by
  cases h with
  | absent => simp
  | null => simpa using null
  | given prints => simpa using fits _ _ prints

theorem text_fits (textual : name ∈ ["access_token", "issued_token_type", "token_type", "scope"])
    (t : String) (x : Tree) (h : PrintsText t x) : Fits name x := by
  rw [PrintsText] at h
  exact h ▸ .text textual

theorem described_fits (h : Describes members grant) : ∀ name ∈ known,
    (under members name).length ≤ 1 ∧ ∀ x ∈ under members name, Fits name x := by
  simp only [known, List.forall_mem_cons, List.not_mem_nil, false_implies, implies_true, and_true]
  refine ⟨?_, optional_fits h.issued (text_fits (by decide)) (.null (by decide)), ?_,
    optional_fits h.lifetime (fun _ _ => .seconds) (.null (by decide)),
    optional_fits h.scope (text_fits (by decide)) (.null (by decide))⟩
  · rw [h.access]
    simpa using Fits.text (by decide)
  · obtain single | ⟨empty, -⟩ := h.kind
    · rw [single]
      simpa using Fits.text (by decide)
    · simp [empty]

theorem flawed_undescribed (flawed : Flawed members) : ¬ Describes members grant := by
  intro h
  cases flawed with
  | missing absent => cases h.access.symm.trans absent
  | mistyped listed held unfit => exact unfit ((described_fits h _ listed).2 _ held)
  | repeated listed twice => exact absurd (described_fits h _ listed).1 (by omega)

theorem fits_text {x : Tree} (h : Fits name x) (other : name ≠ "expires_in") :
    (∃ t, PrintsText t x) ∨ name ∈ ["issued_token_type", "expires_in", "scope"] ∧ x = .null := by
  cases h with
  | text _ => exact .inl ⟨_, rfl⟩
  | null optional => exact .inr ⟨optional, rfl⟩
  | seconds _ => exact absurd rfl other

theorem fits_seconds {x : Tree} (h : Fits name x) (lifetime : name = "expires_in") :
    (∃ n, PrintsSeconds n x) ∨ x = .null := by
  cases h with
  | text textual => exact absurd (lifetime ▸ textual) (by decide)
  | null _ => exact .inr rfl
  | seconds prints => exact .inl ⟨_, prints⟩

theorem optional_of {α : Type} {Prints : α → Tree → Prop} {xs : List Tree} (single : xs.length ≤ 1)
    (each : ∀ x ∈ xs, (∃ a, Prints a x) ∨ x = .null) : ∃ a, Optional Prints xs a := by
  rcases xs with _ | ⟨x, _ | ⟨y, more⟩⟩
  · exact ⟨none, .absent⟩
  · obtain ⟨a, prints⟩ | rfl := each x (.head _)
    · exact ⟨some a, .given prints⟩
    · exact ⟨none, .null⟩
  · simp at single

/-- An object whose names are texts describes a grant unless it has one of the flaws. -/
theorem described_or_flawed (named : ∀ m ∈ members, m.1 ≠ none) :
    (∃ grant, Describes members grant) ∨ Flawed members := by
  by_cases flawed : Flawed members
  · exact .inr flawed
  have single : ∀ name ∈ known, (under members name).length ≤ 1 := fun name listed => by
    by_contra twice
    exact flawed (.repeated listed (by omega))
  have fits : ∀ name ∈ known, ∀ x ∈ under members name, Fits name x := fun name listed x held => by
    by_contra unfit
    exact flawed (.mistyped listed held unfit)
  have texts (name : String) (listed : name ∈ known) (other : name ≠ "expires_in") :
      ∃ t, Optional PrintsText (under members name) t :=
    optional_of (single name listed) fun x held =>
      (fits_text (fits name listed x held) other).imp_right And.right
  obtain ⟨issued, issues⟩ := texts "issued_token_type" (by decide) (by decide)
  obtain ⟨scope, scopes⟩ := texts "scope" (by decide) (by decide)
  obtain ⟨lifetime, lasts⟩ := optional_of (single "expires_in" (by decide)) fun x held =>
    fits_seconds (fits "expires_in" (by decide) x held) rfl
  -- The other two may not be null.
  have proper (name : String) (listed : name ∈ known)
      (required : name ∉ ["issued_token_type", "expires_in", "scope"]) :
      under members name = [] ∨ ∃ t, under members name = [.string (some t)] := by
    rcases held : under members name with _ | ⟨x, _ | ⟨y, more⟩⟩
    · exact .inl rfl
    · obtain ⟨t, rfl⟩ | ⟨optional, -⟩ := fits_text (fits name listed x (by rw [held]; exact .head _))
        (by rintro rfl; exact required (by decide))
      · exact .inr ⟨t, rfl⟩
      · exact absurd optional required
    · have := single name listed
      simp [held] at this
  obtain absent | ⟨access, given⟩ := proper "access_token" (by decide) (by decide)
  · exact (flawed (.missing absent)).elim
  obtain left_out | ⟨kind, told⟩ := proper "token_type" (by decide) (by decide)
  · exact .inl ⟨⟨access, issued, "Bearer", lifetime, scope⟩,
      named, given, issues, .inr ⟨left_out, rfl⟩, lasts, scopes⟩
  · exact .inl ⟨⟨access, issued, kind, lifetime, scope⟩,
      named, given, issues, .inl told, lasts, scopes⟩

end Members

theorem read_trailing {body : Bytes} (h : Trails body) : Exchange.Grant.read? body = none := by
  obtain ⟨tree, text, rest, spaced, solid, parts⟩ := h
  rcases parsed : Tree.ofBytes? body with _ | other
  · rw [Exchange.Grant.read?, parsed]
    rfl
  · have whole : Tree.parse? (text ++ rest) = some other := by rwa [Tree.ofBytes?, parts] at parsed
    obtain ⟨n, rfl⟩ := parse_trailing spaced solid whole
    rw [Exchange.Grant.read?, parsed]
    rfl

def reported : Option String → Option String → Option (Members String)
  | none, none => none
  | some issued, none => some [("issued_token_type", issued)]
  | none, some scope => some [("scope", scope)]
  | some issued, some scope => some [("issued_token_type", issued), ("scope", scope)]

def tokenAt (grant : Exchange.Grant) (ticks : Calendar.Nanoseconds) : Token :=
  ⟨grant.accessToken, grant.tokenType,
    grant.expiresIn.map fun seconds : ℕ => ticks + seconds * Calendar.second,
    reported grant.issuedTokenType grant.scope⟩

theorem metadata_reported (grant : Exchange.Grant) :
    grant.metadata = reported grant.issuedTokenType grant.scope := by
  unfold Exchange.Grant.metadata
  rcases grant.issuedTokenType with _ | issued <;> rcases grant.scope with _ | scope <;> rfl

theorem token_held {grant : Exchange.Grant} {ticks : Calendar.Nanoseconds}
    (held : ∀ seconds ∈ grant.expiresIn, Held (ticks + seconds * Calendar.second)) :
    Exchange.tokenOf grant ticks = .ok (tokenAt grant ticks) := by
  rw [Exchange.tokenOf, tokenAt, ← metadata_reported]
  rcases lifetime : grant.expiresIn with _ | seconds
  · rfl
  · simp only [expiry_eq, if_pos (held seconds lifetime), Option.map_some]

section Calls

variable {c : Credentials} {subjectToken : String} {w : World} {response : Response}

theorem retrieve_granted {config : Configuration} {v : World} {grant : Exchange.Grant}
    (h : Asks config v subjectToken w response) (alone : config.impersonation = none)
    (read : Exchange.read response = .ok grant)
    (held : ∀ seconds ∈ grant.expiresIn, Held (w.ticks + seconds * Calendar.second)) :
    ∃ left, left.ticks = w.ticks ∧ config.retrieve v = (.ok (tokenAt grant w.ticks), left) := by
  obtain ⟨uri, parsed⟩ := Option.isSome_iff_exists.mp h.addressed
  obtain ⟨sts, -, asked⟩ := grant_answered parsed h.connected h.met subjectToken
  have granted : Exchange.exchange config subjectToken w =
      (.ok (tokenAt grant w.ticks), (w.answer sts).2) := by
    rw [exchange_run, asked, read]
    simp only [Except.mapError, answer_ticks, token_held held]
  refine ⟨(w.answer sts).2, answer_ticks sts w, ?_⟩
  rw [source_gives h.sourced, bind_ok granted, alone]
  rfl

theorem refresh_granted {grant : Exchange.Grant} (h : Asks c.config c.world subjectToken w response)
    (alone : c.config.impersonation = none) (read : Exchange.read response = .ok grant)
    (held : ∀ seconds ∈ grant.expiresIn, Held (w.ticks + seconds * Calendar.second)) :
    (c.call .refresh).2.world.ticks = w.ticks ∧
    (c.call .refresh).1 = .token (tokenAt grant w.ticks) ∧
    (c.call .refresh).2.cache.token = some (tokenAt grant w.ticks) := by
  obtain ⟨left, ticks, retrieved⟩ := retrieve_granted h alone read held
  rw [call_retrieves rfl]
  unfold Credentials.retrieve
  rw [retrieved]
  exact ⟨ticks, rfl, rfl⟩

/-- The call ends at the answer, with an error that is not worth a retry, and the cached token stays. -/
structure Refuses (c : Credentials) (subjectToken : String) (w : World) : Prop where
  reply : ∃ e : CredentialsError, (c.call .refresh).1 = .error e ∧ e.transient = false ∧
    e.stage = .other ∧ e.oauth? = none
  cached : (c.call .refresh).2.cache.token = c.cache.token
  alone : ∃ sts, Exchange.request? c.config subjectToken = some sts ∧
    (c.call .refresh).2.world.requests = w.requests ++ [sts]

theorem refresh_refused (h : Asks c.config c.world subjectToken w response)
    (success : Status.isSuccess response.status = true)
    (unread : Exchange.Grant.read? response.body = none) : Refuses c subjectToken w := by
  have read : Exchange.read response = .error (.ofIncident .json) := by
    rw [Exchange.read, if_pos success, unread]
  obtain ⟨sts, built, retrieved⟩ := retrieve_refused h read
  have stale : c.look .refresh = .stale c.cache.generation := rfl
  obtain ⟨reply, cached, world⟩ := call_fails stale retrieved
  obtain ⟨-, logged, -, -⟩ := answer_met (answer_next sts w)
  exact ⟨⟨_, reply, rfl, rfl, rfl⟩, cached, sts, built, world ▸ logged⟩

theorem seconds_printed {n : ℕ} (small : n < 2 ^ 64) :
    ∃ x, PrintsSeconds n x ∧ Writes x ((Nat.toDigits 10 n).map some) :=
  ⟨_, .digits Nat.ofDigitChars_ten_toDigits small, .number (Tree.printed_numeral n)⟩

/-- A service accepts the request for a grant. If the body of its answer is an object that describes
one, in whatever order and among whatever other members, then a refresh that is not for an account
brings the token of the grant, from now by the monotonic clock, and caches it. If the object has a
flaw, or the document is not the end of the body, then the refresh ends there for good and leaves the
cache. An object whose names are texts either describes a grant or has a flaw. -/
theorem grants_decoded (asks : Asks c.config c.world subjectToken w response)
    (success : Status.isSuccess response.status = true) :
    (∀ members grant, Holds response.body members → Describes members grant →
      c.config.impersonation = none →
      (∀ seconds ∈ grant.expiresIn, Held (w.ticks + seconds * Calendar.second)) →
      (c.call .refresh).2.world.ticks = w.ticks ∧
      (c.call .refresh).1 = .token (tokenAt grant w.ticks) ∧
      (c.call .refresh).2.cache.token = some (tokenAt grant w.ticks)) ∧
    (∀ members, Holds response.body members → Flawed members → Refuses c subjectToken w) ∧
    (Trails response.body → Refuses c subjectToken w) ∧
    (∀ members : List (Option String × Tree), (∀ m ∈ members, m.1 ≠ none) →
      ((∃ grant, Describes members grant) ↔ ¬ Flawed members)) ∧
    ∀ n < 2 ^ 64, ∃ x, PrintsSeconds n x ∧ Writes x ((Nat.toDigits 10 n).map some) := by
  refine ⟨fun members grant holds described alone held => ?_, fun members holds flawed => ?_,
    fun trails => refresh_refused asks success (read_trailing trails), fun members named => ?_,
    fun n => seconds_printed⟩
  · exact refresh_granted asks alone (read_iff.mpr ⟨success, (read_described holds).mpr described⟩) held
  · refine refresh_refused asks success (Option.eq_none_iff_forall_ne_some.mpr fun grant read => ?_)
    exact flawed_undescribed flawed ((read_described holds).mp read)
  · constructor
    · rintro ⟨grant, described⟩ flawed
      exact flawed_undescribed flawed described
    · exact (described_or_flawed named).resolve_right

end Calls

/-- The members in no order, one of them null and one with a member of that name in its own object. -/
def granting : Response where
  status := 201
  body := Utf8.ofString ("\x7b\"x\":[\x7b\"expires_in\":1e999\x7d], \"expires_in\" : 60 ,\n" ++
    "\"token_type\":\"N_A\",\"scope\":null,\"\\u0061ccess_token\":\"a\\/b\"\x7d ")

def direct : Configuration := Deferred.configuration "https://sts/token" none none

def accepting : World := { Deferred.obliging with answers := [.response granting] }

theorem grants_decoded_sixty :
    ((Credentials.new direct accepting).call .refresh).1 =
      .token ⟨"a/b", "N_A", some 60000000000, none⟩ ∧
    ((Credentials.new direct accepting).call .refresh).2.cache.token =
      some ⟨"a/b", "N_A", some 60000000000, none⟩ := by
  have sourced : direct.sourceToken accepting = (.ok "subject", accepting) :=
    Journey.file_gives (by decide +kernel) (by decide +kernel) (by decide +kernel)
  have asks : Asks direct accepting "subject" accepting granting :=
    ⟨sourced, by decide +kernel, rfl, rfl⟩
  obtain ⟨members, holds⟩ := holds_of_object granting.body (by decide +kernel)
  have read : Exchange.Grant.read? granting.body = some ⟨"a/b", none, "N_A", some 60, none⟩ := by
    decide +kernel
  have held : ∀ seconds ∈ (some 60 : Option ℕ), Held (accepting.ticks + seconds * Calendar.second) := by
    rintro _ ⟨⟩
    decide
  obtain ⟨decoded, -⟩ := grants_decoded (c := .new direct accepting) asks rfl
  obtain ⟨-, reply, cached⟩ := decoded members _ holds ((read_described holds).mp read) rfl held
  exact ⟨reply, cached⟩

end WorkloadIdentity.Granting
