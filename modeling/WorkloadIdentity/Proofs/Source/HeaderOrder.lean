import Mathlib.Data.Multiset.Defs
import WorkloadIdentity.Proofs.Session.Headers

/-!
# Headers in any order

The headers for a server of subject tokens are a map, which has no order of its own. The request is
made entry by entry, and whichever entry comes next, it is built or refused all the same: no entry
stands in for another, not even if their names differ in case only. Nor does anything that follows
the request depend on the order.
-/

set_option autoImplicit false

namespace WorkloadIdentity.HeaderOrder

open Headers (Fit lowered make_request_eq)
open Journey (source_fails)
open Matching (Matches)

/-- Two requests that differ in the order of their headers at most. -/
structure Reordered (r r' : Request) : Prop where
  method : r.method = r'.method
  uri : r.uri = r'.uri
  headers : r.headers.Perm r'.headers
  body : r.body = r'.body

section Orders

variable {raw raw' : List RawHeader} (permuted : raw.Perm raw')

include permuted

theorem fit_perm : (∀ header ∈ raw, Fit header) ↔ ∀ header ∈ raw', Fit header :=
  forall_congr' fun _ => imp_congr_left permuted.mem_iff

theorem make_perm (method : Method) (url : String) (body : Bytes) :
    Option.Rel Reordered (Request.make? method url raw body)
      (Request.make? method url raw' body) := by
  rw [make_request_eq, make_request_eq]
  by_cases fits : ∀ header ∈ raw, Fit header
  · rw [if_pos fits, if_pos ((fit_perm permuted).mp fits)]
    cases Uri.parse? url with
    | none => exact .none
    | some uri => exact .some ⟨rfl, rfl, permuted.map lowered, rfl⟩
  · rw [if_neg fits, if_neg fun all => fits ((fit_perm permuted).mpr all)]
    exact .none

end Orders

/-- The source, with the entries of its map visited in this order. -/
def visiting (source : UrlSource) (order : List (String × String)) : UrlSource :=
  { source with headers := order }

def unmarked : String × String → RawHeader
  | (name, value) => (false, name, value)

/-- What it takes to build the request. No part of it depends on an order. -/
structure Buildable (source : UrlSource) : Prop where
  addressed : (Uri.parse? source.url).isSome = true
  fit : ∀ header ∈ source.headers.map unmarked, Fit header

/-- Names and values of the headers, each pair as often as it is there. -/
def entries (request : Request) : Multiset (String × Bytes) :=
  request.headers.map fun header => (header.name, header.value)

/-- The map as it is configured, but for the case of its names. -/
def configured (source : UrlSource) : Multiset (String × Bytes) :=
  source.headers.map fun (name, value) =>
    (String.ofList (name.toList.map Char.toLower), Utf8.ofString value)

structure Fetches (source : UrlSource) (request : Request) : Prop where
  method : request.method = .get
  uri : Uri.parse? source.url = some request.uri
  headers : entries request = configured source
  plain : ∀ header ∈ request.headers, header.sensitive = false
  body : request.body = []

theorem request_eq (source : UrlSource) :
    source.request? = if ∀ header ∈ source.headers.map unmarked, Fit header then
      (Uri.parse? source.url).map fun uri =>
        ⟨.get, uri, (source.headers.map unmarked).map lowered, []⟩
    else none :=
  make_request_eq .get source.url (source.headers.map unmarked) []

theorem request_built (source : UrlSource) :
    source.request?.isSome = true ↔ Buildable source := by
  rw [request_eq]
  by_cases fits : ∀ header ∈ source.headers.map unmarked, Fit header
  · rw [if_pos fits, Option.isSome_map]
    exact ⟨fun addressed => ⟨addressed, fits⟩, fun h => h.addressed⟩
  · rw [if_neg fits]
    exact ⟨nofun, fun h => absurd h.fit fits⟩

theorem request_fetches {source : UrlSource} {request : Request}
    (built : source.request? = some request) : Fetches source request := by
  have fits := ((request_built source).mp (Option.isSome_of_mem built)).fit
  rw [request_eq, if_pos fits] at built
  obtain ⟨uri, parsed, rfl⟩ := Option.map_eq_some_iff.mp built
  have pairs : ((source.headers.map unmarked).map lowered).map
      (fun header => (header.name, header.value)) = source.headers.map fun (name, value) =>
        (String.ofList (name.toList.map Char.toLower), Utf8.ofString value) := by
    rw [List.map_map, List.map_map]
    rfl
  have plain : ∀ header ∈ (source.headers.map unmarked).map lowered, header.sensitive = false := by
    simp only [List.forall_mem_map]
    exact fun _ _ => rfl
  exact ⟨rfl, parsed, congrArg _ pairs, plain, rfl⟩

section Visits

variable {source : UrlSource} {order first second : List (String × String)}

theorem visiting_buildable (visited : order.Perm source.headers) :
    Buildable (visiting source order) ↔ Buildable source := by
  have fits := fit_perm (visited.map unmarked)
  exact ⟨fun h => ⟨h.addressed, fits.mp h.fit⟩, fun h => ⟨h.addressed, fits.mpr h.fit⟩⟩

theorem visiting_built (visited : order.Perm source.headers) :
    (visiting source order).request?.isSome = true ↔ Buildable source :=
  (request_built _).trans (visiting_buildable visited)

theorem visiting_fetches (visited : order.Perm source.headers) {request : Request}
    (built : (visiting source order).request? = some request) : Fetches source request := by
  have same : configured (visiting source order) = configured source :=
    Multiset.coe_eq_coe.mpr (visited.map _)
  have fetches := request_fetches built
  exact { fetches with headers := fetches.headers.trans same }

theorem visiting_reordered (source : UrlSource) (permuted : first.Perm second) :
    Option.Rel Reordered (visiting source first).request? (visiting source second).request? :=
  make_perm (permuted.map _) .get source.url []

end Visits

def consulting (config : Configuration) (source : UrlSource) : Configuration :=
  { config with source := .url source }

/-- In every world the retrieval fails for good with an error of the subject token, and leaves the
world as it is: nothing is sent. -/
def Refuses (config : Configuration) : Prop :=
  ∀ w, ∃ e : CredentialsError, config.retrieve w = (.error (.error e), w) ∧
    e.stage = .subjectToken ∧ e.transient = false

inductive SameEvent : Event → Event → Prop
  | same (event : Event) : SameEvent event event
  | request {r r' : Request} (reordered : Reordered r r') : SameEvent (.request r) (.request r')

theorem unbuilt_refuses (config : Configuration) {source : UrlSource}
    (unbuilt : source.request? = none) : Refuses (consulting config source) := by
  intro w
  have failed : (consulting config source).sourceToken w =
      (.error (.error (.ofIncident .request)), w) := by
    show source.subjectToken w = _
    unfold UrlSource.subjectToken
    rw [unbuilt]
    rfl
  exact ⟨_, source_fails failed, rfl, rfl⟩

section Retrieval

variable (config : Configuration) (source : UrlSource) {first second : List (String × String)}
  (permuted : first.Perm second)

include permuted

theorem subject_token_matches :
    Matches SameEvent (visiting source first).subjectToken
      (visiting source second).subjectToken := by
  have built : Option.Rel (fun r r' => SameEvent (.request r) (.request r'))
      (visiting source first).request? (visiting source second).request? := by
    generalize (visiting source first).request? = x, (visiting source second).request? = x',
      visiting_reordered source permuted = reordered
    cases reordered with
    | none => exact .none
    | some same => exact .some (.request same)
  apply Matching.matches_built .request built
  intro r r' related
  apply Matching.matches_bind (Matching.matches_send related)
  intro response _
  exact Matching.matches_ofExcept ((visiting source first).read response)

theorem retrieve_matches :
    Matches SameEvent (consulting config (visiting source first)).retrieve
      (consulting config (visiting source second)).retrieve := by
  have sources : Matches SameEvent (consulting config (visiting source first)).sourceToken
      (consulting config (visiting source second)).sourceToken :=
    subject_token_matches source permuted
  -- what asks for a grant does not look at the source
  have granting : ∀ subjectToken, Option.Rel (fun r r' => SameEvent (.request r) (.request r'))
      (Exchange.request? config subjectToken) (Exchange.request? config subjectToken) := by
    intro subjectToken
    cases Exchange.request? config subjectToken with
    | none => exact .none
    | some request => exact .some (.same _)
  exact Matching.matches_retrieve sources rfl rfl (fun subjectToken _ => granting subjectToken)
    fun _ _ request _ => .same (.request request)

end Retrieval

/-- The entries of the map may be visited in any two orders. The request is built in both or in
neither: exactly if the URL is one of a request and every entry can be a header. In both it goes to
the same URI by the same method and has no body, and its headers are the entries of the map with
their names in lower case, none of them lost, merged or overwritten. If it is not built, nothing is
sent and the retrieval fails for good. In every world the retrievals end alike, and what leaves them
differs in nothing but the order of these headers. -/
theorem header_order_irrelevant (config : Configuration) (source : UrlSource)
    {first second : List (String × String)} (one : first.Perm source.headers)
    (other : second.Perm source.headers) :
    ((visiting source first).request?.isSome = true ↔
      (visiting source second).request?.isSome = true) ∧
    ((visiting source first).request?.isSome = true ↔ Buildable source) ∧
    (∀ request request', (visiting source first).request? = some request →
      (visiting source second).request? = some request' →
      Fetches source request ∧ Fetches source request' ∧ Reordered request request') ∧
    ((visiting source first).request? = none →
      Refuses (consulting config (visiting source first)) ∧
        Refuses (consulting config (visiting source second))) ∧
    Matches SameEvent (consulting config (visiting source first)).retrieve
      (consulting config (visiting source second)).retrieve := by
  have permuted : first.Perm second := one.trans other.symm
  have both := (visiting_built one).trans (visiting_built other).symm
  refine ⟨both, visiting_built one, ?_, ?_, retrieve_matches config source permuted⟩
  · intro request request' built built'
    have reordered := visiting_reordered source permuted
    rw [built, built', Option.rel_some_some] at reordered
    exact ⟨visiting_fetches one built, visiting_fetches other built', reordered⟩
  · intro unbuilt
    have unbuilt' : (visiting source second).request? = none := by
      rw [← Option.not_isSome_iff_eq_none] at unbuilt ⊢
      exact fun built => unbuilt (both.mpr built)
    exact ⟨unbuilt_refuses config unbuilt, unbuilt_refuses config unbuilt'⟩

def colliding : UrlSource := ⟨"https://tokens/", [("X-Key", "1"), ("x-key", "2")], .text⟩

def broken : UrlSource := ⟨"https://tokens/", [("", "1"), ("x-key", "a\nb")], .text⟩

def asking (values : List Bytes) : Request :=
  ⟨.get, ⟨some "https".toList, "tokens".toList, ['/'], none⟩,
    values.map fun value => ⟨"x-key", value, false⟩, []⟩

theorem header_order_irrelevant_colliding :
    [("x-key", "2"), ("X-Key", "1")].Perm colliding.headers ∧
    colliding.request? = some (asking [[0x31], [0x32]]) ∧
    (visiting colliding [("x-key", "2"), ("X-Key", "1")]).request? =
      some (asking [[0x32], [0x31]]) ∧
    Fetches colliding (asking [[0x32], [0x31]]) ∧
    Reordered (asking [[0x31], [0x32]]) (asking [[0x32], [0x31]]) ∧
    Refuses (consulting Deferred.usable broken) ∧
    Refuses (consulting Deferred.usable (visiting broken [("x-key", "a\nb"), ("", "1")])) := by
  have built : colliding.request? = some (asking [[0x31], [0x32]]) := by decide +kernel
  have built' : (visiting colliding [("x-key", "2"), ("X-Key", "1")]).request? =
      some (asking [[0x32], [0x31]]) := by decide +kernel
  have unbuilt : broken.request? = none := by decide +kernel
  have visited : [("x-key", "2"), ("X-Key", "1")].Perm colliding.headers := .swap _ _ _
  obtain ⟨-, -, same, -⟩ := header_order_irrelevant Deferred.usable colliding (.refl _) visited
  obtain ⟨-, fetches, reordered⟩ := same _ _ built built'
  obtain ⟨-, -, -, refused, -⟩ :=
    header_order_irrelevant Deferred.usable broken (.refl _) (.swap _ _ _)
  exact ⟨visited, built, built', fetches, reordered, refused unbuilt⟩

end WorkloadIdentity.HeaderOrder
