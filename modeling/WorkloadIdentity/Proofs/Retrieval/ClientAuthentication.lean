import Mathlib.Data.Option.Basic
import WorkloadIdentity.Proofs.Retrieval.Messages
import WorkloadIdentity.Proofs.Text.Base64

/-!
# How a client shows who it is

With an identifier and a secret the request for a grant has one more header, which any two texts fit
into. A server that takes the first colon for the end of the identifier reads just these two texts
there, unless the identifier has a colon itself.
-/

set_option autoImplicit false

namespace WorkloadIdentity.ClientAuthentication

open Messages (basic basic_value clientHeaders contentType request_eq)

def splitFirst? (pair : List Char) : Option (String × String) :=
  match pair.dropWhile (· ≠ ':') with
  | _ :: secret => some (String.ofList (pair.takeWhile (· ≠ ':')), String.ofList secret)
  | [] => none

def presented? (value : Bytes) : Option (String × String) := do
  let text ← Utf8.decode? value
  guard ("Basic ".toList.isPrefixOf text)
  let bytes ← Base64.decode? (text.drop 6)
  splitFirst? (← Utf8.decode? bytes)

def authorizations (request : Request) : List Header :=
  request.headers.filter (·.name = "authorization")

/-- The header is about this identifier and this secret. -/
structure Presents (header : Header) (id secret : String) : Prop where
  named : header.name = "authorization"
  hidden : header.sensitive = true
  legal : Header.isValue header.value = true
  encoded : ∃ text : String, header.value = Utf8.ofString ("Basic " ++ text) ∧
    Base64.decode? text.toList = some (Utf8.ofString (id ++ ":" ++ secret))
  recovered : presented? header.value = some (id, secret) ↔ ':' ∉ id.toList

theorem split_first {id : List Char} (free : ':' ∉ id) (secret : List Char) :
    splitFirst? (id ++ ':' :: secret) = some (String.ofList id, String.ofList secret) := by
  have others : ∀ c ∈ id, decide (c ≠ ':') = true := by
    intro c member
    simpa using fun same : c = ':' => free (same ▸ member)
  rw [splitFirst?, List.dropWhile_append_of_pos others, List.takeWhile_append_of_pos others]
  simp

theorem split_free {pair : List Char} {id secret : String}
    (h : splitFirst? pair = some (id, secret)) : ':' ∉ id.toList := by
  unfold splitFirst? at h
  split at h
  · cases h
    rw [String.toList_ofList]
    intro member
    simpa using List.mem_takeWhile_imp member
  · cases h

theorem basic_presented (id secret : String) :
    presented? (basic id secret).value = splitFirst? (id.toList ++ ':' :: secret.toList) := by
  let encoded := Base64.encode (Utf8.encode (id.toList ++ ':' :: secret.toList))
  have plain : (String.ofList encoded).toList = encoded := String.toList_ofList
  have read : Utf8.decode? (basic id secret).value = some ("Basic ".toList ++ encoded) := by
    rw [basic, Utf8.ofString, Utf8.decode_encode, String.toList_append, plain]
  have scheme (rest : List Char) : "Basic ".toList.isPrefixOf ("Basic ".toList ++ rest) = true :=
    List.isPrefixOf_iff_prefix.mpr (List.prefix_append _ _)
  have dropped (rest : List Char) : ("Basic ".toList ++ rest).drop 6 = rest := rfl
  simp only [presented?, read, scheme, dropped, encoded, Base64.decode_encode, Utf8.decode_encode, guard_true,
    Option.pure_def, Option.bind_eq_bind, Option.bind_some]

theorem basic_presents (id secret : String) : Presents (basic id secret) id secret := by
  refine ⟨rfl, rfl, basic_value id secret, ⟨_, rfl, ?_⟩, ?_⟩
  · rw [String.toList_ofList, Base64.decode_encode, Utf8.ofString]
    simp
  · rw [basic_presented]
    refine ⟨split_free, fun free => ?_⟩
    rw [split_first free, String.ofList_toList, String.ofList_toList]

theorem authorizations_eq {config : Configuration} {subjectToken : String} {request : Request}
    (built : Exchange.request? config subjectToken = some request) :
    authorizations request = clientHeaders config := by
  rw [request_eq] at built
  obtain ⟨uri, -, rfl⟩ := Option.map_eq_some_iff.mp built
  unfold authorizations clientHeaders
  rcases config.clientId with _ | id
  · rfl
  rcases config.clientSecret with _ | secret
  · rfl
  · simp [contentType, basic]

theorem authorizations_given {config : Configuration} {subjectToken id secret : String}
    {request : Request} (built : Exchange.request? config subjectToken = some request)
    (known : config.clientId = some id) (shared : config.clientSecret = some secret) :
    authorizations request = [basic id secret] := by
  rw [authorizations_eq built, clientHeaders, known, shared]

theorem authorizations_iff {config : Configuration} {subjectToken : String} {request : Request}
    (built : Exchange.request? config subjectToken = some request) :
    authorizations request ≠ [] ↔ config.clientId ≠ none ∧ config.clientSecret ≠ none := by
  rw [authorizations_eq built, clientHeaders]
  rcases config.clientId with _ | id
  · simp
  · rcases config.clientSecret with _ | secret <;> simp

/-- Whether the request can be built is up to its URL alone. It has an authorization if the client has
both an identifier and a secret, and then one, which is about these two; and no two clients are
presented by one header if their identifiers have no colon. -/
theorem client_presents_itself (config : Configuration) (subjectToken : String) :
    (Exchange.request? config subjectToken).isSome = (Uri.parse? config.tokenUrl).isSome ∧
    ∀ request, Exchange.request? config subjectToken = some request →
      (authorizations request ≠ [] ↔ config.clientId ≠ none ∧ config.clientSecret ≠ none) ∧
      ∀ id secret, config.clientId = some id → config.clientSecret = some secret →
        (∃ header, authorizations request = [header] ∧ Presents header id secret) ∧
        ∀ config' subjectToken' request' id' secret',
          Exchange.request? config' subjectToken' = some request' → config'.clientId = some id' →
          config'.clientSecret = some secret' → ':' ∉ id.toList → ':' ∉ id'.toList →
          authorizations request = authorizations request' → id = id' ∧ secret = secret' := by
  refine ⟨by rw [request_eq, Option.isSome_map], fun request built => ⟨authorizations_iff built, ?_⟩⟩
  intro id secret known shared
  rw [authorizations_given built known shared]
  refine ⟨⟨_, rfl, basic_presents id secret⟩, ?_⟩
  intro config' subjectToken' request' id' secret' built' known' shared' free free' same
  rw [authorizations_given built' known' shared'] at same
  have header : basic id secret = basic id' secret' := List.singleton_inj.mp same
  have first := (basic_presents id secret).recovered.mpr free
  have second := (basic_presents id' secret').recovered.mpr free'
  rw [header, second] at first
  cases first
  exact ⟨rfl, rfl⟩

def client (id secret : String) : Configuration :=
  { Messages.settled with clientId := some id, clientSecret := some secret }

/-- The secret may have colons; the empty one is no other secret. -/
theorem client_presents_itself_colons : ∃ request header,
    Exchange.request? (client "me" ":é:") "a" = some request ∧ authorizations request = [header] ∧
    presented? header.value = some ("me", ":é:") ∧
    ∀ request', Exchange.request? (client "me" "") "b" = some request' →
      authorizations request' ≠ [header] := by
  obtain ⟨possible, every⟩ := client_presents_itself (client "me" ":é:") "a"
  have parses : (Uri.parse? (client "me" ":é:").tokenUrl).isSome := by decide +kernel
  obtain ⟨request, built⟩ := Option.isSome_iff_exists.mp (possible.trans parses)
  obtain ⟨-, given⟩ := every request built
  obtain ⟨⟨header, single, presents⟩, other⟩ := given "me" ":é:" rfl rfl
  have free : ':' ∉ "me".toList := by decide
  refine ⟨request, header, built, single, presents.recovered.mpr free, fun request' built' same => ?_⟩
  obtain ⟨-, secret⟩ := other (client "me" "") "b" request' "me" "" built' rfl rfl free free
    (single.trans same.symm)
  exact absurd secret (by decide)

end WorkloadIdentity.ClientAuthentication
