import WorkloadIdentity.Proofs.Json.Objects
import WorkloadIdentity.Proofs.Retrieval.AccountExpiry

/-!
# What an endpoint says when it turns a request down

The body of a failure is read in one of three ways. If it is an object within the limits of a value,
its last member named `error` decides: a text there is the code, and an object has one of its own.
Every other body is taken for a text. Which it is makes no difference to whether a later call may
succeed.
-/

set_option autoImplicit false

namespace WorkloadIdentity.Rejections

open Extraction (Trims trims_iff)
open WorkloadIdentity.Tree (Holds Within holds_iff last? lastText? get_last get_text value_of_within value_object_iff
  value_string_iff within_iff)
open Journey (answerTo bind_error bind_ok call_retrieves exchange_run grantFor source_gives)
open Messages (bearer)
open Deferred (account_answered grant_answered)

inductive Explains (members : List (Option String × Tree)) : Prop
  | flat {code : String} (error : last? members "error" = some (.string (some code)))
  | nested {inner : List (Option String × Tree)} (error : last? members "error" = some (.object inner))

/-- What is made of the answer. -/
inductive Decoded (status : ℕ) (body : Bytes) : OAuthError → Prop
  | flat {members : List (Option String × Tree)} {code : String} (held : Holds body members)
      (within : Within Tree.maxDepth (.object members))
      (error : last? members "error" = some (.string (some code))) :
      Decoded status body ⟨code, lastText? members "error_description",
        lastText? members "error_uri", some status⟩
  | nested {members inner : List (Option String × Tree)} (held : Holds body members)
      (within : Within Tree.maxDepth (.object members))
      (error : last? members "error" = some (.object inner)) :
      Decoded status body ⟨(lastText? inner "status").getD ("http_" ++ toString status),
        lastText? inner "message", none, some status⟩
  | plain {text : String} (other : ∀ members, Holds body members →
        Within Tree.maxDepth (.object members) → ¬ Explains members)
      (trims : Trims (Utf8.lossyText body) text) :
      Decoded status body ⟨"http_" ++ toString status, if text = "" then none else some text, none,
        some status⟩

/-- The source gives a subject token and leaves the world `w`, where the request for a grant can be
sent and meets with this answer. -/
structure Asks (config : Configuration) (v : World) (subjectToken : String) (w : World)
    (response : Response) : Prop where
  sourced : config.sourceToken v = (.ok subjectToken, w)
  addressed : (Uri.parse? config.tokenUrl).isSome = true
  connected : w.network = .scripted
  met : answerTo w 0 = .response response

/-- The retrieval of the credentials comes to this answer of one of the two endpoints. -/
inductive Meets (c : Credentials) (response : Response) : Prop
  | grant {subjectToken : String} {w : World} (asks : Asks c.config c.world subjectToken w response)
  | account {federated : Token} {w : World} {i : Impersonation}
      (exchanged : (c.config.subjectToken >>= Exchange.exchange c.config) c.world =
        (.ok federated, w))
      (named : c.config.impersonation = some i) (addressed : (Uri.parse? i.url).isSome = true)
      (fit : Header.isValue (bearer federated.value).value = true) (connected : w.network = .scripted)
      (met : answerTo w 0 = .response response)

section Reading

variable {status : ℕ} {body : Bytes} {members inner : List (Option String × Tree)}

theorem object_valued (within : Within Tree.maxDepth (.object members)) :
    ∃ vs, Tree.membersAt? 126 members = some vs := by
  obtain ⟨v, valued⟩ := value_of_within within
  have read : (Tree.membersAt? 126 members).map Json.ofMembers = some v := by
    rwa [Tree.maxDepth, Tree.valueAt?] at valued
  obtain ⟨vs, read, -⟩ := Option.map_eq_some_iff.mp read
  exact ⟨vs, read⟩

theorem body_valued {vs : List (String × Json)} (held : Holds body members)
    (read : Tree.membersAt? 126 members = some vs) :
    Json.ofBytes? body = some (.object (Members.ofList vs)) := by
  rw [Json.ofBytes?, holds_iff.mp held, Option.bind_some]
  exact value_object_iff.mpr ⟨members, vs, rfl, read, rfl⟩

theorem response_flat (status : ℕ) {code : String} (held : Holds body members)
    (within : Within Tree.maxDepth (.object members))
    (error : last? members "error" = some (.string (some code))) :
    OAuthError.ofResponse status body = ⟨code, lastText? members "error_description",
      lastText? members "error_uri", some status⟩ := by
  obtain ⟨vs, read⟩ := object_valued within
  have found : (Json.object (Members.ofList vs)).get? "error" = some (.string code) := by
    rw [Json.get?, get_last read, error]
    exact value_string_iff.mpr rfl
  rw [OAuthError.ofResponse, body_valued held read]
  simp only [found, get_text read]

theorem response_nested (status : ℕ) (held : Holds body members)
    (within : Within Tree.maxDepth (.object members))
    (error : last? members "error" = some (.object inner)) :
    OAuthError.ofResponse status body =
      ⟨(lastText? inner "status").getD ("http_" ++ toString status), lastText? inner "message", none,
        some status⟩ := by
  obtain ⟨vs, read⟩ := object_valued within
  have within_inner : Within 126 (.object inner) := (Tree.within_of_members members read _
    (Tree.under_iff.mp (List.mem_of_getLast? error))).2
  obtain ⟨v, valued⟩ := value_of_within within_inner
  obtain ⟨ws, inside, -⟩ := Option.map_eq_some_iff.mp (by rwa [Tree.valueAt?] at valued)
  have found : (Json.object (Members.ofList vs)).get? "error" =
      some (.object (Members.ofList ws)) := by
    rw [Json.get?, get_last read, error]
    exact value_object_iff.mpr ⟨inner, ws, rfl, inside, rfl⟩
  rw [OAuthError.ofResponse, body_valued held read]
  simp only [found, get_text inside]
  rfl

theorem value_held {value v : Json} {name : String} (read : Json.ofBytes? body = some value)
    (got : value.get? name = some v) : ∃ members x, Holds body members ∧
      Within Tree.maxDepth (.object members) ∧ last? members name = some x ∧
      Tree.valueAt? 126 x = some v := by
  obtain ⟨tree, parsed, valued⟩ := Option.bind_eq_some_iff.mp read
  cases value with
  | object held =>
    have within := within_iff.mpr ⟨_, valued⟩
    obtain ⟨members, vs, rfl, each, rfl⟩ := value_object_iff.mp valued
    rw [Json.get?, get_last each] at got
    obtain ⟨x, last, worth⟩ := Option.bind_eq_some_iff.mp got
    exact ⟨members, x, holds_iff.mpr parsed, within, last, worth⟩
  | _ => cases got

theorem response_plain (status : ℕ)
    (other : ∀ members, Holds body members → Within Tree.maxDepth (.object members) →
      ¬ Explains members) :
    OAuthError.ofResponse status body = OAuthError.ofText status body := by
  unfold OAuthError.ofResponse
  split
  · rfl
  rename_i value read
  split
  · rename_i code got
    obtain ⟨members, x, held, within, last, worth⟩ := value_held read got
    rw [value_string_iff.mp worth] at last
    exact (other members held within (.flat last)).elim
  · rename_i inner got
    obtain ⟨members, x, held, within, last, worth⟩ := value_held read got
    obtain ⟨raw, -, rfl, -, -⟩ := value_object_iff.mp worth
    exact (other members held within (.nested last)).elim
  · rfl

theorem text_error {text : String} (trims : Trims (Utf8.lossyText body) text) :
    OAuthError.ofText status body =
      ⟨"http_" ++ toString status, if text = "" then none else some text, none, some status⟩ := by
  rw [OAuthError.ofText, ← trims_iff.mp trims, OAuthError.statusCode]
  simp only [String.isEmpty_iff]

theorem decoded_iff {e : OAuthError} :
    Decoded status body e ↔ OAuthError.ofResponse status body = e := by
  constructor
  · rintro (⟨held, within, error⟩ | ⟨held, within, error⟩ | ⟨other, trims⟩)
    · exact response_flat status held within error
    · exact response_nested status held within error
    · rw [response_plain status other, text_error trims]
  · rintro rfl
    by_cases spoken : ∃ members, Holds body members ∧ Within Tree.maxDepth (.object members) ∧
        Explains members
    · obtain ⟨members, held, within, error | error⟩ := spoken
      · rw [response_flat status held within error]
        exact .flat held within error
      · rw [response_nested status held within error]
        exact .nested held within error
    · have other : ∀ members, Holds body members → Within Tree.maxDepth (.object members) →
          ¬ Explains members := fun members held within explains =>
        spoken ⟨members, held, within, explains⟩
      rw [response_plain status other, text_error (trims_iff.mpr rfl)]
      exact .plain other (trims_iff.mpr rfl)

end Reading

section Calls

variable {config : Configuration} {v w : World} {subjectToken : String} {response : Response}

theorem retrieve_refused (h : Asks config v subjectToken w response) {e : CredentialsError}
    (read : Exchange.read response = .error e) :
    ∃ sts, Exchange.request? config subjectToken = some sts ∧
      config.retrieve v = (.error (.error e), (w.answer sts).2) := by
  obtain ⟨uri, parsed⟩ := Option.isSome_iff_exists.mp h.addressed
  obtain ⟨sts, built, asked⟩ := grant_answered parsed h.connected h.met subjectToken
  have turned : Exchange.exchange config subjectToken w = (.error (.error e), (w.answer sts).2) := by
    rw [exchange_run, asked, read]
    rfl
  exact ⟨sts, built, by rw [source_gives h.sourced, bind_error turned]⟩

theorem call_fails {c : Credentials} {call : Call} (stale : c.look call = .stale c.cache.generation)
    {e : CredentialsError} {left : World}
    (retrieved : c.config.retrieve c.world = (.error (.error e), left)) :
    (c.call call).1 = .error e ∧ (c.call call).2.cache.token = c.cache.token ∧
      (c.call call).2.world = left := by
  rw [call_retrieves stale]
  unfold Credentials.retrieve
  rw [retrieved]
  exact ⟨rfl, rfl, rfl⟩

theorem retrieve_turned {c : Credentials} (h : Meets c response)
    (failed : Status.isSuccess response.status = false) : ∃ left, c.config.retrieve c.world =
      (.error (.error (.rejected (OAuthError.ofResponse response.status response.body))), left) := by
  cases h with
  | grant asks =>
    obtain ⟨sts, -, retrieved⟩ := retrieve_refused asks (e := .rejected _)
      (by rw [Exchange.read, failed]; rfl)
    exact ⟨_, retrieved⟩
  | @account federated w i exchanged named addressed fit connected met =>
    obtain ⟨uri, parsed⟩ := Option.isSome_iff_exists.mp addressed
    obtain ⟨request, answered⟩ := account_answered parsed connected fit met c.config.scopes
    refine ⟨(w.answer request).2, ?_⟩
    rw [AccountExpiry.retrieve_parts named, bind_ok exchanged, answered, Impersonation.read, failed]
    rfl

/-- Whatever the status of a failure and its body, a call that comes to it ends with an error of the
protocol, which is what the body says in the one way that it is read. Whether a later call may
succeed is up to the status, and the cached token stays. -/
theorem failures_decoded {c : Credentials} {call : Call}
    (stale : c.look call = .stale c.cache.generation) (met : Meets c response)
    (failed : Status.isSuccess response.status = false) :
    ∃ error oauth, (c.call call).1 = .error error ∧ error.stage = .protocol ∧
      error.transient = Status.isRetryable response.status ∧ error.oauth? = some oauth ∧
      oauth.status = some response.status ∧
      (∀ e, Decoded response.status response.body e ↔ e = oauth) ∧
      (c.call call).2.cache.token = c.cache.token := by
  obtain ⟨left, retrieved⟩ := retrieve_turned met failed
  obtain ⟨reply, cached, -⟩ := call_fails stale retrieved
  have status : (OAuthError.ofResponse response.status response.body).status =
      some response.status := by
    generalize same : OAuthError.ofResponse response.status response.body = e
    obtain _ | _ | _ := decoded_iff.mpr same <;> rfl
  refine ⟨_, _, reply, rfl, ?_, rfl, status, fun e => decoded_iff.trans eq_comm, cached⟩
  rw [CredentialsError.rejected, status]
  rfl

end Calls

/-- The error after its URL, in escapes, and with a member before it that has its name. -/
def turnedDown : Response where
  status := 503
  body := Utf8.ofString ("\x7b \"error\":1, \"error_uri\":\"u\",\"x\":[\x7b\x7d,null],\n" ++
    "\"\\u0065rror\":\"in\\tv\\ud83d\\ude00\" \x7d")

def overloaded : World := { Deferred.obliging with answers := [.response turnedDown] }

theorem failures_decoded_flat : ∃ error,
    ((Credentials.new Deferred.usable overloaded).call .refresh).1 = .error error ∧
    error.transient = true ∧ error.oauth? = some ⟨"in\tv😀", none, some "u", some 503⟩ := by
  have sourced : Deferred.usable.sourceToken overloaded = (.ok "subject", overloaded) :=
    Journey.file_gives (by decide +kernel) (by decide +kernel) (by decide +kernel)
  have met : Meets (.new Deferred.usable overloaded) turnedDown :=
    .grant ⟨sourced, by decide +kernel, rfl, rfl⟩
  have stale : (Credentials.new Deferred.usable overloaded).look .refresh = .stale 0 := rfl
  obtain ⟨error, oauth, reply, -, transient, held, -, decoded, -⟩ := failures_decoded stale met rfl
  have same : OAuthError.ofResponse 503 turnedDown.body = ⟨"in\tv😀", none, some "u", some 503⟩ := by
    decide +kernel
  rw [(decoded _).mp (decoded_iff.mpr same)]
  exact ⟨error, reply, transient, held⟩

end WorkloadIdentity.Rejections
