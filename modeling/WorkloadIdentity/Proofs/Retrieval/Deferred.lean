import WorkloadIdentity.Proofs.Config.Builders
import WorkloadIdentity.Proofs.Retrieval.Messages

/-!
# What building leaves open

Endpoints that grant every request do not make a call succeed. A URL is read by one grammar when
the configuration is built and by another when a request is sent, and the quota project is read by
none before it stands in a header. Nothing else of the configuration can get in the way.
-/

set_option autoImplicit false

namespace WorkloadIdentity.Deferred

open Journey (answerTo answer_met answer_next answer_ticks answerTo_later bind_run bind_ok
  bind_error built_bind exchange_run grantFor ofExcept_run send_run source_gives call_retrieves)
open Messages (bearer request_built account_request bearer_made)

structure Reachable (config : Configuration) : Prop where
  endpoint : (Uri.parse? config.tokenUrl).isSome = true
  account : ∀ i ∈ config.impersonation, (Uri.parse? i.url).isSome = true

def Billable (config : Configuration) : Prop :=
  ∀ project ∈ config.quotaProject, Header.isValue (Utf8.ofString project) = true

/-- The source gives a subject token and leaves the world `w'`, where each endpoint in its turn
answers with a token that can stand in a header. -/
structure Obliging (config : Configuration) (w w' : World) (subjectToken : String)
    (granted final : Token) : Prop where
  sourced : config.sourceToken w = (.ok subjectToken, w')
  connected : w'.network = .scripted
  grants : ∃ response grant, answerTo w' 0 = .response response ∧
    Exchange.read response = .ok grant ∧ Exchange.tokenOf grant w'.ticks = .ok granted
  fit : Header.isValue (bearer granted.value).value = true
  account : match config.impersonation with
    | none => final = granted
    | some _ => ∃ response, answerTo w' 1 = .response response ∧
        Impersonation.read response w'.now w'.ticks = .ok final ∧
        Header.isValue (bearer final.value).value = true

instance (config : Configuration) : Decidable (Reachable config) :=
  decidable_of_iff
    ((Uri.parse? config.tokenUrl).isSome = true ∧
      ∀ i ∈ config.impersonation, (Uri.parse? i.url).isSome = true)
    ⟨fun h => ⟨h.1, h.2⟩, fun h => ⟨h.endpoint, h.account⟩⟩

instance (config : Configuration) : Decidable (Billable config) :=
  inferInstanceAs (Decidable (∀ project ∈ config.quotaProject, _ = true))

abbrev unsent : CredentialsError := .ofIncident .request

abbrev unbilled : CredentialsError := .ofIncident .headerValue

section Retrieving

variable {config : Configuration} {subjectToken : String} {w : World}

theorem exchange_unsent (h : Uri.parse? config.tokenUrl = none) (subjectToken : String) (w : World) :
    Exchange.exchange config subjectToken w = (.error (.error unsent), w) := by
  obtain ⟨_, built⟩ := request_built config subjectToken
  rw [h, Option.map_none] at built
  unfold Exchange.exchange
  rw [built]
  rfl

theorem grant_answered {uri : Uri} (parsed : Uri.parse? config.tokenUrl = some uri)
    (connected : w.network = .scripted) {response : Response}
    (met : answerTo w 0 = .response response) (subjectToken : String) :
    ∃ sts, Exchange.request? config subjectToken = some sts ∧ grantFor config subjectToken w =
      ((Exchange.read response).mapError .error, (w.answer sts).2) := by
  obtain ⟨sts, built⟩ : ∃ sts, Exchange.request? config subjectToken = some sts := by
    obtain ⟨_, built⟩ := request_built config subjectToken
    rw [parsed] at built
    exact ⟨_, built⟩
  refine ⟨sts, built, ?_⟩
  unfold grantFor
  rw [built, built_bind, bind_run, send_run, connected, answer_next sts w, met]
  simp only [ofExcept_run]

theorem exchange_granted {uri : Uri} (parsed : Uri.parse? config.tokenUrl = some uri)
    (connected : w.network = .scripted) {response : Response} {grant : Exchange.Grant}
    {granted : Token} (met : answerTo w 0 = .response response)
    (read : Exchange.read response = .ok grant)
    (held : Exchange.tokenOf grant w.ticks = .ok granted) (subjectToken : String) :
    ∃ sts, Exchange.exchange config subjectToken w = (.ok granted, (w.answer sts).2) := by
  obtain ⟨sts, -, asked⟩ := grant_answered parsed connected met subjectToken
  refine ⟨sts, ?_⟩
  rw [exchange_run, asked, read]
  simp only [Except.mapError, answer_ticks, held]

theorem account_unsent {i : Impersonation} (h : Uri.parse? i.url = none) (scopes : List String)
    (token : Token) (w : World) : i.exchange scopes token w = (.error (.error unsent), w) := by
  have failed : i.request scopes token = .error unsent := by rw [account_request, h]
  unfold Impersonation.exchange
  rw [failed]
  rfl

theorem answer_now (request : Request) (w : World) : (w.answer request).2.now = w.now := by
  unfold World.answer
  rcases h : w.answers with _ | ⟨answer, rest⟩ <;> simp only [World.log, h]

theorem account_answered {i : Impersonation} {uri : Uri} (parsed : Uri.parse? i.url = some uri)
    (connected : w.network = .scripted) {token : Token}
    (fit : Header.isValue (bearer token.value).value = true) {response : Response}
    (met : answerTo w 0 = .response response) (scopes : List String) :
    ∃ request, i.exchange scopes token w =
      ((Impersonation.read response w.now w.ticks).mapError .error, (w.answer request).2) := by
  obtain ⟨request, built⟩ : ∃ request, i.request scopes token = .ok request := by
    rw [account_request, parsed]
    exact ⟨_, if_pos fit⟩
  refine ⟨request, ?_⟩
  unfold Impersonation.exchange
  rw [built, bind_ok (ofExcept_run (.ok request) w), bind_run, send_run, connected,
    answer_next request w, met]
  show Attempt.ofExcept _ _ = _
  rw [ofExcept_run, answer_now, answer_ticks]

theorem account_granted {i : Impersonation} {uri : Uri} (parsed : Uri.parse? i.url = some uri)
    (connected : w.network = .scripted) {token final : Token}
    (fit : Header.isValue (bearer token.value).value = true) {response : Response}
    (met : answerTo w 0 = .response response)
    (read : Impersonation.read response w.now w.ticks = .ok final) (scopes : List String) :
    (i.exchange scopes token w).1 = .ok final := by
  obtain ⟨request, exchanged⟩ := account_answered parsed connected fit met scopes
  rw [exchanged, read]
  rfl

theorem retrieve_reachable {w' : World} {granted final : Token}
    (h : Obliging config w w' subjectToken granted final) (reachable : Reachable config) :
    (config.retrieve w).1 = .ok final := by
  obtain ⟨response, grant, met, read, held⟩ := h.grants
  obtain ⟨uri, parsed⟩ := Option.isSome_iff_exists.mp reachable.endpoint
  obtain ⟨sts, exchanged⟩ := exchange_granted parsed h.connected met read held subjectToken
  obtain ⟨-, -, answers, network⟩ := answer_met (answer_next sts w')
  have account := h.account
  rw [source_gives h.sourced, bind_ok exchanged]
  rcases hi : config.impersonation with _ | i
  · rw [hi] at account
    rw [account]
    rfl
  · rw [hi] at account
    obtain ⟨response, met, read, -⟩ := account
    obtain ⟨url, parsed⟩ := Option.isSome_iff_exists.mp (reachable.account i hi)
    have later : answerTo (w'.answer sts).2 0 = answerTo w' 1 :=
      answerTo_later (show (w'.answer sts).2.answers = w'.answers.drop [sts].length from answers) 0
    rw [← later] at met
    rw [← answer_now sts, ← answer_ticks sts] at read
    exact account_granted parsed (network.trans h.connected) h.fit met read config.scopes

theorem retrieve_unreachable {w' : World} {granted final : Token}
    (h : Obliging config w w' subjectToken granted final) (unreachable : ¬ Reachable config) :
    (config.retrieve w).1 = .error (.error unsent) := by
  rw [source_gives h.sourced]
  rcases parsed : Uri.parse? config.tokenUrl with _ | uri
  · rw [bind_error (exchange_unsent parsed subjectToken w')]
  -- The token endpoint can be reached, so the account's cannot.
  obtain ⟨response, grant, met, read, held⟩ := h.grants
  obtain ⟨sts, exchanged⟩ := exchange_granted parsed h.connected met read held subjectToken
  rw [bind_ok exchanged]
  rcases hi : config.impersonation with _ | i
  · exact absurd ⟨by rw [parsed]; rfl, by simp [hi]⟩ unreachable
  · have unparsed : Uri.parse? i.url = none := by
      rw [← Option.not_isSome_iff_eq_none]
      intro held
      refine unreachable ⟨by rw [parsed]; rfl, ?_⟩
      rintro other same
      rw [hi, Option.mem_some_iff] at same
      exact same ▸ held
    exact congrArg Prod.fst (account_unsent unparsed config.scopes granted _)

end Retrieving

def carrying (config : Configuration) (token : Token) : List Header :=
  bearer token.value :: (config.quotaProject.map fun project =>
    ⟨"x-goog-user-project", Utf8.ofString project, false⟩).toList

theorem quota_made (project : String) : Header.make? false "x-goog-user-project" project =
    if Header.isValue (Utf8.ofString project) then
      some ⟨"x-goog-user-project", Utf8.ofString project, false⟩ else none := by
  have known : Header.isName "x-goog-user-project".toList = true := by decide
  rw [Header.make?, known]
  rfl

theorem headers_made (config : Configuration) {token : Token}
    (fit : Header.isValue (bearer token.value).value = true) :
    token.headers config.quotaProject =
      if Billable config then .ok (carrying config token) else .error unbilled := by
  have authorized : Header.make? true "authorization" ("Bearer " ++ token.value) =
      some (bearer token.value) := by rw [bearer_made, if_pos fit]
  unfold Token.headers Token.authorization
  rcases hq : config.quotaProject with _ | project
  · simp [Token.quotaHeader, authorized, Billable, carrying, hq]
  · by_cases value : Header.isValue (Utf8.ofString project) = true
    · simp [Token.quotaHeader, authorized, quota_made, value, Billable, carrying, hq]
    · simp [Token.quotaHeader, authorized, quota_made, value, Billable, hq]

theorem retrieve_eq {config : Configuration} {subjectToken : String} {w w' : World}
    {granted final : Token} (h : Obliging config w w' subjectToken granted final) :
    (config.retrieve w).1 = if Reachable config then .ok final else .error (.error unsent) := by
  split
  · exact retrieve_reachable h ‹_›
  · exact retrieve_unreachable h ‹_›

theorem final_fit {config : Configuration} {subjectToken : String} {w w' : World}
    {granted final : Token} (h : Obliging config w w' subjectToken granted final) :
    Header.isValue (bearer final.value).value = true := by
  have account := h.account
  split at account
  · rw [account]
    exact h.fit
  · obtain ⟨_, -, -, fit⟩ := account
    exact fit

section Obliged

variable {c : Credentials} {subjectToken : String} {w' : World} {granted final : Token}

theorem retrieval_obliged (h : Obliging c.config c.world w' subjectToken granted final) :
    c.retrieve.1 = if Reachable c.config then .ok final else .error (.error unsent) := by
  have result := retrieve_eq h
  unfold Credentials.retrieve
  rcases hr : c.config.retrieve c.world with ⟨(e | _) | token, v⟩ <;> rw [hr] at result <;>
    exact result

theorem render_fit (c : Credentials) {token : Token}
    (fit : Header.isValue (bearer token.value).value = true) :
    c.render .headers (.ok token) =
      if Billable c.config then .headers (carrying c.config token) else .error unbilled := by
  simp only [Credentials.render, headers_made c.config fit]
  by_cases billable : Billable c.config <;> simp only [billable, if_true, if_false]

theorem refresh_obliged (h : Obliging c.config c.world w' subjectToken granted final) :
    (c.call .refresh).1 = if Reachable c.config then .token final else .error unsent := by
  rw [call_retrieves rfl, retrieval_obliged h]
  by_cases reachable : Reachable c.config
  · simp only [reachable, if_true]
    rfl
  · simp only [reachable, if_false]
    rfl

theorem headers_obliged (h : Obliging c.config c.world w' subjectToken granted final)
    (stale : c.look .headers = .stale c.cache.generation) :
    (c.call .headers).1 = if Reachable c.config then
        if Billable c.config then .headers (carrying c.config final) else .error unbilled
      else .error unsent := by
  rw [call_retrieves stale, retrieval_obliged h]
  by_cases reachable : Reachable c.config
  · simp only [reachable, if_true]
    exact render_fit c (final_fit h)
  · simp only [reachable, if_false]
    rfl

end Obliged

def document (tokenUrl : String) (account quota : Option String) : Document :=
  ⟨"//iam/pool", "urn:jwt", tokenUrl, none, .object [("file", .string "token")], account, none,
    quota, none, none, none⟩

def configuration (tokenUrl : String) (account : Option Impersonation) (quota : Option String) :
    Configuration :=
  ⟨"//iam/pool", "urn:jwt", tokenUrl, none, none, none, [defaultScope], account,
    .file ⟨"token", .text⟩, some (.object [("file", .string "token")]), quota⟩

def grantBody : String := "\x7b\"access_token\":\"granted\"\x7d"

def accountBody : String :=
  "\x7b\"accessToken\":\"final\",\"expireTime\":\"1970-01-01T00:00:09Z\"\x7d"

def obliging : World :=
  ⟨.empty, FileTree.empty.put ["work", "token"] (.file (Utf8.ofString "subject")),
    fun _ files => (.notStarted, files), .scripted,
    [.response ⟨200, Utf8.ofString grantBody⟩, .response ⟨200, Utf8.ofString accountBody⟩],
    [], 0, 0, [], .plain⟩

def grantedToken : Token := ⟨"granted", "Bearer", none, none⟩

def finalToken : Token := ⟨"final", "Bearer", some 9000000000, none⟩

theorem grant_body : Exchange.Grant.read? (Utf8.ofString grantBody) =
    some ⟨"granted", none, "Bearer", none, none⟩ := by decide +kernel

theorem account_body : Impersonation.readAnswer? (Utf8.ofString accountBody) =
    some ("final", "1970-01-01T00:00:09Z") := by decide +kernel

theorem account_expiry : Rfc3339.parse? "1970-01-01T00:00:09Z" = some 9000000000 := by
  decide +kernel

theorem file_read (tokenUrl : String) (account : Option Impersonation) (quota : Option String) :
    (configuration tokenUrl account quota).sourceToken obliging = (.ok "subject", obliging) :=
  Journey.file_gives (by rfl) (by rfl) (by rfl)

theorem obliging_direct (tokenUrl : String) (quota : Option String) :
    Obliging (configuration tokenUrl none quota) obliging obliging "subject" grantedToken
      grantedToken :=
  ⟨file_read tokenUrl none quota, rfl,
    ⟨_, _, rfl, by simp only [Exchange.read, grant_body]; rfl, rfl⟩, by decide, rfl⟩

theorem obliging_account (tokenUrl : String) (account : Impersonation) (quota : Option String) :
    Obliging (configuration tokenUrl (some account) quota) obliging obliging "subject" grantedToken
      finalToken :=
  ⟨file_read tokenUrl (some account) quota, rfl,
    ⟨_, _, rfl, by simp only [Exchange.read, grant_body]; rfl, rfl⟩, by decide,
    ⟨_, rfl, by simp only [Impersonation.read, account_body, account_expiry]; rfl,
      by decide⟩⟩

theorem document_builds {tokenUrl : String} {account quota : Option String}
    {impersonation : Option Impersonation}
    (checked : Configuration.checkEndpoint "//iam/pool" tokenUrl = .ok ())
    (told : Configuration.impersonated account none = .ok impersonation) :
    Configuration.build (Builders.written (document tokenUrl account quota)) {} =
      .ok (configuration tokenUrl impersonation quota) := by
  have parsed : CredentialSource.parse (.object [("file", .string "token")]) =
      .ok (.file ⟨"token", .text⟩) := by rfl
  exact Builders.build_written nofun checked told parsed

/-- Where the source and the endpoints oblige, a call that finds no valid token succeeds exactly if
requests can be sent to the URLs of the configuration and, for headers, its quota project can stand
in one. A call that finds one needs no more than the quota project. -/
theorem obliged_calls {c : Credentials} {subjectToken : String} {w' : World}
    {granted final : Token} (h : Obliging c.config c.world w' subjectToken granted final) :
    (c.call .refresh).1 = (if Reachable c.config then .token final else .error unsent) ∧
    (c.look .headers = .stale c.cache.generation → (c.call .headers).1 =
      if Reachable c.config then
        if Billable c.config then .headers (carrying c.config final) else .error unbilled
      else .error unsent) ∧
    ∀ token, c.look .headers = .valid token →
      Header.isValue (bearer token.value).value = true → (c.call .headers).1 =
        if Billable c.config then .headers (carrying c.config token) else .error unbilled := by
  refine ⟨refresh_obliged h, headers_obliged h, fun token valid fit => ?_⟩
  rw [Credentials.call, valid]
  exact render_fit c fit

def usable : Configuration :=
  configuration "https://sts/token"
    (some ⟨"https://iam/sa@project:generateAccessToken", "sa@project", none⟩) (some "project")

theorem obliged_calls_usable :
    ((Credentials.new usable obliging).call .refresh).1 = .token finalToken ∧
    ((Credentials.new usable obliging).call .headers).1 = .headers (carrying usable finalToken) := by
  have sendable : Reachable usable ∧ Billable usable := by decide +kernel
  obtain ⟨refreshed, headed, -⟩ :=
    obliged_calls (c := .new usable obliging) (obliging_account "https://sts/token" _ (some "project"))
  rw [refreshed, headed rfl]
  exact ⟨if_pos sendable.1, (if_pos sendable.1).trans (if_pos sendable.2)⟩

/-- A token URL with a space, the URL of an account with a space, and a quota project with a line
break: all three build, and then fail though every endpoint obliges. -/
theorem building_defers :
    (∃ config, Configuration.build
        (Builders.written (document "https://sts.example.com/a b" none none)) {} = .ok config ∧
      Obliging config obliging obliging "subject" grantedToken grantedToken ∧
      ((Credentials.new config obliging).call .refresh).1 = .error unsent) ∧
    (∃ config, Configuration.build
        (Builders.written (document "https://sts/token" (some "https://iam/a b/sa@project") none)) {} =
          .ok config ∧
      Obliging config obliging obliging "subject" grantedToken finalToken ∧
      ((Credentials.new config obliging).call .refresh).1 = .error unsent) ∧
    ∃ config, Configuration.build
        (Builders.written (document "https://sts/token" none (some "a\nb"))) {} = .ok config ∧
      Obliging config obliging obliging "subject" grantedToken grantedToken ∧
      ((Credentials.new config obliging).call .headers).1 = .error unbilled := by
  refine ⟨⟨_, document_builds (by decide +kernel) rfl, obliging_direct _ none, ?_⟩,
    ⟨configuration "https://sts/token" (some ⟨"https://iam/a b/sa@project", "sa@project", none⟩) none,
      document_builds (by decide +kernel) (by decide +kernel), obliging_account _ _ none, ?_⟩,
    ⟨_, document_builds (by decide +kernel) rfl, obliging_direct _ (some "a\nb"), ?_⟩⟩
  · exact (refresh_obliged (obliging_direct _ none)).trans (if_neg (by decide +kernel))
  · exact (refresh_obliged (obliging_account _ _ none)).trans (if_neg (by decide +kernel))
  · have reached := headers_obliged (c := .new _ obliging)
      (obliging_direct "https://sts/token" (some "a\nb")) rfl
    exact (reached.trans (if_pos (by decide +kernel))).trans (if_neg (by decide +kernel))

end WorkloadIdentity.Deferred
