import WorkloadIdentity.Proofs.Config.Rebuilding
import WorkloadIdentity.Proofs.Retrieval.Order
import WorkloadIdentity.Proofs.Retrieval.Requests

/-! What a retrieval says to the endpoints. Once the source gave a subject token, a grant is asked
for in the words of the configuration; if an account is impersonated, the token just granted is
the authorization for asking for the account's. -/

set_option autoImplicit false

namespace WorkloadIdentity.Messages

open Journey (answerTo answer_met answer_next answer_ticks answerTo_later bind_run bind_ok
  bind_error built_bind exchange_run grantFor ofExcept_run send_run source_gives)

def Grants (w : World) (grant : Exchange.Grant) : Prop :=
  ∃ response, answerTo w 0 = .response response ∧ Exchange.read response = .ok grant

/-- What is sent after the source gave a subject token, and how that ends. -/
inductive Exchanged (config : Configuration) (subjectToken : String) (w : World) :
    List Request → Except Failure Token → Prop
  | unsent {f : Failure} (silent : w.network = .refusing ∨ Uri.parse? config.tokenUrl = none) :
      Exchanged config subjectToken w [] (.error f)
  | ungranted {sts : Request} {f : Failure} (asks : AsksGrant config subjectToken sts)
      (turned : ∀ grant, ¬ Grants w grant) : Exchanged config subjectToken w [sts] (.error f)
  | overflown {sts : Request} {grant : Exchange.Grant} (asks : AsksGrant config subjectToken sts)
      (granted : Grants w grant) (far : Exchange.tokenOf grant w.ticks = .error .clockOverflow) :
      Exchanged config subjectToken w [sts] (.error .clockOverflow)
  | direct {sts : Request} {grant : Exchange.Grant} {token : Token}
      (asks : AsksGrant config subjectToken sts) (granted : Grants w grant)
      (alone : config.impersonation = none) (value : token.value = grant.accessToken)
      (held : Exchange.tokenOf grant w.ticks = .ok token) :
      Exchanged config subjectToken w [sts] (.ok token)
  | unfit {sts : Request} {grant : Exchange.Grant} {i : Impersonation} {f : Failure}
      (asks : AsksGrant config subjectToken sts) (granted : Grants w grant)
      (named : config.impersonation = some i)
      (unbuilt : Uri.parse? i.url = none ∨ Header.isValue (bearer grant.accessToken).value = false) :
      Exchanged config subjectToken w [sts] (.error f)
  | impersonated {sts account : Request} {grant : Exchange.Grant} {i : Impersonation}
      {result : Except Failure Token} (asks : AsksGrant config subjectToken sts)
      (granted : Grants w grant) (named : config.impersonation = some i)
      (onward : AsksAccount i config.scopes grant.accessToken account)
      (read : ∀ token, result = .ok token → ∃ response expiry, answerTo w 1 = .response response ∧
        Impersonation.readAnswer? response.body = some (token.value, expiry)) :
      Exchanged config subjectToken w [sts, account] result

theorem token_value {grant : Exchange.Grant} {ticks : Calendar.Nanoseconds} {token : Token}
    (h : Exchange.tokenOf grant ticks = .ok token) : token.value = grant.accessToken := by
  unfold Exchange.tokenOf at h
  split at h
  · cases h
    rfl
  · split at h <;> cases h
    rfl

/-- Either nothing is sent, or a request that says what the configuration says, and then the
answer decides. -/
theorem grant_cases {config : Configuration} (given : config.scopes ≠ []) (subjectToken : String)
    (w : World) :
    (∃ f, grantFor config subjectToken w = (.error f, w) ∧
      (w.network = .refusing ∨ Uri.parse? config.tokenUrl = none)) ∨
    ∃ sts, w.network = .scripted ∧ AsksGrant config subjectToken sts ∧
      ((∃ grant, Grants w grant ∧
        grantFor config subjectToken w = (.ok grant, (w.answer sts).2)) ∨
      ∃ f, (∀ grant, ¬ Grants w grant) ∧
        grantFor config subjectToken w = (.error f, (w.answer sts).2)) := by
  unfold grantFor
  obtain ⟨headers, built⟩ := request_built config subjectToken
  rcases hq : Exchange.request? config subjectToken with _ | sts
  · rw [hq, eq_comm, Option.map_eq_none_iff] at built
    exact .inl ⟨_, rfl, .inr built⟩
  rw [built_bind, bind_run, send_run]
  rcases hn : w.network with _ | _
  · refine .inr ⟨sts, rfl, request_asks given hq, ?_⟩
    rw [answer_next sts w]
    rcases hm : answerTo w 0 with response | ⟨transient, text⟩
    · simp only [ofExcept_run]
      rcases hr : Exchange.read response with e | grant
      · refine .inr ⟨_, ?_, rfl⟩
        rintro grant ⟨other, met, read⟩
        rw [hm] at met
        cases met
        cases hr.symm.trans read
      · exact .inl ⟨grant, ⟨response, hm, hr⟩, rfl⟩
    · refine .inr ⟨_, ?_, rfl⟩
      rintro grant ⟨other, met, -⟩
      cases hm.symm.trans met
  · exact .inl ⟨_, rfl, .inl rfl⟩

theorem read_account {response : Response} {now ticks : Calendar.Nanoseconds} {token : Token}
    (h : Impersonation.read response now ticks = .ok token) :
    ∃ expiry, Impersonation.readAnswer? response.body = some (token.value, expiry) := by
  unfold Impersonation.read at h
  split at h
  · rcases ha : Impersonation.readAnswer? response.body with _ | ⟨value, expiry⟩ <;>
      simp only [ha] at h
    · cases h
    · split at h <;> cases h
      exact ⟨expiry, rfl⟩
  · cases h

theorem account_cases (i : Impersonation) (scopes : List String) (token : Token) {w : World}
    (open_network : w.network = .scripted) :
    (∃ f, i.exchange scopes token w = (.error f, w) ∧
      (Uri.parse? i.url = none ∨ Header.isValue (bearer token.value).value = false)) ∨
    ∃ account result, AsksAccount i scopes token.value account ∧
      i.exchange scopes token w = (result, (w.answer account).2) ∧
      ∀ final, result = .ok final → ∃ response expiry, answerTo w 0 = .response response ∧
        Impersonation.readAnswer? response.body = some (final.value, expiry) := by
  unfold Impersonation.exchange
  rcases hq : i.request scopes token with e | account
  · refine .inl ⟨_, bind_error (ofExcept_run _ w) _, ?_⟩
    rw [account_request] at hq
    split at hq
    · exact .inl ‹_›
    · split at hq
      · cases hq
      · rename_i fit
        exact .inr (by simpa using fit)
  rw [bind_ok (ofExcept_run (.ok account) w), bind_run, send_run, open_network, answer_next account w]
  rcases hm : answerTo w 0 with response | ⟨transient, text⟩
  · rcases hr : Impersonation.read response (w.answer account).2.now (w.answer account).2.ticks
      with e | final
    · exact .inr ⟨account, .error (.error e), account_request_asks hq,
        (ofExcept_run _ _).trans (by rw [hr]; rfl), nofun⟩
    · obtain ⟨expiry, read⟩ := read_account hr
      refine .inr ⟨account, .ok final, account_request_asks hq,
        (ofExcept_run _ _).trans (by rw [hr]; rfl), ?_⟩
      rintro _ ⟨⟩
      exact ⟨response, expiry, rfl, read⟩
  · exact .inr ⟨account, _, account_request_asks hq, rfl, nofun⟩

theorem scopes_given {world : World} {origin : Session.Origin} {config : Configuration}
    (built : Session.configure world origin = .ok config) : config.scopes ≠ [] := by
  obtain ⟨scopes, resolved⟩ : ∃ scopes, config.scopes = Configuration.scopesOrDefault scopes := by
    cases origin with
    | document value overrides => exact Configuration.build_scopes built
    | file path overrides =>
      obtain ⟨value, built⟩ := Configuration.buildFromFile_ok built
      exact Configuration.build_scopes built
    | settings settings =>
      obtain ⟨_, _, _, _, _, _, _, _, _, rfl⟩ := Configuration.ofSettings_ok.mp built
      exact ⟨_, rfl⟩
  rw [resolved]
  rcases scopes with _ | _ | ⟨s, ss⟩ <;> exact List.cons_ne_nil _ _

section Whole

variable {config : Configuration} {subjectToken : String} {w w' : World}

theorem exchanged_of_source (given : config.scopes ≠ [])
    (sourced : config.sourceToken w = (.ok subjectToken, w')) :
    ∃ posted, (config.retrieve w).2.requests = w'.requests ++ posted ∧
      Exchanged config subjectToken w' posted (config.retrieve w).1 := by
  rw [source_gives sourced, bind_run, exchange_run]
  obtain ⟨f, hg, silent⟩ | ⟨sts, scripted, asks, ⟨grant, granted, hg⟩ | ⟨f, turned, hg⟩⟩ :=
    grant_cases given subjectToken w'
  · rw [hg]
    exact ⟨[], (List.append_nil _).symm, .unsent silent⟩
  · obtain ⟨-, logged, answers, network⟩ := answer_met (answer_next sts w')
    rw [hg]
    simp only [answer_ticks]
    rcases ht : Exchange.tokenOf grant w'.ticks with f | token
    · obtain rfl := Journey.token_of_error ht
      exact ⟨[sts], logged, .overflown asks granted ht⟩
    have value := token_value ht
    dsimp only
    rcases hi : config.impersonation with _ | i
    · exact ⟨[sts], logged, .direct asks granted hi value ht⟩
    · obtain ⟨f, hx, unbuilt⟩ | ⟨account, result, onward, hx, read⟩ :=
        account_cases i config.scopes token (network.trans scripted)
      · simp only [hx]
        exact ⟨[sts], logged, .unfit asks granted hi (value ▸ unbuilt)⟩
      · simp only [hx]
        obtain ⟨-, more, -, -⟩ := answer_met (answer_next account (w'.answer sts).2)
        refine ⟨[sts, account], ?_, .impersonated asks granted hi (value ▸ onward) ?_⟩
        · rw [more, logged, List.append_assoc]
          rfl
        · -- The answer to the second request is counted from the same world as the grant.
          have later : answerTo (w'.answer sts).2 0 = answerTo w' 1 :=
            answerTo_later (show (w'.answer sts).2.answers = w'.answers.drop [sts].length from answers) 0
          rwa [later] at read
  · obtain ⟨-, logged, -, -⟩ := answer_met (answer_next sts w')
    rw [hg]
    exact ⟨[sts], logged, .ungranted asks turned⟩

end Whole

/-- Credentials that were built, from whatever they were built, ask for a grant in the words of
their configuration, for the subject token that this retrieval obtained; and for the token of an
account with the token just granted. Without an account the granted token is the outcome. So does
every call that finds no valid token, as a refresh always does. -/
theorem requests_say_configuration {world : World} {origin : Session.Origin} {c : Credentials}
    {subjectToken : String} {w : World} (built : Session.configure world origin = .ok c.config)
    (sourced : c.config.sourceToken c.world = (.ok subjectToken, w)) :
    (∃ posted, c.retrieve.2.world.requests = w.requests ++ posted ∧
      Exchanged c.config subjectToken w posted c.retrieve.1) ∧
    c.look .refresh = .stale c.cache.generation ∧
    ∀ call, c.look call = .stale c.cache.generation →
      c.call call = (c.render call c.retrieve.1, c.retrieve.2) := by
  refine ⟨?_, rfl, fun call stale => Journey.call_retrieves stale⟩
  obtain ⟨posted, logged, exchanged⟩ := exchanged_of_source (scopes_given built) sourced
  refine ⟨posted, ?_⟩
  unfold Credentials.retrieve
  rcases hr : c.config.retrieve c.world with ⟨(e | _) | token, w'⟩ <;>
    rw [hr] at logged exchanged <;> exact ⟨logged, exchanged⟩

def supplied : Settings where
  audience := some "//iam/pool"
  subjectTokenType := some "urn:jwt"
  tokenUrl := some "https://sts/token"
  impersonationUrl := some "https://iam/sa@project:generateAccessToken"
  scopes := some ["read", "write & more"]

def account : Impersonation := ⟨"https://iam/sa@project:generateAccessToken", "sa@project", none⟩

def settled : Configuration :=
  ⟨"//iam/pool", "urn:jwt", "https://sts/token", none, none, none, ["read", "write & more"],
    some account, .programmatic, none, none⟩

def grantAnswer : Response := ⟨200, Utf8.ofString "\x7b\"access_token\":\"granted\"\x7d"⟩

def accountAnswer : Response :=
  ⟨200, Utf8.ofString "\x7b\"accessToken\":\"final\",\"expireTime\":\"2030-01-01T00:00:00Z\"\x7d"⟩

def answering : World :=
  ⟨.empty, .empty, fun _ files => (.notStarted, files), .scripted,
    [.response grantAnswer, .response accountAnswer], [.token "a=b&c + é"], 0, 0, [], .plain⟩

theorem settled_built : Session.configure answering (.settings supplied) = .ok settled := by
  refine Configuration.ofSettings_ok.mpr
    ⟨_, _, _, some account, rfl, rfl, rfl, ?_, ?_, rfl⟩
  · decide +kernel
  · decide +kernel

theorem grant_read :
    Exchange.Grant.read? grantAnswer.body = some ⟨"granted", none, "Bearer", none, none⟩ := by
  decide +kernel

theorem requests_say_configuration_impersonated : ∃ sts onward,
    (Credentials.new settled answering).retrieve.2.world.requests = [sts, onward] ∧
    AsksGrant settled "a=b&c + é" sts ∧
    AsksAccount account ["read", "write & more"] "granted" onward := by
  have both : (Credentials.new settled answering).retrieve.2.world.requests.length = 2 := by
    decide +kernel
  have sourced : (Credentials.new settled answering).config.sourceToken answering =
      (.ok "a=b&c + é", { answering.log .provider with provider := [] }) := rfl
  obtain ⟨⟨posted, logged, exchanged⟩, -, -⟩ := requests_say_configuration settled_built sourced
  rw [logged] at both ⊢
  generalize (Credentials.new settled answering).retrieve.1 = outcome at exchanged
  cases exchanged with
  | unsent _ => cases both
  | ungranted _ _ => cases both
  | overflown _ _ _ => cases both
  | direct _ _ _ _ _ => cases both
  | unfit _ _ _ _ => cases both
  | impersonated asks granted named onward read =>
    obtain ⟨response, met, held⟩ := granted
    cases met
    simp only [Exchange.read, grant_read] at held
    cases held
    cases named
    exact ⟨_, _, rfl, asks, onward⟩

end WorkloadIdentity.Messages
