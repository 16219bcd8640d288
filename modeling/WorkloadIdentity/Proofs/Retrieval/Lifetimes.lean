import WorkloadIdentity.Proofs.Session.OneCell

/-!
# How long a retrieved token lasts

The last answer of a retrieval tells when its token expires, and nothing is asked of that moment:
a lifetime of no seconds, or an expiry that has passed, makes a token that is expired when the
retrieval ends. Every other token can be used at that moment.
-/

set_option autoImplicit false

namespace WorkloadIdentity.Lifetimes

open Journey (answerTo answer_met answer_next answerTo_later bind_run
  exchange_run get_bind grantFor ofExcept_run send_ok source_gives source_fails source_local)
open OneCell (Usable)

/-- What is said of the lifetime leaves some of it. -/
inductive Lasts (config : Configuration) (now : Calendar.Nanoseconds) (response : Response) : Prop
  | granted {grant : Exchange.Grant} (alone : config.impersonation = none)
      (read : Exchange.Grant.read? response.body = some grant) (some_left : grant.expiresIn ≠ some 0)
  | account {value expireTime : String} {moment : Calendar.Nanoseconds}
      (named : config.impersonation ≠ none)
      (read : Impersonation.readAnswer? response.body = some (value, expireTime))
      (parsed : Rfc3339.parse? expireTime = some moment) (later : now < moment)

/-- The answer that a retrieval in this world ends with: the first after those of the source, or the
second if an account is impersonated. -/
def EndsWith (config : Configuration) (w : World) (response : Response) : Prop :=
  ∃ subjectToken w', config.sourceToken w = (.ok subjectToken, w') ∧
    answerTo w' (if config.impersonation.isSome then 1 else 0) = .response response

theorem usable_until {value tokenType : String} {ticks left : Calendar.Nanoseconds}
    {metadata : Option (Members String)} :
    Usable ⟨value, tokenType, some (ticks + left), metadata⟩ ticks ↔ 0 < left := by
  unfold Usable
  simp only [Option.mem_def, Option.some.injEq, forall_eq']
  unfold Calendar.Nanoseconds at *
  omega

theorem granted_usable {grant : Exchange.Grant} {ticks : Calendar.Nanoseconds} {token : Token}
    (h : Exchange.tokenOf grant ticks = .ok token) :
    Usable token ticks ↔ grant.expiresIn ≠ some 0 := by
  unfold Exchange.tokenOf at h
  rcases hs : grant.expiresIn with _ | seconds <;> simp only [hs] at h
  · cases h
    simp [Usable]
  · unfold Exchange.expiry? at h
    split at h
    · rename_i expiry reached
      obtain ⟨-, same⟩ := Option.ite_none_right_eq_some.mp reached
      cases same
      cases h
      have positive : 0 < (seconds : Calendar.Nanoseconds) * Calendar.second ↔ seconds ≠ 0 := by
        unfold Calendar.second Calendar.Nanoseconds
        omega
      rw [usable_until, positive, Ne, Ne, Option.some_inj]
    · cases h

theorem account_usable {response : Response} {now ticks : Calendar.Nanoseconds} {token : Token}
    (h : Impersonation.read response now ticks = .ok token) :
    ∃ value expireTime moment, Impersonation.readAnswer? response.body = some (value, expireTime) ∧
      Rfc3339.parse? expireTime = some moment ∧ (Usable token ticks ↔ now < moment) := by
  unfold Impersonation.read at h
  split at h
  · split at h
    · cases h
    · rename_i value expireTime read
      split at h
      · cases h
      · rename_i moment parsed
        cases h
        refine ⟨value, expireTime, moment, read, parsed, ?_⟩
        rw [usable_until, Impersonation.remaining]
        unfold Calendar.Nanoseconds at *
        omega
  · cases h

theorem orIncident_eq {α : Type} (incident : Incident) (x : Option α) :
    Attempt.orIncident incident x = Attempt.ofExcept (match x with
      | some a => .ok a
      | none => .error (.ofIncident incident)) := by
  cases x <;> rfl

theorem asked_ok {α : Type} {build : Except CredentialsError Request}
    {finish : Response → Attempt α} {w v : World} {a : α}
    (h : (Attempt.ofExcept build >>= fun request => World.send request >>= finish) w = (.ok a, v)) :
    ∃ request response, answerTo w 0 = .response response ∧
      finish response (w.answer request).2 = (.ok a, v) := by
  rw [bind_run, ofExcept_run] at h
  rcases build with e | request
  · cases h
  · have h : (World.send request >>= finish) w = (.ok a, v) := h
    rw [bind_run] at h
    rcases hs : World.send request w with ⟨e | response, w'⟩ <;> rw [hs] at h
    · cases h
    · have met := send_ok hs
      refine ⟨request, response, (answer_met met).1, ?_⟩
      rw [met]
      exact h

theorem grant_ok {config : Configuration} {subjectToken : String} {grant : Exchange.Grant}
    {w v : World} (h : grantFor config subjectToken w = (.ok grant, v)) :
    ∃ request response, answerTo w 0 = .response response ∧ v = (w.answer request).2 ∧
      Exchange.Grant.read? response.body = some grant := by
  unfold grantFor at h
  rw [orIncident_eq] at h
  obtain ⟨request, response, met, read⟩ := asked_ok h
  rw [ofExcept_run] at read
  rcases hr : Exchange.read response with e | other <;> rw [hr] at read <;> cases read
  refine ⟨request, response, met, rfl, ?_⟩
  unfold Exchange.read at hr
  split at hr
  · split at hr
    · rename_i found
      cases hr
      exact found
    · cases hr
  · cases hr

theorem account_ok {i : Impersonation} {scopes : List String} {token final : Token} {w v : World}
    (h : i.exchange scopes token w = (.ok final, v)) :
    ∃ response, answerTo w 0 = .response response ∧
      Impersonation.read response v.now v.ticks = .ok final := by
  unfold Impersonation.exchange at h
  obtain ⟨request, response, met, read⟩ := asked_ok h
  rw [get_bind, ofExcept_run] at read
  rcases hr : Impersonation.read response (w.answer request).2.now (w.answer request).2.ticks with
    e | other <;> rw [hr] at read <;> cases read
  exact ⟨response, met, hr⟩

/-- A token that was just retrieved can be used exactly if the answer that it came with leaves it
some time. -/
theorem retrieved_lasts {config : Configuration} {w left : World} {token : Token}
    (h : config.retrieve w = (.ok token, left)) :
    ∃ response, EndsWith config w response ∧
      (Usable token left.ticks ↔ Lasts config left.now response) := by
  rcases hs : config.sourceToken w with ⟨f | subjectToken, w'⟩
  · obtain ⟨e, rfl, -⟩ := source_local config w f (by rw [hs])
    rw [source_fails hs] at h
    cases h
  rw [source_gives hs, bind_run, exchange_run] at h
  rcases hg : grantFor config subjectToken w' with ⟨f | grant, v⟩ <;> rw [hg] at h
  · cases h
  obtain ⟨request, response, met, rfl, read⟩ := grant_ok hg
  rcases ht : Exchange.tokenOf grant (w'.answer request).2.ticks with f | granted <;>
    simp only [ht] at h
  · cases h
  rcases hi : config.impersonation with _ | i <;> simp only [hi] at h
  · cases h
    refine ⟨response, ⟨subjectToken, w', hs, by rw [hi]; exact met⟩, ?_⟩
    rw [granted_usable ht]
    constructor
    · intro some_left
      exact .granted hi read some_left
    · intro lasts
      cases lasts with
      | granted _ other some_left =>
        rw [read] at other
        cases other
        exact some_left
      | account named => exact absurd hi named
  · obtain ⟨answer, met, account⟩ := account_ok h
    obtain ⟨value, expireTime, moment, read, parsed, usable⟩ := account_usable account
    obtain ⟨-, -, answers, -⟩ := answer_met (answer_next request w')
    have later : answerTo (w'.answer request).2 0 = answerTo w' 1 :=
      answerTo_later (show (w'.answer request).2.answers = w'.answers.drop [request].length from answers) 0
    refine ⟨answer, ⟨subjectToken, w', hs, ?_⟩, usable.trans ?_⟩
    · rw [hi]
      exact later ▸ met
    · constructor
      · intro after
        exact .account (by simp [hi]) read parsed after
      · intro lasts
        cases lasts with
        | granted alone => rw [hi] at alone; cases alone
        | account _ other again after =>
          rw [read] at other
          cases other
          rw [parsed] at again
          cases again
          exact after

end WorkloadIdentity.Lifetimes
