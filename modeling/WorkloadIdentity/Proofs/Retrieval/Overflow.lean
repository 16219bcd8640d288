import WorkloadIdentity.Proofs.Herd.Expiry
import WorkloadIdentity.Proofs.Time.Timestamps

/-!
# Expiries and the monotonic clock

The clock counts whole seconds in 63 bits. The lifetime of a grant is any number of 64 bits and is
added to the clock as it is, whether or not the token is kept; a lifetime that the clock cannot hold
ends the call without a token and without an error. An account's token expires at a moment of the
calendar, and the last one that can be written is near.
-/

set_option autoImplicit false

namespace WorkloadIdentity.Overflow

open Journey (answerTo answer_next answer_ticks bind_run built_bind exchange_run grantFor
  ofExcept_run send_run source_gives source_fails source_local asked_travels grant_asked
  account_asked call_retrieves)
open Lifetimes (grant_ok account_ok)
open Exchange (maxSeconds)
open Impersonation (remaining)

def Held (moment : Calendar.Nanoseconds) : Prop := moment / Calendar.second ≤ maxSeconds

instance (moment : Calendar.Nanoseconds) : Decidable (Held moment) :=
  inferInstanceAs (Decidable (_ ≤ _))

def Given (config : Configuration) (subjectToken : String) (w : World) (grant : Exchange.Grant) :
    Prop :=
  (∃ request, Exchange.request? config subjectToken = some request) ∧ w.network = .scripted ∧
    ∃ response, answerTo w 0 = .response response ∧ Status.isSuccess response.status = true ∧
      Exchange.Grant.read? response.body = some grant

/-- Once the source gave a subject token, the answer names a lifetime that the clock cannot hold. -/
def TooLong (config : Configuration) (w : World) : Prop :=
  ∃ subjectToken w' grant seconds, config.sourceToken w = (.ok subjectToken, w') ∧
    Given config subjectToken w' grant ∧ grant.expiresIn = some seconds ∧
    ¬ Held (w'.ticks + seconds * Calendar.second)

/-- The clock can hold the expiry of an account's token, whatever moment the answer names. -/
def HasRoom (now ticks : Calendar.Nanoseconds) : Prop :=
  Held (ticks + remaining now Rfc3339.latest)

def Returns : Call → Reply → Prop
  | .refresh, .token _ | .headers, .headers _ | _, .error _ => True
  | _, _ => False

theorem held_mono {a b : Calendar.Nanoseconds} (h : a ≤ b) (held : Held b) : Held a :=
  Int.le_trans (Int.ediv_le_ediv (by decide) h) held

theorem remaining_mono (now : Calendar.Nanoseconds) {a b : Calendar.Nanoseconds} (h : a ≤ b) :
    remaining now a ≤ remaining now b := by
  unfold remaining Calendar.Nanoseconds at *
  omega

theorem has_room_iff (now ticks : Calendar.Nanoseconds) : HasRoom now ticks ↔
    ∀ text moment, Rfc3339.parse? text = some moment → Held (ticks + remaining now moment) := by
  constructor
  · intro room text moment parsed
    apply held_mono ?_ room
    exact Int.add_le_add_left (remaining_mono now (Rfc3339.parse_le parsed)) ticks
  · intro all
    exact all _ _ Rfc3339.parse_latest

/-- A wall clock from the year -9999 on, and as many seconds left of the monotonic clock as there are
from there to the last moment that can be written. -/
theorem has_room_of {now ticks : Calendar.Nanoseconds}
    (early : -377705116800 * Calendar.second ≤ now)
    (left : ticks / Calendar.second + 631107503940 ≤ maxSeconds) : HasRoom now ticks := by
  have whole : maxSeconds = 9223372036854775807 := by decide
  rw [whole] at left
  rw [HasRoom, Held, Rfc3339.latest_eq, whole]
  unfold remaining Calendar.second Calendar.Nanoseconds at *
  omega

theorem seconds_later (ticks : Calendar.Nanoseconds) (seconds : Nat) :
    (ticks + seconds * Calendar.second) / Calendar.second = ticks / Calendar.second + seconds :=
  Int.add_mul_ediv_right _ _ (by decide)

theorem expiry_eq (ticks : Calendar.Nanoseconds) (seconds : Nat) :
    Exchange.expiry? ticks seconds = if Held (ticks + seconds * Calendar.second) then
      some (ticks + seconds * Calendar.second) else none := by
  simp only [Exchange.expiry?, Held, seconds_later]

theorem token_overflows_iff {grant : Exchange.Grant} {ticks : Calendar.Nanoseconds} :
    Exchange.tokenOf grant ticks = .error .clockOverflow ↔
      ∃ seconds, grant.expiresIn = some seconds ∧ ¬ Held (ticks + seconds * Calendar.second) := by
  unfold Exchange.tokenOf
  rcases grant.expiresIn with _ | seconds
  · simp
  · by_cases held : Held (ticks + seconds * Calendar.second) <;> simp [expiry_eq, held]

theorem token_held {grant : Exchange.Grant} {ticks : Calendar.Nanoseconds} {token : Token}
    (h : Exchange.tokenOf grant ticks = .ok token) : ∀ expiry ∈ token.expiresAt, Held expiry := by
  unfold Exchange.tokenOf at h
  rcases hs : grant.expiresIn with _ | seconds <;> simp only [hs] at h
  · cases h
    nofun
  · by_cases held : Held (ticks + seconds * Calendar.second) <;>
      simp only [expiry_eq, held, if_true, if_false] at h
    · cases h
      rintro _ ⟨⟩
      exact held
    · cases h

theorem read_iff {response : Response} {grant : Exchange.Grant} :
    Exchange.read response = .ok grant ↔ Status.isSuccess response.status = true ∧
      Exchange.Grant.read? response.body = some grant := by
  unfold Exchange.read
  by_cases success : Status.isSuccess response.status = true
  · rcases Exchange.Grant.read? response.body with _ | other <;> simp [success]
  · simp [success]

theorem given_iff {config : Configuration} {subjectToken : String} {w : World}
    {grant : Exchange.Grant} :
    (grantFor config subjectToken w).1 = .ok grant ↔ Given config subjectToken w grant := by
  unfold grantFor Given
  simp only [← read_iff]
  rcases Exchange.request? config subjectToken with _ | request
  · constructor
    · nofun
    · rintro ⟨⟨_, ⟨⟩⟩, -⟩
  rw [built_bind, bind_run, send_run, answer_next request w]
  rcases w.network with _ | _
  · rcases answerTo w 0 with response | ⟨transient, text⟩
    · simp only [ofExcept_run]
      rcases read : Exchange.read response with e | other <;> simp [Except.mapError, read]
    · simp
  · simp

section Retrieving

variable {config : Configuration} {subjectToken : String} {w w' : World}

theorem exchange_overflows_iff :
    (Exchange.exchange config subjectToken w).1 = .error .clockOverflow ↔
      ∃ grant seconds, Given config subjectToken w grant ∧ grant.expiresIn = some seconds ∧
        ¬ Held (w.ticks + seconds * Calendar.second) := by
  simp only [← given_iff]
  rw [exchange_run]
  rcases hg : grantFor config subjectToken w with ⟨f | grant, v⟩
  · obtain ⟨sent, -, named⟩ := asked_travels (grant_asked config subjectToken w)
    obtain ⟨e, rfl, -⟩ := named f (by rw [hg])
    simp
  · obtain ⟨request, response, -, rfl, -⟩ := grant_ok hg
    simp only [answer_ticks, token_overflows_iff, Except.ok.injEq]
    constructor
    · rintro ⟨seconds, lifetime, far⟩
      exact ⟨grant, seconds, rfl, lifetime, far⟩
    · rintro ⟨_, seconds, rfl, lifetime, far⟩
      exact ⟨seconds, lifetime, far⟩

theorem account_never_overflows (i : Impersonation) (scopes : List String) (token : Token)
    (w : World) : (i.exchange scopes token w).1 ≠ .error .clockOverflow := by
  obtain ⟨sent, -, named⟩ := asked_travels (account_asked i scopes token w)
  intro overflow
  obtain ⟨e, same, -⟩ := named _ overflow
  cases same

/-- An account to impersonate makes no difference: the lifetime of the grant is read first. -/
theorem exchanges_overflow_iff :
    (config.retrieve w).1 = .error .clockOverflow ↔ ∃ subjectToken w',
      config.sourceToken w = (.ok subjectToken, w') ∧
      (Exchange.exchange config subjectToken w').1 = .error .clockOverflow := by
  rcases hs : config.sourceToken w with ⟨f | subjectToken, w'⟩
  · obtain ⟨e, rfl, -⟩ := source_local config w f (by rw [hs])
    rw [source_fails hs]
    constructor
    · nofun
    · rintro ⟨_, _, ⟨⟩, -⟩
  · have gives : (config.retrieve w).1 = .error .clockOverflow ↔
        (Exchange.exchange config subjectToken w').1 = .error .clockOverflow := by
      rw [source_gives hs, bind_run]
      rcases Exchange.exchange config subjectToken w' with ⟨f | token, v⟩
      · exact Iff.rfl
      · rcases config.impersonation with _ | i
        · exact ⟨nofun, nofun⟩
        · exact ⟨fun overflow => (account_never_overflows i _ token v overflow).elim, nofun⟩
    rw [gives]
    constructor
    · intro overflow
      exact ⟨_, _, rfl, overflow⟩
    · rintro ⟨_, _, ⟨⟩, overflow⟩
      exact overflow

theorem retrieve_overflows_iff :
    (config.retrieve w).1 = .error .clockOverflow ↔ TooLong config w := by
  rw [exchanges_overflow_iff, TooLong]
  simp only [exchange_overflows_iff]
  grind

theorem account_held {i : Impersonation} {scopes : List String} {token final : Token} {left : World}
    (h : i.exchange scopes token w = (.ok final, left)) (room : HasRoom left.now left.ticks) :
    ∀ expiry ∈ final.expiresAt, Held expiry := by
  obtain ⟨response, -, read⟩ := account_ok h
  unfold Impersonation.read at read
  split at read
  · split at read
    · cases read
    · rename_i value expireTime _
      split at read
      · cases read
      · rename_i moment parsed
        cases read
        rintro _ ⟨⟩
        exact (has_room_iff _ _).mp room expireTime moment parsed
  · cases read

theorem retrieved_held {left : World} {token : Token}
    (h : config.retrieve w = (.ok token, left)) (room : HasRoom left.now left.ticks) :
    ∀ expiry ∈ token.expiresAt, Held expiry := by
  rcases hs : config.sourceToken w with ⟨f | subjectToken, w'⟩
  · obtain ⟨e, rfl, -⟩ := source_local config w f (by rw [hs])
    rw [source_fails hs] at h
    cases h
  rw [source_gives hs, bind_run, exchange_run] at h
  rcases hg : grantFor config subjectToken w' with ⟨f | grant, v⟩ <;> rw [hg] at h
  · cases h
  rcases ht : Exchange.tokenOf grant v.ticks with f | granted <;> simp only [ht] at h
  · cases h
  rcases hi : config.impersonation with _ | i <;> simp only [hi] at h
  · cases h
    exact token_held ht
  · exact account_held h room

end Retrieving

section Calls

variable (c : Credentials) (call : Call)

theorem render_returns_iff (outcome : Except Failure Token) :
    Returns call (c.render call outcome) ↔ outcome ≠ .error .clockOverflow := by
  rcases outcome with (e | _) | token
  · cases call <;> simp [Credentials.render, Returns]
  · cases call <;> simp [Credentials.render, Returns]
  · cases call with
    | refresh => simp [Credentials.render, Returns]
    | headers =>
      rcases made : token.headers c.config.quotaProject with e | headers <;>
        simp [Credentials.render, made, Returns]

theorem call_cases :
    (∃ token, c.look call = .valid token ∧ c.call call = (c.render call (.ok token), c)) ∨
    (c.look call = .stale c.cache.generation ∧
      c.call call = (c.render call c.retrieve.1, c.retrieve.2)) := by
  rcases found : c.look call with token | seen
  · refine .inl ⟨token, rfl, ?_⟩
    rw [Credentials.call, found]
    rfl
  · have current := Herd.reading_stale ((Herd.look_eq c call).symm.trans found)
    subst current
    exact .inr ⟨rfl, call_retrieves found⟩

theorem retrieve_result : c.retrieve.1 = (c.config.retrieve c.world).1 := by
  unfold Credentials.retrieve
  rcases c.config.retrieve c.world with ⟨(e | _) | token, left⟩ <;> rfl

theorem retrieve_keeps (h : c.retrieve.1 = .error .clockOverflow) : c.retrieve.2.cache = c.cache := by
  unfold Credentials.retrieve at h ⊢
  rcases hr : c.config.retrieve c.world with ⟨(e | _) | token, left⟩ <;> simp only [hr] at h ⊢
  · cases h
  · cases h

theorem call_returns_iff : Returns call (c.call call).1 ↔
    ¬ (c.look call = .stale c.cache.generation ∧ TooLong c.config c.world) := by
  obtain ⟨token, found, called⟩ | ⟨stale, called⟩ := call_cases c call
  · rw [called, render_returns_iff, found]
    simp
  · rw [called, render_returns_iff, retrieve_result, Ne, retrieve_overflows_iff, and_iff_right stale]

theorem call_overflows {c : Credentials} {call : Call}
    (stale : c.look call = .stale c.cache.generation) (far : TooLong c.config c.world) :
    (c.call call).1 = .clockOverflow := by
  rw [call_retrieves stale, retrieve_result, retrieve_overflows_iff.mpr far]
  rfl

theorem call_keeps (h : ¬ Returns call (c.call call).1) : (c.call call).2.cache = c.cache := by
  obtain ⟨token, -, called⟩ | ⟨-, called⟩ := call_cases c call
  · rw [called]
  · rw [called, render_returns_iff, not_not] at h
    rw [called]
    exact retrieve_keeps c h

/-- A call comes back with what it was asked for or with an error, unless it goes for a token and
the grant that it is given has a lifetime that the monotonic clock cannot hold; the cache is then as
it was. The expiry of an account's token does no harm: the clock holds it as long as it holds the
last moment that a timestamp can name, which is less than twenty thousand years away. -/
theorem calls_return :
    (Returns call (c.call call).1 ↔
      ¬ (c.look call = .stale c.cache.generation ∧ TooLong c.config c.world)) ∧
    (¬ Returns call (c.call call).1 → (c.call call).2.cache = c.cache) ∧
    (∀ token left, c.config.retrieve c.world = (.ok token, left) → HasRoom left.now left.ticks →
      ∀ expiry ∈ token.expiresAt, Held expiry) ∧
    (∀ now ticks, HasRoom now ticks ↔
      ∀ text moment, Rfc3339.parse? text = some moment → Held (ticks + remaining now moment)) ∧
    ∀ now ticks, -377705116800 * Calendar.second ≤ now →
      ticks / Calendar.second + 631107503940 ≤ maxSeconds → HasRoom now ticks :=
  ⟨call_returns_iff c call, call_keeps c call, fun _ _ => retrieved_held, has_room_iff,
    fun _ _ => has_room_of⟩

theorem calls_return_lasting :
    Returns .refresh ((Credentials.new Herd.granter Herd.lasting).call .refresh).1 ∧
    Returns .headers ((Credentials.new Herd.granter Herd.lasting).call .headers).1 ∧
    HasRoom 0 0 ∧ ∀ expiry ∈ (Herd.tokenUntil 5000000000).expiresAt, Held expiry := by
  have near : ¬ TooLong Herd.granter Herd.lasting := by
    rw [← retrieve_overflows_iff, Herd.lasting_retrieved]
    nofun
  obtain ⟨refreshed, -, held, -, room⟩ := calls_return (.new Herd.granter Herd.lasting) .refresh
  obtain ⟨headed, -⟩ := calls_return (.new Herd.granter Herd.lasting) .headers
  refine ⟨refreshed.mpr fun far => near far.2, headed.mpr fun far => near far.2,
    room 0 0 (by decide) (by decide), held _ _ Herd.lasting_retrieved ?_⟩
  exact room _ _ (by decide +kernel) (by decide +kernel)

def impersonating : Configuration :=
  { Herd.granter with
    impersonation := some ⟨"https://iam/sa@project:generateAccessToken", "sa@project", none⟩ }

def overlongBody : String :=
  "\x7b\"access_token\":\"granted\",\"expires_in\":18446744073709551615\x7d"

def overlong : Exchange.Grant := ⟨"granted", none, "Bearer", some 18446744073709551615, none⟩

def provided (body : String) : World :=
  { (Herd.answeredWith body).log .provider with provider := [] }

theorem overlong_met {config : Configuration} (programmatic : config.source = .programmatic)
    (built : (Exchange.request? config "subject").isSome = true) :
    TooLong config (Herd.answeredWith overlongBody) := by
  have sourced : config.sourceToken (Herd.answeredWith overlongBody) =
      (.ok "subject", provided overlongBody) := by
    rw [Configuration.sourceToken, programmatic]
    rfl
  have read : Exchange.Grant.read? (Utf8.ofString overlongBody) = some overlong := by decide +kernel
  have given : Given config "subject" (provided overlongBody) overlong :=
    ⟨Option.isSome_iff_exists.mp built, rfl, ⟨200, Utf8.ofString overlongBody⟩, rfl, rfl, read⟩
  exact ⟨"subject", provided overlongBody, overlong, 18446744073709551615, sourced, given, rfl,
    by decide⟩

/-- A grant of this kind ends the call whether it is a refresh or not, and also if the token would be
given up at once for that of an account. -/
theorem overlong_grant :
    ((Credentials.new Herd.granter (Herd.answeredWith overlongBody)).call .refresh).1 =
      .clockOverflow ∧
    ((Credentials.new Herd.granter (Herd.answeredWith overlongBody)).call .headers).1 =
      .clockOverflow ∧
    ((Credentials.new impersonating (Herd.answeredWith overlongBody)).call .refresh).1 =
      .clockOverflow := by
  have direct : TooLong Herd.granter (Herd.answeredWith overlongBody) :=
    overlong_met rfl (by decide +kernel)
  have account : TooLong impersonating (Herd.answeredWith overlongBody) :=
    overlong_met rfl (by decide +kernel)
  exact ⟨call_overflows rfl direct, call_overflows rfl direct, call_overflows rfl account⟩

end Calls

end WorkloadIdentity.Overflow
