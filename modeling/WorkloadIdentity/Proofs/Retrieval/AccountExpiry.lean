import WorkloadIdentity.Proofs.Retrieval.Deferred
import WorkloadIdentity.Proofs.Time.Spelling

/-!
# When an account's token expires

The answer to an impersonation names a moment of the calendar. The token expires when as much of the
monotonic clock has passed as there was until that moment by the wall clock, or at once if there was
none. Nothing of the federated token but its value has a part in this, and a text that names no
moment leaves the cache as it was.
-/

set_option autoImplicit false

namespace WorkloadIdentity.AccountExpiry

open Journey (answerTo answer_ticks bind_ok call_retrieves)
open Messages (bearer account_request)
open Deferred (account_answered answer_now exchange_granted)
open Rfc3339 (Stamp nanoseconds nanoseconds_exact parse_iff parse_none_iff)
open Calendar (Date next_valid toDays_epoch toDays_next)

/-- The exchange of a federated token for one of the account is answered with a token and a text for
its expiry. -/
structure Answered (i : Impersonation) (federated : Token) (w : World) (value expireTime : String) :
    Prop where
  addressed : (Uri.parse? i.url).isSome = true
  fit : Header.isValue (bearer federated.value).value = true
  connected : w.network = .scripted
  met : ∃ response, answerTo w 0 = .response response ∧ Status.isSuccess response.status = true ∧
    Impersonation.readAnswer? response.body = some (value, expireTime)

structure Reaches (c : Credentials) (federated : Token) (w : World) (value expireTime : String) :
    Prop where
  exchanged : (c.config.subjectToken >>= Exchange.exchange c.config) c.world = (.ok federated, w)
  answered : ∃ i, c.config.impersonation = some i ∧ Answered i federated w value expireTime

/-- The token of an account that expires when `moment` comes, as the clocks stand in `w`. -/
def tokenUntil (value : String) (w : World) (moment : Calendar.Nanoseconds) : Token :=
  ⟨value, "Bearer", some (w.ticks + max 0 (moment - w.now)), none⟩

/-- The text spells this stamp, with one of the sixty ordinary seconds. -/
structure Tells (text : String) (s : Stamp) : Prop where
  spelled : s.Spells text
  ordinary : s.second ≤ 59

def outcome (value expireTime : String) (w : World) : Except CredentialsError Token :=
  match Rfc3339.parse? expireTime with
  | some moment => .ok (tokenUntil value w moment)
  | none => .error (.ofIncident .timestamp)

/-- The call ends with this token, which it leaves in the cache. -/
structure Brings (c : Credentials) (call : Call) (token : Token) : Prop where
  reply : (c.call call).1 = c.render call (.ok token)
  cached : (c.call call).2.cache.token = some token

/-- The call ends with an error that is not worth a retry, and leaves the token of the cache. -/
structure Misses (c : Credentials) (call : Call) : Prop where
  reply : ∃ e : CredentialsError, e.transient = false ∧ (c.call call).1 = .error e
  cached : (c.call call).2.cache.token = c.cache.token

section Exchange

variable {i : Impersonation} {federated : Token} {w : World} {value expireTime : String}

theorem request_value (i : Impersonation) (scopes : List String) {token other : Token}
    (same : other.value = token.value) : i.request scopes other = i.request scopes token := by
  rw [account_request, account_request, same]

theorem exchange_value (i : Impersonation) (scopes : List String) {token other : Token}
    (same : other.value = token.value) : i.exchange scopes other = i.exchange scopes token := by
  unfold Impersonation.exchange
  rw [request_value i scopes same]

theorem read_answered {response : Response} (success : Status.isSuccess response.status = true)
    (read : Impersonation.readAnswer? response.body = some (value, expireTime)) (w : World) :
    Impersonation.read response w.now w.ticks = outcome value expireTime w := by
  unfold Impersonation.read outcome
  rw [if_pos success, read]
  dsimp only
  rcases Rfc3339.parse? expireTime with _ | moment <;> rfl

theorem exchange_answered (h : Answered i federated w value expireTime) (scopes : List String) :
    ∃ left, left.now = w.now ∧ left.ticks = w.ticks ∧ i.exchange scopes federated w =
      ((outcome value expireTime w).mapError .error, left) := by
  obtain ⟨uri, parsed⟩ := Option.isSome_iff_exists.mp h.addressed
  obtain ⟨response, met, success, read⟩ := h.met
  obtain ⟨request, exchanged⟩ := account_answered parsed h.connected h.fit met scopes
  refine ⟨(w.answer request).2, answer_now request w, answer_ticks request w, ?_⟩
  rw [exchanged, read_answered success read]

end Exchange

section Calls

variable {c : Credentials} {federated : Token} {w : World} {value expireTime : String}

theorem exchanged_of {config : Configuration} {subjectToken : String} {v v' : World}
    (sourced : config.sourceToken v = (.ok subjectToken, v'))
    (exchanged : Exchange.exchange config subjectToken v' = (.ok federated, w)) :
    (config.subjectToken >>= Exchange.exchange config) v = (.ok federated, w) := by
  refine (bind_ok ?_ _).trans exchanged
  unfold Configuration.subjectToken Attempt.inSubjectToken
  rw [sourced]

theorem retrieve_parts {config : Configuration} {i : Impersonation}
    (named : config.impersonation = some i) : config.retrieve =
      (config.subjectToken >>= Exchange.exchange config) >>= fun token =>
        i.exchange config.scopes token := by
  rw [bind_assoc]
  unfold Configuration.retrieve
  rw [named]

theorem retrieve_reached (h : Reaches c federated w value expireTime) :
    ∃ left, left.now = w.now ∧ left.ticks = w.ticks ∧ c.config.retrieve c.world =
      ((outcome value expireTime w).mapError .error, left) := by
  obtain ⟨i, named, answered⟩ := h.answered
  obtain ⟨left, now, ticks, exchanged⟩ := exchange_answered answered c.config.scopes
  refine ⟨left, now, ticks, ?_⟩
  rw [retrieve_parts named, bind_ok h.exchanged, exchanged]

theorem call_clocks (h : Reaches c federated w value expireTime) {call : Call}
    (stale : c.look call = .stale c.cache.generation) :
    (c.call call).2.world.now = w.now ∧ (c.call call).2.world.ticks = w.ticks := by
  obtain ⟨left, now, ticks, retrieved⟩ := retrieve_reached h
  have after : (c.call call).2.world = left := by
    rw [call_retrieves stale]
    unfold Credentials.retrieve
    rw [retrieved]
    rcases outcome value expireTime w with e | token <;> rfl
  rw [after]
  exact ⟨now, ticks⟩

theorem call_until (h : Reaches c federated w value expireTime) {call : Call}
    (stale : c.look call = .stale c.cache.generation) (moment : Calendar.Nanoseconds) :
    tokenUntil value (c.call call).2.world moment = tokenUntil value w moment := by
  obtain ⟨now, ticks⟩ := call_clocks h stale
  rw [tokenUntil, now, ticks, tokenUntil]

/-- A text that is read as a moment brings a token until then. -/
theorem call_brings (h : Reaches c federated w value expireTime) {call : Call}
    (stale : c.look call = .stale c.cache.generation) {moment : Calendar.Nanoseconds}
    (parsed : Rfc3339.parse? expireTime = some moment) :
    Brings c call (tokenUntil value w moment) := by
  obtain ⟨left, -, -, retrieved⟩ := retrieve_reached h
  have brought : c.retrieve = (.ok (tokenUntil value w moment),
      { c with cache := c.cache.publish (.ok (tokenUntil value w moment)), world := left }) := by
    unfold Credentials.retrieve
    rw [retrieved, outcome, parsed]
    rfl
  constructor
  · rw [call_retrieves stale, brought]
  · rw [call_retrieves stale, brought]
    rfl

theorem call_misses (h : Reaches c federated w value expireTime) {call : Call}
    (stale : c.look call = .stale c.cache.generation)
    (unread : Rfc3339.parse? expireTime = none) : Misses c call := by
  obtain ⟨left, -, -, retrieved⟩ := retrieve_reached h
  have missed : c.retrieve = (.error (.error (.ofIncident .timestamp)),
      { c with cache := c.cache.publish (.error (.ofIncident .timestamp)), world := left }) := by
    unfold Credentials.retrieve
    rw [retrieved, outcome, unread]
    rfl
  constructor
  · refine ⟨.ofIncident .timestamp, rfl, ?_⟩
    rw [call_retrieves stale, missed]
    rfl
  · rw [call_retrieves stale, missed]
    rfl

theorem tokenUntil_expired {w : World} {moment : Calendar.Nanoseconds} (passed : moment ≤ w.now)
    (value : String) : (tokenUntil value w moment).isExpired w.ticks = true := by
  have none_left : max 0 (moment - w.now) = 0 := max_eq_left (Int.sub_nonpos_of_le passed)
  simp [Token.isExpired, tokenUntil, none_left]

theorem expiry_mono (w : World) {a b : Calendar.Nanoseconds} (h : a ≤ b) :
    w.ticks + max 0 (a - w.now) ≤ w.ticks + max 0 (b - w.now) :=
  Int.add_le_add_left (max_le_max_left 0 (Int.sub_le_sub_right h w.now)) w.ticks

theorem told_parsed {s : Stamp} (told : Tells expireTime s) :
    Rfc3339.parse? expireTime = some s.instant :=
  parse_iff.mpr ⟨s, told.spelled, .inl ⟨told.ordinary, rfl⟩⟩

end Calls

/-- Whatever federated token was exchanged, once the account has answered the text of the expiry
decides. A text that spells a stamp brings a token that lasts until the stamp's moment, to the
nanosecond, and is expired if that has passed; for one reading of the clocks, a later moment never
ends earlier. A text that spells none is an error that is not worth a retry, and the cached token
stays. The federated token counts by its value alone. What a stamp means is fixed by its fraction,
which is exact up to nine digits, and by counting days from 1970-01-01. -/
theorem account_token_lasts_until {c : Credentials} {federated : Token} {w : World}
    {value expireTime : String} {call : Call} (h : Reaches c federated w value expireTime)
    (stale : c.look call = .stale c.cache.generation) :
    (∀ (i : Impersonation) scopes (other : Token) (v : World) (text : String) s,
      Answered i other v value text → Tells text s →
        (i.exchange scopes other v).1 = .ok (tokenUntil value v s.instant)) ∧
    (∀ s, Tells expireTime s →
      Brings c call (tokenUntil value (c.call call).2.world s.instant) ∧
      (s.instant ≤ (c.call call).2.world.now →
        (tokenUntil value (c.call call).2.world s.instant).isExpired
          (c.call call).2.world.ticks = true)) ∧
    (∀ s : Stamp, s.Spells expireTime → s.Leap →
      Brings c call (tokenUntil value (c.call call).2.world (s.seconds * Calendar.second - 1))) ∧
    ((∀ (s : Stamp) moment, s.Spells expireTime → ¬ s.Denotes moment) → Misses c call) ∧
    (∀ {c' : Credentials} {federated' : Token} {w' : World} {value' expireTime' : String}
      {call' : Call}, Reaches c' federated' w' value' expireTime' →
      c'.look call' = .stale c'.cache.generation → w'.now = w.now → w'.ticks = w.ticks →
      ∀ s s', Tells expireTime s → Tells expireTime' s' → ∃ token token' expiry expiry',
        Brings c call token ∧ token.expiresAt = some expiry ∧
        Brings c' call' token' ∧ token'.expiresAt = some expiry' ∧
        (s.instant = s'.instant → expiry = expiry') ∧ (s.instant ≤ s'.instant → expiry ≤ expiry')) ∧
    (∀ (i : Impersonation) scopes (other : Token), other.value = federated.value →
      i.exchange scopes other = i.exchange scopes federated) ∧
    (∀ ds : List Char, ds.length ≤ 9 →
      nanoseconds ds * 10 ^ ds.length = Nat.ofDigitChars 10 ds 0 * 10 ^ 9) ∧
    (Date.first 1970 1).toDays = 0 ∧
    ∀ d : Date, d.isValid = true → d.next.isValid = true ∧ d.next.toDays = d.toDays + 1 := by
  refine ⟨?_, ?_, ?_, ?_, ?_, fun i scopes _ => exchange_value i scopes, fun _ => nanoseconds_exact,
    toDays_epoch, fun _ valid => ⟨next_valid valid, toDays_next valid⟩⟩
  · intro i scopes other v text s answered told
    obtain ⟨left, -, -, exchanged⟩ := exchange_answered answered scopes
    rw [exchanged, outcome, told_parsed told]
    rfl
  · intro s told
    rw [call_until h stale]
    refine ⟨call_brings h stale (told_parsed told), fun passed => ?_⟩
    rw [(call_clocks h stale).1] at passed
    rw [(call_clocks h stale).2]
    exact tokenUntil_expired passed value
  · intro s spelled leap
    rw [call_until h stale]
    exact call_brings h stale (parse_iff.mpr ⟨s, spelled, .inr ⟨leap, rfl⟩⟩)
  · intro dumb
    exact call_misses h stale (parse_none_iff.mpr dumb)
  · intro c' federated' w' value' expireTime' call' h' stale' now ticks s s' told told'
    refine ⟨_, _, _, _, call_brings h stale (told_parsed told), rfl,
      call_brings h' stale' (told_parsed told'), rfl, ?_, ?_⟩
    · intro same
      rw [now, ticks, same]
    · rw [now, ticks]
      exact expiry_mono w

def leapDayText : String := "2024-03-01T00:59:59.25+01:00"

def leapDay : Stamp := ⟨2024, 3, 1, 'T', 0, 59, 59, some ['2', '5'], .shifted true 1 0⟩

def leapDayBody : String :=
  "\x7b\"accessToken\":\"final\",\"expireTime\":\"2024-03-01T00:59:59.25+01:00\"\x7d"

def closing : World :=
  { Deferred.obliging with
    answers := [.response ⟨200, Utf8.ofString Deferred.grantBody⟩,
      .response ⟨200, Utf8.ofString leapDayBody⟩]
    now := 1709251140 * Calendar.second
    ticks := 5 * Calendar.second }

theorem leap_day_told : Tells leapDayText leapDay := by
  have digits : leapDay.fraction.Fits := by
    rintro _ ⟨⟩
    exact ⟨nofun, by simp⟩
  have zone : leapDay.zone.Fits := ⟨by decide, by decide⟩
  have fits : leapDay.Fits :=
    ⟨by decide, by decide +kernel, by decide, by decide, by decide, digits, zone⟩
  exact ⟨⟨fits, by decide +kernel⟩, by decide⟩

theorem closing_reached : ∃ w, Reaches (.new Deferred.usable closing) Deferred.grantedToken w
    "final" leapDayText := by
  have sourced : Deferred.usable.sourceToken closing = (.ok "subject", closing) :=
    Journey.file_gives (by decide +kernel) (by decide +kernel) (by decide +kernel)
  have read : Exchange.read ⟨200, Utf8.ofString Deferred.grantBody⟩ =
      .ok ⟨"granted", none, "Bearer", none, none⟩ := by
    simp only [Exchange.read, Deferred.grant_body]
    rfl
  obtain ⟨uri, parsed⟩ : ∃ uri, Uri.parse? Deferred.usable.tokenUrl = some uri :=
    Option.isSome_iff_exists.mp (by decide +kernel)
  obtain ⟨sts, exchanged⟩ := exchange_granted parsed (w := closing) rfl rfl read rfl "subject"
  refine ⟨(closing.answer sts).2, ?_, _, rfl, ⟨by decide +kernel, by decide +kernel, rfl,
    ⟨200, Utf8.ofString leapDayBody⟩, rfl, rfl, by decide +kernel⟩⟩
  exact exchanged_of sourced exchanged

theorem account_token_lasts_until_leap_day : leapDay.instant = 1709251199250000000 ∧
    Brings (.new Deferred.usable closing) .refresh
      (tokenUntil "final" ((Credentials.new Deferred.usable closing).call .refresh).2.world
        leapDay.instant) := by
  obtain ⟨w, reached⟩ := closing_reached
  have stale : (Credentials.new Deferred.usable closing).look .refresh = .stale 0 := rfl
  obtain ⟨-, until_told, -⟩ := account_token_lasts_until reached stale
  exact ⟨by decide, (until_told leapDay leap_day_told).1⟩

end WorkloadIdentity.AccountExpiry
