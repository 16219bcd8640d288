import WorkloadIdentity.Proofs.Herd.Ledger
import WorkloadIdentity.Proofs.Retrieval.Lifetimes

/-!
# Tokens that are handed out

A token that a call finds at its look can be used at that moment. All other calls return what the
latest retrieval left, without another look at the clock; so one whose token was expired on arrival
hands it out, to the call that made it and to all that waited.
-/

set_option autoImplicit false

namespace WorkloadIdentity.Herd

open Lifetimes (EndsWith Lasts retrieved_lasts)
open OneCell (Usable)

variable {ι : Type}

/-- How the retrievals of a schedule ended, with the worlds that they left. -/
def publications (schedule : List (Action ι)) : List (Outcome × World) :=
  schedule.filterMap fun
    | .publish _ outcome left => some (outcome, left)
    | _ => none

/-- Every outcome is that of some retrieval of this configuration. -/
def Genuine (config : Configuration) (schedule : List (Action ι)) : Prop :=
  ∀ publication ∈ publications schedule,
    ∃ w, config.retrieve w = (Credentials.outcomeOf publication.1, publication.2)

theorem publications_cons (a : Action ι) (rest : List (Action ι)) :
    publications (a :: rest) = publications [a] ++ publications rest :=
  List.filterMap_append (l := [a])

variable [DecidableEq ι] {calls : ι → Call} {cache : Cache} {s s' t : State ι} {act : Action ι}

theorem published_step (he : Effect calls s act s') :
    published s'.log = published s.log ++ (publications [act]).map Prod.fst := by
  cases he <;> simp [publications, published_append]

theorem published_run {schedule : List (Action ι)} (h : run? calls s schedule = some t) :
    published t.log = published s.log ++ (publications schedule).map Prod.fst := by
  induction schedule generalizing s with
  | nil =>
    cases h
    exact (List.append_nil _).symm
  | cons a rest ih =>
    obtain ⟨s', he, hr⟩ := run_cons h
    have ahead := publications_cons a rest
    rw [ih hr, published_step he, ahead, List.map_append, List.append_assoc]

def Latest (s : State ι) : Prop := ∀ i outcome, s.phase i = .leaving outcome →
  s.cache.last = some outcome

theorem latest_step (h : History calls cache s) (hl : Latest s) (he : Effect calls s act s') :
    Latest s' := by
  intro i outcome hi
  have hs := hl i outcome
  cases he with
  | shared j seen own hp hc =>
    by_cases hij : i = j
    · subst hij
      obtain rfl : own = outcome := by simpa using hi
      unfold Cache.shared? at hc
      split at hc
      · cases hc
      · exact hc
    · exact hs (by simpa [hij] using hi)
  | published j seen own world hp =>
    by_cases hij : i = j
    · subst hij
      obtain rfl : own = outcome := by simpa using hi
      rfl
    · have leaving : s.phase i = .leaving outcome := by simpa [hij] using hi
      exact absurd (holder_unique h (by rw [leaving]; rfl) (by rw [hp]; rfl)) hij
  | drifted => exact hs hi
  | found j | missed j | locked j | cleared j | started j | released j | panicked j | cancelled j =>
    by_cases hij : i = j
    · simp [hij] at hi
    · exact hs (by simpa [hij] using hi)

theorem latest_run {world : World} {schedule : List (Action ι)}
    (h : run? calls (start cache world) schedule = some s) : Latest s := by
  have hboth : History calls cache s ∧ Latest s :=
    run_preserves (P := fun t => History calls cache t ∧ Latest t)
      (fun _ _ _ he hs => ⟨history_step hs.1 he, latest_step hs.1 hs.2 he⟩) h
      ⟨history_start calls cache world, nofun⟩
  exact hboth.2

theorem leaving_publication {world : World} {schedule : List (Action ι)} {i : ι}
    {outcome : Outcome} (h : run? calls (start .empty world) schedule = some s)
    (hp : s.phase i = .leaving outcome) :
    ∃ left, (publications schedule).getLast? = some (outcome, left) := by
  have hlast := latest_run h i outcome hp
  have hlog : published s.log = (publications schedule).map Prod.fst := published_run h
  rw [(history_run h).cache_eq, settle_empty_last, hlog, List.getLast?_map,
    Option.map_eq_some_iff] at hlast
  obtain ⟨⟨_, left⟩, hlast, rfl⟩ := hlast
  exact ⟨left, hlast⟩

theorem returning_cases {i : ι} {token : Token} (hs : step? calls s act = some s')
    (before : s.phase i ≠ .returned (.ok token)) (after : s'.phase i = .returned (.ok token)) :
    (act = .look i ∧ reading s.cache s.world.ticks (calls i) = .valid token) ∨
      (act = .release i ∧ s.phase i = .leaving (.ok token)) := by
  cases step_cases hs with
  | found j own hp hr =>
    by_cases hij : i = j
    · subst hij
      obtain rfl : own = token := by simpa using after
      exact .inl ⟨rfl, hr⟩
    · exact absurd (by simpa [hij] using after) before
  | released j outcome hp =>
    by_cases hij : i = j
    · subst hij
      obtain rfl : outcome = .ok token := by simpa using after
      exact .inr ⟨rfl, hp⟩
    · exact absurd (by simpa [hij] using after) before
  | drifted => exact absurd after before
  | missed j | locked j | shared j | cleared j | started j | published j | panicked j
  | cancelled j =>
    by_cases hij : i = j
    · simp [hij] at after
    · exact absurd (by simpa [hij] using after) before

theorem look_usable {found : Cache} {ticks : Calendar.Nanoseconds} {call : Call} {token : Token}
    (h : reading found ticks call = .valid token) : Usable token ticks :=
  OneCell.usable_iff.mpr (reading_valid.mp h).2.2

omit [DecidableEq ι] in
theorem genuine_lasts {config : Configuration} {schedule : List (Action ι)} {token : Token}
    {left : World} (genuine : Genuine config schedule)
    (latest : (publications schedule).getLast? = some (.ok token, left)) :
    ∃ w response, config.retrieve w = (.ok token, left) ∧ EndsWith config w response ∧
      (Usable token left.ticks ↔ Lasts config left.now response) := by
  obtain ⟨w, retrieved⟩ := genuine _ (List.mem_of_getLast? latest)
  obtain ⟨response, ends, lasts⟩ := retrieved_lasts retrieved
  exact ⟨w, response, retrieved, ends, lasts⟩

theorem retrieve_brings {c : Credentials} {token : Token} {left : World}
    (h : c.config.retrieve c.world = (.ok token, left)) :
    c.retrieve = (.ok token, { c with cache := c.cache.publish (.ok token), world := left }) := by
  simp only [Credentials.retrieve, h]

/-- What headers carry when calls come one after another: the token found in the cache, or the one
that was just retrieved. -/
theorem call_carries (c : Credentials) :
    (∀ token, c.look .headers = .valid token →
      c.call .headers = (c.render .headers (.ok token), c)) ∧
    ∀ seen, c.look .headers = .stale seen →
      c.call .headers = (c.render .headers c.retrieve.1, c.retrieve.2) := by
  refine ⟨fun token found => ?_, fun seen stale => ?_⟩
  · rw [Credentials.call, found]
    rfl
  · have current := reading_stale ((look_eq c .headers).symm.trans stale)
    exact Journey.call_retrieves (stale.trans (congrArg _ current))

/-- A token that is handed out was found unexpired, or is that of the latest retrieval; and then, if
the clock has not moved since, it can be used exactly if the answer that it came with left it some
time. So it is for calls one after another, and for calls that meet in any way. -/
theorem handed_out_token_lasts (config : Configuration) :
    (∀ c : Credentials, c.config = config →
      (∀ token, c.look .headers = .valid token →
        c.call .headers = (c.render .headers (.ok token), c) ∧ Usable token c.world.ticks) ∧
      ∀ seen token left, c.look .headers = .stale seen →
        config.retrieve c.world = (.ok token, left) →
        (c.call .headers).1 = c.render .headers (.ok token) ∧ (c.call .headers).2.world = left ∧
        ∃ response, EndsWith config c.world response ∧
          (Usable token left.ticks ↔ Lasts config left.now response)) ∧
    ∀ (calls : ι → Call) (world : World) (schedule : List (Action ι)) (s s' : State ι)
      (act : Action ι) (i : ι) (token : Token),
      run? calls (start .empty world) schedule = some s → Genuine config schedule →
      step? calls s act = some s' → s.phase i ≠ .returned (.ok token) →
      s'.phase i = .returned (.ok token) →
      (act = .look i ∧ Usable token s.world.ticks) ∨
      (act = .release i ∧ ∃ w left response,
        (publications schedule).getLast? = some (.ok token, left) ∧
        config.retrieve w = (.ok token, left) ∧ EndsWith config w response ∧
        (s.world.ticks = left.ticks →
          (Usable token s.world.ticks ↔ Lasts config left.now response))) := by
  constructor
  · rintro c rfl
    obtain ⟨finds, retrieves⟩ := call_carries c
    refine ⟨fun token found => ⟨finds token found, ?_⟩, fun seen token left stale retrieved => ?_⟩
    · exact look_usable ((look_eq c .headers).symm.trans found)
    · rw [retrieves seen stale, retrieve_brings retrieved]
      exact ⟨rfl, rfl, retrieved_lasts retrieved⟩
  · intro calls world schedule s s' act i token h genuine hs before after
    rcases returning_cases hs before after with ⟨rfl, found⟩ | ⟨rfl, leaving⟩
    · exact .inl ⟨rfl, look_usable found⟩
    · obtain ⟨left, latest⟩ := leaving_publication h leaving
      obtain ⟨w, response, retrieved, ends, lasts⟩ := genuine_lasts genuine latest
      refine .inr ⟨rfl, w, left, response, latest, retrieved, ends, fun same => ?_⟩
      rw [same]
      exact lasts

def granter : Configuration :=
  ⟨"//iam/pool", "urn:jwt", "https://sts/token", none, none, none, ["scope"], none, .programmatic,
    none, none⟩

def answeredWith (body : String) : World :=
  ⟨.empty, .empty, fun _ files => (.notStarted, files), .scripted,
    [.response ⟨200, Utf8.ofString body⟩], [.token "subject"], 0, 0, [], .plain⟩

def lasting : World :=
  answeredWith "\x7b\"access_token\":\"granted\",\"expires_in\":5\x7d"

def fleeting : World :=
  answeredWith "\x7b\"access_token\":\"granted\",\"expires_in\":0\x7d"

def tokenUntil (expiry : Calendar.Nanoseconds) : Token := ⟨"granted", "Bearer", some expiry, none⟩

theorem retrieve_ok {config : Configuration} {w : World} {token : Token}
    (h : (config.retrieve w).1.toOption = some token) :
    config.retrieve w = (.ok token, (config.retrieve w).2) := by
  refine Prod.ext ?_ rfl
  rcases hr : (config.retrieve w).1 with f | other <;> rw [hr] at h <;> cases h
  rfl

theorem lasting_retrieved :
    granter.retrieve lasting = (.ok (tokenUntil 5000000000), (granter.retrieve lasting).2) :=
  retrieve_ok (by decide +kernel)

/-- Call 1 waits for the retrieval of call 0 and shares it. -/
def waiting : List (Action Nat) :=
  [.look 0, .look 1, .lock 0, .compare 0, .start 0,
    .publish 0 (.ok (tokenUntil 5000000000)) (granter.retrieve lasting).2, .release 0, .lock 1,
    .compare 1]

theorem handed_out_token_lasts_waiting :
    (∃ response, EndsWith granter lasting response ∧
      Lasts granter (granter.retrieve lasting).2.now response) ∧
    ∃ s s', run? (fun _ => .headers) (start .empty lasting) waiting = some s ∧
      step? (fun _ => .headers) s (.release 1) = some s' ∧
      s'.phase 1 = .returned (.ok (tokenUntil 5000000000)) ∧
      ∃ w response, EndsWith granter w response ∧
        Lasts granter (granter.retrieve lasting).2.now response := by
  have usable : Usable (tokenUntil 5000000000) (granter.retrieve lasting).2.ticks := by
    decide +kernel
  obtain ⟨alone, -⟩ := handed_out_token_lasts (ι := Nat) granter
  obtain ⟨-, retrieves⟩ := alone (.new granter lasting) rfl
  obtain ⟨-, -, response, ends, lasts⟩ := retrieves 0 _ _ rfl lasting_retrieved
  refine ⟨⟨response, ends, lasts.mp usable⟩, _, _, rfl, rfl, rfl, ?_⟩
  have genuine : Genuine granter waiting := by
    intro publication only
    obtain rfl := List.mem_singleton.mp only
    exact ⟨lasting, lasting_retrieved⟩
  obtain ⟨-, together⟩ := handed_out_token_lasts (ι := Nat) granter
  rcases together (fun _ => .headers) lasting waiting _ _ (.release 1) 1 _ rfl genuine rfl nofun rfl
    with ⟨⟨⟩, -⟩ | ⟨-, w, left, response, latest, -, ends, lasts⟩
  cases latest
  exact ⟨w, response, ends, (lasts rfl).mp usable⟩

/-- An answer that gives the token no time: the call hands it out, expired. -/
theorem expired_token_returned :
    ((Credentials.new granter fleeting).call .headers).1 =
      .headers [⟨"authorization", Utf8.ofString "Bearer granted", true⟩] ∧
    ((Credentials.new granter fleeting).call .headers).2.cache.token = some (tokenUntil 0) ∧
    (tokenUntil 0).isExpired ((Credentials.new granter fleeting).call .headers).2.world.ticks = true := by
  have retrieved : granter.retrieve fleeting = (.ok (tokenUntil 0), (granter.retrieve fleeting).2) :=
    retrieve_ok (by decide +kernel)
  have called := (call_carries (.new granter fleeting)).2 0 rfl
  have brought := retrieve_brings (c := .new granter fleeting) retrieved
  rw [called, brought]
  refine ⟨rfl, rfl, ?_⟩
  decide +kernel

end WorkloadIdentity.Herd
