import Mathlib.Algebra.BigOperators.Group.Finset.Basic
import Mathlib.Algebra.Order.BigOperators.Group.Finset
import Mathlib.Data.Fintype.Card
import WorkloadIdentity.Proofs.Herd.Freshness
import WorkloadIdentity.Proofs.Herd.Locks

/-!
# Calls come to rest

Whoever has the state lock waits for nothing, and whoever has the refresh lock waits for the state
lock at most, so some call can always go on. Each step leaves its call fewer steps to take. A call
that found a valid token has only the state lock to give back.
-/

set_option autoImplicit false

namespace WorkloadIdentity.Locks

open Herd (reading reading_valid sampleToken)

variable {ι : Type}

def Blocked (s : State ι) (i : ι) : Prop :=
  ((s.stand i).entered?.isSome = true ∧ s.stateLock ≠ none) ∨
    ((s.stand i).isQueued = true ∧ s.refreshLock ≠ none)

/-- Each lock is with the call that stands where it has it. -/
structure Owned (s : State ι) : Prop where
  state : ∀ i, (s.stand i).holdsState = true ↔ s.stateLock = some i
  refresh : ∀ i, (s.stand i).holdsRefresh = true ↔ s.refreshLock = some i

/-- All calls have returned, and no lock was kept. -/
structure AtRest (s : State ι) : Prop where
  returned : ∀ i, ∃ outcome, s.stand i = .returned outcome
  state_free : s.stateLock = none
  refresh_free : s.refreshLock = none

def flights (schedule : List (Action ι)) : List ι :=
  schedule.filterMap fun
    | .start i => some i
    | _ => none

theorem entered_holds {p q : Stand} (h : p.entered? = some q) :
    p.holdsState = false ∧ q.holdsState = true ∧ q.holdsRefresh = p.holdsRefresh := by
  cases p <;> cases h <;> exact ⟨rfl, rfl, rfl⟩

theorem exited_holds {p q : Stand} (h : p.exited? = some q) :
    p.holdsState = true ∧ q.holdsState = false ∧ q.holdsRefresh = p.holdsRefresh := by
  rcases p with _ | _ | (_ | _) | _ | _ | _ | ⟨_, _ | _⟩ | _ | _ | _ | _ | _ | _ | _ <;> cases h <;>
    exact ⟨rfl, rfl, rfl⟩

theorem entered_rank {p q : Stand} (h : p.entered? = some q) : q.rank < p.rank := by
  cases p <;> cases h <;> simp [Stand.rank]

theorem exited_rank {p q : Stand} (h : p.exited? = some q) : q.rank < p.rank := by
  rcases p with _ | _ | (_ | _) | _ | _ | _ | ⟨_, _ | _⟩ | _ | _ | _ | _ | _ | _ | _ <;> cases h <;>
    simp [Stand.rank]

theorem not_queued_of_entered {p q : Stand} (h : p.entered? = some q) :
    p.isQueued = false ∧ p.isReturned = false := by
  cases p <;> cases h <;> exact ⟨rfl, rfl⟩

theorem not_entered_of_holds {p : Stand} (h : p.holdsState = true) : p.entered?.isSome = false := by
  cases p <;> first | rfl | cases h

theorem not_queued_of_holds {p : Stand} (h : p.holdsState = true ∨ p.holdsRefresh = true) :
    p.isQueued = false ∧ p.isReturned = false := by
  cases p <;> simp_all [Stand.holdsState, Stand.holdsRefresh, Stand.isQueued, Stand.isReturned]

variable [DecidableEq ι] {calls : ι → Call} {cache : Cache} {s s' t : State ι} {a : Action ι}

def CanStep (calls : ι → Call) (s : State ι) (i : ι) : Prop :=
  ∃ a s', Action.caller a = i ∧ step? calls s a = some s'

section Lock

variable {holds : Stand → Bool} {stand : ι → Stand} {lock : Option ι} {i : ι} {next : Stand}

theorem lock_kept (own : ∀ j, holds (stand j) = true ↔ lock = some j)
    (same : holds next = holds (stand i)) (j : ι) :
    holds (Function.update stand i next j) = true ↔ lock = some j := by
  rw [Function.update_apply]
  split
  · rename_i here
    rw [same, here, own]
  · exact own j

theorem lock_taken (own : ∀ j, holds (stand j) = true ↔ lock = some j) (free : lock = none)
    (has : holds next = true) (j : ι) :
    holds (Function.update stand i next j) = true ↔ some i = some j := by
  rw [Function.update_apply, Option.some_inj]
  split
  · rename_i here
    simp [has, here]
  · rename_i other
    rw [own, free]
    simp [Ne.symm other]

theorem lock_given (own : ∀ j, holds (stand j) = true ↔ lock = some j)
    (had : holds (stand i) = true) (left : holds next = false) (j : ι) :
    holds (Function.update stand i next j) = true ↔ (none : Option ι) = some j := by
  rw [Function.update_apply]
  split
  · simp [left]
  · rename_i other
    rw [own, (own i).mp had, Option.some_inj]
    simp [Ne.symm other]

end Lock

theorem owned_step (h : Effect calls s a s') (own : Owned s) : Owned s' := by
  cases h with
  | entered i next at_hand free =>
    obtain ⟨-, has, same⟩ := entered_holds at_hand
    exact ⟨lock_taken own.state free has, lock_kept own.refresh same⟩
  | exited i next done =>
    obtain ⟨had, left, same⟩ := exited_holds done
    exact ⟨lock_given own.state had left, lock_kept own.refresh same⟩
  | admitted i seen stands free =>
    exact ⟨lock_kept own.state (by rw [stands]; rfl), lock_taken own.refresh free rfl⟩
  | released i outcome stands =>
    exact ⟨lock_kept own.state (by rw [stands]; rfl),
      lock_given own.refresh (by rw [stands]; rfl) rfl⟩
  | looked i _ stands | compared i _ stands | wrote i _ _ stands | started i _ stands
  | landed i _ _ stands =>
    exact ⟨lock_kept own.state (by rw [stands]; rfl), lock_kept own.refresh (by rw [stands]; rfl)⟩

theorem owned_run {schedule : List (Action ι)} (h : run? calls (start cache) schedule = some s) :
    Owned s :=
  run_preserves (fun _ _ _ => owned_step) h ⟨by simp [start, Stand.holdsState],
    by simp [start, Stand.holdsRefresh]⟩

theorem can_step_iff (calls : ι → Call) (s : State ι) (i : ι) :
    CanStep calls s i ↔ (s.stand i).isReturned = false ∧ ¬ Blocked s i := by
  constructor
  · rintro ⟨a, s', rfl, step⟩
    unfold Blocked
    cases step_cases step with
    | entered i next at_hand free =>
      obtain ⟨unqueued, away⟩ := not_queued_of_entered at_hand
      exact ⟨away, by simp [Action.caller, free, unqueued]⟩
    | exited i next done =>
      obtain ⟨has, -⟩ := exited_holds done
      obtain ⟨unqueued, away⟩ := not_queued_of_holds (.inl has)
      exact ⟨away, by simp [Action.caller, not_entered_of_holds has, unqueued]⟩
    | admitted i seen stands free =>
      simp [Action.caller, stands, free, Stand.entered?, Stand.isReturned]
    | looked i _ stands | compared i _ stands | wrote i _ _ stands | started i _ stands
    | landed i _ _ stands | released i _ stands =>
      simp [Action.caller, stands, Stand.entered?, Stand.isQueued, Stand.isReturned]
  · rintro ⟨away, unheld⟩
    simp only [Blocked, not_or, not_and, not_not] at unheld
    obtain ⟨state_free, refresh_free⟩ := unheld
    have enters {next : Stand} (at_hand : (s.stand i).entered? = some next) : CanStep calls s i :=
      ⟨.enter i, _, rfl, step_of (.entered i next at_hand (state_free (by rw [at_hand]; rfl)))⟩
    have exits {next : Stand} (done : (s.stand i).exited? = some next) : CanStep calls s i :=
      ⟨.exit i, _, rfl, step_of (.exited i next done)⟩
    cases stands : s.stand i with
    | arriving | admitted | landed => exact enters (by rw [stands]; rfl)
    | looked found => cases found <;> exact exits (by rw [stands]; rfl)
    | compared seen shared => cases shared <;> exact exits (by rw [stands]; rfl)
    | published => exact exits (by rw [stands]; rfl)
    | queued seen =>
      exact ⟨.acquire i, _, rfl,
        step_of (.admitted i seen stands (refresh_free (by rw [stands]; rfl)))⟩
    | looking => exact ⟨.look i 0, _, rfl, step_of (.looked i 0 stands)⟩
    | comparing seen => exact ⟨.compare i, _, rfl, step_of (.compared i seen stands)⟩
    | publishing seen outcome => exact ⟨.write i, _, rfl, step_of (.wrote i seen outcome stands)⟩
    | cleared seen => exact ⟨.start i, _, rfl, step_of (.started i seen stands)⟩
    | flying seen =>
      exact ⟨.land i (.error (.ofIncident .json)), _, rfl, step_of (.landed i seen _ stands)⟩
    | leaving outcome => exact ⟨.release i, _, rfl, step_of (.released i outcome stands)⟩
    | returned outcome =>
      rw [stands] at away
      cases away

/-- Whoever has the state lock can go on. If nobody has it, whoever has the refresh lock can; and if
nobody has that either, every call can that has not returned. -/
theorem some_can_step (calls : ι → Call) (own : Owned s) {i : ι} (away : (s.stand i).isReturned = false) :
    ∃ j, CanStep calls s j := by
  simp only [can_step_iff, Blocked, not_or, not_and, not_not]
  rcases state : s.stateLock with _ | j
  · rcases refresh : s.refreshLock with _ | j
    · exact ⟨i, away, fun _ => rfl, fun _ => rfl⟩
    · obtain ⟨unqueued, away⟩ := not_queued_of_holds (.inr ((own.refresh j).mpr refresh))
      exact ⟨j, away, fun _ => rfl, by simp [unqueued]⟩
  · have has := (own.state j).mpr state
    obtain ⟨unqueued, away⟩ := not_queued_of_holds (.inl has)
    exact ⟨j, away, by simp [not_entered_of_holds has], by simp [unqueued]⟩

theorem at_rest (own : Owned s) (still : ∀ i, ¬ CanStep calls s i) : AtRest s := by
  have returned (i : ι) : ∃ outcome, s.stand i = .returned outcome := by
    rcases away : (s.stand i).isReturned with _ | _
    · obtain ⟨j, can⟩ := some_can_step calls own away
      exact (still j can).elim
    · cases stands : s.stand i with
      | returned outcome => exact ⟨outcome, rfl⟩
      | _ => simp [stands, Stand.isReturned] at away
  refine ⟨returned, ?_, ?_⟩
  · rcases state : s.stateLock with _ | i
    · rfl
    · obtain ⟨outcome, stands⟩ := returned i
      simpa [stands, Stand.holdsState] using (own.state i).mpr state
  · rcases refresh : s.refreshLock with _ | i
    · rfl
    · obtain ⟨outcome, stands⟩ := returned i
      simpa [stands, Stand.holdsRefresh] using (own.refresh i).mpr refresh

theorem step_moves (h : Effect calls s a s') : ∃ next, next.rank < (s.stand a.caller).rank ∧
    s'.stand = Function.update s.stand a.caller next := by
  cases h with
  | entered i next at_hand => exact ⟨next, entered_rank at_hand, rfl⟩
  | exited i next done => exact ⟨next, exited_rank done, rfl⟩
  | looked i _ stands | compared i _ stands | wrote i _ _ stands | admitted i _ stands
  | started i _ stands | landed i _ _ stands | released i _ stands =>
    exact ⟨_, by simp [Action.caller, stands, Stand.rank], rfl⟩

theorem rank_le (h : Effect calls s a s') (i : ι) : (s'.stand i).rank ≤ (s.stand i).rank := by
  obtain ⟨next, less, moved⟩ := step_moves h
  rw [moved, Function.update_apply]
  split
  · rename_i here
    exact here ▸ less.le
  · exact Nat.le_refl _

theorem flights_once {schedule : List (Action ι)} (h : run? calls s schedule = some t) :
    (flights schedule).Nodup ∧ ∀ i ∈ flights schedule, 6 ≤ (s.stand i).rank := by
  induction schedule generalizing s with
  | nil => exact ⟨.nil, nofun⟩
  | cons a rest ih =>
    obtain ⟨s', effect, run⟩ := run_cons h
    obtain ⟨once, early⟩ := ih run
    have kept : ∀ i ∈ flights rest, 6 ≤ (s.stand i).rank :=
      fun i flown => (early i flown).trans (rank_le effect i)
    cases effect with
    | started i seen stands =>
      have fresh : i ∉ flights rest := by
        intro flown
        have := early i flown
        simp [Stand.rank] at this
      exact ⟨List.nodup_cons.mpr ⟨fresh, once⟩,
        List.forall_mem_cons.mpr ⟨by simp [stands, Stand.rank], kept⟩⟩
    | _ => exact ⟨once, kept⟩

section Finite

variable [Fintype ι]

def remaining (s : State ι) : ℕ := ∑ i, (s.stand i).rank

theorem remaining_step (h : Effect calls s a s') : remaining s' < remaining s := by
  obtain ⟨next, less, moved⟩ := step_moves h
  refine Finset.sum_lt_sum (fun i _ => rank_le h i) ⟨a.caller, Finset.mem_univ _, ?_⟩
  rw [moved, Function.update_self]
  exact less

theorem remaining_run {schedule : List (Action ι)} (h : run? calls s schedule = some t) :
    schedule.length + remaining t ≤ remaining s := by
  induction schedule generalizing s with
  | nil =>
    cases h
    simp
  | cons a rest ih =>
    obtain ⟨s', effect, run⟩ := run_cons h
    have less := remaining_step effect
    have later := ih run
    rw [List.length_cons]
    omega

omit [DecidableEq ι] in
theorem remaining_start (cache : Cache) : remaining (start cache : State ι) = 13 * Fintype.card ι := by
  simp [remaining, start, Stand.rank, mul_comm]

/-- Any schedule can be carried on until all calls have returned. -/
theorem run_completes (own : Owned s) : ∃ rest t, run? calls s rest = some t ∧ AtRest t := by
  induction left : remaining s using Nat.strong_induction_on generalizing s with
  | _ n ih =>
    by_cases still : ∀ i, ¬ CanStep calls s i
    · exact ⟨[], s, rfl, at_rest own still⟩
    · obtain ⟨i, a, s', -, step⟩ := not_forall_not.mp still
      have effect := step_cases step
      obtain ⟨rest, t, run, rested⟩ :=
        ih _ (left ▸ remaining_step effect) (owned_step effect own) rfl
      exact ⟨a :: rest, t, run_of_cons step run, rested⟩

end Finite

/-- The call has only to give the state lock back, if it has not done that. -/
def Served (token : Token) (i : ι) (s : State ι) : Prop :=
  s.stand i = .looked (.valid token) ∨ s.stand i = .returned (.ok token)

theorem served_step {token : Token} {i : ι} (h : Effect calls s a s') (served : Served token i s) :
    Served token i s' := by
  by_cases own : i = a.caller
  · subst own
    cases h with
    | exited i next done =>
      rcases served with stands | stands <;> rw [Action.caller] at stands <;> rw [stands] at done <;>
        cases done
      exact .inr (by simp [Action.caller])
    | entered i next at_hand =>
      rcases served with stands | stands <;> rw [Action.caller] at stands <;> rw [stands] at at_hand <;>
        cases at_hand
    | looked i _ other | compared i _ other | wrote i _ _ other | admitted i _ other
    | started i _ other | landed i _ _ other | released i _ other =>
      rcases served with stands | stands <;> cases other.symm.trans stands
  · obtain ⟨next, -, moved⟩ := step_moves h
    unfold Served
    rw [moved, Function.update_of_ne own]
    exact served

/-- Nothing that other calls do can keep it from returning the token. -/
theorem served_returns {token : Token} {i : ι} (own : Owned s) (served : Served token i s) :
    s.refreshLock ≠ some i ∧ (s.stand i = .returned (.ok token) ∨
      ∃ t, step? calls s (.exit i) = some t ∧ t.stand i = .returned (.ok token)) := by
  constructor
  · intro has
    rcases served with stands | stands <;>
      simpa [stands, Stand.holdsRefresh] using (own.refresh i).mpr has
  · rcases served with stands | stands
    · exact .inr ⟨_, step_of (.exited i _ (by rw [stands]; rfl)), by simp⟩
    · exact .inl stands

/-- From the moment that it gets the state lock a call takes two steps to return a valid token,
whoever has the refresh lock. -/
theorem read_through {token : Token} {i : ι} {ticks : Calendar.Nanoseconds}
    (arrives : s.stand i = .arriving) (free : s.stateLock = none)
    (valid : reading s.cache ticks (calls i) = .valid token) :
    ∃ t, run? calls s [.enter i, .look i ticks, .exit i] = some t ∧
      t.stand i = .returned (.ok token) ∧ t.cache = s.cache ∧ t.refreshLock = s.refreshLock := by
  let inside : State ι := { s.move i .looking with stateLock := some i }
  have enter : step? calls s (.enter i) = some inside :=
    step_of (.entered i .looking (by rw [arrives]; rfl) free)
  have look : step? calls inside (.look i ticks) = some (inside.move i (.looked (.valid token))) :=
    valid ▸ step_of (.looked i ticks (by simp [inside]))
  have exit : step? calls (inside.move i (.looked (.valid token))) (.exit i) = some _ :=
    step_of (.exited i (.returned (.ok token)) (by simp [Stand.exited?]))
  exact ⟨_, run_of_cons enter (run_of_cons look (run_of_cons exit rfl)), by simp, rfl, rfl⟩

/-- However the steps of the calls are put in order, some call can always go on, and in particular
any that waits for a lock that is free. A schedule has thirteen steps for each call at most and goes
to the provider once for each at most; it can be carried on to where all calls have returned and both
locks are free, and it ends nowhere else. A call that finds a valid token at its look returns it, also
while another call has the refresh lock: it never has that lock itself, and from its look on nothing
can keep it from returning. -/
theorem calls_come_to_rest [Fintype ι] (calls : ι → Call) (cache : Cache)
    (schedule : List (Action ι)) (s : State ι)
    (h : run? calls (start cache) schedule = some s) :
    ((∃ i, (s.stand i).isReturned = false) → ∃ i, CanStep calls s i) ∧
    (∀ i, CanStep calls s i ↔ (s.stand i).isReturned = false ∧ ¬ Blocked s i) ∧
    schedule.length ≤ 13 * Fintype.card ι ∧
    (flights schedule).Nodup ∧
    ((∀ i, ¬ CanStep calls s i) → AtRest s) ∧
    (∃ rest t, run? calls s rest = some t ∧ AtRest t) ∧
    ∀ i ticks token, calls i = .headers → s.cache.token = some token →
      token.isExpired ticks = false →
      (s.stand i = .arriving → s.stateLock = none →
        ∃ t, run? calls s [.enter i, .look i ticks, .exit i] = some t ∧
          t.stand i = .returned (.ok token) ∧ t.cache = s.cache ∧ t.refreshLock = s.refreshLock) ∧
      (s.stand i = .looking → ∃ t, step? calls s (.look i ticks) = some t ∧
        ∀ rest u, run? calls t rest = some u → u.refreshLock ≠ some i ∧
          (u.stand i = .returned (.ok token) ∨
            ∃ v, step? calls u (.exit i) = some v ∧ v.stand i = .returned (.ok token))) := by
  have own := owned_run h
  refine ⟨fun ⟨i, away⟩ => some_can_step calls own away, can_step_iff calls s, ?_, (flights_once h).1,
    at_rest own, run_completes own, ?_⟩
  · have bound := remaining_run h
    rw [remaining_start] at bound
    omega
  · intro i ticks token reads held lasts
    have valid : reading s.cache ticks (calls i) = .valid token := reading_valid.mpr ⟨reads, held, lasts⟩
    refine ⟨fun arrives free => read_through arrives free valid, fun stands => ?_⟩
    have effect : Effect calls s (.look i ticks) (s.move i (.looked (.valid token))) :=
      valid ▸ .looked i ticks stands
    refine ⟨_, step_of effect, fun rest u run => ?_⟩
    have served : Served token i u :=
      run_preserves (fun _ _ _ => served_step) run (.inl (by simp))
    exact served_returns (run_preserves (fun _ _ _ => owned_step) run (owned_step effect own)) served

/-- Call 0 is at the provider when call 1 has just got the state lock. -/
def overtaken : List (Action (Fin 2)) :=
  [.enter 0, .look 0 0, .exit 0, .acquire 0, .enter 0, .compare 0, .exit 0, .start 0, .enter 1]

def mixed (i : Fin 2) : Call := if i = 0 then .refresh else .headers

theorem calls_come_to_rest_overtaken : ∃ s t,
    run? mixed (start (Cache.empty.publish (.ok sampleToken))) overtaken = some s ∧
    s.stand 0 = .flying 1 ∧ s.refreshLock = some 0 ∧ overtaken.length ≤ 13 * 2 ∧
    step? mixed s (.look 1 5) = some t ∧ (t.refreshLock ≠ some 1 ∧
      (t.stand 1 = .returned (.ok sampleToken) ∨
        ∃ v, step? mixed t (.exit 1) = some v ∧ v.stand 1 = .returned (.ok sampleToken))) := by
  obtain ⟨s, run, flies, locked, stands, same⟩ : ∃ s,
      run? mixed (start (Cache.empty.publish (.ok sampleToken))) overtaken = some s ∧
      s.stand 0 = .flying 1 ∧ s.refreshLock = some 0 ∧ s.stand 1 = .looking ∧
      s.cache.token = some sampleToken := ⟨_, rfl, rfl, rfl, rfl, rfl⟩
  obtain ⟨-, -, short, -, -, -, readers⟩ := calls_come_to_rest mixed _ overtaken s run
  obtain ⟨t, look, served⟩ := (readers 1 5 sampleToken rfl same rfl).2 stands
  exact ⟨s, t, run, flies, locked, short, look, served [] t rfl⟩

end WorkloadIdentity.Locks
