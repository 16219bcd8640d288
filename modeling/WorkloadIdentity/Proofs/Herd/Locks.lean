import WorkloadIdentity.Proofs.Herd.Machine

/-!
# Calls under two locks

The steps of a call one by one. The cache is behind a lock of its own, which is taken for each access
and given back after it, also by a call that has the refresh lock. Other calls may take any of their
steps in between. A lock that is free goes to any call that waits for it. The provider gives any
outcome, and a look may find any reading of the clock.

Seen through `Stand.phase`, every schedule is one of the machine that has each access to the cache in
a single step.
-/

set_option autoImplicit false

namespace WorkloadIdentity.Locks

open Herd (reading Phase)

variable {ι : Type}

/-- Where a call stands. `seen` is the generation that it found at its look. -/
inductive Stand
  | arriving
  | looking
  | looked (found : Reading)
  | queued (seen : ℕ)
  | admitted (seen : ℕ)
  | comparing (seen : ℕ)
  | compared (seen : ℕ) (shared : Option Outcome)
  | cleared (seen : ℕ)
  | flying (seen : ℕ)
  | landed (seen : ℕ) (outcome : Outcome)
  | publishing (seen : ℕ) (outcome : Outcome)
  | published (outcome : Outcome)
  | leaving (outcome : Outcome)
  | returned (outcome : Outcome)

namespace Stand

def holdsState : Stand → Bool
  | .looking | .looked _ | .comparing _ | .compared _ _ | .publishing _ _ | .published _ => true
  | _ => false

def holdsRefresh : Stand → Bool
  | .admitted _ | .comparing _ | .compared _ _ | .cleared _ | .flying _ | .landed _ _
  | .publishing _ _ | .published _ | .leaving _ => true
  | _ => false

def entered? : Stand → Option Stand
  | .arriving => some .looking
  | .admitted seen => some (.comparing seen)
  | .landed seen outcome => some (.publishing seen outcome)
  | _ => none

def exited? : Stand → Option Stand
  | .looked (.valid token) => some (.returned (.ok token))
  | .looked (.stale seen) => some (.queued seen)
  | .compared _ (some outcome) => some (.leaving outcome)
  | .compared seen none => some (.cleared seen)
  | .published outcome => some (.leaving outcome)
  | _ => none

def isQueued : Stand → Bool
  | .queued _ => true
  | _ => false

def isReturned : Stand → Bool
  | .returned _ => true
  | _ => false

/-- How many steps a call has left at most. -/
def rank : Stand → ℕ
  | .arriving => 13
  | .looking => 12
  | .looked _ => 11
  | .queued _ => 10
  | .admitted _ => 9
  | .comparing _ => 8
  | .compared _ _ => 7
  | .cleared _ => 6
  | .flying _ => 5
  | .landed _ _ => 4
  | .publishing _ _ => 3
  | .published _ => 2
  | .leaving _ => 1
  | .returned _ => 0

/-- An access to the cache takes effect in the step that makes it, whenever its lock is given back. -/
def phase : Stand → Phase
  | .arriving | .looking => .idle
  | .looked (.valid token) => .returned (.ok token)
  | .looked (.stale seen) | .queued seen => .queued seen
  | .admitted seen | .comparing seen => .locked seen
  | .compared _ (some outcome) => .leaving outcome
  | .compared seen none | .cleared seen => .cleared seen
  | .flying seen | .landed seen _ | .publishing seen _ => .flying seen
  | .published outcome | .leaving outcome => .leaving outcome
  | .returned outcome => .returned outcome

end Stand

structure State (ι : Type) where
  cache : Cache
  stateLock : Option ι
  refreshLock : Option ι
  stand : ι → Stand

inductive Action (ι : Type)
  | enter (i : ι)
  | look (i : ι) (ticks : Calendar.Nanoseconds)
  | compare (i : ι)
  | write (i : ι)
  | exit (i : ι)
  | acquire (i : ι)
  | start (i : ι)
  | land (i : ι) (outcome : Outcome)
  | release (i : ι)

def Action.caller : Action ι → ι
  | .enter i | .look i _ | .compare i | .write i | .exit i | .acquire i | .start i | .land i _
  | .release i => i

def start (cache : Cache) : State ι := ⟨cache, none, none, fun _ => .arriving⟩

variable [DecidableEq ι]

def State.move (s : State ι) (i : ι) (stand : Stand) : State ι :=
  { s with stand := Function.update s.stand i stand }

@[simp] theorem move_stand (s : State ι) (i j : ι) (stand : Stand) :
    (s.move i stand).stand j = if j = i then stand else s.stand j :=
  Function.update_apply s.stand i stand j

def step? (calls : ι → Call) (s : State ι) : Action ι → Option (State ι)
  | .enter i =>
    match (s.stand i).entered?, s.stateLock with
    | some next, none => some { s.move i next with stateLock := some i }
    | _, _ => none
  | .look i ticks =>
    match s.stand i with
    | .looking => some (s.move i (.looked (reading s.cache ticks (calls i))))
    | _ => none
  | .compare i =>
    match s.stand i with
    | .comparing seen => some (s.move i (.compared seen (s.cache.shared? seen)))
    | _ => none
  | .write i =>
    match s.stand i with
    | .publishing _ outcome =>
      some { s.move i (.published outcome) with cache := s.cache.publish outcome }
    | _ => none
  | .exit i =>
    match (s.stand i).exited? with
    | some next => some { s.move i next with stateLock := none }
    | none => none
  | .acquire i =>
    match s.stand i, s.refreshLock with
    | .queued seen, none => some { s.move i (.admitted seen) with refreshLock := some i }
    | _, _ => none
  | .start i =>
    match s.stand i with
    | .cleared seen => some (s.move i (.flying seen))
    | _ => none
  | .land i outcome =>
    match s.stand i with
    | .flying seen => some (s.move i (.landed seen outcome))
    | _ => none
  | .release i =>
    match s.stand i with
    | .leaving outcome => some { s.move i (.returned outcome) with refreshLock := none }
    | _ => none

def run? (calls : ι → Call) (s : State ι) : List (Action ι) → Option (State ι)
  | [] => some s
  | a :: rest => (step? calls s a).bind (run? calls · rest)

inductive Effect (calls : ι → Call) (s : State ι) : Action ι → State ι → Prop
  | entered (i : ι) (next : Stand) (at_hand : (s.stand i).entered? = some next)
      (free : s.stateLock = none) :
      Effect calls s (.enter i) { s.move i next with stateLock := some i }
  | looked (i : ι) (ticks : Calendar.Nanoseconds) (stands : s.stand i = .looking) :
      Effect calls s (.look i ticks) (s.move i (.looked (reading s.cache ticks (calls i))))
  | compared (i : ι) (seen : ℕ) (stands : s.stand i = .comparing seen) :
      Effect calls s (.compare i) (s.move i (.compared seen (s.cache.shared? seen)))
  | wrote (i : ι) (seen : ℕ) (outcome : Outcome) (stands : s.stand i = .publishing seen outcome) :
      Effect calls s (.write i)
        { s.move i (.published outcome) with cache := s.cache.publish outcome }
  | exited (i : ι) (next : Stand) (done : (s.stand i).exited? = some next) :
      Effect calls s (.exit i) { s.move i next with stateLock := none }
  | admitted (i : ι) (seen : ℕ) (stands : s.stand i = .queued seen) (free : s.refreshLock = none) :
      Effect calls s (.acquire i) { s.move i (.admitted seen) with refreshLock := some i }
  | started (i : ι) (seen : ℕ) (stands : s.stand i = .cleared seen) :
      Effect calls s (.start i) (s.move i (.flying seen))
  | landed (i : ι) (seen : ℕ) (outcome : Outcome) (stands : s.stand i = .flying seen) :
      Effect calls s (.land i outcome) (s.move i (.landed seen outcome))
  | released (i : ι) (outcome : Outcome) (stands : s.stand i = .leaving outcome) :
      Effect calls s (.release i) { s.move i (.returned outcome) with refreshLock := none }

variable {calls : ι → Call} {s s' t : State ι} {a : Action ι}

theorem step_cases (h : step? calls s a = some s') : Effect calls s a s' := by
  cases a with
  | enter i =>
    simp only [step?] at h
    split at h
    · rename_i next at_hand free
      cases h
      exact .entered i next at_hand free
    · cases h
  | look i ticks =>
    simp only [step?] at h
    split at h
    · rename_i stands
      cases h
      exact .looked i ticks stands
    · cases h
  | compare i =>
    simp only [step?] at h
    split at h
    · rename_i seen stands
      cases h
      exact .compared i seen stands
    · cases h
  | write i =>
    simp only [step?] at h
    split at h
    · rename_i seen outcome stands
      cases h
      exact .wrote i seen outcome stands
    · cases h
  | exit i =>
    simp only [step?] at h
    split at h
    · rename_i next done
      cases h
      exact .exited i next done
    · cases h
  | acquire i =>
    simp only [step?] at h
    split at h
    · rename_i seen stands free
      cases h
      exact .admitted i seen stands free
    · cases h
  | start i =>
    simp only [step?] at h
    split at h
    · rename_i seen stands
      cases h
      exact .started i seen stands
    · cases h
  | land i outcome =>
    simp only [step?] at h
    split at h
    · rename_i seen stands
      cases h
      exact .landed i seen outcome stands
    · cases h
  | release i =>
    simp only [step?] at h
    split at h
    · rename_i outcome stands
      cases h
      exact .released i outcome stands
    · cases h

theorem step_of (h : Effect calls s a s') : step? calls s a = some s' := by
  cases h with
  | entered i next at_hand free => simp only [step?, at_hand, free]
  | exited i next done => simp only [step?, done]
  | admitted i seen stands free => simp only [step?, stands, free]
  | looked i _ stands | compared i _ stands | wrote i _ _ stands | started i _ stands
  | landed i _ _ stands | released i _ stands => simp only [step?, stands]

theorem run_cons {rest : List (Action ι)} (h : run? calls s (a :: rest) = some t) :
    ∃ s', Effect calls s a s' ∧ run? calls s' rest = some t := by
  obtain ⟨s', step, run⟩ := Option.bind_eq_some_iff.mp h
  exact ⟨s', step_cases step, run⟩

theorem run_of_cons {rest : List (Action ι)} (step : step? calls s a = some s')
    (run : run? calls s' rest = some t) : run? calls s (a :: rest) = some t := by
  rw [run?, step, Option.bind_some, run]

/-- What every step preserves holds wherever a schedule leads. -/
theorem run_preserves {P : State ι → Prop} (kept : ∀ s a s', Effect calls s a s' → P s → P s')
    {schedule : List (Action ι)} (h : run? calls s schedule = some t) (holds : P s) : P t := by
  induction schedule generalizing s with
  | nil =>
    cases h
    exact holds
  | cons a rest ih =>
    obtain ⟨s', effect, run⟩ := run_cons h
    exact ih run (kept s a s' effect holds)

/-- The same calls where each access to the cache is a single step. -/
structure Alike (s : State ι) (u : Herd.State ι) : Prop where
  cache : u.cache = s.cache
  lock : u.lock = s.refreshLock
  phase : ∀ i, u.phase i = (s.stand i).phase

omit [DecidableEq ι] in
theorem entered_phase {p q : Stand} (h : p.entered? = some q) : q.phase = p.phase := by
  cases p <;> cases h <;> rfl

omit [DecidableEq ι] in
theorem exited_phase {p q : Stand} (h : p.exited? = some q) : q.phase = p.phase := by
  rcases p with _ | _ | (_ | _) | _ | _ | _ | ⟨_, _ | _⟩ | _ | _ | _ | _ | _ | _ | _ <;> cases h <;> rfl

theorem phase_moved {u : Herd.State ι} (phase : ∀ j, u.phase j = (s.stand j).phase) (i : ι)
    (next : Stand) (j : ι) :
    Function.update u.phase i next.phase j = (Function.update s.stand i next j).phase := by
  rw [Function.update_apply, Function.update_apply]
  split
  · rfl
  · exact phase j

theorem phase_kept {u : Herd.State ι} (phase : ∀ j, u.phase j = (s.stand j).phase) {i : ι}
    {next : Stand} (same : next.phase = (s.stand i).phase) (j : ι) :
    u.phase j = ((s.move i next).stand j).phase := by
  rw [move_stand, phase j]
  split
  · rename_i here
    rw [here, same]
  · rfl

theorem run_one {u u' : Herd.State ι} {a : Herd.Action ι} (step : Herd.step? calls u a = some u') :
    Herd.run? calls u [a] = some u' := by
  rw [Herd.run?, step]
  rfl

theorem run_append (u : Herd.State ι) (first later : List (Herd.Action ι)) :
    Herd.run? calls u (first ++ later) = (Herd.run? calls u first).bind (Herd.run? calls · later) := by
  induction first generalizing u with
  | nil => rfl
  | cons a first ih =>
    rw [List.cons_append, Herd.run?, Herd.run?, Option.bind_assoc]
    exact Option.bind_congr fun v _ => ih v

theorem look_idle (calls : ι → Call) (u : Herd.State ι) {i : ι} (idle : u.phase i = .idle) : ∃ marks,
    Herd.step? calls u (.look i) =
      some (u.move i (Stand.looked (reading u.cache u.world.ticks (calls i))).phase marks) := by
  refine ⟨[.looked i u.cache u.world.ticks], ?_⟩
  rcases found : reading u.cache u.world.ticks (calls i) with token | seen <;>
    simp only [Herd.step?, idle, found, Stand.phase]

theorem step_alike (h : Effect calls s a s') {u : Herd.State ι} (alike : Alike s u) :
    ∃ schedule u', Herd.run? calls u schedule = some u' ∧ Alike s' u' := by
  obtain ⟨cache, lock, phase⟩ := alike
  cases h with
  | entered i next at_hand free =>
    exact ⟨[], u, rfl, cache, lock, phase_kept phase (entered_phase at_hand)⟩
  | exited i next done =>
    exact ⟨[], u, rfl, cache, lock, phase_kept phase (exited_phase done)⟩
  | landed i seen outcome stands =>
    exact ⟨[], u, rfl, cache, lock, phase_kept phase (by rw [stands]; rfl)⟩
  | looked i ticks stands =>
    have idle : u.phase i = .idle := by rw [phase, stands]; rfl
    -- first the clock is set to what the look finds
    let v : Herd.State ι := { u with world := { u.world with ticks := ticks } }
    obtain ⟨marks, step⟩ := look_idle calls v idle
    have run : Herd.run? calls u [.drift v.world, .look i] = (Herd.step? calls v (.look i)).bind some :=
      rfl
    have found : reading v.cache v.world.ticks (calls i) = reading s.cache ticks (calls i) := by
      rw [show v.cache = s.cache from cache]
    rw [step, found] at run
    exact ⟨_, _, run, cache, lock, phase_moved phase i _⟩
  | compared i seen stands =>
    have locked : u.phase i = .locked seen := by rw [phase, stands]; rfl
    have step : Herd.step? calls u (.compare i) =
        some (u.move i (Stand.compared seen (s.cache.shared? seen)).phase []) := by
      rcases shared : s.cache.shared? seen with _ | outcome <;>
        simp only [Herd.step?, locked, cache, shared, Stand.phase]
    exact ⟨[.compare i], _, run_one step, cache, lock, phase_moved phase i _⟩
  | wrote i seen outcome stands =>
    have flying : u.phase i = .flying seen := by rw [phase, stands]; rfl
    have step : Herd.step? calls u (.publish i outcome u.world) =
        some { u.move i (.leaving outcome) [.published i outcome] with
          cache := s.cache.publish outcome } := by
      simp only [Herd.step?, flying, cache]
      rfl
    exact ⟨[.publish i outcome u.world], _, run_one step, rfl, lock, phase_moved phase i (.published outcome)⟩
  | admitted i seen stands free =>
    have queued : u.phase i = .queued seen := by rw [phase, stands]; rfl
    have step : Herd.step? calls u (.lock i) =
        some { u.move i (.locked seen) [] with lock := some i } := by
      simp only [Herd.step?, queued, lock, free]
    exact ⟨[.lock i], _, run_one step, cache, rfl, phase_moved phase i (.admitted seen)⟩
  | started i seen stands =>
    have cleared : u.phase i = .cleared seen := by rw [phase, stands]; rfl
    have step : Herd.step? calls u (.start i) = some (u.move i (.flying seen) [.started i]) := by
      simp only [Herd.step?, cleared]
    exact ⟨[.start i], _, run_one step, cache, lock, phase_moved phase i (.flying seen)⟩
  | released i outcome stands =>
    have leaving : u.phase i = .leaving outcome := by rw [phase, stands]; rfl
    have step : Herd.step? calls u (.release i) =
        some { u.move i (.returned outcome) [] with lock := none } := by
      simp only [Herd.step?, leaving]
    exact ⟨[.release i], _, run_one step, cache, rfl, phase_moved phase i (.returned outcome)⟩

theorem run_alike {schedule : List (Action ι)} (h : run? calls s schedule = some t)
    {u : Herd.State ι} (alike : Alike s u) :
    ∃ coarse u', Herd.run? calls u coarse = some u' ∧ Alike t u' := by
  induction schedule generalizing s u with
  | nil =>
    cases h
    exact ⟨[], u, rfl, alike⟩
  | cons a rest ih =>
    obtain ⟨s', effect, run⟩ := run_cons h
    obtain ⟨first, v, begun, alike⟩ := step_alike effect alike
    obtain ⟨later, u', ended, alike⟩ := ih run alike
    exact ⟨first ++ later, u', by rw [run_append, begun, Option.bind_some, ended], alike⟩

/-- Whatever calls do under two locks, they do it with accesses in one step as well: the cache is the
same in the end, and so is what the calls return. -/
theorem schedule_coarsens {cache : Cache} {schedule : List (Action ι)}
    (h : run? calls (start cache) schedule = some s) (world : World) :
    ∃ coarse u, Herd.run? calls (Herd.start cache world) coarse = some u ∧ Alike s u :=
  run_alike h ⟨rfl, rfl, fun _ => rfl⟩

end WorkloadIdentity.Locks
