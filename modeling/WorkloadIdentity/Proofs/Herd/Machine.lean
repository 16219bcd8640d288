import WorkloadIdentity.Credentials.Basic
import Mathlib.Logic.Function.Basic
import Mathlib.Data.List.Basic

/-!
# Calls that meet at one cache

Any number of calls share a cache and take their steps in any order. A call looks at the
cache, and unless it finds a valid token there it takes the refresh lock, compares the
generation with the one it saw, and retrieves a token only if no retrieval has ended in
between. The outcome of a retrieval is arbitrary, and so is what the world does meanwhile.
A call may be given up wherever it waits. The log records looks, retrievals that were
started, published and lost; it never influences a step.
-/

set_option autoImplicit false

namespace WorkloadIdentity.Herd

variable {ι : Type}

/-- Where a call stands. `seen` is the generation that it found at its look. -/
inductive Phase
  | idle
  | queued (seen : ℕ)
  | locked (seen : ℕ)
  | cleared (seen : ℕ)
  | flying (seen : ℕ)
  | leaving (outcome : Outcome)
  | returned (outcome : Outcome)
  | dropped

def Phase.holds : Phase → Bool
  | .locked _ | .cleared _ | .flying _ | .leaving _ => true
  | _ => false

/-- The call waits for something, and whoever made it may give it up. -/
def Phase.waits : Phase → Bool
  | .idle | .queued _ | .locked _ | .flying _ => true
  | _ => false

def Phase.seen? : Phase → Option ℕ
  | .queued seen | .locked seen | .cleared seen | .flying seen => some seen
  | _ => none

inductive Mark (ι : Type)
  | looked (i : ι) (found : Cache) (ticks : Calendar.Nanoseconds)
  | started (i : ι)
  | published (i : ι) (outcome : Outcome)
  | dropped (i : ι)

structure State (ι : Type) where
  cache : Cache
  world : World
  lock : Option ι
  phase : ι → Phase
  log : List (Mark ι)

/-- A retrieval leaves some outcome and some world, or panics; and the world, its clocks
among it, may change at any time. -/
inductive Action (ι : Type)
  | look (i : ι)
  | lock (i : ι)
  | compare (i : ι)
  | start (i : ι)
  | publish (i : ι) (outcome : Outcome) (world : World)
  | release (i : ι)
  | panic (i : ι)
  | cancel (i : ι)
  | drift (world : World)

def reading (cache : Cache) (ticks : Calendar.Nanoseconds) : Call → Reading
  | .refresh => .stale cache.generation
  | .headers => cache.read ticks

theorem look_eq (c : Credentials) (call : Call) :
    c.look call = reading c.cache c.world.ticks call := by
  cases call <;> rfl

def start (cache : Cache) (world : World) : State ι := ⟨cache, world, none, fun _ => .idle, []⟩

variable [DecidableEq ι]

def State.move (s : State ι) (i : ι) (p : Phase) (marks : List (Mark ι)) : State ι :=
  { s with phase := Function.update s.phase i p, log := s.log ++ marks }

def step? (calls : ι → Call) (s : State ι) : Action ι → Option (State ι)
  | .look i =>
    match s.phase i with
    | .idle =>
      match reading s.cache s.world.ticks (calls i) with
      | .valid token =>
        some (s.move i (.returned (.ok token)) [.looked i s.cache s.world.ticks])
      | .stale seen => some (s.move i (.queued seen) [.looked i s.cache s.world.ticks])
    | _ => none
  | .lock i =>
    match s.phase i, s.lock with
    | .queued seen, none => some { s.move i (.locked seen) [] with lock := some i }
    | _, _ => none
  | .compare i =>
    match s.phase i with
    | .locked seen =>
      match s.cache.shared? seen with
      | some outcome => some (s.move i (.leaving outcome) [])
      | none => some (s.move i (.cleared seen) [])
    | _ => none
  | .start i =>
    match s.phase i with
    | .cleared seen => some (s.move i (.flying seen) [.started i])
    | _ => none
  | .publish i outcome world =>
    match s.phase i with
    | .flying _ =>
      some { s.move i (.leaving outcome) [.published i outcome] with
        cache := s.cache.publish outcome, world := world }
    | _ => none
  | .release i =>
    match s.phase i with
    | .leaving outcome => some { s.move i (.returned outcome) [] with lock := none }
    | _ => none
  | .panic i =>
    match s.phase i with
    | .flying _ => some { s.move i .dropped [.dropped i] with lock := none }
    | _ => none
  | .cancel i =>
    if (s.phase i).waits then
      some { s.move i .dropped [.dropped i] with
        lock := if (s.phase i).holds then none else s.lock }
    else none
  | .drift world => some { s with world := world }

/-- Runs a schedule; there is no result if one of its steps is not possible. -/
def run? (calls : ι → Call) (s : State ι) : List (Action ι) → Option (State ι)
  | [] => some s
  | a :: rest => (step? calls s a).bind (run? calls · rest)

/-- Each way in which a step succeeds, with what it needs and what it leaves. -/
inductive Effect (calls : ι → Call) (s : State ι) : Action ι → State ι → Prop
  | found (i : ι) (token : Token) (hp : s.phase i = .idle)
      (hr : reading s.cache s.world.ticks (calls i) = .valid token) :
      Effect calls s (.look i)
        (s.move i (.returned (.ok token)) [.looked i s.cache s.world.ticks])
  | missed (i : ι) (seen : ℕ) (hp : s.phase i = .idle)
      (hr : reading s.cache s.world.ticks (calls i) = .stale seen) :
      Effect calls s (.look i) (s.move i (.queued seen) [.looked i s.cache s.world.ticks])
  | locked (i : ι) (seen : ℕ) (hp : s.phase i = .queued seen) (hl : s.lock = none) :
      Effect calls s (.lock i) { s.move i (.locked seen) [] with lock := some i }
  | shared (i : ι) (seen : ℕ) (outcome : Outcome) (hp : s.phase i = .locked seen)
      (hs : s.cache.shared? seen = some outcome) :
      Effect calls s (.compare i) (s.move i (.leaving outcome) [])
  | cleared (i : ι) (seen : ℕ) (hp : s.phase i = .locked seen)
      (hs : s.cache.shared? seen = none) :
      Effect calls s (.compare i) (s.move i (.cleared seen) [])
  | started (i : ι) (seen : ℕ) (hp : s.phase i = .cleared seen) :
      Effect calls s (.start i) (s.move i (.flying seen) [.started i])
  | published (i : ι) (seen : ℕ) (outcome : Outcome) (world : World)
      (hp : s.phase i = .flying seen) :
      Effect calls s (.publish i outcome world)
        { s.move i (.leaving outcome) [.published i outcome] with
          cache := s.cache.publish outcome, world := world }
  | released (i : ι) (outcome : Outcome) (hp : s.phase i = .leaving outcome) :
      Effect calls s (.release i) { s.move i (.returned outcome) [] with lock := none }
  | panicked (i : ι) (seen : ℕ) (hp : s.phase i = .flying seen) :
      Effect calls s (.panic i) { s.move i .dropped [.dropped i] with lock := none }
  | cancelled (i : ι) (hp : (s.phase i).waits = true) :
      Effect calls s (.cancel i)
        { s.move i .dropped [.dropped i] with
          lock := if (s.phase i).holds then none else s.lock }
  | drifted (world : World) : Effect calls s (.drift world) { s with world := world }

theorem step_cases {calls : ι → Call} {s s' : State ι} {a : Action ι}
    (h : step? calls s a = some s') : Effect calls s a s' := by
  cases a with
  | look i =>
    simp only [step?] at h
    split at h
    · rename_i hp
      split at h
      · rename_i token hr
        cases h
        exact .found i token hp hr
      · rename_i seen hr
        cases h
        exact .missed i seen hp hr
    · cases h
  | lock i =>
    simp only [step?] at h
    split at h
    · rename_i seen hp hl
      cases h
      exact .locked i seen hp hl
    · cases h
  | compare i =>
    simp only [step?] at h
    split at h
    · rename_i seen hp
      split at h
      · rename_i outcome hs
        cases h
        exact .shared i seen outcome hp hs
      · rename_i hs
        cases h
        exact .cleared i seen hp hs
    · cases h
  | start i =>
    simp only [step?] at h
    split at h
    · rename_i seen hp
      cases h
      exact .started i seen hp
    · cases h
  | publish i outcome world =>
    simp only [step?] at h
    split at h
    · rename_i seen hp
      cases h
      exact .published i seen outcome world hp
    · cases h
  | release i =>
    simp only [step?] at h
    split at h
    · rename_i outcome hp
      cases h
      exact .released i outcome hp
    · cases h
  | panic i =>
    simp only [step?] at h
    split at h
    · rename_i seen hp
      cases h
      exact .panicked i seen hp
    · cases h
  | cancel i =>
    simp only [step?] at h
    split at h
    · rename_i hp
      cases h
      exact .cancelled i hp
    · cases h
  | drift world =>
    cases h
    exact .drifted world

theorem run_cons {calls : ι → Call} {s t : State ι} {a : Action ι} {rest : List (Action ι)}
    (h : run? calls s (a :: rest) = some t) :
    ∃ s', Effect calls s a s' ∧ run? calls s' rest = some t := by
  obtain ⟨s', hs, ht⟩ := Option.bind_eq_some_iff.mp h
  exact ⟨s', step_cases hs, ht⟩

theorem run_preserves {calls : ι → Call} {P : State ι → Prop}
    (hstep : ∀ s a s', Effect calls s a s' → P s → P s') {schedule : List (Action ι)}
    {s t : State ι} (h : run? calls s schedule = some t) (hs : P s) : P t := by
  induction schedule generalizing s with
  | nil => cases h; exact hs
  | cons a rest ih =>
    obtain ⟨s', he, hr⟩ := run_cons h
    exact ih hr (hstep s a s' he hs)

end WorkloadIdentity.Herd
