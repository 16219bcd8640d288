import WorkloadIdentity.Proofs.Herd.Machine
import Mathlib.Data.List.Nodup

/-!
# The cache as a summary of the log

Wherever a schedule leads, the cache is the first cache with the published outcomes put into
it one after another, every look found the cache of its moment, and a call that holds the
refresh lock and has compared saw the current generation. One call at a time holds the lock.
-/

set_option autoImplicit false

namespace WorkloadIdentity.Herd

variable {ι : Type}

def published (log : List (Mark ι)) : List Outcome :=
  log.filterMap fun
    | .published _ outcome => some outcome
    | _ => none

def lookers (log : List (Mark ι)) : List ι :=
  log.filterMap fun
    | .looked i _ _ => some i
    | _ => none

/-- Puts outcomes into a cache, the first one first. -/
def settle (cache : Cache) (outcomes : List Outcome) : Cache := outcomes.foldl Cache.publish cache

theorem published_append (log marks : List (Mark ι)) :
    published (log ++ marks) = published log ++ published marks := List.filterMap_append

theorem lookers_append (log marks : List (Mark ι)) :
    lookers (log ++ marks) = lookers log ++ lookers marks := List.filterMap_append

@[simp] theorem published_nil : published ([] : List (Mark ι)) = [] := rfl

@[simp] theorem published_looked (i : ι) (found : Cache) (ticks : Calendar.Nanoseconds) :
    published [.looked i found ticks] = [] := rfl

@[simp] theorem published_started (i : ι) : published [.started i] = [] := rfl

@[simp] theorem published_dropped (i : ι) : published [.dropped i] = [] := rfl

@[simp] theorem published_published (i : ι) (outcome : Outcome) :
    published [.published i outcome] = [outcome] := rfl

theorem published_cons_published (i : ι) (outcome : Outcome) (log : List (Mark ι)) :
    published (.published i outcome :: log) = outcome :: published log := rfl

theorem mem_lookers {log : List (Mark ι)} {i : ι} :
    i ∈ lookers log ↔ ∃ found ticks, .looked i found ticks ∈ log := by
  constructor
  · intro h
    obtain ⟨m, hm, hi⟩ := List.mem_filterMap.mp h
    cases m <;> simp only [reduceCtorEq, Option.some.injEq] at hi
    subst hi
    exact ⟨_, _, hm⟩
  · rintro ⟨found, ticks, hm⟩
    exact List.mem_filterMap.mpr ⟨_, hm, rfl⟩

theorem mem_published {log : List (Mark ι)} {outcome : Outcome} (h : outcome ∈ published log) :
    ∃ a j b, log = a ++ .published j outcome :: b := by
  obtain ⟨m, hm, ho⟩ := List.mem_filterMap.mp h
  cases m <;> simp only [reduceCtorEq, Option.some.injEq] at ho
  subst ho
  obtain ⟨a, b, hab⟩ := List.append_of_mem hm
  exact ⟨a, _, b, hab⟩

theorem settle_append (cache : Cache) (os ps : List Outcome) :
    settle cache (os ++ ps) = settle (settle cache os) ps := List.foldl_append

theorem settle_generation (cache : Cache) (os : List Outcome) :
    (settle cache os).generation = cache.generation + os.length := by
  induction os generalizing cache with
  | nil => rfl
  | cons o os ih =>
    rw [settle, List.foldl_cons, ← settle, ih]
    simp only [Cache.publish, List.length_cons]
    omega

theorem settle_last (cache : Cache) {os : List Outcome} (h : os ≠ []) :
    (settle cache os).last = os.getLast? := by
  obtain ⟨ps, o, rfl⟩ := os.eq_nil_or_concat'.resolve_left h
  rw [settle_append]
  simp [settle, Cache.publish]

theorem reading_stale {cache : Cache} {ticks : Calendar.Nanoseconds} {call : Call} {seen : ℕ}
    (h : reading cache ticks call = .stale seen) : seen = cache.generation := by
  cases call with
  | refresh =>
    cases h
    rfl
  | headers =>
    simp only [reading, Cache.read] at h
    split at h
    · split at h <;> cases h
      rfl
    · cases h
      rfl

theorem split_snoc {α : Type} {l a b : List α} {m x : α} (h : l ++ [m] = a ++ x :: b) :
    (b = [] ∧ a = l ∧ x = m) ∨ ∃ c, b = c ++ [m] ∧ l = a ++ x :: c := by
  rcases b.eq_nil_or_concat' with rfl | ⟨c, y, rfl⟩
  · obtain ⟨ha, hx⟩ := List.append_singleton_inj.mp h
    exact .inl ⟨rfl, ha.symm, hx.symm⟩
  · rw [← List.cons_append, ← List.append_assoc] at h
    obtain ⟨hl, hy⟩ := List.append_singleton_inj.mp h
    exact .inr ⟨c, by rw [hy], hl⟩

/-- What holds of the log and the cache in a herd that started with `cache`. -/
structure History (calls : ι → Call) (cache : Cache) (s : State ι) : Prop where
  cache_eq : s.cache = settle cache (published s.log)
  holder : ∀ i, (s.phase i).holds = true → s.lock = some i
  found_eq : ∀ a i found ticks b, s.log = a ++ .looked i found ticks :: b →
    found = settle cache (published a)
  seen_found : ∀ i seen, (s.phase i).seen? = some seen →
    ∃ found ticks, .looked i found ticks ∈ s.log ∧ reading found ticks (calls i) = .stale seen
  idle_unlooked : ∀ i, s.phase i = .idle → i ∉ lookers s.log
  lookers_nodup : (lookers s.log).Nodup
  current : ∀ i seen, s.phase i = .cleared seen ∨ s.phase i = .flying seen →
    seen = s.cache.generation

theorem history_start (calls : ι → Call) (cache : Cache) (world : World) :
    History calls cache (start cache world) where
  cache_eq := rfl
  holder := by simp [start, Phase.holds]
  found_eq := by simp [start]
  seen_found := by simp [start, Phase.seen?]
  idle_unlooked := by simp [start, lookers]
  lookers_nodup := by simp [start, lookers]
  current := by simp [start]

variable {calls : ι → Call} {cache : Cache} {s s' : State ι} {act : Action ι}

theorem since_look (h : History calls cache s) {a b : List (Mark ι)} {i : ι} {found : Cache}
    {ticks : Calendar.Nanoseconds} (hl : s.log = a ++ .looked i found ticks :: b) :
    s.cache = settle found (published b) := by
  rw [h.cache_eq, h.found_eq a i found ticks b hl, hl, published_append, settle_append]
  rfl

theorem shared_none (h : History calls cache s) {i : ι} {seen : ℕ}
    (hp : (s.phase i).seen? = some seen) (hs : s.cache.shared? seen = none) :
    seen = s.cache.generation := by
  obtain ⟨found, ticks, hm, hr⟩ := h.seen_found i seen hp
  obtain ⟨a, b, hl⟩ := List.append_of_mem hm
  have hc := since_look h hl
  have hseen := reading_stale hr
  by_cases hb : published b = []
  · rw [hc, hb, hseen]
    rfl
  · have hlast := settle_last found hb
    rw [← hc, List.getLast?_eq_some_getLast hb] at hlast
    simp only [Cache.shared?, hlast] at hs
    split at hs
    · rename_i hg
      exact hg.symm
    · cases hs

/-- A shared outcome was published after the look of the call that shares it. -/
theorem shared_some (h : History calls cache s) {i : ι} {seen : ℕ} {outcome : Outcome}
    (hp : (s.phase i).seen? = some seen) (hs : s.cache.shared? seen = some outcome) :
    ∃ a found ticks b, s.log = a ++ .looked i found ticks :: b ∧
      reading found ticks (calls i) = .stale seen ∧ outcome ∈ published b := by
  obtain ⟨found, ticks, hm, hr⟩ := h.seen_found i seen hp
  obtain ⟨a, b, hl⟩ := List.append_of_mem hm
  have hc := since_look h hl
  have hseen := reading_stale hr
  simp only [Cache.shared?] at hs
  split at hs
  · cases hs
  · rename_i hg
    have hb : published b ≠ [] := by
      rintro hb
      rw [hc, hb, hseen] at hg
      exact hg rfl
    rw [hc, settle_last found hb] at hs
    exact ⟨a, found, ticks, b, hl, hr, List.mem_of_getLast? hs⟩

variable [DecidableEq ι]

@[simp] theorem move_phase (s : State ι) (i j : ι) (p : Phase) (marks : List (Mark ι)) :
    (s.move i p marks).phase j = if j = i then p else s.phase j :=
  Function.update_apply s.phase i p j

@[simp] theorem move_cache (s : State ι) (i : ι) (p : Phase) (marks : List (Mark ι)) :
    (s.move i p marks).cache = s.cache := rfl

@[simp] theorem move_world (s : State ι) (i : ι) (p : Phase) (marks : List (Mark ι)) :
    (s.move i p marks).world = s.world := rfl

@[simp] theorem move_lock (s : State ι) (i : ι) (p : Phase) (marks : List (Mark ι)) :
    (s.move i p marks).lock = s.lock := rfl

@[simp] theorem move_log (s : State ι) (i : ι) (p : Phase) (marks : List (Mark ι)) :
    (s.move i p marks).log = s.log ++ marks := rfl

theorem log_step (he : Effect calls s act s') :
    s'.log = s.log ∨ ∃ m, s'.log = s.log ++ [m] ∧
      ∀ i found ticks, m = .looked i found ticks →
        found = s.cache ∧ ticks = s.world.ticks ∧ s.phase i = .idle := by
  cases he with
  | found i token hp hr =>
    refine .inr ⟨_, rfl, ?_⟩
    rintro j found ticks ⟨⟩
    exact ⟨rfl, rfl, hp⟩
  | missed i seen hp hr =>
    refine .inr ⟨_, rfl, ?_⟩
    rintro j found ticks ⟨⟩
    exact ⟨rfl, rfl, hp⟩
  | started i seen hp => exact .inr ⟨_, rfl, fun _ _ _ hm => by cases hm⟩
  | published i seen outcome world hp => exact .inr ⟨_, rfl, fun _ _ _ hm => by cases hm⟩
  | panicked i seen hp => exact .inr ⟨_, rfl, fun _ _ _ hm => by cases hm⟩
  | cancelled i hp => exact .inr ⟨_, rfl, fun _ _ _ hm => by cases hm⟩
  | locked | shared | cleared | released => exact .inl (List.append_nil _)
  | drifted => exact .inl rfl

theorem log_mono (he : Effect calls s act s') {m : Mark ι} (hm : m ∈ s.log) : m ∈ s'.log := by
  rcases log_step he with hl | ⟨x, hl, -⟩ <;> rw [hl]
  · exact hm
  · exact List.mem_append_left _ hm

section Step
variable (h : History calls cache s) (he : Effect calls s act s')
include h he

theorem cache_eq_step : s'.cache = settle cache (published s'.log) := by
  have hc := h.cache_eq
  cases he with
  | published i seen outcome world hp =>
    rw [move_log, published_append, published_published, settle_append, ← hc]
    rfl
  | drifted => exact hc
  | _ => simpa [published_append] using hc

theorem holder_step (i : ι) (hi : (s'.phase i).holds = true) : s'.lock = some i := by
  have hh := h.holder i
  cases he with
  | locked j seen hp hl =>
    by_cases hij : i = j
    · rw [hij]
    · have := hh (by simpa [hij] using hi)
      simp [hl] at this
  | released j outcome hp =>
    have hj := h.holder j (by rw [hp]; rfl)
    by_cases hij : i = j
    · simp [hij, Phase.holds] at hi
    · have := hh (by simpa [hij] using hi)
      simp_all
  | panicked j seen hp =>
    have hj := h.holder j (by rw [hp]; rfl)
    by_cases hij : i = j
    · simp [hij, Phase.holds] at hi
    · have := hh (by simpa [hij] using hi)
      simp_all
  | cancelled j hp =>
    by_cases hij : i = j
    · simp [hij, Phase.holds] at hi
    · have hs := hh (by simpa [hij] using hi)
      by_cases hj : (s.phase j).holds = true
      · have := h.holder j hj
        simp_all
      · simpa [hj] using hs
  | drifted => exact hh hi
  | found j _ hp | missed j _ hp =>
    by_cases hij : i = j
    · simp [hij, Phase.holds] at hi
    · simpa using hh (by simpa [hij] using hi)
  | shared j _ _ hp | cleared j _ hp | started j _ hp | published j _ _ _ hp =>
    have hj := h.holder j (by rw [hp]; rfl)
    by_cases hij : i = j
    · simpa [hij] using hj
    · simpa using hh (by simpa [hij] using hi)

theorem found_eq_step (a : List (Mark ι)) (i : ι) (found : Cache) (ticks : Calendar.Nanoseconds)
    (b : List (Mark ι)) (hl : s'.log = a ++ .looked i found ticks :: b) :
    found = settle cache (published a) := by
  rcases log_step he with hs | ⟨m, hs, hm⟩
  · exact h.found_eq a i found ticks b (hs ▸ hl)
  · rw [hs] at hl
    rcases split_snoc hl with ⟨-, rfl, hx⟩ | ⟨c, -, hc⟩
    · rw [(hm i found ticks hx.symm).1, h.cache_eq]
    · exact h.found_eq a i found ticks c hc

theorem idle_unlooked_step (i : ι) (hi : s'.phase i = .idle) : i ∉ lookers s'.log := by
  have hu := h.idle_unlooked i
  cases he with
  | drifted => exact hu hi
  | _ j =>
    by_cases hij : i = j
    · simp [hij] at hi
    · have := hu (by simpa [hij] using hi)
      simpa [lookers_append, lookers, hij] using this

theorem lookers_nodup_step : (lookers s'.log).Nodup := by
  rcases log_step he with hs | ⟨m, hs, hm⟩ <;> rw [hs]
  · exact h.lookers_nodup
  · rw [lookers_append]
    cases m with
    | looked i found ticks =>
      have hi := h.idle_unlooked i (hm i found ticks rfl).2.2
      refine List.nodup_append.mpr ⟨h.lookers_nodup, List.nodup_singleton i, ?_⟩
      rintro j hj k hk rfl
      exact hi (List.mem_singleton.mp hk ▸ hj)
    | started | published | dropped => simpa [lookers] using h.lookers_nodup

theorem seen_found_step (i : ι) (seen : ℕ) (hi : (s'.phase i).seen? = some seen) :
    ∃ found ticks, .looked i found ticks ∈ s'.log ∧
      reading found ticks (calls i) = .stale seen := by
  have keep : (s.phase i).seen? = some seen → ∃ found ticks, .looked i found ticks ∈ s'.log ∧
      reading found ticks (calls i) = .stale seen := by
    intro hs
    obtain ⟨found, ticks, hm, hr⟩ := h.seen_found i seen hs
    exact ⟨found, ticks, log_mono he hm, hr⟩
  cases he with
  | missed j found hp hr =>
    by_cases hij : i = j
    · subst hij
      have : found = seen := by simpa [Phase.seen?] using hi
      subst this
      exact ⟨s.cache, s.world.ticks, by simp, hr⟩
    · exact keep (by simpa [hij] using hi)
  | locked j _ hp | cleared j _ hp | started j _ hp =>
    by_cases hij : i = j
    · subst hij
      exact keep (by simpa [hp, Phase.seen?] using hi)
    · exact keep (by simpa [hij] using hi)
  | drifted => exact keep hi
  | _ j =>
    by_cases hij : i = j
    · simp [hij, Phase.seen?] at hi
    · exact keep (by simpa [hij] using hi)

/-- While a call may retrieve, nobody else can publish. -/
theorem current_step (i : ι) (seen : ℕ)
    (hi : s'.phase i = .cleared seen ∨ s'.phase i = .flying seen) :
    seen = s'.cache.generation := by
  have hs := h.current i seen
  cases he with
  | cleared j found hp hn =>
    by_cases hij : i = j
    · subst hij
      have : found = seen := by simpa using hi
      subst this
      exact shared_none h (by rw [hp]; rfl) hn
    · exact hs (by simpa [hij] using hi)
  | started j found hp =>
    by_cases hij : i = j
    · subst hij
      have : found = seen := by simpa using hi
      subst this
      exact hs (.inl hp)
    · exact hs (by simpa [hij] using hi)
  | published j found outcome world hp =>
    by_cases hij : i = j
    · simp [hij] at hi
    · have hi' : s.phase i = .cleared seen ∨ s.phase i = .flying seen := by simpa [hij] using hi
      have hli := h.holder i (by rcases hi' with hi' | hi' <;> rw [hi'] <;> rfl)
      have hlj := h.holder j (by rw [hp]; rfl)
      rw [hli] at hlj
      exact absurd (Option.some.inj hlj) hij
  | drifted => exact hs hi
  | _ j =>
    by_cases hij : i = j
    · simp [hij] at hi
    · exact hs (by simpa [hij] using hi)

theorem history_step : History calls cache s' where
  cache_eq := cache_eq_step h he
  holder := holder_step h he
  found_eq := found_eq_step h he
  seen_found := seen_found_step h he
  idle_unlooked := idle_unlooked_step h he
  lookers_nodup := lookers_nodup_step h he
  current := current_step h he

end Step

theorem history_run {world : World} {schedule : List (Action ι)}
    (h : run? calls (start cache world) schedule = some s) : History calls cache s :=
  run_preserves (fun _ _ _ he hs => history_step hs he) h (history_start calls cache world)

end WorkloadIdentity.Herd
