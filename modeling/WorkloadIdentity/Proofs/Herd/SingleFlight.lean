import WorkloadIdentity.Proofs.Herd.Freshness

/-!
# One retrieval at a time, and one for all who wait

At most one retrieval is in flight, and those that publish an outcome had seen strictly
increasing generations. If all calls look before the first publication, the first to get the
lock retrieves for all that found no valid token.
-/

set_option autoImplicit false

namespace WorkloadIdentity.Herd

variable {ι : Type}

def started (log : List (Mark ι)) : List ι :=
  log.filterMap fun
    | .started i => some i
    | _ => none

theorem started_append (log marks : List (Mark ι)) :
    started (log ++ marks) = started log ++ started marks := List.filterMap_append

def LooksFirst (log : List (Mark ι)) : Prop :=
  ∀ a i outcome b, log = a ++ .published i outcome :: b → lookers b = []

/-- A call that needs a retrieval: a refresh, or one that finds the token missing or expired. -/
def Misses (cache : Cache) (ticks : Calendar.Nanoseconds) (call : Call) : Prop :=
  call = .refresh ∨ ∀ token, cache.token = some token → token.isExpired ticks = true

/-- What a call gets if its retrieval, or the one that it waits for, has the given outcome. -/
def answer (outcome : Outcome) : Reading → Outcome
  | .valid token => .ok token
  | .stale _ => outcome

theorem published_split {log : List (Mark ι)} {os ps : List Outcome} {o : Outcome}
    (h : published log = os ++ o :: ps) :
    ∃ a i b, log = a ++ .published i o :: b ∧ published a = os := by
  obtain ⟨a, rest, rfl, ha, hr⟩ := List.filterMap_eq_append_iff.mp h
  obtain ⟨c, m, b, rfl, hc, hm, -⟩ := List.filterMap_eq_cons_iff.mp hr
  cases m <;> simp only [reduceCtorEq, Option.some.injEq] at hm
  subst hm
  refine ⟨a ++ c, _, b, (List.append_assoc _ _ _).symm, ?_⟩
  rw [published_append, published, ha, published, List.filterMap_eq_nil_iff.mpr hc,
    List.append_nil]

variable {calls : ι → Call} {cache : Cache} {s s' : State ι} {act : Action ι}

theorem holder_unique (h : History calls cache s) {i j : ι} (hi : (s.phase i).holds = true)
    (hj : (s.phase j).holds = true) : i = j := by
  have hij := (h.holder i hi).symm.trans (h.holder j hj)
  exact Option.some.inj hij

/-- Every publication is by a call that had seen the generation just before it. -/
def Paced (calls : ι → Call) (cache : Cache) (log : List (Mark ι)) : Prop :=
  ∀ a i outcome b, log = a ++ .published i outcome :: b → ∃ found ticks,
    .looked i found ticks ∈ a ∧
      reading found ticks (calls i) = .stale (cache.generation + (published a).length)

variable [DecidableEq ι]

theorem paced_step (h : History calls cache s) (hp : Paced calls cache s.log)
    (he : Effect calls s act s') : Paced calls cache s'.log := by
  intro a i outcome b hl
  rcases log_step he with hs | ⟨m, hs, -⟩
  · exact hp a i outcome b (hs ▸ hl)
  · rw [hs] at hl
    rcases split_snoc hl with ⟨-, rfl, rfl⟩ | ⟨c, -, hc⟩
    · cases he with
      | published j seen own world hj =>
        obtain ⟨-, hm⟩ := List.append_singleton_inj.mp hs
        cases hm
        obtain ⟨found, ticks, hf, hr⟩ := h.seen_found i seen (by rw [hj]; rfl)
        refine ⟨found, ticks, hf, ?_⟩
        rw [hr, h.current i seen (.inr hj), h.cache_eq, settle_generation]
      | _ => simp at hs
    · exact hp a i outcome c hc

def Balanced (s : State ι) : Prop :=
  (∀ i, .dropped i ∉ s.log) →
    ((∀ i seen, s.phase i ≠ .flying seen) →
      (started s.log).length = (published s.log).length) ∧
    ∀ i seen, s.phase i = .flying seen →
      (started s.log).length = (published s.log).length + 1

omit [DecidableEq ι] in
theorem not_flying (h : History calls cache s) {i j : ι} (hj : (s.phase j).holds = true)
    (hij : i ≠ j) (seen : ℕ) : s.phase i ≠ .flying seen :=
  fun hi => hij (holder_unique h (by rw [hi]; rfl) hj)

theorem balanced_step (h : History calls cache s) (hb : Balanced s)
    (he : Effect calls s act s') : Balanced s' := by
  intro hd
  obtain ⟨hn, hf⟩ := hb fun i hi => hd i (log_mono he hi)
  cases he with
  | started j seen hp =>
    have hidle : ∀ i n, s.phase i ≠ .flying n := by
      intro i n
      by_cases hij : i = j
      · simp [hij, hp]
      · exact not_flying h (by rw [hp]; rfl) hij n
    have hcount : (started (s.log ++ [.started j])).length =
        (published (s.log ++ [.started j])).length + 1 := by
      rw [started_append, published_append]
      simpa [started] using hn hidle
    exact ⟨fun hno => absurd (by simp) (hno j seen), fun _ _ _ => hcount⟩
  | published j seen outcome world hp =>
    have hcount : (started (s.log ++ [.published j outcome])).length =
        (published (s.log ++ [.published j outcome])).length := by
      rw [started_append, published_append]
      simpa [started] using hf j seen hp
    refine ⟨fun _ => hcount, fun i n hi => ?_⟩
    by_cases hij : i = j
    · simp [hij] at hi
    · exact absurd (by simpa [hij] using hi) (not_flying h (by rw [hp]; rfl) hij n)
  | panicked j | cancelled j => exact absurd (by simp) (hd j)
  | drifted => exact ⟨hn, hf⟩
  | found j _ hp | missed j _ hp | locked j _ hp | shared j _ _ hp | cleared j _ hp
  | released j _ hp =>
    simp only [move_log, started_append, published_append, List.length_append] at *
    refine ⟨fun hno => ?_, fun i n hi => ?_⟩
    · refine hn fun i n hi => ?_
      by_cases hij : i = j
      · subst hij
        rw [hp] at hi
        cases hi
      · exact hno i n (by simpa [hij] using hi)
    · by_cases hij : i = j
      · simp [hij] at hi
      · exact hf i n (by simpa [hij] using hi)

theorem dropped_step (hd : ∀ i, .dropped i ∈ s.log → s.phase i = .dropped)
    (he : Effect calls s act s') (i : ι) (hi : .dropped i ∈ s'.log) : s'.phase i = .dropped := by
  have hs := hd i
  cases he with
  | drifted => exact hs hi
  | panicked j seen hp | cancelled j hp =>
    by_cases hij : i = j
    · simp [hij]
    · simpa [hij] using hs (by simpa [hij] using hi)
  | found j _ hp | missed j _ hp | locked j _ hp | shared j _ _ hp | cleared j _ hp
  | started j _ hp | published j _ _ _ hp | released j _ hp =>
    have hph := hs (by simpa using hi)
    by_cases hij : i = j
    · subst hij
      rw [hp] at hph
      cases hph
    · simpa [hij] using hph

/-- The facts about a herd's past that single flight rests on. -/
structure Flights (calls : ι → Call) (cache : Cache) (s : State ι) : Prop where
  paced : Paced calls cache s.log
  balanced : Balanced s
  dropped : ∀ i, .dropped i ∈ s.log → s.phase i = .dropped

theorem flights_run {world : World} {schedule : List (Action ι)}
    (h : run? calls (start cache world) schedule = some s) : Flights calls cache s := by
  have hstart : Flights calls cache (start cache world : State ι) :=
    ⟨by simp [Paced, start], by simp [Balanced, start, started], by simp [start]⟩
  have hboth : History calls cache s ∧ Flights calls cache s :=
    run_preserves (P := fun t => History calls cache t ∧ Flights calls cache t)
      (fun _ _ _ he hs => ⟨history_step hs.1 he, paced_step hs.1 hs.2.paced he,
        balanced_step hs.1 hs.2.balanced he, dropped_step hs.2.dropped he⟩) h
      ⟨history_start calls cache world, hstart⟩
  exact hboth.2

omit [DecidableEq ι] in
theorem unpublished_before_look {log a b : List (Mark ι)} {i : ι} {found : Cache}
    {ticks : Calendar.Nanoseconds} (hfirst : LooksFirst log)
    (hl : log = a ++ .looked i found ticks :: b) : published a = [] := by
  rw [List.eq_nil_iff_forall_not_mem]
  intro o ho
  obtain ⟨x, j, y, rfl⟩ := mem_published ho
  have hb := hfirst x j o (y ++ .looked i found ticks :: b) (by simp [hl])
  rw [lookers_append] at hb
  simp [lookers] at hb

section Together
variable (h : History calls cache s) (hfirst : LooksFirst s.log)
include h hfirst

omit [DecidableEq ι] in
theorem found_start {i : ι} {found : Cache} {ticks : Calendar.Nanoseconds}
    (hm : .looked i found ticks ∈ s.log) : found = cache := by
  obtain ⟨a, b, hl⟩ := List.append_of_mem hm
  rw [h.found_eq a i found ticks b hl, unpublished_before_look hfirst hl]
  rfl

omit [DecidableEq ι] in
/-- All calls saw one generation, and a second publication would need a later one. -/
theorem published_at_most_once (hp : Paced calls cache s.log) :
    published s.log = [] ∨ ∃ outcome, published s.log = [outcome] := by
  rcases (published s.log).eq_nil_or_concat' with hn | ⟨os, o, hos⟩
  · exact .inl hn
  · obtain ⟨a, i, b, hl, ha⟩ := published_split hos
    obtain ⟨found, ticks, hm, hg⟩ := hp a i o b hl
    have hc := found_start h hfirst (hl ▸ List.mem_append_left _ hm)
    have hgen := reading_stale hg
    rw [hc, ha] at hgen
    have hnil : os = [] := List.length_eq_zero_iff.mp (by omega)
    exact .inr ⟨o, by rw [hos, hnil]; rfl⟩

end Together

end WorkloadIdentity.Herd
