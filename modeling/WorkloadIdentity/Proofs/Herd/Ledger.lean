import WorkloadIdentity.Proofs.Herd.SingleFlight
import Mathlib.Data.List.Induction

/-!
# What the cache tells of the past

From an empty cache on, the generation counts the published outcomes, the outcome that is kept
is the latest of them, and the token is that of the latest success. The cache does not change
while a retrieval is under way. So one that fails leaves the token as the retrieval found it, and
one that panics or is given up leaves nothing behind but a free lock.
-/

set_option autoImplicit false

namespace WorkloadIdentity.Herd

variable {ι : Type}

def granted (outcomes : List Outcome) : List Token := outcomes.filterMap Except.toOption

theorem settle_snoc (cache : Cache) (os : List Outcome) (o : Outcome) :
    settle cache (os ++ [o]) = (settle cache os).publish o := settle_append cache os [o]

theorem settle_token (cache : Cache) (os : List Outcome) :
    (settle cache os).token = (granted os).getLast?.or cache.token := by
  induction os using List.reverseRecOn with
  | nil => rfl
  | append_singleton os o ih =>
    rw [settle_snoc, granted, List.filterMap_append, ← granted]
    cases o with
    | ok token => simp [Cache.publish, Except.toOption]
    | error e => simpa [Cache.publish, Except.toOption] using ih

theorem settle_empty_last (os : List Outcome) : (settle .empty os).last = os.getLast? := by
  rcases os.eq_nil_or_concat' with rfl | ⟨ps, o, rfl⟩
  · rfl
  · exact settle_last .empty (by simp)

theorem settle_empty_token (os : List Outcome) :
    (settle .empty os).token = (granted os).getLast? := by
  rw [settle_token]
  exact Option.or_none

theorem granted_eq_nil {os : List Outcome} :
    granted os = [] ↔ ∀ o ∈ os, ∃ e, o = .error e := by
  rw [granted, List.filterMap_eq_nil_iff]
  refine forall₂_congr fun o _ => ?_
  cases o <;> simp [Except.toOption]

/-- The cache holds what these outcomes, the latest one last, leave behind. -/
structure Recounts (cache : Cache) (outcomes : List Outcome) : Prop where
  generation_eq : cache.generation = outcomes.length
  last_eq : cache.last = outcomes.getLast?
  token_eq : cache.token = (granted outcomes).getLast?
  last_none : cache.last = none ↔ cache.generation = 0
  token_none : cache.token = none ↔ ∀ o ∈ outcomes, ∃ e, o = .error e
  token_of_last : ∀ token, cache.last = some (.ok token) → cache.token = some token

theorem settle_recounts (os : List Outcome) : Recounts (settle .empty os) os := by
  have hg : (settle .empty os).generation = os.length := by
    rw [settle_generation]
    exact Nat.zero_add _
  refine ⟨hg, settle_empty_last os, settle_empty_token os, ?_, ?_, fun token hl => ?_⟩
  · rw [hg, settle_empty_last, List.getLast?_eq_none_iff, List.length_eq_zero_iff]
  · rw [settle_empty_token, List.getLast?_eq_none_iff, granted_eq_nil]
  · rw [settle_empty_last] at hl
    obtain ⟨ps, rfl⟩ := List.getLast?_eq_some_iff.mp hl
    rw [settle_snoc]
    rfl

def Phase.begun : Phase → Bool
  | .flying _ | .leaving _ | .returned _ | .dropped => true
  | _ => false

/-- The call has started its retrieval, and until that ends the cache is `cache`. -/
structure Aloft (i : ι) (cache : Cache) (s : State ι) : Prop where
  begun : (s.phase i).begun = true
  kept : ∀ seen, s.phase i = .flying seen → s.cache = cache

variable [DecidableEq ι] {calls : ι → Call} {cache kept : Cache} {s s' t : State ι}
  {act : Action ι} {i : ι}

theorem begun_step (hb : (s.phase i).begun = true) (he : Effect calls s act s') :
    (s'.phase i).begun = true := by
  cases he with
  | drifted => exact hb
  | found j _ hp | missed j _ hp | locked j _ hp | shared j _ _ hp | cleared j _ hp
  | started j _ hp | published j _ _ _ hp | released j _ hp | panicked j _ hp
  | cancelled j hp =>
    by_cases hij : i = j
    · subst hij
      simp_all [Phase.begun]
    · simpa [hij] using hb

theorem aloft_step (h : History calls cache s) (ha : Aloft i kept s)
    (he : Effect calls s act s') : Aloft i kept s' := by
  refine ⟨begun_step ha.begun he, fun seen hi => ?_⟩
  have hk := ha.kept seen
  cases he with
  | started j _ hp =>
    by_cases hij : i = j
    · have hb := ha.begun
      rw [hij, hp] at hb
      cases hb
    · exact hk (by simpa [hij] using hi)
  | published j _ outcome world hp =>
    by_cases hij : i = j
    · simp [hij] at hi
    · exact absurd (by simpa [hij] using hi) (not_flying h (by rw [hp]; rfl) hij seen)
  | drifted => exact hk hi
  | found j | missed j | locked j | shared j | cleared j | released j | panicked j
  | cancelled j =>
    by_cases hij : i = j
    · simp [hij] at hi
    · exact hk (by simpa [hij] using hi)

/-- The retrieval of `i` started in `s` and is under way in `t`. -/
def UnderWay (calls : ι → Call) (i : ι) (s t : State ι) : Prop :=
  ∃ begun between seen, step? calls s (.start i) = some begun ∧
    run? calls begun between = some t ∧ t.phase i = .flying seen

theorem under_way_cache (h : History calls cache s) (hu : UnderWay calls i s t) :
    History calls cache t ∧ t.cache = s.cache := by
  obtain ⟨begun, between, seen, hs, hr, ht⟩ := hu
  have he := step_cases hs
  have hbegun : Aloft i s.cache begun := by
    cases he with
    | started _ seen hp => exact ⟨by simp [Phase.begun], fun _ _ => rfl⟩
  have hboth : History calls cache t ∧ Aloft i s.cache t :=
    run_preserves (P := fun u => History calls cache u ∧ Aloft i s.cache u)
      (fun _ _ _ he hs => ⟨history_step hs.1 he, aloft_step hs.1 hs.2 he⟩) hr
      ⟨history_step h he, hbegun⟩
  exact ⟨hboth.1, hboth.2.kept seen ht⟩

def Owned (s : State ι) : Prop := ∀ i, s.lock = some i → (s.phase i).holds = true

theorem owned_step (ho : Owned s) (he : Effect calls s act s') : Owned s' := by
  intro i hi
  have hs := ho i
  cases he with
  | drifted => exact hs hi
  | released | panicked => cases hi
  | locked j _ hp hl =>
    obtain rfl : j = i := by simpa using hi
    simp [Phase.holds]
  | cancelled j hp =>
    by_cases hj : (s.phase j).holds = true
    · simp [hj] at hi
    · have hl : s.lock = some i := by simpa [hj] using hi
      have hij : i ≠ j := fun hij => hj (hij ▸ hs hl)
      simpa [hij] using hs hl
  | found j _ hp | missed j _ hp | shared j _ _ hp | cleared j _ hp | started j _ hp
  | published j _ _ _ hp =>
    have hl := hs (by simpa using hi)
    by_cases hij : i = j
    · subst hij
      simp_all [Phase.holds]
    · simpa [hij] using hl

theorem owned_run {world : World} {schedule : List (Action ι)}
    (h : run? calls (start cache world) schedule = some s) : Owned s :=
  run_preserves (fun _ _ _ he hs => owned_step hs he) h nofun

/-- A call leaves the herd: its retrieval panics, or whoever made it gives it up. -/
def Abandons (calls : ι → Call) (i : ι) (s t : State ι) : Prop :=
  step? calls s (.panic i) = some t ∨ step? calls s (.cancel i) = some t

theorem abandons_cache (ha : Abandons calls i s t) : t.cache = s.cache := by
  rcases ha with hs | hs <;> cases step_cases hs <;> rfl

/-- A lock that the call had is free again, and one that it had not stays where it was. -/
theorem abandons_lock (ha : Abandons calls i s t) :
    t.lock = if (s.phase i).holds then none else s.lock := by
  rcases ha with hs | hs
  · cases step_cases hs with
    | panicked _ seen hp =>
      rw [hp]
      rfl
  · cases step_cases hs
    rfl

theorem abandons_unlocks (ho : Owned s) (ha : Abandons calls i s t) : t.lock ≠ some i := by
  intro hl
  rw [abandons_lock ha] at hl
  split at hl
  · cases hl
  · rename_i hf
    exact hf (ho i hl)

theorem lock_free {j : ι} {seen : ℕ} (hl : t.lock = none)
    (hp : t.phase j = .queued seen) : ∃ u, step? calls t (.lock j) = some u := by
  simp only [step?, hp, hl]
  exact ⟨_, rfl⟩

/-- Wherever a schedule leads from an empty cache, the cache recounts the published outcomes. A
call that panics or is given up leaves the cache alone and no lock behind. From the start of a
retrieval to its end the cache stays what it was: a failure leaves the token of that moment, and
a retrieval that panics or is given up leaves all of it, with the lock free for whoever waits. -/
theorem cache_recounts_history (calls : ι → Call) (world : World) (schedule : List (Action ι))
    (s : State ι) (h : run? calls (start .empty world) schedule = some s) :
    Recounts s.cache (published s.log) ∧
    (∀ i t, Abandons calls i s t →
      t.cache = s.cache ∧ t.lock ≠ some i ∧ ((s.phase i).holds = true → t.lock = none)) ∧
    ∀ i t, UnderWay calls i s t →
      t.cache = s.cache ∧
      (∀ e left u, step? calls t (.publish i (.error e) left) = some u →
        u.cache.token = s.cache.token) ∧
      ∀ u, Abandons calls i t u → u.cache = s.cache ∧ u.lock = none ∧
        ∀ j seen, u.phase j = .queued seen → ∃ v, step? calls u (.lock j) = some v := by
  have hh := history_run h
  refine ⟨hh.cache_eq ▸ settle_recounts _, fun i t ha => ?_, fun i t hu => ?_⟩
  · refine ⟨abandons_cache ha, abandons_unlocks (owned_run h) ha, fun hp => ?_⟩
    rw [abandons_lock ha, if_pos hp]
  · obtain ⟨-, hc⟩ := under_way_cache hh hu
    obtain ⟨-, -, seen, -, -, hp⟩ := hu
    refine ⟨hc, fun e left u hs => ?_, fun u ha => ?_⟩
    · cases step_cases hs with
      | published =>
        show t.cache.token = s.cache.token
        rw [hc]
    · have hl : u.lock = none := by rw [abandons_lock ha, hp]; rfl
      exact ⟨(abandons_cache ha).trans hc, hl, fun j seen hj => lock_free hl hj⟩

/-- Call 0 has a token; call 1 is about to retrieve when call 2 waits behind it. -/
def renewal : List (Action Nat) :=
  [.look 0, .lock 0, .compare 0, .start 0, .publish 0 (.ok sampleToken) quiet, .release 0,
    .look 1, .look 2, .lock 1, .compare 1]

theorem cache_recounts_history_renewal :
    ∃ s t u, run? (fun _ => .refresh) (start .empty quiet) renewal = some s ∧
      UnderWay (fun _ => .refresh) 1 s t ∧ Abandons (fun _ => .refresh) 1 t u ∧
      s.cache.token = some sampleToken ∧ u.cache = s.cache ∧ u.lock = none ∧
      ∃ v, step? (fun _ => .refresh) u (.lock 2) = some v := by
  refine ⟨_, _, _, rfl, ⟨_, [], 1, rfl, rfl, rfl⟩, .inr rfl, ?_⟩
  obtain ⟨recounts, -, whole⟩ :=
    cache_recounts_history (fun _ => .refresh) quiet renewal _ rfl
  obtain ⟨-, -, ends⟩ := whole 1 _ ⟨_, [], 1, rfl, rfl, rfl⟩
  obtain ⟨same, free, next⟩ := ends _ (.inr rfl)
  exact ⟨recounts.token_eq, same, free, next 2 1 rfl⟩

end WorkloadIdentity.Herd
