import WorkloadIdentity.Proofs.Herd.History

/-!
# No stale outcome

A call that returns has either found a valid token at its look, or it returns an outcome that
was published after its look, by itself or by another call. However long a call is held up
between its look and the lock, it never returns what was published before it looked.
-/

set_option autoImplicit false

namespace WorkloadIdentity.Herd

variable {ι : Type}

/-- The outcome is the valid token of the look of `i`, or was published after that look. -/
def Fresh (calls : ι → Call) (log : List (Mark ι)) (i : ι) (outcome : Outcome) : Prop :=
  ∃ a found ticks b, log = a ++ .looked i found ticks :: b ∧
    ((∃ token, reading found ticks (calls i) = .valid token ∧ outcome = .ok token) ∨
      ∃ seen, reading found ticks (calls i) = .stale seen ∧ outcome ∈ published b)

theorem fresh_append {calls : ι → Call} {log : List (Mark ι)} {i : ι} {outcome : Outcome}
    (h : Fresh calls log i outcome) (marks : List (Mark ι)) :
    Fresh calls (log ++ marks) i outcome := by
  obtain ⟨a, found, ticks, b, rfl, hb⟩ := h
  refine ⟨a, found, ticks, b ++ marks, by simp, ?_⟩
  rcases hb with hv | ⟨seen, hs, hm⟩
  · exact .inl hv
  · refine .inr ⟨seen, hs, ?_⟩
    rw [published_append]
    exact List.mem_append_left _ hm

theorem reading_valid {cache : Cache} {ticks : Calendar.Nanoseconds} {call : Call}
    {token : Token} : reading cache ticks call = .valid token ↔
      call = .headers ∧ cache.token = some token ∧ token.isExpired ticks = false := by
  cases call with
  | refresh => simp [reading]
  | headers =>
    simp only [reading, Cache.read]
    split
    · rename_i held hh
      simp only [hh, Option.some.injEq]
      by_cases he : held.isExpired ticks = true <;> simp only [he] <;> grind
    · simp_all

theorem reading_stale_iff {cache : Cache} {ticks : Calendar.Nanoseconds} {call : Call} :
    (∃ seen, reading cache ticks call = .stale seen) ↔
      call = .refresh ∨ ∀ token, cache.token = some token → token.isExpired ticks = true := by
  cases call with
  | refresh => simp [reading]
  | headers =>
    simp only [reading, Cache.read]
    split
    · split <;> simp_all
    · simp_all

variable {calls : ι → Call} {cache : Cache} {s s' : State ι} {act : Action ι}

theorem look_once (h : History calls cache s) {a b : List (Mark ι)} {i : ι} {found : Cache}
    {ticks : Calendar.Nanoseconds} (hl : s.log = a ++ .looked i found ticks :: b) :
    i ∉ lookers a ∧ i ∉ lookers b := by
  have hn := h.lookers_nodup
  rw [hl, lookers_append] at hn
  change (lookers a ++ i :: lookers b).Nodup at hn
  obtain ⟨-, hb, hd⟩ := List.nodup_append.mp hn
  refine ⟨fun ha => hd i ha i (by simp) rfl, (List.nodup_cons.mp hb).1⟩

theorem look_unique (h : History calls cache s) {i : ι} {found other : Cache}
    {ticks later : Calendar.Nanoseconds} (hm : .looked i found ticks ∈ s.log)
    (ho : .looked i other later ∈ s.log) : other = found ∧ later = ticks := by
  obtain ⟨a, b, hl⟩ := List.append_of_mem hm
  obtain ⟨ha, hb⟩ := look_once h hl
  rw [hl] at ho
  rcases List.mem_append.mp ho with ho | ho
  · exact absurd (mem_lookers.mpr ⟨_, _, ho⟩) ha
  · rcases List.mem_cons.mp ho with ho | ho
    · cases ho
      exact ⟨rfl, rfl⟩
    · exact absurd (mem_lookers.mpr ⟨_, _, ho⟩) hb

variable [DecidableEq ι]

def Settled (calls : ι → Call) (s : State ι) : Prop :=
  ∀ i outcome, s.phase i = .leaving outcome ∨ s.phase i = .returned outcome →
    Fresh calls s.log i outcome

theorem settled_step (h : History calls cache s) (hs : Settled calls s)
    (he : Effect calls s act s') : Settled calls s' := by
  intro i outcome hi
  have hi' := hs i outcome
  cases he with
  | found j token hp hr =>
    by_cases hij : i = j
    · subst hij
      obtain rfl : Except.ok token = outcome := by simpa using hi
      exact ⟨s.log, _, _, [], rfl, .inl ⟨token, hr, rfl⟩⟩
    · exact fresh_append (hi' (by simpa [hij] using hi)) _
  | shared j seen shared hp hc =>
    by_cases hij : i = j
    · subst hij
      obtain rfl : shared = outcome := by simpa using hi
      obtain ⟨a, found, ticks, b, hl, hr, hm⟩ := shared_some h (by rw [hp]; rfl) hc
      exact fresh_append ⟨a, found, ticks, b, hl, .inr ⟨seen, hr, hm⟩⟩ _
    · exact fresh_append (hi' (by simpa [hij] using hi)) _
  | published j seen own world hp =>
    by_cases hij : i = j
    · subst hij
      obtain rfl : own = outcome := by simpa using hi
      obtain ⟨found, ticks, hm, hr⟩ := h.seen_found i seen (by rw [hp]; rfl)
      obtain ⟨a, b, hl⟩ := List.append_of_mem hm
      refine ⟨a, found, ticks, b ++ [.published i own], by simp [hl], .inr ⟨seen, hr, ?_⟩⟩
      simp [published_append]
    · exact fresh_append (hi' (by simpa [hij] using hi)) _
  | released j own hp =>
    by_cases hij : i = j
    · subst hij
      obtain rfl : own = outcome := by simpa using hi
      exact fresh_append (hi' (.inl hp)) _
    · exact fresh_append (hi' (by simpa [hij] using hi)) _
  | drifted => exact hi' hi
  | missed j | locked j | cleared j | started j | panicked j | cancelled j =>
    by_cases hij : i = j
    · simp [hij] at hi
    · exact fresh_append (hi' (by simpa [hij] using hi)) _

theorem settled_run {world : World} {schedule : List (Action ι)}
    (h : run? calls (start cache world) schedule = some s) : Settled calls s := by
  have hstart : Settled calls (start cache world) := by
    intro i outcome hi
    rcases hi with hi | hi <;> cases hi
  have hboth : History calls cache s ∧ Settled calls s :=
    run_preserves (P := fun t => History calls cache t ∧ Settled calls t)
      (fun _ _ _ he hs => ⟨history_step hs.1 he, settled_step hs.1 hs.2 he⟩) h
      ⟨history_start calls cache world, hstart⟩
  exact hboth.2

/-- A call that has returned gives the token that it found at its only look, valid at that
moment, or an outcome published after the look. The latter holds of every refresh, and of
every call that found the token missing or expired. -/
theorem returned_outcome_fresh (calls : ι → Call) (cache : Cache) (world : World)
    (schedule : List (Action ι)) (s : State ι)
    (h : run? calls (start cache world) schedule = some s) (i : ι) (outcome : Outcome)
    (hr : s.phase i = .returned outcome) :
    ∃ before found ticks after, s.log = before ++ .looked i found ticks :: after ∧
      i ∉ lookers before ∧ i ∉ lookers after ∧ found = settle cache (published before) ∧
      ((calls i = .headers ∧ ∃ token, found.token = some token ∧
          token.isExpired ticks = false ∧ outcome = .ok token) ∨
        ((calls i = .refresh ∨ ∀ token, found.token = some token → token.isExpired ticks = true) ∧
          ∃ b j c, after = b ++ .published j outcome :: c)) := by
  have hh := history_run h
  obtain ⟨a, found, ticks, b, hl, hb⟩ := settled_run h i outcome (.inr hr)
  obtain ⟨ha, hb'⟩ := look_once hh hl
  refine ⟨a, found, ticks, b, hl, ha, hb', hh.found_eq a i found ticks b hl, ?_⟩
  rcases hb with ⟨token, hv, ho⟩ | ⟨seen, hs, hm⟩
  · obtain ⟨hc, ht, he⟩ := reading_valid.mp hv
    exact .inl ⟨hc, token, ht, he, ho⟩
  · exact .inr ⟨reading_stale_iff.mp ⟨seen, hs⟩, mem_published hm⟩

def quiet : World :=
  ⟨.empty, .empty, fun _ files => (.notStarted, files), .scripted, [], [], 0, 0, [], .plain⟩

def sampleError : CredentialsError := ⟨.other, true, .message "fail"⟩

def sampleToken : Token := ⟨"token", "Bearer", none, none⟩

/-- Call 0 retrieves and fails while call 1 is held up before the lock; call 2 looks after
that failure, retrieves, and call 1 shares its token. -/
def overtaking : List (Action Nat) :=
  [.look 0, .look 1, .lock 0, .compare 0, .start 0, .publish 0 (.error sampleError) quiet,
    .release 0, .look 2, .lock 2, .compare 2, .start 2, .publish 2 (.ok sampleToken) quiet,
    .release 2, .lock 1, .compare 1, .release 1]

theorem returned_outcome_fresh_overtaking :
    ∃ s, run? (fun _ => .refresh) (start .empty quiet) overtaking = some s ∧
      s.phase 1 = .returned (.ok sampleToken) ∧
      ∃ before found ticks after, s.log = before ++ .looked 1 found ticks :: after ∧
        ∃ b j c, after = b ++ .published j (.ok sampleToken) :: c := by
  refine ⟨_, rfl, rfl, ?_⟩
  obtain ⟨a, found, ticks, b, hl, -, -, -, hb⟩ :=
    returned_outcome_fresh (fun _ => .refresh) .empty quiet overtaking _ rfl 1 (.ok sampleToken) rfl
  rcases hb with ⟨hc, -⟩ | ⟨-, hp⟩
  · cases hc
  · exact ⟨a, found, ticks, b, hl, hp⟩

end WorkloadIdentity.Herd
