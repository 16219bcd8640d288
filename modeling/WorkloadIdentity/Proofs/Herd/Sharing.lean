import WorkloadIdentity.Proofs.Herd.SingleFlight

/-!
# Every schedule of calls that look together gives one result

When all calls look before the first publication, what each of them returns is settled by its
look and one outcome. If in addition the world changes by retrievals only, every schedule
agrees with `Credentials.join`, which takes the calls one after another: the replies, the
cache and the world with its requests do not depend on the order in which the lock is given.
-/

set_option autoImplicit false

namespace WorkloadIdentity.Herd

theorem proceed_valid (c : Credentials) (call : Call) (token : Token) :
    c.proceed call (.valid token) = (c.render call (.ok token), c) := rfl

/-- Once a retrieval has ended, whoever saw an earlier generation shares its outcome. -/
theorem proceed_all_shared (c : Credentials) (outcome : Outcome) (look : Call → Reading)
    (calls : List Call)
    (hs : ∀ call ∈ calls, ∀ n, look call = .stale n → c.cache.shared? n = some outcome) :
    c.proceedAll (calls.map fun call => (call, look call)) =
      (calls.map fun call => c.render call (Credentials.outcomeOf (answer outcome (look call))),
        c) := by
  induction calls with
  | nil => rfl
  | cons call rest ih =>
    have hrest := ih fun other ho => hs other (List.mem_cons_of_mem _ ho)
    simp only [List.map_cons, Credentials.proceedAll]
    cases hr : look call with
    | valid token =>
      rw [proceed_valid, hrest]
      rfl
    | stale n =>
      have hn := hs call List.mem_cons_self n hr
      simp only [Credentials.proceed, Credentials.refreshAfter, hn, hrest]
      rfl

/-- The first call that found no valid token retrieves, the others share or need nothing. -/
theorem proceed_all_together (c : Credentials) (outcome : Outcome) (world : World)
    (hw : c.config.retrieve c.world = (Credentials.outcomeOf outcome, world))
    (look : Call → Reading) (hl : ∀ call n, look call = .stale n → n = c.cache.generation)
    (calls : List Call) (hm : ∃ call ∈ calls, ∃ n, look call = .stale n) :
    c.proceedAll (calls.map fun call => (call, look call)) =
      (calls.map fun call => c.render call (Credentials.outcomeOf (answer outcome (look call))),
        { c with cache := c.cache.publish outcome, world := world }) := by
  have hretrieve : c.retrieve = (Credentials.outcomeOf outcome,
      { c with cache := c.cache.publish outcome, world := world }) := by
    cases outcome <;> simp only [Credentials.retrieve, hw, Credentials.outcomeOf]
  induction calls with
  | nil => simp at hm
  | cons call rest ih =>
    simp only [List.map_cons, Credentials.proceedAll]
    cases hr : look call with
    | valid token =>
      have hm' : ∃ call ∈ rest, ∃ n, look call = .stale n := by
        obtain ⟨other, ho, n, hn⟩ := hm
        rcases List.mem_cons.mp ho with rfl | ho
        · rw [hr] at hn
          cases hn
        · exact ⟨other, ho, n, hn⟩
      rw [proceed_valid, ih hm']
      rfl
    | stale n =>
      have hnone : c.cache.shared? n = none := by simp [Cache.shared?, hl call n hr]
      have hrest := proceed_all_shared
        { c with cache := c.cache.publish outcome, world := world } outcome look rest
        (fun other _ m hm => by simp [hl other m hm, Cache.shared?, Cache.publish])
      simp only [Credentials.proceed, Credentials.refreshAfter, hnone, hretrieve, hrest]
      rfl

variable {ι : Type} [DecidableEq ι] {calls : ι → Call} {cache : Cache} {s s' : State ι}
  {act : Action ι}

/-- The action leaves the world alone, or is a retrieval that ends as `retrieval` does. -/
def Action.Follows (retrieval : Attempt Token) (world : World) : Action ι → Prop
  | .publish _ outcome left => retrieval world = (Credentials.outcomeOf outcome, left)
  | .drift _ => False
  | _ => True

/-- A schedule in which the world changes by retrievals only. -/
def Undisturbed (calls : ι → Call) (retrieval : Attempt Token) :
    State ι → List (Action ι) → Prop
  | _, [] => True
  | s, a :: rest => a.Follows retrieval s.world ∧
      ∀ s', step? calls s a = some s' → Undisturbed calls retrieval s' rest

/-- Before the first publication the world is as it was, and calls look at that moment. -/
structure Still (retrieval : Attempt Token) (world : World) (s : State ι) : Prop where
  untouched : published s.log = [] → s.world = world
  retrieved : ∀ outcome, published s.log = [outcome] →
    retrieval world = (Credentials.outcomeOf outcome, s.world)
  ticks_eq : ∀ a i found ticks b, s.log = a ++ .looked i found ticks :: b →
    published a = [] → ticks = world.ticks

theorem still_step {retrieval : Attempt Token} {world : World} (hs : Still retrieval world s)
    (he : Effect calls s act s') (hf : act.Follows retrieval s.world) :
    Still retrieval world s' := by
  have hticks : ∀ a i found ticks b, s'.log = a ++ .looked i found ticks :: b →
      published a = [] → ticks = world.ticks := by
    intro a i found ticks b hl ha
    rcases log_step he with hlog | ⟨m, hlog, hm⟩ <;> rw [hlog] at hl
    · exact hs.ticks_eq a i found ticks b hl ha
    · rcases split_snoc hl with ⟨-, rfl, hx⟩ | ⟨c, -, hc⟩
      · rw [(hm i found ticks hx.symm).2.1, hs.untouched ha]
      · exact hs.ticks_eq a i found ticks c hc ha
  cases he with
  | published j seen outcome left hp =>
    refine ⟨fun hn => by simp [published_append] at hn, fun o ho => ?_, hticks⟩
    rw [move_log, published_append, published_published] at ho
    have hone : published s.log ++ [outcome] = [] ++ [o] := ho
    obtain ⟨hnil, rfl⟩ := List.append_singleton_inj.mp hone
    rw [← hs.untouched hnil]
    exact hf
  | drifted => exact hf.elim
  | _ =>
    refine ⟨fun hn => hs.untouched (by simpa [published_append] using hn), fun o ho => ?_, hticks⟩
    exact hs.retrieved o (by simpa [published_append] using ho)

theorem undisturbed_cons {retrieval : Attempt Token} {a : Action ι} {rest : List (Action ι)}
    (hs : step? calls s a = some s') (hf : a.Follows retrieval s.world)
    (hr : Undisturbed calls retrieval s' rest) : Undisturbed calls retrieval s (a :: rest) := by
  refine ⟨hf, fun t ht => ?_⟩
  rw [hs] at ht
  cases ht
  exact hr

theorem still_run {retrieval : Attempt Token} {world : World} {schedule : List (Action ι)}
    {t : State ι} (h : run? calls s schedule = some t)
    (hu : Undisturbed calls retrieval s schedule) (hs : Still retrieval world s) :
    Still retrieval world t := by
  induction schedule generalizing s with
  | nil =>
    cases h
    exact hs
  | cons a rest ih =>
    obtain ⟨s', hstep, hr⟩ := Option.bind_eq_some_iff.mp h
    exact ih hr (hu.2 s' hstep) (still_step hs (step_cases hstep) hu.1)

theorem results_together {world : World} {schedule : List (Action ι)}
    (h : run? calls (start cache world) schedule = some s) (hfirst : LooksFirst s.log)
    {results : ι → Outcome} (hr : ∀ i, s.phase i = .returned (results i)) :
    ∃ clock : ι → Calendar.Nanoseconds, (∀ i, .looked i cache (clock i) ∈ s.log) ∧
      ((∃ i, Misses cache (clock i) (calls i)) → ∃ outcome, published s.log = [outcome] ∧
        (started s.log).length = 1 ∧ s.cache = cache.publish outcome ∧
        ∀ i, results i = answer outcome (reading cache (clock i) (calls i))) ∧
      ((∀ i, ¬ Misses cache (clock i) (calls i)) → published s.log = [] ∧
        (started s.log).length = 0 ∧ s.cache = cache ∧
        ∀ i, ∃ token, reading cache (clock i) (calls i) = .valid token ∧
          results i = .ok token) := by
  have hh := history_run h
  have hf := flights_run h
  have hcount : (started s.log).length = (published s.log).length := by
    refine (hf.balanced fun i hi => ?_).1 fun i seen hi => ?_
    · have := (hr i).symm.trans (hf.dropped i hi)
      cases this
    · have := (hr i).symm.trans hi
      cases this
  have hlook : ∀ i, ∃ ticks, .looked i cache ticks ∈ s.log ∧
      ((∃ token, reading cache ticks (calls i) = .valid token ∧ results i = .ok token) ∨
        ∃ seen, reading cache ticks (calls i) = .stale seen ∧ results i ∈ published s.log) := by
    intro i
    obtain ⟨a, found, ticks, b, hl, hb⟩ := settled_run h i _ (.inr (hr i))
    have hm : .looked i found ticks ∈ s.log := by simp [hl]
    obtain rfl := found_start hh hfirst hm
    refine ⟨ticks, hm, hb.imp_right ?_⟩
    rintro ⟨seen, hs, ho⟩
    refine ⟨seen, hs, ?_⟩
    rw [hl, published_append]
    exact List.mem_append_right _ ho
  choose clock hclock hcases using hlook
  refine ⟨clock, hclock, ?_, ?_⟩
  · rintro ⟨i, hi⟩
    obtain ⟨n, hn⟩ := reading_stale_iff.mpr hi
    rcases published_at_most_once hh hfirst hf.paced with hnil | ⟨outcome, ho⟩
    · rcases hcases i with ⟨token, hv, -⟩ | ⟨seen, -, hm⟩
      · rw [hn] at hv
        cases hv
      · rw [hnil] at hm
        cases hm
    · refine ⟨outcome, ho, by rw [hcount, ho]; rfl, by rw [hh.cache_eq, ho]; rfl, fun j => ?_⟩
      rcases hcases j with ⟨token, hv, hres⟩ | ⟨seen, hs, hm⟩
      · rw [hv, hres]
        rfl
      · rw [hs]
        rw [ho] at hm
        exact List.mem_singleton.mp hm
  · intro hno
    have hnil : published s.log = [] := by
      rcases published_at_most_once hh hfirst hf.paced with hnil | ⟨outcome, ho⟩
      · exact hnil
      · have hone : published s.log = [] ++ [outcome] := ho
        obtain ⟨a, i, b, hl, -⟩ := published_split hone
        obtain ⟨found, ticks, hm, hs⟩ := hf.paced a i outcome b hl
        have hm' : .looked i found ticks ∈ s.log := hl ▸ List.mem_append_left _ hm
        obtain ⟨rfl, rfl⟩ := look_unique hh (hclock i) hm'
        exact absurd (reading_stale_iff.mp ⟨_, hs⟩) (hno i)
    refine ⟨hnil, by rw [hcount, hnil]; rfl, by rw [hh.cache_eq, hnil]; rfl, fun i => ?_⟩
    rcases hcases i with hv | ⟨seen, hs, -⟩
    · exact hv
    · exact absurd (reading_stale_iff.mp ⟨seen, hs⟩) (hno i)

/-- In a world that changes by retrievals only, the results are those of the calls in turn. -/
theorem results_join (c : Credentials) (calls : List Call)
    {schedule : List (Action (Fin calls.length))} {s : State (Fin calls.length)}
    (h : run? calls.get (start c.cache c.world) schedule = some s) (hfirst : LooksFirst s.log)
    {results : Fin calls.length → Outcome} (hr : ∀ i, s.phase i = .returned (results i))
    (hu : Undisturbed calls.get c.config.retrieve (start c.cache c.world) schedule) :
    c.join calls = (List.ofFn fun i =>
        c.render (calls.get i) (Credentials.outcomeOf (results i)),
      { c with cache := s.cache, world := s.world }) := by
  have hstill : Still c.config.retrieve c.world s :=
    still_run h hu ⟨fun _ => rfl, by simp [start], by simp [start]⟩
  obtain ⟨clock, hclock, hmiss, hvalid⟩ := results_together h hfirst hr
  have hlook : ∀ i, c.look (calls.get i) = reading c.cache (clock i) (calls.get i) := by
    intro i
    obtain ⟨a, b, hl⟩ := List.append_of_mem (hclock i)
    rw [hstill.ticks_eq a i _ _ b hl (unpublished_before_look hfirst hl), look_eq]
  have hreplies : ∀ outcome, (∀ i, results i = answer outcome (c.look (calls.get i))) →
      (calls.map fun call => c.render call (Credentials.outcomeOf (answer outcome (c.look call)))) =
        List.ofFn fun i => c.render (calls.get i) (Credentials.outcomeOf (results i)) := by
    intro outcome ho
    apply List.ext_getElem
    · simp
    · intro n hn _
      rw [List.length_map] at hn
      simp [ho ⟨n, hn⟩]
  by_cases hm : ∃ i, Misses c.cache (clock i) (calls.get i)
  · obtain ⟨outcome, hp, -, hcache, hres⟩ := hmiss hm
    obtain ⟨i, hi⟩ := hm
    obtain ⟨n, hn⟩ := reading_stale_iff.mpr hi
    rw [Credentials.join, proceed_all_together c outcome s.world (hstill.retrieved outcome hp) c.look
      (fun call n hn => reading_stale (look_eq c call ▸ hn)) calls
      ⟨calls.get i, calls.get_mem i, n, by rw [hlook, hn]⟩,
      hreplies outcome fun j => by rw [hres j, hlook j], hcache]
  · rw [not_exists] at hm
    obtain ⟨hp, -, hcache, hres⟩ := hvalid hm
    have hall : ∀ call ∈ calls, ∃ token, c.look call = .valid token := by
      intro call hc
      obtain ⟨i, rfl⟩ := List.mem_iff_get.mp hc
      obtain ⟨token, ht, -⟩ := hres i
      exact ⟨token, by rw [hlook, ht]⟩
    rw [Credentials.join, proceed_all_shared c (.error (.ofIncident .json)) c.look calls,
      hreplies, hcache, hstill.untouched hp]
    · intro i
      obtain ⟨token, ht, hres⟩ := hres i
      rw [hres, hlook, ht]
      rfl
    · intro call hc n hn
      obtain ⟨token, ht⟩ := hall call hc
      rw [ht] at hn
      cases hn

omit [DecidableEq ι] in
theorem publications_paced (h : History calls cache s) (hp : Paced calls cache s.log)
    {a b d : List (Mark ι)} {i j : ι} {o p : Outcome}
    (hl : s.log = a ++ .published i o :: (b ++ .published j p :: d)) {f g : Cache}
    {t u : Calendar.Nanoseconds} (hi : .looked i f t ∈ s.log) (hj : .looked j g u ∈ s.log) :
    f.generation < g.generation := by
  have hl' : s.log = (a ++ .published i o :: b) ++ .published j p :: d := by simp [hl]
  obtain ⟨f', t', hf, hsf⟩ := hp a i o _ hl
  obtain ⟨g', u', hg, hsg⟩ := hp _ j p d hl'
  obtain ⟨rfl, rfl⟩ := look_unique h hi (hl ▸ List.mem_append_left _ hf)
  obtain ⟨rfl, rfl⟩ := look_unique h hj (hl' ▸ List.mem_append_left _ hg)
  have hgf := reading_stale hsf
  have hgg := reading_stale hsg
  rw [published_append, List.length_append, published_cons_published, List.length_cons] at hgg
  omega

/-- One retrieval is in flight at most, and calls that publish had looked at different
generations. If all calls have returned and all had looked before the first publication, there
was one retrieval if some call needed it, and none otherwise; whoever found a valid token got
it, and all others got the one outcome. If the world changed by retrievals only, replies, cache
and world are those of `Credentials.join`, whatever the schedule. -/
theorem calls_share_one_retrieval (c : Credentials) (calls : List Call)
    (schedule : List (Action (Fin calls.length))) (s : State (Fin calls.length))
    (h : run? calls.get (start c.cache c.world) schedule = some s) :
    (∀ i j m n, s.phase i = .flying m → s.phase j = .flying n → i = j) ∧
    (∀ a b d i j o p, s.log = a ++ .published i o :: (b ++ .published j p :: d) →
      ∀ f t g u, .looked i f t ∈ s.log → .looked j g u ∈ s.log →
        f.generation < g.generation) ∧
    ∀ results : Fin calls.length → Outcome, (∀ i, s.phase i = .returned (results i)) →
      LooksFirst s.log →
      (∃ clock : Fin calls.length → Calendar.Nanoseconds,
        (∀ i, .looked i c.cache (clock i) ∈ s.log) ∧
        (∀ i, ¬ Misses c.cache (clock i) (calls.get i) →
          ∃ token, c.cache.token = some token ∧ results i = .ok token) ∧
        ((∃ i, Misses c.cache (clock i) (calls.get i)) → ∃ outcome,
          (started s.log).length = 1 ∧ s.cache = c.cache.publish outcome ∧
          ∀ i, Misses c.cache (clock i) (calls.get i) → results i = outcome) ∧
        ((∀ i, ¬ Misses c.cache (clock i) (calls.get i)) →
          (started s.log).length = 0 ∧ s.cache = c.cache)) ∧
      (Undisturbed calls.get c.config.retrieve (start c.cache c.world) schedule →
        c.join calls = (List.ofFn fun i =>
            c.render (calls.get i) (Credentials.outcomeOf (results i)),
          { c with cache := s.cache, world := s.world })) := by
  have hh := history_run h
  have hf := flights_run h
  refine ⟨?_, fun a b d i j o p hl f t g u => publications_paced hh hf.paced hl, ?_⟩
  · intro i j m n hi hj
    exact holder_unique hh (by rw [hi]; rfl) (by rw [hj]; rfl)
  intro results hr hfirst
  refine ⟨?_, results_join c calls h hfirst hr⟩
  obtain ⟨clock, hclock, hmiss, hvalid⟩ := results_together h hfirst hr
  have hgets : ∀ i, ¬ Misses c.cache (clock i) (calls.get i) →
      ∃ token, reading c.cache (clock i) (calls.get i) = .valid token := by
    intro i hi
    cases hread : reading c.cache (clock i) (calls.get i) with
    | valid token => exact ⟨token, rfl⟩
    | stale n => exact absurd (reading_stale_iff.mp ⟨n, hread⟩) hi
  refine ⟨clock, hclock, fun i hi => ?_, fun hm => ?_, fun hno => ?_⟩
  · obtain ⟨token, ht⟩ := hgets i hi
    refine ⟨token, (reading_valid.mp ht).2.1, ?_⟩
    by_cases hm : ∃ j, Misses c.cache (clock j) (calls.get j)
    · obtain ⟨outcome, -, -, -, hres⟩ := hmiss hm
      rw [hres i, ht]
      rfl
    · obtain ⟨-, -, -, hres⟩ := hvalid (not_exists.mp hm)
      obtain ⟨other, ho, hres⟩ := hres i
      rw [ht] at ho
      cases ho
      exact hres
  · obtain ⟨outcome, -, hs, hc, hres⟩ := hmiss hm
    refine ⟨outcome, hs, hc, fun i hi => ?_⟩
    obtain ⟨n, hn⟩ := reading_stale_iff.mpr hi
    rw [hres i, hn]
    rfl
  · obtain ⟨-, hs, hc, -⟩ := hvalid hno
    exact ⟨hs, hc⟩

def sampleCredentials : Credentials :=
  .new ⟨"audience", "type", "https://sts.example.com/", none, none, none, [], none,
    .programmatic, none, none⟩ quiet

def exhaustedError : CredentialsError := ⟨.subjectToken, false, .foreign World.exhausted⟩

def herdedCalls : List Call := [.refresh, .headers, .refresh]

/-- The second call gets the lock first, and the last one looks while it retrieves. -/
def herded : List (Action (Fin 3)) :=
  [.look 0, .look 1, .lock 1, .compare 1, .start 1, .look 2,
    .publish 1 (.error exhaustedError) (quiet.log .provider), .release 1, .lock 2, .compare 2,
    .release 2, .lock 0, .compare 0, .release 0]

theorem calls_share_one_retrieval_herded :
    ∃ s, run? herdedCalls.get (start sampleCredentials.cache sampleCredentials.world) herded =
        some s ∧
      (∀ i, s.phase i = .returned (.error exhaustedError)) ∧ LooksFirst s.log ∧
      Undisturbed herdedCalls.get sampleCredentials.config.retrieve
        (start sampleCredentials.cache sampleCredentials.world) herded ∧
      (started s.log).length = 1 ∧
      sampleCredentials.join herdedCalls =
        (List.ofFn fun i => sampleCredentials.render (herdedCalls.get i)
            (.error (.error exhaustedError)),
          { sampleCredentials with cache := s.cache, world := s.world }) := by
  obtain ⟨s, hrun, hr, hfirst⟩ : ∃ s, run? herdedCalls.get
      (start sampleCredentials.cache sampleCredentials.world) herded = some s ∧
      (∀ i, s.phase i = .returned (.error exhaustedError)) ∧ LooksFirst s.log := by
    refine ⟨_, rfl, ?_, ?_⟩
    · rintro ⟨_ | _ | _ | n, hn⟩
      · rfl
      · rfl
      · rfl
      · change n + 3 < 3 at hn
        omega
    · intro a i o b h
      rcases a with _ | ⟨_, _ | ⟨_, _ | ⟨_, _ | ⟨_, _ | ⟨_, a⟩⟩⟩⟩⟩
      · cases h
      · cases h
      · cases h
      · cases h
      · cases h
        rfl
      · injections
        simp at *
  have hu : Undisturbed herdedCalls.get sampleCredentials.config.retrieve
      (start sampleCredentials.cache sampleCredentials.world) herded := by
    repeat' apply undisturbed_cons rfl
    all_goals trivial
  obtain ⟨-, -, hall⟩ := calls_share_one_retrieval sampleCredentials herdedCalls herded s hrun
  obtain ⟨⟨clock, -, -, hone, -⟩, hjoin⟩ := hall _ hr hfirst
  obtain ⟨outcome, hstarted, -⟩ := hone ⟨⟨0, by decide⟩, .inl rfl⟩
  exact ⟨s, hrun, hr, hfirst, hu, hstarted, hjoin hu⟩

end WorkloadIdentity.Herd
