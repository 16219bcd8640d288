import WorkloadIdentity.Proofs.Retrieval.Plan

/-!
# One request after another

Attempts that ask a server for one text after another, as a list of stops. The way ends at the
first stop with something wrong: a URL that is not configured, a request that cannot be built or
sent, an answer that reports a failure, or a text of no use. What is sent up to there, and the
error, follow from the stops and the answers alone.
-/

set_option autoImplicit false

namespace WorkloadIdentity.Metadata

open Journey (answerTo answer_next bind_ok bind_error bind_run built_bind ofExcept_run send_run)

/-- Something that has to be configured and is not, or a request; `request` is `none` if it cannot
be built, and `flaw?` tells what is wrong with a text that is the answer. -/
inductive Stop
  | missing (flaw : AwsFlaw)
  | visit (errand : Errand) (request : Option Request) (flaw? : String → Option CredentialsError)

def answerFlaw? (errand : Errand) (flaw? : String → Option CredentialsError) :
    Answer → Option CredentialsError
  | .failure transient text => some ⟨.transport, transient, .foreign text⟩
  | .response r =>
    if 200 ≤ r.status ∧ r.status < 300 then
      match Utf8.text? r.body with
      | some text => flaw? text
      | none => some (.ofIncident .utf8)
    else some (.refused errand r.status r.body)

/-- The error that the way ends with here, if it does. -/
def Stop.halt? (network : Network) (answer : Answer) : Stop → Option CredentialsError
  | .missing flaw => some (.ofFault (.aws flaw))
  | .visit _ none _ => some (.ofIncident .request)
  | .visit errand (some _) flaw? =>
    match network with
    | .scripted => answerFlaw? errand flaw? answer
    | .refusing => some ⟨.transport, false, .incident .client⟩

def Stop.sends (network : Network) : Stop → List Request
  | .missing _ => []
  | .visit _ request _ =>
    match network with
    | .scripted => request.toList
    | .refusing => []

def silence : Answer := .failure false World.exhausted

/-- The requests that are sent up to the first stop where the way ends, and the error there. -/
def walk (network : Network) : List Stop → List Answer → List Request × Option CredentialsError
  | [], _ => ([], none)
  | stop :: stops, answers =>
    match stop.halt? network (answers.headD silence) with
    | some e => (stop.sends network, some e)
    | none =>
      let (sent, ending) := walk network stops answers.tail
      (stop.sends network ++ sent, ending)

/-- The world once these requests were sent: they are in its log, and their answers were taken. -/
def after (w : World) (sent : List Request) : World :=
  { w with events := w.events ++ sent.map .request, answers := w.answers.drop sent.length }

def said : Answer → String
  | .response r => (Utf8.text? r.body).getD ""
  | .failure _ _ => ""

theorem walk_append (network : Network) (first rest : List Stop) (answers : List Answer) :
    walk network (first ++ rest) answers = match walk network first answers with
      | (sent, some e) => (sent, some e)
      | (sent, none) => (sent ++ (walk network rest (answers.drop first.length)).1,
          (walk network rest (answers.drop first.length)).2) := by
  induction first generalizing answers with
  | nil => rfl
  | cons stop first ih =>
    rw [List.cons_append, walk, walk]
    rcases stop.halt? network (answers.headD silence) with _ | e
    · rw [ih, List.length_cons, ← List.drop_tail]
      rcases walk network first answers.tail with ⟨sent, _ | e⟩ <;> simp
    · rfl

theorem sends_one {network : Network} {stop : Stop} {answer : Answer}
    (h : stop.halt? network answer = none) : (stop.sends network).length = 1 := by
  rcases stop with flaw | ⟨errand, _ | request, flaw?⟩
  · cases h
  · cases h
  · cases network with
    | scripted => rfl
    | refusing => cases h

theorem walk_length {network : Network} {way : List Stop} {answers : List Answer}
    {sent : List Request} (h : walk network way answers = (sent, none)) :
    sent.length = way.length := by
  induction way generalizing answers sent with
  | nil =>
    cases h
    rfl
  | cons stop way ih =>
    rw [walk] at h
    rcases passed : stop.halt? network (answers.headD silence) with _ | e <;> rw [passed] at h
    · rcases onward : walk network way answers.tail with ⟨later, ending⟩
      simp only [onward, Prod.mk.injEq] at h
      obtain ⟨rfl, rfl⟩ := h
      rw [List.length_append, sends_one passed, ih onward, List.length_cons, Nat.add_comm]
    · cases h

/-- What is sent is the beginning of what the stops have to send. -/
theorem walk_begins (network : Network) (way : List Stop) (answers : List Answer) :
    (walk network way answers).1 <+: way.flatMap (Stop.sends network) := by
  induction way generalizing answers with
  | nil => exact List.prefix_refl _
  | cons stop way ih =>
    rw [walk, List.flatMap_cons]
    rcases stop.halt? network (answers.headD silence) with _ | e
    · exact (List.prefix_append_right_inj _).mpr (ih answers.tail)
    · exact List.prefix_append _ _

theorem visit_sends {network : Network} {errand : Errand} {planned : Option Request}
    {flaw? : String → Option CredentialsError} {request : Request}
    (h : request ∈ (Stop.visit errand planned flaw?).sends network) :
    planned = some request ∧ (Stop.visit errand planned flaw?).sends network = [request] := by
  unfold Stop.sends at h ⊢
  rcases network with _ | _
  · obtain rfl := Option.mem_toList.mp h
    exact ⟨rfl, rfl⟩
  · cases h

theorem answered {network : Network} {answer : Answer} {errand : Errand} {planned : Option Request}
    {flaw? : String → Option CredentialsError}
    (h : (Stop.visit errand planned flaw?).halt? network answer = none) :
    ∃ response text, answer = .response response ∧ Utf8.text? response.body = some text := by
  rcases planned with _ | request
  · cases h
  · rcases network with _ | _
    · rcases answer with response | ⟨transient, text⟩
      · simp only [Stop.halt?, answerFlaw?] at h
        split at h
        · rcases read : Utf8.text? response.body with _ | text
          · simp [read] at h
          · exact ⟨response, text, rfl, read⟩
        · cases h
      · cases h
    · cases h

theorem after_nil (w : World) : after w [] = w := by simp [after]

theorem after_after (w : World) (a b : List Request) : after (after w a) b = after w (a ++ b) := by
  simp [after]

theorem answer_after (request : Request) (w : World) :
    w.answer request = (answerTo w 0, after w [request]) := by
  rw [answer_next request w]
  unfold World.answer
  rcases h : w.answers with _ | ⟨answer, rest⟩ <;> simp [World.log, after, h]

theorem head_eq (w : World) : w.answers.headD silence = answerTo w 0 := by
  rcases h : w.answers with _ | ⟨answer, rest⟩ <;> simp [answerTo, silence, h]

/-- An attempt that sends what the stops have to send and has this value at the end of the way. -/
inductive Walks {α : Type} (way : List Stop) (value : Option α) (w : World) :
    Except Failure α × World → Prop
  | halted {sent : List Request} {e : CredentialsError}
      (ended : walk w.network way w.answers = (sent, some e)) :
      Walks way value w (.error (.error e), after w sent)
  | arrived {sent : List Request} {a : α} (ended : walk w.network way w.answers = (sent, none))
      (brought : value = some a) : Walks way value w (.ok a, after w sent)

section Attempts

variable {α β : Type} {way rest : List Stop} {value : Option α} {other : Option β} {w : World}

theorem walks_pure (a : α) (w : World) : Walks [] (some a) w ((pure a : Attempt α) w) := by
  have arrived : Walks [] (some a) w (.ok a, after w []) := .arrived rfl rfl
  rwa [after_nil] at arrived

theorem walks_bind {m : Attempt α} {f : α → Attempt β} (first : Walks way value w (m w))
    (second : ∀ a sent, value = some a → walk w.network way w.answers = (sent, none) →
      Walks rest other (after w sent) (f a (after w sent))) :
    Walks (way ++ rest) other w ((m >>= f) w) := by
  have whole := walk_append w.network way rest w.answers
  generalize hm : m w = run at first
  cases first with
  | halted ended =>
    rw [ended] at whole
    rw [bind_error hm]
    exact .halted whole
  | arrived ended brought =>
    rw [ended] at whole
    have later := walk_length ended
    rw [bind_ok hm]
    have onward := second _ _ brought ended
    generalize f _ _ = run at onward
    cases onward with
    | halted ended' =>
      change walk w.network rest (w.answers.drop _) = _ at ended'
      rw [later] at ended'
      rw [ended'] at whole
      rw [after_after]
      exact .halted whole
    | arrived ended' brought' =>
      change walk w.network rest (w.answers.drop _) = _ at ended'
      rw [later] at ended'
      rw [ended'] at whole
      rw [after_after]
      exact .arrived whole brought'

theorem walks_value {run : Except Failure α × World} {value' : Option α}
    (h : Walks way value w run) (same : ∀ a, value = some a → value' = some a) :
    Walks way value' w run := by
  cases h with
  | halted ended => exact .halted ended
  | arrived ended brought => exact .arrived ended (same _ brought)

theorem walks_map {m : Attempt α} (h : Walks way value w (m w)) (f : α → β) :
    Walks way (value.map f) w ((m >>= fun a => pure (f a)) w) := by
  rw [← List.append_nil way]
  apply walks_bind h
  intro a sent brought _
  rw [brought]
  exact walks_pure _ _

/-- The flaws of a text are those that its use runs into. -/
structure Judges (flaw? : String → Option CredentialsError)
    (use : String → Except CredentialsError α) : Prop where
  halts : ∀ {text e}, flaw? text = some e → use text = .error e
  passes : ∀ {text}, flaw? text = none → ∃ a, use text = .ok a

theorem judges_if (unfit : String → Prop) [DecidablePred unfit] (e : String → CredentialsError)
    {use : String → Except CredentialsError α} (halts : ∀ text, unfit text → use text = .error (e text))
    (passes : ∀ text, ¬ unfit text → ∃ a, use text = .ok a) :
    Judges (fun text => if unfit text then some (e text) else none) use := by
  constructor
  · intro text _ flawed
    obtain ⟨found, ⟨⟩⟩ := Option.ite_none_right_eq_some.mp flawed
    exact halts text found
  · intro text flawless
    exact passes text (by simpa using flawless)

theorem walks_one {stop : Stop} {run : Except Failure α × World}
    (h : match stop.halt? w.network (answerTo w 0) with
      | some e => run = (.error (.error e), after w (stop.sends w.network))
      | none => ∃ a, value = some a ∧ run = (.ok a, after w (stop.sends w.network))) :
    Walks [stop] value w run := by
  have alone : walk w.network [stop] w.answers =
      (stop.sends w.network, stop.halt? w.network (answerTo w 0)) := by
    rw [walk, head_eq]
    rcases stop.halt? w.network (answerTo w 0) with _ | e <;> simp [walk]
  rcases ended : stop.halt? w.network (answerTo w 0) with _ | e <;> rw [ended] at h alone
  · obtain ⟨a, brought, rfl⟩ := h
    exact .arrived alone brought
  · rw [h]
    exact .halted alone

theorem missing_walks (flaw : AwsFlaw) (value : Option α) (w : World) :
    Walks [.missing flaw] value w
      ((Attempt.fail (.ofFault (.aws flaw)) : Attempt α) w) := by
  apply walks_one
  rw [Stop.halt?, Stop.sends, after_nil]
  rfl

theorem visit_walks {flaw? : String → Option CredentialsError}
    {use : String → Except CredentialsError α} (judges : Judges flaw? use) (errand : Errand)
    (request : Option Request) (w : World) :
    Walks [.visit errand request flaw?] (use (said (answerTo w 0))).toOption w
      ((AwsSource.fetch errand request >>= fun text => Attempt.ofExcept (use text)) w) := by
  apply walks_one
  unfold AwsSource.fetch
  rcases request with _ | request
  · simp only [Stop.halt?, Stop.sends]
    rcases w.network with _ | _ <;> exact congrArg _ (after_nil w).symm
  rw [bind_assoc, built_bind, bind_assoc, bind_run, send_run, answer_after]
  simp only [Stop.halt?, Stop.sends]
  rcases w.network with _ | _
  · rcases answerTo w 0 with r | ⟨transient, text⟩
    · simp only [bind_run, ofExcept_run, answerFlaw?, AwsSource.readText, said, Status.isSuccess,
        Bool.and_eq_true, decide_eq_true_eq]
      by_cases success : 200 ≤ r.status ∧ r.status < 300
      · rcases read : Utf8.text? r.body with _ | text
        · simp [success, Except.mapError]
        · rcases found : flaw? text with _ | e
          · obtain ⟨a, used⟩ := judges.passes found
            simp [success, Except.mapError, found, used, Except.toOption]
          · simp [success, Except.mapError, found, judges.halts found]
      · simp [success, Except.mapError]
    · rfl
  · exact congrArg _ (after_nil w).symm

end Attempts

end WorkloadIdentity.Metadata
