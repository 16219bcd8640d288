import Mathlib.Algebra.Ring.Int.Defs
import WorkloadIdentity.Proofs.Config.Sources
import WorkloadIdentity.Proofs.Json.Records
import WorkloadIdentity.Proofs.Retrieval.Journey
import WorkloadIdentity.Proofs.Text.Blank
import WorkloadIdentity.Proofs.Text.Utf8

/-!
# When a command runs, and which answer is taken

Permission comes before everything else. An answer that was kept is used exactly as long as it is
acceptable, and otherwise the command runs once and has the last word. What makes a text acceptable
is written down apart from the reader; a fresh text may leave out when it expires, a kept one not.
-/

set_option autoImplicit false

namespace WorkloadIdentity.Executable

open Grammar (Maybe Text optional_iff optional_text_iff allBlank_iff)
open Journey (bind_ok get_bind ofExcept_run run_run)

def Long (value : Json) (n : Int) : Prop :=
  -2 ^ 63 ≤ n ∧ n < 2 ^ 63 ∧ value = .number (.integer n)

def Flag (value : Json) (b : Bool) : Prop := value = .bool b

structure Fields (get : String → Option Json) (a : ExecutableAnswer) : Prop where
  version : Maybe Long (get "version") a.version
  success : Maybe Flag (get "success") a.success
  tokenType : Maybe Text (get "token_type") a.tokenType
  expiration : Maybe Long (get "expiration_time") a.expiration
  idToken : Maybe Text (get "id_token") a.idToken
  samlResponse : Maybe Text (get "saml_response") a.samlResponse
  code : Maybe Text (get "code") a.code
  message : Maybe Text (get "message") a.message

def Decodes (text : String) (a : ExecutableAnswer) : Prop :=
  ∃ tree, Tree.ofString? text = some tree ∧
    ∃ get, Tree.Spells ["version", "success", "token_type", "expiration_time", "id_token",
      "saml_response", "code", "message"] tree get ∧ Fields get a

/-- Strictly later than now; what was kept has to say so. -/
def Lasts (expiration : Option Int) (seconds : Int) (kept : Bool) : Prop :=
  match expiration with
  | some moment => seconds < moment
  | none => kept = false

inductive Carries (a : ExecutableAnswer) (t : String) : Prop
  | idToken (kind : a.tokenType = some "urn:ietf:params:oauth:token-type:jwt" ∨
      a.tokenType = some "urn:ietf:params:oauth:token-type:id_token") (held : a.idToken = some t) :
      Carries a t
  | saml (kind : a.tokenType = some "urn:ietf:params:oauth:token-type:saml2")
      (held : a.samlResponse = some t) : Carries a t

structure Accepts (a : ExecutableAnswer) (seconds : Int) (kept : Bool) (t : String) : Prop where
  version : a.version = some 1
  success : a.success = some true
  lasts : Lasts a.expiration seconds kept
  carries : Carries a t
  solid : ∃ c ∈ t.toList, Blank.isBlank c = false

def Accepted (text : String) (seconds : Int) (kept : Bool) (t : String) : Prop :=
  ∃ a, Decodes text a ∧ Accepts a seconds kept t

theorem long_iff {value : Json} {n : Int} : Record.long? value = some n ↔ Long value n := by
  have power : Int.pow 2 63 = 9223372036854775808 := by decide
  unfold Record.long? Record.integerWithin? Long
  rw [power]
  cases value with
  | number k =>
    cases k with
    | integer k =>
      simp only [Json.integer?, Option.bind_some, Option.ite_none_right_eq_some, Option.some.injEq,
        Json.number.injEq, Number.integer.injEq]
      constructor
      · rintro ⟨within, rfl⟩
        omega
      · rintro ⟨low, high, rfl⟩
        omega
    | real x => simp [Json.integer?]
  | _ => simp [Json.integer?]

theorem flag_iff {value : Json} {b : Bool} : value.bool? = some b ↔ Flag value b := by
  cases value <;> simp [Json.bool?, Flag]

theorem read_iff {text : String} {a : ExecutableAnswer} :
    ExecutableAnswer.read? text = some a ↔ Decodes text a := by
  have longs : ∀ (record : Record) name given, record.optional Record.long? name = some given ↔
      Maybe Long (record.field? name) given :=
    fun _ _ _ => optional_iff (fun _ _ => long_iff) fun _ => nofun
  have flags : ∀ (record : Record) name given, record.optional Json.bool? name = some given ↔
      Maybe Flag (record.field? name) given :=
    fun _ _ _ => optional_iff (fun _ _ => flag_iff) fun _ => nofun
  unfold ExecutableAnswer.read?
  simp only [Option.bind_eq_bind]
  rw [Option.bind_eq_some_iff]
  refine exists_congr fun tree => and_congr_right fun _ => Tree.record_iff Fields fun record => ?_
  simp only [Option.bind_eq_some_iff, optional_text_iff, longs, flags, Option.pure_def,
    Option.some.injEq]
  constructor
  · rintro ⟨version, hv, success, hs, type, ht, expiration, he, id, hi, saml, hm, code, hc,
      message, ht', rfl⟩
    exact ⟨hv, hs, ht, he, hi, hm, hc, ht'⟩
  · rintro ⟨hv, hs, ht, he, hi, hm, hc, ht'⟩
    exact ⟨_, hv, _, hs, _, ht, _, he, _, hi, _, hm, _, hc, _, ht', rfl⟩

theorem version_iff {a : ExecutableAnswer} : a.checkVersion = .ok () ↔ a.version = some 1 := by
  unfold ExecutableAnswer.checkVersion ExecutableAnswer.flawed
  rcases a.version with _ | v
  · simp
  · by_cases first : v = 1 <;> simp [first]

theorem success_iff {a : ExecutableAnswer} : a.checkSuccess = .ok () ↔ a.success = some true := by
  unfold ExecutableAnswer.checkSuccess ExecutableAnswer.flawed
  rcases a.success with _ | _ | _
  · simp
  · rcases a.code with _ | code <;> rcases a.message with _ | message <;> simp
  · simp

theorem expiration_iff {a : ExecutableAnswer} {seconds : Int} {kept : Bool} :
    a.checkExpiration seconds kept = .ok () ↔ Lasts a.expiration seconds kept := by
  unfold ExecutableAnswer.checkExpiration ExecutableAnswer.flawed Lasts
  rcases a.expiration with _ | moment
  · cases kept <;> simp
  · by_cases past : moment ≤ seconds
    · simp [past]
    · simp [past, Int.lt_of_not_ge past]

theorem carries_id {a : ExecutableAnswer} {type t : String} (typed : a.tokenType = some type)
    (known : type = jwtTokenType ∨ type = idTokenType) : Carries a t ↔ a.idToken = some t := by
  constructor
  · rintro (⟨-, held⟩ | ⟨other, -⟩)
    · exact held
    · rw [typed, Option.some.injEq] at other
      subst other
      simp [jwtTokenType, idTokenType] at known
  · exact .idToken (by simpa [typed, jwtTokenType, idTokenType] using known)

theorem carries_saml {a : ExecutableAnswer} {t : String}
    (typed : a.tokenType = some saml2TokenType) : Carries a t ↔ a.samlResponse = some t := by
  constructor
  · rintro (⟨other, -⟩ | ⟨-, held⟩)
    · simp [typed, saml2TokenType] at other
    · exact held
  · exact .saml typed

theorem token_iff {a : ExecutableAnswer} {t : String} : a.token = .ok t ↔ Carries a t := by
  have held (flaw : AnswerFlaw) (token : Option String) :
      ExecutableAnswer.orFlawed flaw token = .ok t ↔ token = some t := by
    cases token <;> simp [ExecutableAnswer.orFlawed, ExecutableAnswer.flawed]
  unfold ExecutableAnswer.token
  rcases typed : a.tokenType with _ | type
  · refine ⟨nofun, fun carries => ?_⟩
    cases carries <;> simp_all
  dsimp only
  by_cases known : type = jwtTokenType ∨ type = idTokenType
  · rw [if_pos known, held, carries_id typed known]
  by_cases saml : type = saml2TokenType
  · rw [if_neg known, if_pos saml, held, carries_saml (typed.trans (congrArg some saml))]
  · rw [if_neg known, if_neg saml]
    refine ⟨nofun, fun carries => ?_⟩
    rcases carries with ⟨other, -⟩ | ⟨other, -⟩
    · exact absurd (by simpa [typed, jwtTokenType, idTokenType] using other) known
    · exact absurd (by simpa [typed, saml2TokenType] using other) saml

theorem bind_ok_iff {ε α β : Type} {x : Except ε α} {f : α → Except ε β} {b : β} :
    (x >>= f) = .ok b ↔ ∃ a, x = .ok a ∧ f a = .ok b := by
  cases x <;> simp [bind, Except.bind]

theorem accept_iff {text : String} {seconds : Int} {kept : Bool} {t : String} :
    ExecutableAnswer.accept text seconds kept = .ok t ↔ Accepted text seconds kept t := by
  unfold ExecutableAnswer.accept Accepted
  simp only [← read_iff]
  rcases ExecutableAnswer.read? text with _ | a
  · simp
  · simp only [bind_ok_iff]
    constructor
    · rintro ⟨⟨⟩, version, ⟨⟩, success, ⟨⟩, lasts, token, carried, whole⟩
      split at whole
      · cases whole
      · rename_i solid
        cases whole
        refine ⟨a, rfl, version_iff.mp version, success_iff.mp success, expiration_iff.mp lasts,
          token_iff.mp carried, allBlank_iff.mp (Bool.eq_false_iff.mpr solid)⟩
    · rintro ⟨_, same, accepts⟩
      cases same
      refine ⟨(), version_iff.mpr accepts.version, (), success_iff.mpr accepts.success, (),
        expiration_iff.mpr accepts.lasts, t, token_iff.mpr accepts.carries, ?_⟩
      rw [if_neg (by simp [allBlank_iff.mpr accepts.solid])]

def Fails (result : Except Failure String) (transient : Bool) : Prop :=
  ∃ e : CredentialsError, result = .error (.error e) ∧ e.transient = transient

/-- The program of a command and its arguments are the words of the text. A text without words is
itself the program. -/
def Spells (command : String) (i : Invocation) : Prop :=
  Blank.Words command.toList ((i.program :: i.arguments).map String.toList) ∨
    Blank.Words command.toList [] ∧ i.program = command ∧ i.arguments = []

/-- What comes of a command that is started at `now`, has `allowed` nanoseconds and takes this
course, and after what time. Only for want of time may it be tried again; what it prints is
accepted by the clock as it stands after the command. -/
inductive Concludes (now : Calendar.Nanoseconds) (allowed : Nat) (result : Except Failure String) :
    Course → Nat → Prop
  | notStarted (fails : Fails result false) : Concludes now allowed result .notStarted 0
  | endless (fails : Fails result true) : Concludes now allowed result .endless allowed
  | late {duration : Nat} {code : Option Nat} {stdout stderr : Bytes} (late : allowed < duration)
      (fails : Fails result true) :
      Concludes now allowed result (.exits duration code stdout stderr) allowed
  | failed {duration : Nat} {code : Option Nat} {stdout stderr : Bytes} (timely : duration ≤ allowed)
      (failed : code ≠ some 0) (fails : Fails result false) :
      Concludes now allowed result (.exits duration code stdout stderr) duration
  | garbled {duration : Nat} {stdout stderr : Bytes} (timely : duration ≤ allowed)
      (garbled : Utf8.text? stdout = none) (fails : Fails result false) :
      Concludes now allowed result (.exits duration (some 0) stdout stderr) duration
  | printed {duration : Nat} {stdout stderr : Bytes} {text : String} (timely : duration ≤ allowed)
      (spelled : Utf8.text? stdout = some text)
      (taken : ∀ t, result = .ok t ↔ Accepted text ((now + duration) / 1000000000) false t)
      (refused : (∀ t, result ≠ .ok t) → ∃ e, result = .error (.error e)) :
      Concludes now allowed result (.exits duration (some 0) stdout stderr) duration

/-- The token of an acceptable answer in the output file. -/
def Kept (source : ExecutableSource) (w : World) (t : String) : Prop :=
  ∃ path content, source.outputFile = some path ∧
    (w.files.read? path).bind Utf8.text? = some content ∧
    Accepted content (w.now / 1000000000) true t

theorem taken_iff {x : Except CredentialsError String} {t : String} :
    x.toOption = some t ↔ x = .ok t := by
  cases x <;> simp [Except.toOption]

theorem kept_iff {source : ExecutableSource} {w : World} {t : String} :
    source.kept? w = some t ↔ Kept source w t := by
  unfold ExecutableSource.kept? Kept ExecutableSource.seconds
  simp only [← accept_iff, Option.bind_eq_bind, Option.bind_eq_some_iff, taken_iff]
  constructor
  · rintro ⟨path, given, content, read, accepted⟩
    exact ⟨path, content, given, read, accepted⟩
  · rintro ⟨path, content, given, read, accepted⟩
    exact ⟨path, given, content, read, accepted⟩

theorem mapped_ok {x : Except CredentialsError String} {t : String} :
    x.mapError Failure.error = .ok t ↔ x = .ok t := by
  cases x <;> simp [Except.mapError]

theorem mapped_error {x : Except CredentialsError String}
    (h : ∀ t, x.mapError Failure.error ≠ .ok t) : ∃ e, x.mapError Failure.error = .error (.error e) := by
  cases x with
  | error e => exact ⟨e, rfl⟩
  | ok t => exact absurd rfl (h t)

theorem course_concludes (now : Calendar.Nanoseconds) (allowed : Nat) (course : Course) :
    Concludes now allowed ((ExecutableSource.ofCompletion (now + course.wait allowed)
      (course.within allowed)).mapError Failure.error) course (course.wait allowed) := by
  cases course with
  | notStarted => exact .notStarted ⟨_, rfl, rfl⟩
  | endless => exact .endless ⟨_, rfl, rfl⟩
  | exits duration code stdout stderr =>
    by_cases timely : duration ≤ allowed
    · have waited : (Course.exits duration code stdout stderr).wait allowed = duration :=
        min_eq_left timely
      have seen : (Course.exits duration code stdout stderr).within allowed =
          .exited code stdout stderr := if_pos timely
      rw [waited, seen]
      rcases code with _ | _ | code
      · exact .failed timely nofun ⟨_, rfl, rfl⟩
      · rcases spelled : Utf8.text? stdout with _ | text
        · refine .garbled timely spelled ?_
          simp only [ExecutableSource.ofCompletion, spelled]
          exact ⟨_, rfl, rfl⟩
        · refine .printed timely spelled ?_ mapped_error
          simp only [ExecutableSource.ofCompletion, spelled]
          exact fun t => mapped_ok.trans accept_iff
      · exact .failed timely (by simp) ⟨_, rfl, rfl⟩
    · have waited : (Course.exits duration code stdout stderr).wait allowed = allowed :=
        min_eq_right (Nat.le_of_not_ge timely)
      have seen : (Course.exits duration code stdout stderr).within allowed = .unfinished :=
        if_neg timely
      rw [waited, seen]
      exact .late (Nat.lt_of_not_ge timely) ⟨_, rfl, rfl⟩

theorem invocation_spells (source : ExecutableSource) (context : ExecutableSource.Context)
    (env : Environment) : Spells source.command (source.invocation context env) := by
  have read : Blank.Words source.command.toList (Blank.wordsList source.command.toList) :=
    Blank.words_iff.mpr rfl
  unfold ExecutableSource.invocation Blank.words
  rcases found : Blank.wordsList source.command.toList with _ | ⟨program, arguments⟩ <;>
    rw [found] at read
  · exact .inr ⟨read, rfl, rfl⟩
  · refine .inl ?_
    simpa using read

theorem executable_forbidden (source : ExecutableSource) (context : ExecutableSource.Context)
    {w : World}
    (forbidden : w.environment.text? "GOOGLE_EXTERNAL_ACCOUNT_ALLOW_EXECUTABLES" ≠ some "1") :
    source.subjectToken context w = (.error (.error (.ofFault .executablesForbidden)), w) := by
  have closed : ExecutableSource.isAllowed w.environment = false := by
    simpa [ExecutableSource.isAllowed, ExecutableSource.permissionVariable] using forbidden
  unfold ExecutableSource.subjectToken
  rw [get_bind, closed]
  rfl

theorem executable_allowed (source : ExecutableSource) (context : ExecutableSource.Context)
    {w : World}
    (allowed : w.environment.text? "GOOGLE_EXTERNAL_ACCOUNT_ALLOW_EXECUTABLES" = some "1") :
    source.subjectToken context w = match source.kept? w with
      | some t => (.ok t, w)
      | none =>
        let i := source.invocation context w.environment
        let course := (w.programs i w.files).1
        let elapsed := course.wait source.allowedNanoseconds
        ((ExecutableSource.ofCompletion (w.now + elapsed)
            (course.within source.allowedNanoseconds)).mapError Failure.error,
          { w with
            files := (w.programs i w.files).2
            now := w.now + elapsed
            ticks := w.ticks + elapsed
            events := w.events ++ [.command i] }) := by
  have opened : ExecutableSource.isAllowed w.environment = true := by
    simpa [ExecutableSource.isAllowed, ExecutableSource.permissionVariable] using allowed
  unfold ExecutableSource.subjectToken
  rw [get_bind, opened]
  rcases source.kept? w with _ | t
  · show (World.run _ _ >>= _) w = _
    rw [bind_ok (run_run _ _ w), get_bind, ofExcept_run]
    rfl
  · rfl

/-- A fresh text may leave out what a kept one has to say. -/
theorem accepted_fresh {text : String} {seconds : Int} {t : String}
    (h : Accepted text seconds true t) : Accepted text seconds false t := by
  obtain ⟨a, decoded, accepts⟩ := h
  refine ⟨a, decoded, accepts.version, accepts.success, ?_, accepts.carries, accepts.solid⟩
  have lasts := accepts.lasts
  rcases given : a.expiration with _ | moment
  · rfl
  · rwa [given] at lasts

/-- Without permission nothing is read or run. With it an acceptable answer in the output file is
taken and nothing is run; without such an answer the command of the configuration runs once, for as
long as it is allowed to, and what comes of it depends on the command alone. Whatever is accepted
from the file is accepted from a command. -/
theorem executable_decides (source : ExecutableSource) (context : ExecutableSource.Context)
    (w : World) :
    (w.environment.text? "GOOGLE_EXTERNAL_ACCOUNT_ALLOW_EXECUTABLES" ≠ some "1" →
      ∃ e : CredentialsError, e.transient = false ∧ ∀ files programs,
        source.subjectToken context { w with files := files, programs := programs } =
          (.error (.error e), { w with files := files, programs := programs })) ∧
    (w.environment.text? "GOOGLE_EXTERNAL_ACCOUNT_ALLOW_EXECUTABLES" = some "1" →
      (∀ t, Kept source w t → source.subjectToken context w = (.ok t, w)) ∧
      ((∀ t, ¬ Kept source w t) → ∃ i course files result elapsed,
        Spells source.command i ∧ w.programs i w.files = (course, files) ∧
        Concludes w.now (source.timeout.getD 30000 * 1000000) result course elapsed ∧
        source.subjectToken context w = (result, { w with
          files := files
          now := w.now + (elapsed : Nat)
          ticks := w.ticks + (elapsed : Nat)
          events := w.events ++ [.command i] }))) ∧
    ∀ text seconds t, Accepted text seconds true t → Accepted text seconds false t := by
  refine ⟨fun forbidden => ⟨_, rfl, fun files programs =>
    executable_forbidden source context forbidden⟩,
    fun allowed => ⟨fun t kept => ?_, fun none => ?_⟩,
    fun _ _ _ => accepted_fresh⟩
  · rw [executable_allowed source context allowed, kept_iff.mpr kept]
  · have nothing : source.kept? w = Option.none :=
      Option.eq_none_iff_forall_ne_some.mpr fun t found => none t (kept_iff.mp found)
    refine ⟨_, _, _, _, _, invocation_spells source context w.environment, rfl,
      course_concludes w.now source.allowedNanoseconds _, ?_⟩
    rw [executable_allowed source context allowed, nothing]

def answering : ExecutableSource := ⟨" answer\t--now", none, some "answer"⟩

def keptAnswer : String :=
  "\x7b\"version\":1,\"success\":true,\"expiration_time\":11," ++
    "\"token_type\":\"urn:ietf:params:oauth:token-type:id_token\",\"id_token\":\"kept\"\x7d"

def freshAnswer : String :=
  "\x7b\"version\":1,\"success\":true," ++
    "\"token_type\":\"urn:ietf:params:oauth:token-type:saml2\",\"saml_response\":\"fresh\"\x7d"

/-- A kept answer that lasts for eleven seconds, and a command that prints another one after some
time if it is given its argument. -/
def answerable (now : Calendar.Nanoseconds) (duration : Nat) : World :=
  ⟨Environment.empty.setText "GOOGLE_EXTERNAL_ACCOUNT_ALLOW_EXECUTABLES" "1",
    FileTree.empty.put ["work", "answer"] (.file (Utf8.ofString keptAnswer)),
    fun i files =>
      if i.program = "answer" ∧ i.arguments = ["--now"] then
        (.exits duration (some 0) (Utf8.ofString freshAnswer) [], files)
      else (.notStarted, files),
    .scripted, [], [], now, 0, [], .plain⟩

theorem kept_lasts (duration : Nat) :
    answering.kept? (answerable 10999999999 duration) = some "kept" ∧
    answering.kept? (answerable 11000000000 duration) = none := by
  have answers : answering.kept? (answerable 10999999999 0) = some "kept" ∧
      answering.kept? (answerable 11000000000 0) = none := by decide +kernel
  exact answers

theorem answering_spelled {i : Invocation} (h : Spells answering.command i) :
    i.program = "answer" ∧ i.arguments = ["--now"] := by
  have found : Blank.wordsList answering.command.toList =
      ["answer", "--now"].map String.toList := by decide +kernel
  rcases h with read | ⟨read, -⟩
  · have same := (Blank.words_iff.mp read).symm.trans found
    have texts := List.map_injective_iff.mpr (fun _ _ => String.toList_inj.mp) same
    simpa using texts
  · have same := (Blank.words_iff.mp read).symm.trans found
    cases same

theorem answerable_runs (now : Calendar.Nanoseconds) (duration : Nat) {i : Invocation}
    (spells : Spells answering.command i) (files : FileTree) :
    (answerable now duration).programs i files =
      (.exits duration (some 0) (Utf8.ofString freshAnswer) [], files) :=
  if_pos (answering_spelled spells)

/-- The kept answer in its last moment, the command after that moment, a command that takes longer
than it may, and no permission. -/
theorem executable_decides_kept :
    answering.subjectToken ⟨"", "", none⟩ (answerable 10999999999 1000000000) =
      (.ok "kept", answerable 10999999999 1000000000) ∧
    (∃ i, i.program = "answer" ∧ i.arguments = ["--now"] ∧
      answering.subjectToken ⟨"", "", none⟩ (answerable 11000000000 1000000000) =
        (.ok "fresh", { answerable 11000000000 1000000000 with
          now := 12000000000, ticks := 1000000000, events := [.command i] })) ∧
    (∃ e : CredentialsError, e.transient = true ∧
      (answering.subjectToken ⟨"", "", none⟩ (answerable 11000000000 30000000001)).1 =
        .error (.error e)) ∧
    ∃ e : CredentialsError, answering.subjectToken ⟨"", "", none⟩
        { answerable 0 0 with environment := .empty } =
      (.error (.error e), { answerable 0 0 with environment := .empty }) := by
  have permits : (answerable 0 0).environment.text?
      "GOOGLE_EXTERNAL_ACCOUNT_ALLOW_EXECUTABLES" = some "1" := by decide +kernel
  have allowed : ∀ now duration, (answerable now duration).environment.text?
      "GOOGLE_EXTERNAL_ACCOUNT_ALLOW_EXECUTABLES" = some "1" := fun _ _ => permits
  have none_kept : ∀ duration t, ¬ Kept answering (answerable 11000000000 duration) t := by
    intro duration t kept
    have found := kept_iff.mpr kept
    rw [(kept_lasts duration).2] at found
    cases found
  have runs : ∀ duration : Nat, ∃ i result elapsed, i.program = "answer" ∧ i.arguments = ["--now"] ∧
      Concludes 11000000000 30000000000 result
        (.exits duration (some 0) (Utf8.ofString freshAnswer) []) elapsed ∧
      answering.subjectToken ⟨"", "", none⟩ (answerable 11000000000 duration) =
        (result, { answerable 11000000000 duration with
          now := 11000000000 + (elapsed : Nat), ticks := 0 + (elapsed : Nat),
          events := [.command i] }) := by
    intro duration
    obtain ⟨i, course, files, result, elapsed, spells, ran, concludes, outcome⟩ :=
      ((executable_decides answering ⟨"", "", none⟩ (answerable 11000000000 duration)).2.1
        (allowed _ _)).2 (none_kept _)
    obtain ⟨program, arguments⟩ := answering_spelled spells
    rw [answerable_runs _ _ spells, Prod.mk.injEq] at ran
    obtain ⟨rfl, rfl⟩ := ran
    exact ⟨i, result, elapsed, program, arguments, concludes, outcome⟩
  refine ⟨?kept, ?fresh, ?late, ?forbidden⟩
  case kept =>
    exact ((executable_decides answering ⟨"", "", none⟩ (answerable 10999999999 1000000000)).2.1
      (allowed _ _)).1 "kept" (kept_iff.mp (kept_lasts _).1)
  case fresh =>
    obtain ⟨i, result, elapsed, program, arguments, concludes, outcome⟩ := runs 1000000000
    have accepted : Accepted freshAnswer 12 false "fresh" :=
      accept_iff.mp (taken_iff.mp (by decide +kernel))
    cases concludes with
    | late late => exact absurd late (by decide)
    | failed _ failed => exact absurd rfl failed
    | garbled _ garbled => simp [Utf8.text_ofString] at garbled
    | printed _ spelled taken =>
      rw [Utf8.text_ofString, Option.some.injEq] at spelled
      subst spelled
      rw [(taken "fresh").mpr accepted] at outcome
      exact ⟨i, program, arguments, outcome⟩
  case late =>
    obtain ⟨i, result, elapsed, -, -, concludes, outcome⟩ := runs 30000000001
    rw [outcome]
    cases concludes with
    | late _ fails =>
      obtain ⟨e, failed, again⟩ := fails
      exact ⟨e, again, failed⟩
    | failed timely | garbled timely | printed timely => exact absurd timely (by decide)
  case forbidden =>
    obtain ⟨e, -, refused⟩ := (executable_decides answering ⟨"", "", none⟩
      { answerable 0 0 with environment := .empty }).1 (by decide +kernel)
    exact ⟨e, refused _ _⟩

end WorkloadIdentity.Executable
