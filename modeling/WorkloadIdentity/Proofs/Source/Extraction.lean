import Mathlib.Data.List.Induction
import Mathlib.Data.List.TakeWhile
import WorkloadIdentity.Proofs.Config.Acceptance
import WorkloadIdentity.Proofs.Json.Extent
import WorkloadIdentity.Proofs.Json.Values
import WorkloadIdentity.Proofs.Retrieval.Deferred
import WorkloadIdentity.Proofs.Session.Matching
import WorkloadIdentity.Proofs.Source.Executable
import WorkloadIdentity.Proofs.Text.Blank

/-!
# Subject tokens out of files and answers

A format that is accepted says what a content has for a token: the text without the white space
around it, or a string under a name. Neither is ever blank, and so is no subject token that is sent,
whichever source it is from.
-/

set_option autoImplicit false

namespace WorkloadIdentity.Extraction

open Blank (isBlank trimList trim_parts drop_front)
open Matching (Gives gives_bind gives_ofExcept Only)
open Journey (bind_ok get_bind built_bind ofExcept_run send_run answerTo answer_next extract_dull)

/-- All of the content but the white space at its ends. -/
structure Trims (content t : String) : Prop where
  parts : ∃ before after, content.toList = before ++ t.toList ++ after ∧
    (∀ c ∈ before, isBlank c = true) ∧ ∀ c ∈ after, isBlank c = true
  front : ∀ c ∈ t.toList.head?, isBlank c = false
  back : ∀ c ∈ t.toList.getLast?, isBlank c = false

theorem trims_iff {content t : String} : Trims content t ↔ t = Blank.trim content := by
  constructor
  · rintro ⟨⟨before, after, parts, first, last⟩, front, back⟩
    rw [Blank.trim, parts, trim_parts first last front back, String.ofList_toList]
  · intro same
    obtain ⟨rest, dropped⟩ : ∃ rest, content.toList.dropWhile isBlank = rest := ⟨_, rfl⟩
    have spelled : t.toList = (rest.reverse.dropWhile isBlank).reverse := by
      rw [same, Blank.trim, String.toList_ofList, trimList, dropped]
    have kept : t.toList ++ (rest.reverse.takeWhile isBlank).reverse = rest := by
      rw [spelled, ← List.reverse_append, List.takeWhile_append_dropWhile, List.reverse_reverse]
    constructor
    · refine ⟨content.toList.takeWhile isBlank, (rest.reverse.takeWhile isBlank).reverse, ?_,
        fun c => List.mem_takeWhile_imp, fun c member => ?_⟩
      · rw [List.append_assoc, kept, ← dropped, List.takeWhile_append_dropWhile]
      · exact List.mem_takeWhile_imp (List.mem_reverse.mp member)
    · intro c first
      refine drop_front content.toList c ?_
      rw [dropped, ← kept, List.head?_append, Option.mem_def.mp first]
      rfl
    · rw [spelled, List.getLast?_reverse]
      exact drop_front rest.reverse

/-- The content is an object, and the last of its members of this name is the string. -/
def Member (content name t : String) : Prop :=
  ∃ raw members before after, Tree.ofString? content = some (.object raw) ∧
    Tree.membersAt? 126 raw = some members ∧ members = before ++ (name, .string t) :: after ∧
    ∀ m ∈ after, m.1 ≠ name

theorem get_ofList (members : List (String × Json)) (name : String) :
    Members.get? (Members.ofList members) name = members.reverse.lookup name := by
  induction members using List.reverseRecOn with
  | nil => rfl
  | append_singleton members m ih =>
    have last : Members.ofList (members ++ [m]) =
        Members.insert m.1 m.2 (Members.ofList members) := by
      simp [Members.ofList]
    rw [last, List.reverse_append, List.reverse_singleton, List.singleton_append, List.lookup_cons]
    by_cases same : name = m.1
    · subst same
      simp [Members.get?_insert_self]
    · have other : (name == m.1) = false := by simpa using same
      rw [Members.get?_insert_of_ne _ _ same, other, ih]

theorem lookup_last {members : List (String × Json)} {name : String} {value : Json} :
    members.reverse.lookup name = some value ↔
      ∃ before after, members = before ++ (name, value) :: after ∧ ∀ m ∈ after, m.1 ≠ name := by
  rw [List.lookup_eq_some_iff]
  constructor
  · rintro ⟨after, before, parts, others⟩
    refine ⟨before.reverse, after.reverse, ?_, fun m later same => ?_⟩
    · rw [← List.reverse_reverse members, parts]
      simp
    · have := others m (List.mem_reverse.mp later)
      simp [same] at this
  · rintro ⟨before, after, rfl, others⟩
    refine ⟨after.reverse, before.reverse, by simp, fun m later => ?_⟩
    have := others m (List.mem_reverse.mp later)
    simpa using fun same => this same.symm

theorem member_iff {content name t : String} :
    TokenFormat.memberText name content = .ok t ↔ Member content name t := by
  unfold TokenFormat.memberText
  constructor
  · intro h
    split at h
    · cases h
    rename_i document read
    split at h
    · rename_i token text
      cases h
      obtain ⟨value, got, text⟩ := Option.bind_eq_some_iff.mp text
      rw [Grammar.string_iff.mp text] at got
      obtain ⟨tree, parsed, valued⟩ := Option.bind_eq_some_iff.mp read
      cases document with
      | object held =>
        obtain ⟨raw, members, rfl, each, rfl⟩ := Tree.value_object_iff.mp valued
        rw [Json.get?, get_ofList] at got
        obtain ⟨before, after, parts⟩ := lookup_last.mp got
        exact ⟨raw, members, before, after, parsed, each, parts⟩
      | _ => cases got
    · cases h
  · rintro ⟨raw, members, before, after, parsed, each, parts⟩
    have read : Json.ofString? content = some (.object (Members.ofList members)) :=
      Option.bind_eq_some_iff.mpr ⟨_, parsed, Tree.value_object_iff.mpr ⟨raw, members, rfl, each, rfl⟩⟩
    have got : (Json.object (Members.ofList members)).get? name = some (.string t) := by
      rw [Json.get?, get_ofList]
      exact lookup_last.mpr ⟨before, after, parts⟩
    simp only [read, got]
    rfl

/-- What a declared format says the token is; without one the content is a text. -/
inductive Takes (declared : Option (String × Option String)) (content t : String) : Prop
  | text (kind : declared = none ∨ ∃ name, declared = some ("text", name))
      (trims : Trims content t) (proper : t ≠ "") : Takes declared content t
  | json {name : String} (kind : declared = some ("json", some name))
      (held : Member content name t) (solid : ∃ c ∈ t.toList, isBlank c = false) :
      Takes declared content t

theorem trimmed_solid {content t : String} (h : Trims content t) :
    Blank.allBlank t = false ↔ t ≠ "" := by
  rw [Grammar.allBlank_iff]
  constructor
  · rintro ⟨c, member, -⟩ rfl
    cases member
  · intro proper
    rcases letters : t.toList with _ | ⟨c, rest⟩
    · exact absurd (String.toList_eq_nil_iff.mp letters) proper
    · exact ⟨c, List.mem_cons_self, h.front c (by rw [letters]; rfl)⟩

theorem extract_ok {format : TokenFormat} {content t : String} :
    format.extract content = .ok t ↔
      format.candidate content = .ok t ∧ Blank.allBlank t = false := by
  unfold TokenFormat.extract
  rcases format.candidate content with e | token
  · exact ⟨nofun, fun h => nomatch h.1⟩
  · simp only [bind, Except.bind]
    by_cases blank : Blank.allBlank token = true
    · rw [if_pos blank]
      refine ⟨nofun, fun ⟨same, solid⟩ => ?_⟩
      cases same
      exact absurd blank (by simp [solid])
    · rw [if_neg blank]
      refine ⟨fun same => ⟨same, ?_⟩, fun h => h.1⟩
      cases same
      exact Bool.eq_false_iff.mpr blank

theorem checked_cases {declared : Option (String × Option String)} {format : TokenFormat}
    (checked : TokenFormat.checkOptional declared = .ok format) :
    (format = .text ∧ (declared = none ∨ ∃ name, declared = some ("text", name))) ∨
      ∃ name, format = .json name ∧ declared = some ("json", some name) := by
  rcases declared with _ | raw
  · cases checked
    exact .inl ⟨rfl, .inl rfl⟩
  · simp only [TokenFormat.checkOptional, TokenFormat.check] at checked
    split at checked
    · cases checked
      exact .inl ⟨rfl, .inr ⟨_, rfl⟩⟩
    · split at checked
      · cases checked
      · cases checked
        exact .inr ⟨_, rfl, rfl⟩
    · cases checked
    · cases checked

theorem extract_iff {declared : Option (String × Option String)} {format : TokenFormat}
    (checked : TokenFormat.checkOptional declared = .ok format) {content t : String} :
    format.extract content = .ok t ↔ Takes declared content t := by
  rw [extract_ok]
  obtain ⟨rfl, kind⟩ | ⟨name, rfl, rfl⟩ := checked_cases checked
  · constructor
    · rintro ⟨taken, solid⟩
      have trims : Trims content t := trims_iff.mpr (Except.ok.inj taken).symm
      exact .text kind trims ((trimmed_solid trims).mp solid)
    · rintro (⟨-, trims, proper⟩ | ⟨other, -, -⟩)
      · exact ⟨congrArg Except.ok (trims_iff.mp trims).symm, (trimmed_solid trims).mpr proper⟩
      · rcases kind with rfl | ⟨_, rfl⟩ <;> simp at other
  · constructor
    · rintro ⟨taken, solid⟩
      exact .json rfl (member_iff.mp taken) (Grammar.allBlank_iff.mp solid)
    · rintro (⟨other, -, -⟩ | ⟨kind, held, solid⟩)
      · simp at other
      · cases kind
        exact ⟨member_iff.mpr held, Grammar.allBlank_iff.mpr solid⟩

theorem member_listed {depth : ℕ} {raw : List (Option String × Tree)}
    {members : List (String × Json)} (h : Tree.membersAt? depth raw = some members)
    {name t : String} (held : (name, .string t) ∈ members) :
    (some name, .string (some t)) ∈ raw := by
  induction raw generalizing members with
  | nil =>
    cases h
    cases held
  | cons m rest ih =>
    obtain ⟨other, tree⟩ := m
    simp only [Tree.membersAt?, Option.bind_eq_bind, Option.bind_eq_some_iff] at h
    obtain ⟨known, rfl, value, valued, later, read, same⟩ := h
    cases same
    rcases List.mem_cons.mp held with here | there
    · cases here
      exact List.mem_cons.mpr (.inl (by rw [Tree.value_string_iff.mp valued]))
    · exact List.mem_cons_of_mem _ (ih read there)

theorem trim_weight {content t : String} (h : Trims content t) :
    Tree.weight (t.toList.map some) = Tree.weight (content.toList.map some) := by
  obtain ⟨⟨before, after, parts, first, last⟩, -, -⟩ := h
  have weightless {blanks : List Char} (blank : ∀ c ∈ blanks, isBlank c = true) :
      (blanks.map some).countP Tree.isSolid = 0 := by
    rw [List.countP_eq_zero, List.forall_mem_map]
    intro c member
    simp [Tree.isSolid, blank c member]
  rw [parts]
  simp only [List.map_append, Tree.weight, List.countP_append, weightless first, weightless last]
  omega

/-- The token of a document is a part of it. -/
theorem member_smaller {content name t : String} (h : Member content name t) :
    t ≠ content ∧ t ≠ Blank.trim content := by
  obtain ⟨raw, members, before, after, parsed, each, rfl, -⟩ := h
  have held : (name, Json.string t) ∈ before ++ (name, .string t) :: after := by simp
  have lighter := Tree.document_weight parsed (member_listed each held)
  have same := trim_weight (trims_iff.mpr (rfl : Blank.trim content = _))
  constructor
  · rintro rfl
    exact absurd lighter (Nat.lt_irrefl _)
  · rintro rfl
    rw [same] at lighter
    exact absurd lighter (Nat.lt_irrefl _)

/-- A result that says of the content just what it has for a token. -/
structure Faithful (declared : Option (String × Option String)) (content : String)
    (result : Except Failure String) : Prop where
  exact : ∀ t, result = .ok t ↔ Takes declared content t
  part : ∀ name t, declared = some ("json", some name) → result = .ok t →
    t ≠ content ∧ t ≠ Blank.trim content
  final : ∀ failure, result = .error failure →
    ∃ e : CredentialsError, failure = .error e ∧ e.transient = false

section Contents

variable {declared : Option (String × Option String)} {format : TokenFormat}
  (checked : TokenFormat.checkOptional declared = .ok format)

include checked

theorem extract_faithful (content : String) :
    Faithful declared content ((format.extract content).mapError Failure.error) := by
  have takes (t : String) : (format.extract content).mapError Failure.error = .ok t ↔
      Takes declared content t := Executable.mapped_ok.trans (extract_iff checked)
  refine ⟨takes, fun name t kind given => ?_, fun failure failed => ?_⟩
  · cases (takes t).mp given with
    | text other => simp [kind] at other
    | json _ held => exact member_smaller held
  · rcases taken : format.extract content with e | t <;> rw [taken] at failed <;> cases failed
    exact ⟨e, rfl, (extract_dull format content e taken).2.1⟩

theorem file_faithful {path content : String} {w : World}
    (held : (w.files.read? path).bind Utf8.text? = some content) :
    Faithful declared content (FileSource.subjectToken ⟨path, format⟩ w).1 := by
  have read : World.readText path w = (.ok content, w) := by
    unfold World.readText
    rw [get_bind, held]
    rfl
  unfold FileSource.subjectToken
  rw [bind_ok read, ofExcept_run]
  exact extract_faithful checked content

theorem url_faithful {url : String} {headers : List (String × String)} {request : Request}
    {response : Response} {content : String} {w : World}
    (built : UrlSource.request? ⟨url, headers, format⟩ = some request)
    (connected : w.network = .scripted) (met : answerTo w 0 = .response response)
    (success : Status.isSuccess response.status = true)
    (spelled : Utf8.text? response.body = some content) :
    Faithful declared content (UrlSource.subjectToken ⟨url, headers, format⟩ w).1 := by
  have sent : World.send request w = (.ok response, (w.answer request).2) := by
    rw [send_run, connected, answer_next request w, met]
  unfold UrlSource.subjectToken
  rw [built, built_bind, bind_ok sent, ofExcept_run, UrlSource.read, if_pos success, spelled]
  exact extract_faithful checked content

end Contents

theorem extract_solid {format : TokenFormat} {content t : String}
    (h : format.extract content = .ok t) : ∃ c ∈ t.toList, isBlank c = false :=
  Grammar.allBlank_iff.mp (extract_ok.mp h).2

theorem completion_solid {now : Calendar.Nanoseconds} {completion : Completion} {t : String}
    (h : ExecutableSource.ofCompletion now completion = .ok t) :
    ∃ c ∈ t.toList, isBlank c = false := by
  unfold ExecutableSource.ofCompletion at h
  split at h
  case h_3 =>
    split at h
    · cases h
    · obtain ⟨_, -, accepts⟩ := Executable.accept_iff.mp h
      exact accepts.solid
  all_goals cases h

theorem executable_solid {source : ExecutableSource} {context : ExecutableSource.Context}
    {t : String} (h : Gives (source.subjectToken context) t) :
    ∃ c ∈ t.toList, isBlank c = false := by
  obtain ⟨w, w', ran⟩ := h
  by_cases allowed :
      w.environment.text? "GOOGLE_EXTERNAL_ACCOUNT_ALLOW_EXECUTABLES" = some "1"
  · rw [Executable.executable_allowed source context allowed] at ran
    rcases kept : source.kept? w with _ | token <;> rw [kept] at ran
    · exact completion_solid (Executable.mapped_ok.mp (congrArg Prod.fst ran))
    · cases ran
      obtain ⟨_, _, -, -, _, -, accepts⟩ := Executable.kept_iff.mp kept
      exact accepts.solid
  · rw [Executable.executable_forbidden source context allowed] at ran
    cases ran

theorem signed_solid (signed : SignedRequest) : ∃ c ∈ signed.token.toList, isBlank c = false := by
  obtain ⟨rest, printed⟩ : ∃ rest, signed.toJson.print = '\x7b' :: rest := ⟨_, rfl⟩
  refine ⟨'%', ?_, by decide⟩
  rw [SignedRequest.token, String.toList_ofList, printed, Form.encodeText, Utf8.encode_cons,
    List.flatMap_append]
  exact List.mem_append_left _ (by decide)

theorem aws_solid {source : AwsSource} {audience t : String}
    (h : Gives (source.subjectToken audience) t) : ∃ c ∈ t.toList, isBlank c = false := by
  obtain ⟨w, w', ran⟩ := h
  rw [Journey.subject_token_run] at ran
  obtain ⟨⟨session, region⟩, -, onward⟩ := gives_bind ⟨w, w', ran⟩
  obtain ⟨credentials, -, last⟩ := gives_bind onward
  have signed := gives_ofExcept last
  unfold AwsSource.signedToken at signed
  obtain ⟨request, -, whole⟩ := Executable.bind_ok_iff.mp signed
  -- `cases` would unfold the printed token here
  rw [← Except.ok.inj whole]
  exact signed_solid request

theorem source_solid {config : Configuration} (given : config.source ≠ .programmatic) {t : String}
    (h : Gives config.sourceToken t) : ∃ c ∈ t.toList, isBlank c = false := by
  unfold Configuration.sourceToken at h
  rcases hs : config.source with source | source | source | source | _ <;> rw [hs] at h
  · obtain ⟨content, -, taken⟩ := gives_bind h
    exact extract_solid (gives_ofExcept taken)
  · obtain ⟨_, -, answered⟩ := gives_bind h
    obtain ⟨response, -, read⟩ := gives_bind answered
    have taken := gives_ofExcept read
    unfold UrlSource.read at taken
    split at taken
    · split at taken
      · cases taken
      · exact extract_solid taken
    · cases taken
  · exact executable_solid h
  · exact aws_solid h
  · exact absurd hs given

/-- A request that posts a form has one subject token in it, and that is not blank. The other
requests that post, for the token of an account, have a document for their body. -/
def Substantial : Event → Prop
  | .request r => r.method = .post →
      r.headers.head? ≠ some (Messages.contentType "application/json") →
      ∃ t, (Form.decode r.body).filter (fun pair => pair.1 == "subject_token") =
          [("subject_token", t)] ∧ ∃ c ∈ t.toList, isBlank c = false
  | .command _ | .provider => True

theorem parameters_token (config : Configuration) (t : String) :
    (Exchange.parameters config t).filter (fun pair => pair.1 == "subject_token") =
      [("subject_token", t)] := by
  have scopes (scopes : List String) :
      (Exchange.scopePair scopes).filter (fun pair => pair.1 == "subject_token") = [] := by
    unfold Exchange.scopePair
    split <;> simp
  have options :
      (Exchange.optionsPair config).filter (fun pair => pair.1 == "subject_token") = [] := by
    unfold Exchange.optionsPair
    split <;> simp
  simp [Exchange.parameters, scopes, options]

theorem retrieve_substantial {config : Configuration} (given : config.source ≠ .programmatic) :
    Matching.Matches (Only Substantial) config.retrieve config.retrieve := by
  refine Matching.retrieve_only ⟨fun fetches _ => ⟨rfl, fun posts => absurd posts fetches⟩,
    fun _ => ⟨rfl, trivial⟩, rfl, trivial⟩ ?_ ?_
  · intro t sourced request made _ _
    rw [Messages.request_eq] at made
    obtain ⟨uri, -, rfl⟩ := Option.map_eq_some_iff.mp made
    exact ⟨t, by rw [Form.decode_encode, parameters_token], source_solid given sourced⟩
  · intro i token request made _ other
    exact absurd (by rw [(Messages.account_request_asks made).headers]; rfl) other

theorem document_source {value : Json} {overrides : Overrides} {config : Configuration}
    (built : Configuration.build value overrides = .ok config) : config.source ≠ .programmatic := by
  obtain ⟨document, assembled⟩ := Configuration.build_ok built
  obtain ⟨-, _, source, -, parsed, rfl⟩ := Configuration.ofDocument_ok.mp assembled
  rintro rfl
  have held := Grammar.source_iff.mp parsed
  generalize document.source = described at held
  cases held

/-- A format that is accepted takes from a content just what it says, be it a file's or the body of
a successful answer, and fails for good where there is nothing to take. No request for a grant has
a blank subject token, whatever source a document names. -/
theorem subject_tokens_faithful :
    (∀ declared format, TokenFormat.checkOptional declared = .ok format → ∀ content : String,
      (∀ path (w : World), (w.files.read? path).bind Utf8.text? = some content →
        Faithful declared content (FileSource.subjectToken ⟨path, format⟩ w).1) ∧
      ∀ url headers request response (w : World),
        UrlSource.request? ⟨url, headers, format⟩ = some request → w.network = .scripted →
        answerTo w 0 = .response response → Status.isSuccess response.status = true →
        Utf8.text? response.body = some content →
        Faithful declared content (UrlSource.subjectToken ⟨url, headers, format⟩ w).1) ∧
    ∀ value overrides config, Configuration.build value overrides = .ok config →
      ∀ (world : World) (steps : List Session.Step),
        ∀ sight ∈ (OneCell.observe (.new config world) steps).1, ∀ event ∈ sight.2,
          Substantial event :=
  ⟨fun _ _ checked _ => ⟨fun _ _ held => file_faithful checked held,
      fun _ _ _ _ _ built connected met success spelled =>
        url_faithful checked built connected met success spelled⟩,
    fun _ _ _ built world steps =>
      Matching.observe_only (retrieve_substantial (document_source built)) world steps⟩

def repeated : String := " \x7b\"t\":\"a\",\"t\":\" b \"\x7d\n"

def holding : World := { Deferred.obliging with
  files := FileTree.empty.put ["work", "token"] (.file (Utf8.ofString repeated)) }

theorem subject_tokens_faithful_repeated :
    let result := (FileSource.subjectToken ⟨"token", .json "t"⟩ holding).1
    Faithful (some ("json", some "t")) repeated result ∧ result.toOption = some " b " ∧
    ∀ sight ∈ (OneCell.observe (.new (Deferred.configuration "https://sts/token" none none)
        Deferred.obliging) [.call ⟨.refresh, none⟩ false]).1,
      sight.2.length = 1 ∧ ∀ event ∈ sight.2, Substantial event := by
  obtain ⟨contents, sessions⟩ := subject_tokens_faithful
  refine ⟨?_, by decide +kernel, fun sight member => ⟨?_, ?_⟩⟩
  · exact (contents (some ("json", some "t")) (.json "t") rfl repeated).1 "token" holding
      (by decide +kernel)
  · have lengths : (OneCell.observe (.new (Deferred.configuration "https://sts/token" none none)
        Deferred.obliging) [.call ⟨.refresh, none⟩ false]).1.map (fun sight => sight.2.length) =
        [1] := by decide +kernel
    have among := List.mem_map_of_mem (f := fun sight : OneCell.Sight => sight.2.length) member
    rw [lengths] at among
    exact List.mem_singleton.mp among
  · have built : Configuration.build
        (Builders.written (Deferred.document "https://sts/token" none none)) {} =
          .ok (Deferred.configuration "https://sts/token" none none) :=
      Deferred.document_builds (by decide +kernel) rfl
    exact sessions _ {} _ built Deferred.obliging [.call ⟨.refresh, none⟩ false] sight member

end WorkloadIdentity.Extraction
