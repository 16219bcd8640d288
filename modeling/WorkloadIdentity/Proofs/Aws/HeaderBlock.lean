import WorkloadIdentity.Proofs.Aws.Canonical
import WorkloadIdentity.Proofs.Aws.SubjectToken
import WorkloadIdentity.Proofs.Source.Extraction
import WorkloadIdentity.Proofs.Url.Hosts

/-! The signed headers in a canonical request. Each is a name, a colon and a value, written as
they are, with a line feed after them. Whoever splits the request at its line feeds gets back the
headers that were signed as long as no value has a line feed of its own. The host and the date
never have one, and neither has white space around it; the audience is trimmed, and the session
token is taken as it comes. -/

set_option autoImplicit false

namespace WorkloadIdentity.HeaderBlock

open Signature Canonical
open AwsToken (signedEntries signed_headers_eq entries_ascend entries_lower entries_names)

def headerLine (header : String × String) : List Char :=
  header.1.toList ++ ':' :: header.2.toList

/-- The lines after the query, up to the first one that is empty. -/
def blockLines (canonical : List Char) : List (List Char) :=
  ((lines canonical).drop 3).takeWhile (!·.isEmpty)

def readLine? (line : List Char) : Option (String × String) :=
  match line.dropWhile (· != ':') with
  | ':' :: value => some (String.ofList (line.takeWhile (· != ':')), String.ofList value)
  | _ => none

def readHeaders? (canonical : List Char) : Option (List (String × String)) :=
  (blockLines canonical).mapM readLine?

theorem readLine_iff {header : String × String} (free : ':' ∉ header.1.toList) (line : List Char) :
    readLine? line = some header ↔ line = headerLine header := by
  unfold readLine? headerLine
  constructor
  · intro read
    have whole := List.takeWhile_append_dropWhile (p := (· != ':')) (l := line)
    split at read
    · rename_i value cut
      rw [cut] at whole
      cases read
      simpa using whole.symm
    · cases read
  · rintro rfl
    have kept : ∀ c ∈ header.1.toList, (c != ':') = true := by
      intro c among
      rw [bne_iff_ne]
      rintro rfl
      exact free among
    rw [List.dropWhile_append_of_pos kept, Calendar.before_mark _ free]
    simp

def opening (text : List Char) : List (List Char) := (lines text).takeWhile (!·.isEmpty)

theorem opening_line {line : List Char} (unbroken : '\n' ∉ line) (some_text : line ≠ [])
    (rest : List Char) : opening (line ++ '\n' :: rest) = line :: opening rest := by
  unfold opening lines
  rw [List.splitOn_append_cons_self_of_not_mem unbroken,
    List.takeWhile_cons_of_pos (by simpa using some_text)]

theorem opening_empty (rest : List Char) : opening ('\n' :: rest) = [] := by
  unfold opening lines
  rw [← List.nil_append ('\n' :: rest), List.splitOn_append_cons_self_of_not_mem List.not_mem_nil]
  rfl

theorem opening_header {name : List Char} (unbroken : '\n' ∉ name) (value rest : List Char) :
    ∃ first later, opening (name ++ ':' :: value ++ '\n' :: rest) = (name ++ ':' :: first) :: later ∧
      ('\n' ∉ value → first = value ∧ later = opening rest) ∧ ('\n' ∈ value → first ≠ value) := by
  have line : ∀ first rest, '\n' ∉ first →
      opening (name ++ ':' :: first ++ '\n' :: rest) = (name ++ ':' :: first) :: opening rest := by
    intro first rest free
    apply opening_line
    · simp [unbroken, free]
    · simp
  by_cases broken : '\n' ∈ value
  · obtain ⟨first, more, rfl, free⟩ := List.eq_append_cons_of_mem broken
    refine ⟨first, opening (more ++ '\n' :: rest), ?_, fun unbroken => absurd broken unbroken, ?_⟩
    · have cut := line first (more ++ '\n' :: rest) free
      simpa using cut
    · simp
  · exact ⟨value, opening rest, line value rest broken, fun _ => ⟨rfl, rfl⟩, fun h => absurd h broken⟩

def Plain (headers : List (String × String)) : Prop :=
  ∀ h ∈ headers, ':' ∉ h.1.toList ∧ '\n' ∉ h.1.toList

theorem header_lines_cons (name value : String) (headers : List (String × String))
    (rest : List Char) : headerLines ((name, value) :: headers) ++ '\n' :: rest =
      name.toList ++ ':' :: value.toList ++ '\n' :: (headerLines headers ++ '\n' :: rest) := by
  simp [headerLines]

theorem opening_headers {headers : List (String × String)} (plain : Plain headers)
    (rest : List Char) : opening (headerLines headers ++ '\n' :: rest) = headers.map headerLine ↔
      ∀ h ∈ headers, '\n' ∉ h.2.toList := by
  induction headers with
  | nil => simp [headerLines, opening_empty]
  | cons header headers ih =>
    obtain ⟨name, value⟩ := header
    have here := (plain _ (List.mem_cons_self ..)).2
    have later := ih fun h among => plain h (List.mem_cons_of_mem _ among)
    obtain ⟨first, others, read, whole, broken⟩ := opening_header here value.toList
      (headerLines headers ++ '\n' :: rest)
    rw [header_lines_cons, read, List.map_cons, List.forall_mem_cons, List.cons.injEq, headerLine,
      List.append_cancel_left_eq, List.cons.injEq]
    by_cases unbroken : '\n' ∈ value.toList
    · simp [unbroken, broken unbroken]
    · obtain ⟨rfl, rfl⟩ := whole unbroken
      simp [unbroken, later]

theorem read_lines_iff {headers : List (String × String)} (plain : Plain headers)
    (texts : List (List Char)) :
    texts.mapM readLine? = some headers ↔ texts = headers.map headerLine := by
  induction headers generalizing texts with
  | nil => cases texts <;> simp [List.mapM_cons, Option.bind_eq_some_iff]
  | cons header headers ih =>
    have here := readLine_iff (plain _ (List.mem_cons_self ..)).1
    have later := ih fun h among => plain h (List.mem_cons_of_mem _ among)
    cases texts with
    | nil => simp
    | cons text texts => simp [List.mapM_cons, Option.bind_eq_some_iff, here, later]

structure Unbroken (value : String) : Prop where
  line_feed : '\n' ∉ value.toList
  carriage_return : '\r' ∉ value.toList

structure Tidy (value : String) : Prop where
  trimmed : Blank.trim value = value
  unbroken : Unbroken value

theorem trim_trim (value : String) : Blank.trim (Blank.trim value) = Blank.trim value := by
  have trims : Extraction.Trims value (Blank.trim value) := Extraction.trims_iff.mpr rfl
  have again : Extraction.Trims (Blank.trim value) (Blank.trim value) :=
    ⟨⟨[], [], by simp, nofun, nofun⟩, trims.front, trims.back⟩
  exact (Extraction.trims_iff.mp again).symm

theorem tidy_of_unspaced {text : List Char} (h : Url.Unspaced text) : Tidy (String.ofList text) := by
  have free : ∀ c, Blank.isBlank c = true → c ∉ (String.ofList text).toList := by
    intro c blank among
    rw [String.toList_ofList] at among
    exact absurd blank (by rw [h c among]; decide)
  refine ⟨?_, free '\n' (by decide), free '\r' (by decide)⟩
  rw [Blank.trim, String.toList_ofList, Blank.trim_unspaced h]

section Signed

variable {credentials : AwsCredentials} {region service url audience body : String}
  {method : Method} {now : Calendar.Nanoseconds} {signed : SignedRequest}

/-- The part of the block that comes from outside: the session token as it is, and the audience
without the white space around it. -/
def given (credentials : AwsCredentials) (audience : String) : List String :=
  credentials.sessionToken.toList ++ [Blank.trim audience]

theorem sign_ok (h : sign credentials region service method url
      [("x-goog-cloud-target-resource", audience)] body now = .ok signed) :
    ∃ parsed authority canonical, Url.parse? url = some parsed ∧
      parsed.authority? = some authority ∧
      signed.headers = signedEntries (String.ofList authority)
        (String.ofList (Calendar.momentText now)) (Blank.trim audience) credentials.sessionToken ∧
      canonicalRequest? method parsed signed.headers body = some canonical ∧
      signed.authorization = String.ofList (authorization credentials
        ⟨Calendar.dateText now, region, service⟩ signed.headers (Calendar.momentText now)
        canonical) := by
  unfold sign at h
  rcases hp : Url.parse? url with _ | parsed
  · simp [hp] at h
  rcases ha : parsed.authority? with _ | authority
  · simp [hp, ha] at h
  rcases hc : canonicalRequest? method parsed (signedHeaders credentials authority
      (Calendar.momentText now) [("x-goog-cloud-target-resource", audience)]) body with _ | canonical
  · simp [hp, ha, hc] at h
  · simp only [hp, ha, hc, Except.ok.injEq] at h
    subst h
    exact ⟨parsed, authority, canonical, rfl, ha, signed_headers_eq .., hc, rfl⟩

theorem entries_forall {p : String → Prop} {host time : String} (here : p host) (later : p time) :
    (∀ h ∈ signedEntries host time (Blank.trim audience) credentials.sessionToken, p h.2) ↔
      ∀ value ∈ given credentials audience, p value := by
  rw [AwsToken.entries_values _ _ _ _ here later]
  simp [given, or_imp, forall_and]

theorem entries_plain (host time resource : String) (session : Option String) :
    Plain (signedEntries host time resource session) := by
  intro h among
  have plain : ∀ name ∈ ["host", "x-amz-date", "x-amz-security-token",
      "x-goog-cloud-target-resource"], ':' ∉ name.toList ∧ '\n' ∉ name.toList := by decide
  exact plain h.1 (entries_names host time resource session h among)

theorem names_split (host time resource : String) (session : Option String) :
    (signedNames (signedEntries host time resource session)).splitOn ';' =
      (signedEntries host time resource session).map fun h => h.1.toList := by
  have free : ∀ name ∈ ["host", "x-amz-date", "x-amz-security-token",
      "x-goog-cloud-target-resource"], ';' ∉ name.toList := by decide
  apply List.splitOn_intercalate
  · intro part among
    obtain ⟨h, entry, rfl⟩ := List.mem_map.mp among
    exact free h.1 (entries_names host time resource session h entry)
  · simp [signedEntries]

theorem block_opening {parsed : Url} {headers : Members String} {canonical : List Char}
    (h : canonicalRequest? method parsed headers body = some canonical) :
    blockLines canonical = opening
      (headerLines headers ++ '\n' :: (signedNames headers ++ '\n' :: hexHash body.toList)) := by
  unfold blockLines
  rw [request_lines h, remainder, List.append_assoc, List.cons_append]
  rfl

/-- The trimmed audience may still be of more than one line. -/
theorem given_tidy : (∀ value ∈ given credentials audience, Tidy value) ↔
    (∀ token ∈ credentials.sessionToken, Tidy token) ∧ Unbroken (Blank.trim audience) := by
  have audience_tidy : Tidy (Blank.trim audience) ↔ Unbroken (Blank.trim audience) :=
    ⟨Tidy.unbroken, fun unbroken => ⟨trim_trim audience, unbroken⟩⟩
  simp [given, or_imp, forall_and, audience_tidy]

/-- The signed headers have a line each, in the order of their lower-case names, which is the
order in which the names are listed. Each value stands in its line without white space around it
and without a break exactly if this is so of the session token and the trimmed audience has no
break; and the lines read back as the headers that were signed exactly if neither of the two has
a line feed. -/
theorem header_block_reads_back (h : sign credentials region service method url
      [("x-goog-cloud-target-resource", audience)] body now = .ok signed) :
    ∃ parsed canonical, Url.parse? url = some parsed ∧
      canonicalRequest? method parsed signed.headers body = some canonical ∧
      signed.authorization = String.ofList (authorization credentials
        ⟨Calendar.dateText now, region, service⟩ signed.headers (Calendar.momentText now)
        canonical) ∧
      signed.headers.Pairwise (fun a b => a.1 < b.1) ∧
      (∀ h ∈ signed.headers, lowerName h.1 = h.1) ∧
      (signedNames signed.headers).splitOn ';' = signed.headers.map (fun h => h.1.toList) ∧
      ((∀ h ∈ signed.headers, Tidy h.2) ↔
        (∀ token ∈ credentials.sessionToken, Tidy token) ∧ Unbroken (Blank.trim audience)) ∧
      (blockLines canonical = signed.headers.map headerLine ↔
        ∀ value ∈ given credentials audience, '\n' ∉ value.toList) ∧
      (readHeaders? canonical = some signed.headers ↔
        ∀ value ∈ given credentials audience, '\n' ∉ value.toList) := by
  obtain ⟨parsed, authority, canonical, hp, ha, entries, hc, computed⟩ := sign_ok h
  have host := tidy_of_unspaced (Url.authority_text_unspaced hp ha)
  have time := tidy_of_unspaced (AwsToken.moment_unspaced now)
  have plain : Plain signed.headers := by
    rw [entries]
    exact entries_plain _ _ _ _
  have feeds : (∀ h ∈ signed.headers, '\n' ∉ h.2.toList) ↔
      ∀ value ∈ given credentials audience, '\n' ∉ value.toList := by
    rw [entries]
    exact entries_forall (p := fun value => '\n' ∉ value.toList) host.unbroken.line_feed
      time.unbroken.line_feed
  have values : (∀ h ∈ signed.headers, Tidy h.2) ↔
      (∀ token ∈ credentials.sessionToken, Tidy token) ∧ Unbroken (Blank.trim audience) := by
    rw [entries, entries_forall host time, given_tidy]
  refine ⟨parsed, canonical, hp, hc, computed, ?ascending, ?lower, ?names, values, ?lines, ?read⟩
  case ascending =>
    rw [entries]
    exact entries_ascend ..
  case lower =>
    rw [entries]
    exact entries_lower _ _ _ _
  case names =>
    rw [entries]
    exact names_split ..
  case lines =>
    rw [block_opening hc, ← feeds]
    exact opening_headers plain _
  case read =>
    rw [readHeaders?, read_lines_iff plain, block_opening hc, ← feeds]
    exact opening_headers plain _

theorem sign_signable (h : AwsToken.signable url = true) (credentials : AwsCredentials)
    (additional : List (String × String)) : ∃ signed,
      sign credentials region service method url additional body now = .ok signed := by
  unfold AwsToken.signable at h
  split at h
  · rename_i parsed hp
    obtain ⟨some_authority, some_path⟩ := Bool.and_eq_true_iff.mp h
    obtain ⟨authority, ha⟩ := Option.isSome_iff_exists.mp some_authority
    obtain ⟨text, path⟩ := Option.isSome_iff_exists.mp some_path
    simp [sign, canonicalRequest?, hp, ha, path]
  · exact absurd h Bool.false_ne_true

theorem regional_signable : AwsToken.signable AwsToken.regionalUrl = true := by decide +kernel

theorem header_block_reads_back_regional : ∃ signed parsed canonical,
    sign AwsToken.holder "us-east-2" "sts" .post AwsToken.regionalUrl
      [("x-goog-cloud-target-resource", " audience ")] "" 1440938160000000000 = .ok signed ∧
    canonicalRequest? .post parsed signed.headers "" = some canonical ∧
    (∀ h ∈ signed.headers, Tidy h.2) ∧ readHeaders? canonical = some signed.headers := by
  obtain ⟨signed, made⟩ := sign_signable regional_signable AwsToken.holder
    [("x-goog-cloud-target-resource", " audience ")]
  obtain ⟨parsed, canonical, -, hc, -, -, -, -, values, -, read⟩ := header_block_reads_back made
  have token : Tidy "session" := ⟨by decide +kernel, by decide, by decide⟩
  have trimmed : Blank.trim " audience " = "audience" := by decide +kernel
  refine ⟨signed, parsed, canonical, made, hc, values.mpr ?_, read.mpr ?_⟩
  · rw [trimmed]
    exact ⟨by simpa [AwsToken.holder] using token, by decide, by decide⟩
  · simp [given, AwsToken.holder, trimmed]

/-- A session token that ends with a line feed is signed with it, and what is read back has an
empty line in its place. -/
theorem header_block_broken : ∃ signed parsed canonical,
    sign ⟨"AKIDEXAMPLE", "wJalrXUtnFEMI", some "session\n"⟩ "us-east-2" "sts" .post
      AwsToken.regionalUrl [("x-goog-cloud-target-resource", "audience")] ""
      1440938160000000000 = .ok signed ∧
    canonicalRequest? .post parsed signed.headers "" = some canonical ∧
    ("x-amz-security-token", "session\n") ∈ signed.headers ∧
    ¬ (∀ h ∈ signed.headers, Tidy h.2) ∧ readHeaders? canonical ≠ some signed.headers := by
  obtain ⟨signed, made⟩ := sign_signable regional_signable
    ⟨"AKIDEXAMPLE", "wJalrXUtnFEMI", some "session\n"⟩ [("x-goog-cloud-target-resource", "audience")]
  obtain ⟨parsed, authority, canonical, -, -, entries, hc, -⟩ := sign_ok made
  have among : ("x-amz-security-token", "session\n") ∈ signed.headers := by
    rw [entries]
    simp [signedEntries]
  have feed : '\n' ∈ "session\n".toList := by decide
  have plain : Plain signed.headers := by
    rw [entries]
    exact entries_plain _ _ _ _
  refine ⟨signed, parsed, canonical, made, hc, among, ?_, ?_⟩
  · intro tidy
    exact (tidy _ among).unbroken.line_feed feed
  · intro read
    rw [readHeaders?, read_lines_iff plain, block_opening hc] at read
    exact (opening_headers plain _).mp read _ among feed

end Signed

end WorkloadIdentity.HeaderBlock
