import Mathlib.Data.String.Basic
import WorkloadIdentity.Proofs.Aws.Region
import WorkloadIdentity.Proofs.Aws.Verifier
import WorkloadIdentity.Proofs.Json.RoundTrip
import WorkloadIdentity.Proofs.Text.Form
import WorkloadIdentity.Proofs.Time.Calendar
import WorkloadIdentity.Proofs.Url.Hosts

/-! Subject tokens of AWS, read by whoever receives them. A token decodes to a document of the
signed request. From the document the verifier computes the authorization that stands in it, as
long as the session token and the audience are as the verifier has the values of headers. The
date of the scope is the date of the request up to its letter. -/

set_option autoImplicit false

namespace WorkloadIdentity.AwsToken

open AwsSource (fillRegion Pieces pieces_exist fill_region_eq)
open Calendar (yearAt momentText dateText date_chars before_mark moment_date moment_take
  moment_take_date)

/-- The document that a subject token stands for. -/
def decoded? (token : String) : Option Json :=
  Json.ofString? (String.ofList (Form.decodeText (Utf8.ofString token)))

def entry (header : String × String) : Json := SignedRequest.headerEntry header.1 header.2

def document (url authorization : String) (headers : List (String × String)) : Json :=
  .object [("body", .string ""),
    ("headers", .array (entry ("Authorization", authorization) :: headers.map entry)),
    ("method", .string "POST"), ("url", .string url)]

def signedEntries (host time audience : String) (session : Option String) :
    List (String × String) :=
  [("host", host), ("x-amz-date", time)] ++
    (session.map fun token => ("x-amz-security-token", token)).toList ++
    [("x-goog-cloud-target-resource", audience)]

theorem wordy_entries (headers : List (String × String)) :
    Tree.WordyElements (headers.map entry) :=
  Tree.wordy_map entry (fun _ => ⟨trivial, trivial, trivial⟩) headers

theorem nesting_entries (headers : List (String × String)) :
    Tree.nestingElements (headers.map entry) ≤ 1 :=
  Tree.nesting_map entry (fun _ => Nat.le_refl 1) headers

theorem sorted_entry (header : String × String) : Tree.sorted (entry header) = entry header := by
  show Json.ofMembers [("key", .string header.1), ("value", .string header.2)] = entry header
  simp (disch := decide) only [Json.ofMembers, Members.ofList, List.foldl_cons, List.foldl_nil,
    Members.insert_nil, Members.insert_after]
  rfl

theorem sorted_entries (headers : List (String × String)) :
    Tree.sortedElements (headers.map entry) = headers.map entry :=
  Tree.sorted_map entry sorted_entry headers

theorem sorted_request (url authorization : String) (headers : Members String) :
    Tree.sorted (SignedRequest.toJson ⟨url, .post, headers, authorization, ""⟩) =
      document url authorization headers := by
  have elements := sorted_entries (("Authorization", authorization) :: headers)
  show Json.ofMembers [("url", .string url), ("method", .string "POST"),
    ("headers", .array (Tree.sortedElements ((("Authorization", authorization) :: headers).map entry))),
    ("body", .string "")] = _
  rw [elements]
  simp (disch := decide) only [Json.ofMembers, Members.ofList, List.foldl_cons, List.foldl_nil,
    Members.insert_nil, Members.insert_before]
  rfl

theorem decoded_request (url authorization : String) (headers : Members String) :
    decoded? (SignedRequest.token ⟨url, .post, headers, authorization, ""⟩) =
      some (document url authorization headers) := by
  have wordy : Tree.Wordy (SignedRequest.toJson ⟨url, .post, headers, authorization, ""⟩) :=
    ⟨trivial, trivial, wordy_entries (("Authorization", authorization) :: headers), trivial, trivial⟩
  have shallow : Tree.nesting (SignedRequest.toJson ⟨url, .post, headers, authorization, ""⟩) ≤ 3 := by
    have inner := nesting_entries (("Authorization", authorization) :: headers)
    show max 0 (max 0 (max (Tree.nestingElements
      ((("Authorization", authorization) :: headers).map entry) + 1) (max 0 0))) + 1 ≤ 3
    omega
  rw [decoded?, Utf8.ofString, SignedRequest.token, String.toList_ofList, Form.decodeText_encodeText,
    Tree.read_print _ wordy (by rw [Tree.maxDepth]; omega), sorted_request]

theorem signed_headers_eq (credentials : AwsCredentials) (host time : List Char)
    (audience : String) :
    Signature.signedHeaders credentials host time [("x-goog-cloud-target-resource", audience)] =
      signedEntries (String.ofList host) (String.ofList time) (Blank.trim audience)
        credentials.sessionToken := by
  have name : Signature.lowerName "x-goog-cloud-target-resource" = "x-goog-cloud-target-resource" := by
    decide
  unfold Signature.signedHeaders signedEntries
  rcases credentials.sessionToken with _ | token <;>
    simp (disch := decide) only [List.map_cons, List.map_nil, name, Members.ofList, List.foldl_cons,
      List.foldl_nil, Members.insert_nil, Members.insert_before, Members.insert_after] <;>
    rfl

section Entries

variable (host time audience : String) (session : Option String)

theorem entries_ascend :
    (signedEntries host time audience session).Pairwise fun a b => a.1 < b.1 := by
  have names : ["host", "x-amz-date", "x-goog-cloud-target-resource"].Pairwise (· < ·) := by decide
  have with_token : ["host", "x-amz-date", "x-amz-security-token",
      "x-goog-cloud-target-resource"].Pairwise (· < ·) := by decide
  refine List.pairwise_map.mp (?_ : (List.map Prod.fst _).Pairwise (· < ·))
  rcases session with _ | token
  · exact names
  · exact with_token

theorem entries_lower : ∀ h ∈ signedEntries host time audience session,
    String.ofList (h.1.toList.map Char.toLower) = h.1 := by
  rcases session with _ | token <;> simp [signedEntries]

theorem entries_time :
    (signedEntries host time audience session).lookup "x-amz-date" = some time := by
  simp [signedEntries, List.lookup_cons]

theorem entries_names : ∀ h ∈ signedEntries host time audience session,
    h.1 ∈ ["host", "x-amz-date", "x-amz-security-token", "x-goog-cloud-target-resource"] := by
  rcases session with _ | token <;> simp [signedEntries]

theorem entries_values {p : String → Prop} (here : p host) (later : p time) :
    (∀ h ∈ signedEntries host time audience session, p h.2) ↔
      (∀ token ∈ session, p token) ∧ p audience := by
  rcases session with _ | token <;> simp [signedEntries, here, later]

theorem entries_unauthorized :
    (signedEntries host time audience session).filter (·.1 != "Authorization") =
      signedEntries host time audience session := by
  apply List.filter_eq_self.mpr
  intro h hh
  have other : ∀ name ∈ ["host", "x-amz-date", "x-amz-security-token",
      "x-goog-cloud-target-resource"], (name != "Authorization") = true := by decide
  exact other h.1 (entries_names host time audience session h hh)

theorem entry_read (header : String × String) : SigV4.headerOf? (entry header) = some header := by
  simp [SigV4.headerOf?, SigV4.textOf?, entry, SignedRequest.headerEntry, Json.get?, Members.get?,
    List.lookup_cons, Json.string?]

theorem entries_read (headers : List (String × String)) :
    (headers.map entry).mapM SigV4.headerOf? = some headers := by
  induction headers with
  | nil => rfl
  | cons h headers ih =>
    rw [List.map_cons, List.mapM_cons, entry_read, ih]
    rfl

theorem document_texts (url authorization : String) (headers : List (String × String)) :
    SigV4.textOf? (document url authorization headers) "url" = some url ∧
      SigV4.textOf? (document url authorization headers) "method" = some "POST" ∧
      SigV4.textOf? (document url authorization headers) "body" = some "" ∧
      ((document url authorization headers).get? "headers").bind Json.array? =
        some ((("Authorization", authorization) :: headers).map entry) := by
  simp [SigV4.textOf?, document, Json.get?, Members.get?, List.lookup_cons, Json.string?, Json.array?]

theorem document_presented (url authorization : String) :
    SigV4.presented? (document url authorization (signedEntries host time audience session)) =
      some ⟨url, "POST", signedEntries host time audience session, ""⟩ := by
  obtain ⟨urlText, method, body, list⟩ := document_texts url authorization
    (signedEntries host time audience session)
  have dropped : (("Authorization", authorization) ::
      signedEntries host time audience session).filter (·.1 != "Authorization") =
      signedEntries host time audience session := by
    rw [List.filter_cons_of_neg (by simp), entries_unauthorized]
  unfold SigV4.presented?
  rw [urlText, method, body, list]
  simp only [Option.bind_eq_bind, Option.bind_some, entries_read, dropped]
  rfl

end Entries

theorem padded_unspaced (width n : Nat) : Url.Unspaced (Calendar.padded width n) := by
  unfold Calendar.padded
  rw [Url.unspaced_append]
  constructor
  · intro c among
    rw [(List.mem_replicate.mp among).2]
    decide
  · exact Url.digits_unspaced 10 n (by decide)

theorem year_unspaced (year : Int) : Url.Unspaced (Calendar.yearText year) := by
  unfold Calendar.yearText
  split
  · exact padded_unspaced 4 year.toNat
  · rw [Url.unspaced_cons]
    constructor
    · split <;> decide
    · exact padded_unspaced 4 year.natAbs

theorem moment_unspaced (t : Calendar.Nanoseconds) : Url.Unspaced (momentText t) := by
  simp only [momentText, dateText, Url.unspaced_append, Url.unspaced_cons, padded_unspaced,
    year_unspaced, and_true, true_and]
  decide

/-- The session token and the audience are as a verifier has them. -/
def Presentable (session : Option String) (resource : String) : Prop :=
  (∀ token ∈ session, SigV4.Settled token) ∧ SigV4.Settled resource

theorem entries_settled {url resource : String} {parsed : Url} {authority : List Char}
    {session : Option String} {now : Calendar.Nanoseconds} (hp : Url.parse? url = some parsed)
    (ha : parsed.authority? = some authority) :
    (∀ h ∈ signedEntries (String.ofList authority) (String.ofList (momentText now)) resource session,
      SigV4.Settled h.2) ↔ Presentable session resource :=
  entries_values _ _ _ _ (SigV4.settled_unspaced (Url.authority_text_unspaced hp ha))
    (SigV4.settled_unspaced (moment_unspaced now))

def caller (credentials : AwsCredentials) (region : String) (host : List Char) : SigV4.Caller :=
  ⟨credentials.accessKeyId, credentials.secretAccessKey, region,
    String.ofList (host.takeWhile (· != '.'))⟩

section Whole

variable {source : AwsSource} {audience region token : String} {credentials : AwsCredentials}
  {now : Calendar.Nanoseconds}

theorem signed_token_parts
    (h : source.signedToken audience region credentials now = .ok token) :
    ∃ url parsed host authority headers canonical authorization,
      url = String.ofList (fillRegion region.toList source.verificationUrl.toList) ∧
      Url.parse? url = some parsed ∧ parsed.host = some host ∧ parsed.authority? = some authority ∧
      headers = signedEntries (String.ofList authority) (String.ofList (momentText now))
        (Blank.trim audience) credentials.sessionToken ∧
      Signature.canonicalRequest? .post parsed headers "" = some canonical ∧
      authorization = String.ofList (Signature.authorization credentials
        ⟨dateText now, region, String.ofList (host.takeWhile (· != '.'))⟩ headers
        (momentText now) canonical) ∧
      token = SignedRequest.token ⟨url, .post, headers, authorization, ""⟩ := by
  unfold AwsSource.signedToken at h
  generalize hu : String.ofList (fillRegion region.toList source.verificationUrl.toList) = url at h
  rcases hp : Url.parse? url with _ | parsed
  · simp [Signature.sign, hp, bind, Except.bind] at h
  rcases ha : parsed.authority? with _ | authority
  · simp [Signature.sign, hp, ha, bind, Except.bind] at h
  obtain ⟨host, hh⟩ : ∃ host, parsed.host = some host := by
    rcases hh : parsed.host with _ | host
    · simp [Url.authority?, hh] at ha
    · exact ⟨host, rfl⟩
  have service : AwsSource.serviceOf url = String.ofList (host.takeWhile (· != '.')) := by
    simp [AwsSource.serviceOf, hp, hh]
  generalize hs : signedEntries (String.ofList authority) (String.ofList (momentText now))
    (Blank.trim audience) credentials.sessionToken = headers
  simp only [Signature.sign, hp, ha, signed_headers_eq, service, hs, bind, Except.bind] at h
  rcases hc : Signature.canonicalRequest? .post parsed headers "" with _ | canonical
  · simp [hc] at h
  · simp only [hc, pure, Except.pure, Except.ok.injEq] at h
    exact ⟨url, parsed, host, authority, headers, canonical, _, rfl, hp, hh, ha, hs.symm, hc, rfl,
      h.symm⟩

/-- A URL with a host and a path that is text when it is decoded. -/
def signable (url : String) : Bool :=
  match Url.parse? url with
  | some parsed => parsed.authority?.isSome && (Signature.canonicalPath? parsed.pathText).isSome
  | none => false

/-- Nothing but the URL decides whether there is a token. -/
theorem token_iff_signable :
    (∃ token, source.signedToken audience region credentials now = .ok token) ↔
      signable (String.ofList (fillRegion region.toList source.verificationUrl.toList)) = true := by
  constructor
  · rintro ⟨token, h⟩
    obtain ⟨url, parsed, host, authority, headers, canonical, -, rfl, hp, -, ha, -, hc, -, -⟩ :=
      signed_token_parts h
    rcases path : Signature.canonicalPath? parsed.pathText with _ | text
    · simp [Signature.canonicalRequest?, path] at hc
    · simp [signable, hp, ha, path]
  · intro h
    unfold signable at h
    split at h
    · rename_i parsed hp
      obtain ⟨some_authority, some_path⟩ := Bool.and_eq_true_iff.mp h
      obtain ⟨authority, ha⟩ := Option.isSome_iff_exists.mp some_authority
      obtain ⟨text, path⟩ := Option.isSome_iff_exists.mp some_path
      simp [AwsSource.signedToken, Signature.sign, Signature.canonicalRequest?, hp, ha, path, bind,
        Except.bind, pure, Except.pure]
    · exact absurd h Bool.false_ne_true

theorem verifier_computes {url authorization : String} {parsed : Url} {time host canonical : List Char}
    {authority resource : String} {session : Option String} (scopeDate : List Char → List Char)
    (hp : Url.parse? url = some parsed)
    (hc : Signature.canonicalRequest? .post parsed
      (signedEntries authority (String.ofList time) resource session) "" = some canonical)
    (settled : ∀ h ∈ signedEntries authority (String.ofList time) resource session,
      SigV4.Settled h.2) :
    SigV4.authorization? scopeDate (caller credentials region host)
        (document url authorization (signedEntries authority (String.ofList time) resource session)) =
      some (String.ofList (Signature.authorization credentials
        ⟨scopeDate time, region, String.ofList (host.takeWhile (· != '.'))⟩
        (signedEntries authority (String.ofList time) resource session) time canonical)) := by
  have lower := entries_lower authority (String.ofList time) resource session
  have ascending := entries_ascend authority (String.ofList time) resource session
  have canon : SigV4.canonicalRequest? ⟨url, "POST",
      signedEntries authority (String.ofList time) resource session, ""⟩ = some canonical :=
    (SigV4.canonical_request_iff lower ascending .post hp hc).mpr settled
  have computed := SigV4.authorization_eq lower ascending credentials region
    (String.ofList (host.takeWhile (· != '.'))) (scopeDate time) time canonical
  unfold SigV4.authorization?
  rw [document_presented]
  simp only [Option.bind_eq_bind, Option.bind_some, entries_time, canon, String.toList_ofList]
  exact congrArg (fun text => some (String.ofList text)) computed

theorem authorization_scope {service : String} {date₁ date₂ : List Char} {headers : Members String}
    {time canonical : List Char} (free₁ : '/' ∉ date₁) (free₂ : '/' ∉ date₂)
    (h : Signature.authorization credentials ⟨date₁, region, service⟩ headers time canonical =
      Signature.authorization credentials ⟨date₂, region, service⟩ headers time canonical) :
    date₁ = date₂ := by
  simp only [Signature.authorization, Signature.SigningScope.text, List.append_assoc,
    List.cons_append] at h
  have scopes := List.append_cancel_left (List.append_cancel_left (List.append_cancel_left h))
  injection scopes with _ dates
  rw [← before_mark _ free₁, dates, before_mark _ free₂]

/-- With the first eight characters for its date, the verifier finds the signer's authorization
in the years 0 to 9999 only. -/
theorem first_eight_agree {url authorization : String} {parsed : Url} {host canonical : List Char}
    {authority resource : String} {session : Option String}
    (hp : Url.parse? url = some parsed)
    (hc : Signature.canonicalRequest? .post parsed
      (signedEntries authority (String.ofList (momentText now)) resource session) "" =
        some canonical)
    (settled : ∀ h ∈ signedEntries authority (String.ofList (momentText now)) resource session,
      SigV4.Settled h.2)
    (signed : authorization = String.ofList (Signature.authorization credentials
      ⟨dateText now, region, String.ofList (host.takeWhile (· != '.'))⟩
      (signedEntries authority (String.ofList (momentText now)) resource session)
      (momentText now) canonical)) :
    SigV4.authorization? (·.take 8) (caller credentials region host)
        (document url authorization
          (signedEntries authority (String.ofList (momentText now)) resource session)) =
      some authorization ↔ 0 ≤ yearAt now ∧ yearAt now ≤ 9999 := by
  have slashless : '/' ∉ dateText now := fun hc => (date_chars now '/' hc).2 rfl
  rw [verifier_computes _ hp hc settled, signed, ← moment_take]
  constructor
  · intro same
    have texts := String.ofList_injective (Option.some.inj same)
    refine authorization_scope ?_ slashless texts
    rw [moment_take_date]
    exact fun hc => slashless (List.mem_of_mem_take hc)
  · intro date
    rw [date]

def regional : AwsSource :=
  ⟨"aws1", none, none,
    "https://sts.\x7bregion\x7d.amazonaws.com?Action=GetCallerIdentity&Version=2011-06-15", none⟩

def regionalUrl : String :=
  "https://sts.us-east-2.amazonaws.com?Action=GetCallerIdentity&Version=2011-06-15"

def holder : AwsCredentials := ⟨"AKIDEXAMPLE", "wJalrXUtnFEMI", some "session"⟩

theorem regional_url :
    String.ofList (fillRegion "us-east-2".toList regional.verificationUrl.toList) =
      regionalUrl := by decide +kernel

theorem regional_host :
    (Url.parse? regionalUrl).bind (·.host) =
      some "sts.us-east-2.amazonaws.com".toList := by decide +kernel

theorem regional_authority :
    (Url.parse? regionalUrl).bind (·.authority?) =
      some "sts.us-east-2.amazonaws.com".toList := by decide +kernel

theorem regional_token (audience : String) (credentials : AwsCredentials)
    (now : Calendar.Nanoseconds) :
    ∃ token, regional.signedToken audience "us-east-2" credentials now = .ok token := by
  rw [token_iff_signable, regional_url]
  decide +kernel

theorem session_settled : SigV4.Settled "session" := ⟨by decide +kernel, by decide⟩

theorem audience_settled : SigV4.Settled "audience" := ⟨by decide +kernel, by decide⟩

/-- On 2015-08-30, a token with a canonical request that is not the one that was signed. -/
def Astray (audience : String) (session : Option String) : Prop :=
  ∃ token url authorization headers canonical,
    regional.signedToken audience "us-east-2" ⟨"AKIDEXAMPLE", "wJalrXUtnFEMI", session⟩
      1440938160000000000 = .ok token ∧
    decoded? token = some (document url authorization headers) ∧
    (Url.parse? url).bind (Signature.canonicalRequest? .post · headers "") = some canonical ∧
    SigV4.canonicalRequest? ⟨url, "POST", headers, ""⟩ ≠ some canonical

theorem astray_of {audience : String} {session : Option String}
    (h : ¬ Presentable session (Blank.trim audience)) : Astray audience session := by
  obtain ⟨token, produced⟩ := regional_token audience ⟨"AKIDEXAMPLE", "wJalrXUtnFEMI", session⟩
    1440938160000000000
  obtain ⟨url, parsed, host, authority, headers, canonical, authorization, rfl, hp, hh, ha, rfl, hc,
    signed, rfl⟩ := signed_token_parts produced
  have exact := SigV4.canonical_request_iff (entries_lower _ _ _ _) (entries_ascend _ _ _ _) .post
    hp hc
  refine ⟨_, _, authorization, _, canonical, produced, decoded_request .., ?signer, ?verifier⟩
  case signer => rw [hp, Option.bind_some, hc]
  case verifier => exact fun agreed => h ((entries_settled hp ha).mp (exact.mp agreed))

end Whole

end WorkloadIdentity.AwsToken
