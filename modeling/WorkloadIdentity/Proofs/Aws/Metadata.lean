import WorkloadIdentity.Proofs.Aws.Stops
import WorkloadIdentity.Proofs.Aws.SubjectToken
import WorkloadIdentity.Proofs.Config.Grammar
import WorkloadIdentity.Proofs.Json.Records

/-!
# What AWS asks of its metadata server

Region and credentials are taken from the environment where it has them. For what is missing the
server is asked, one request after another: for a session if it is to have one, for the zone, for
the role, and for the credentials of the role. The way ends at the first stop with something wrong,
and the request for the verifier is signed only at the end of the whole way.
-/

set_option autoImplicit false

namespace WorkloadIdentity.Metadata

open Grammar (Maybe Text text_iff optional_text_iff)
open Journey (answerTo bind_ok bind_error needsServer ofExcept_run openedWith roleIn credentialsIn
  regionFor credentialsFor roleUrl role_url_eq fetch_credentials_eq subject_token_run)

/-- The variable is set to a text that is not empty. -/
def Supplied (env : Environment) (name value : String) : Prop :=
  env.get? name = some (Utf8.ofString value) ∧ value ≠ ""

theorem supplied_iff {env : Environment} {name value : String} :
    env.nonEmpty? name = some value ↔ Supplied env name value := by
  have text : env.text? name = some value ↔ env.get? name = some (Utf8.ofString value) := by
    simp [Environment.text?, Option.bind_eq_some_iff, Utf8.text_iff]
  simp [Environment.nonEmpty?, Supplied, Option.filter_eq_some_iff, text]

theorem region_iff {env : Environment} {region : String} :
    AwsSource.regionOf? env = some region ↔ Supplied env "AWS_REGION" region ∨
      (∀ other, ¬ Supplied env "AWS_REGION" other) ∧ Supplied env "AWS_DEFAULT_REGION" region := by
  simp only [← supplied_iff, AwsSource.regionOf?]
  rcases env.nonEmpty? "AWS_REGION" with _ | first <;> simp

theorem credentials_iff {env : Environment} {credentials : AwsCredentials} :
    AwsSource.credentialsOf? env = some credentials ↔
      Supplied env "AWS_ACCESS_KEY_ID" credentials.accessKeyId ∧
      Supplied env "AWS_SECRET_ACCESS_KEY" credentials.secretAccessKey ∧
      ∀ token, credentials.sessionToken = some token ↔ Supplied env "AWS_SESSION_TOKEN" token := by
  obtain ⟨id, secret, session⟩ := credentials
  have same : env.nonEmpty? "AWS_SESSION_TOKEN" = session ↔
      ∀ token, session = some token ↔ env.nonEmpty? "AWS_SESSION_TOKEN" = some token := by
    rw [eq_comm, Option.ext_iff]
  simp only [← supplied_iff, AwsSource.credentialsOf?, ← same]
  rcases env.nonEmpty? "AWS_ACCESS_KEY_ID" with _ | found
  · simp
  · rcases env.nonEmpty? "AWS_SECRET_ACCESS_KEY" with _ | kept <;> simp

structure Credentialed (get : String → Option Json) (credentials : AwsCredentials) : Prop where
  accessKeyId : get "AccessKeyId" = some (.string credentials.accessKeyId)
  secretAccessKey : get "SecretAccessKey" = some (.string credentials.secretAccessKey)
  sessionToken : Maybe Text (get "Token") credentials.sessionToken

/-- The document spells out the credentials of a role; the session token may be left out. -/
def SpellsOut (document : String) (credentials : AwsCredentials) : Prop :=
  ∃ tree, Tree.ofString? document = some tree ∧
    ∃ get, Tree.Spells ["AccessKeyId", "SecretAccessKey", "Token"] tree get ∧
      Credentialed get credentials

theorem spelled_iff {document : String} {credentials : AwsCredentials} :
    AwsSource.readCredentials? document = some credentials ↔ SpellsOut document credentials := by
  unfold AwsSource.readCredentials?
  simp only [Option.bind_eq_bind]
  rw [Option.bind_eq_some_iff]
  refine exists_congr fun tree => and_congr_right fun _ => Tree.record_iff Credentialed fun record => ?_
  simp only [Option.bind_eq_some_iff, text_iff, optional_text_iff, Option.pure_def,
    Option.some.injEq]
  constructor
  · rintro ⟨id, hi, secret, hs, session, ht, rfl⟩
    exact ⟨hi, hs, ht⟩
  · rintro ⟨hi, hs, ht⟩
    exact ⟨_, hi, _, hs, _, ht, rfl⟩

def built? (method : Method) (url : String) (headers : List Header) : Option Request :=
  if headers.all fun h => Header.isValue h.value then
    (Uri.parse? url).map fun uri => ⟨method, uri, headers, []⟩
  else none

def lifetimeHeader : Header := ⟨"x-aws-ec2-metadata-token-ttl-seconds", Utf8.ofString "300", false⟩

def sessionHeader (token : String) : Header :=
  ⟨"x-aws-ec2-metadata-token", Utf8.ofString token, false⟩

def zoneFlaw? (zone : String) : Option CredentialsError :=
  if (Blank.trim zone).length ≤ 1 then some (.ofFault (.aws (.zone zone))) else none

def roleFlaw? (role : String) : Option CredentialsError :=
  if Blank.trim role = "" then some (.ofFault (.aws .emptyRole)) else none

def credentialsFlaw? (document : String) : Option CredentialsError :=
  if (AwsSource.readCredentials? document).isNone then some (.ofIncident .json) else none

def opening (url : String) : Stop :=
  .visit .sessionToken (built? .put url [lifetimeHeader]) fun _ => none

section Way

variable (source : AwsSource) (w : World)

def sessionUrl? : Option String :=
  if needsServer w.environment then source.sessionTokenUrl else none

def session? : Option String :=
  (sessionUrl? source w).map fun _ => Blank.trim (said (answerTo w 0))

def inquiry (errand : Errand) (url : String) (flaw? : String → Option CredentialsError) : Stop :=
  .visit errand (built? .get url ((session? source w).map sessionHeader).toList) flaw?

def sessionStops : List Stop :=
  (sessionUrl? source w).toList.map opening

def regionStops : List Stop :=
  match AwsSource.regionOf? w.environment, source.regionUrl with
  | some _, _ => []
  | none, none => [.missing .noRegionUrl]
  | none, some url => [inquiry source w .region url zoneFlaw?]

def zone : String := said (answerTo w (sessionStops source w).length)

def region : String :=
  (AwsSource.regionOf? w.environment).getD
    (String.ofList (Blank.trim (zone source w)).toList.dropLast)

/-- How many answers come before that of the role. -/
def early : Nat := (sessionStops source w ++ regionStops source w).length

def role : String := Blank.trim (said (answerTo w (early source w)))

def credentialStops : List Stop :=
  match AwsSource.credentialsOf? w.environment, source.url with
  | some _, _ => []
  | none, none => [.missing .noCredentialsUrl]
  | none, some url =>
    [inquiry source w .roleName url roleFlaw?,
      inquiry source w .securityCredentials (roleUrl url (role source w)) credentialsFlaw?]

def credentials? : Option AwsCredentials :=
  (AwsSource.credentialsOf? w.environment).or
    (AwsSource.readCredentials? (said (answerTo w (early source w + 1))))

def stops : List Stop := sessionStops source w ++ regionStops source w ++ credentialStops source w

end Way

theorem session_judges : Judges (fun _ => none) openedWith := ⟨nofun, fun _ => ⟨_, rfl⟩⟩

theorem zone_judges : Judges zoneFlaw? AwsSource.regionOfZone := by
  have short : ∀ zone, (Blank.trimList zone.toList).dropLast.isEmpty = true ↔
      (Blank.trim zone).length ≤ 1 := by
    intro zone
    rw [List.isEmpty_iff, ← List.length_eq_zero_iff, List.length_dropLast, Blank.trim,
      String.length_ofList]
    omega
  apply judges_if (fun zone => (Blank.trim zone).length ≤ 1)
  · intro zone few
    simp only [AwsSource.regionOfZone, if_pos ((short zone).mpr few)]
  · intro zone many
    simp only [AwsSource.regionOfZone, if_neg (mt (short zone).mp many)]
    exact ⟨_, rfl⟩

theorem role_judges : Judges roleFlaw? roleIn := by
  have empty : ∀ role, (Blank.trimList role.toList).isEmpty = true ↔ Blank.trim role = "" := by
    intro role
    rw [List.isEmpty_iff, Blank.trim, ← String.toList_inj, String.toList_ofList]
    rfl
  apply judges_if (fun role => Blank.trim role = "")
  · intro role nameless
    simp only [roleIn, if_pos ((empty role).mpr nameless)]
  · intro role named
    simp only [roleIn, if_neg (mt (empty role).mp named)]
    exact ⟨_, rfl⟩

theorem credentials_judges : Judges credentialsFlaw? credentialsIn := by
  apply judges_if (fun document => (AwsSource.readCredentials? document).isNone = true)
  · intro document unread
    rw [credentialsIn, Option.isNone_iff_eq_none.mp unread]
  · intro document read
    obtain ⟨credentials, held⟩ := Option.ne_none_iff_exists'.mp (mt Option.isNone_iff_eq_none.mpr read)
    exact ⟨credentials, by rw [credentialsIn, held]⟩

theorem session_request (url : String) :
    AwsSource.sessionRequest? url = built? .put url [lifetimeHeader] := by
  have made : Header.make? false "x-aws-ec2-metadata-token-ttl-seconds" "300" =
      some lifetimeHeader := by decide
  have value : Header.isValue lifetimeHeader.value = true := by decide
  unfold AwsSource.sessionRequest? Request.make? built?
  rcases Uri.parse? url with _ | uri <;> simp [made, value]

theorem metadata_request (session : Option String) (url : String) :
    AwsSource.metadataRequest? session url =
      built? .get url (session.map sessionHeader).toList := by
  have known : Header.isName "x-aws-ec2-metadata-token".toList = true := by decide
  have made : ∀ token, Header.make? false "x-aws-ec2-metadata-token" token =
      if Header.isValue (sessionHeader token).value then some (sessionHeader token) else none := by
    intro token
    rw [Header.make?, known]
    rfl
  unfold AwsSource.metadataRequest? Request.make? built?
  rcases session with _ | token
  · rcases Uri.parse? url with _ | uri <;> simp
  · rcases Uri.parse? url with _ | uri
    · simp
    · by_cases value : Header.isValue (sessionHeader token).value = true <;> simp [made, value]

theorem zone_used {zone named : String}
    (h : (AwsSource.regionOfZone zone).toOption = some named) :
    named = String.ofList (Blank.trim zone).toList.dropLast := by
  unfold AwsSource.regionOfZone at h
  simp only at h
  split at h
  · cases h
  · cases h
    rw [Blank.trim, String.toList_ofList]

theorem role_used {answer : String} {role : List Char} (h : (roleIn answer).toOption = some role) :
    role = (Blank.trim answer).toList := by
  unfold roleIn at h
  split at h
  · cases h
  · cases h
    rw [Blank.trim, String.toList_ofList]

theorem credentials_used (document : String) :
    (credentialsIn document).toOption = AwsSource.readCredentials? document := by
  unfold credentialsIn
  rcases AwsSource.readCredentials? document with _ | credentials <;> rfl

section Gathering

variable (source : AwsSource) (w : World)

theorem session_walks : Walks (sessionStops source w) (some (session? source w)) w
    (source.openSession (needsServer w.environment) w) := by
  unfold sessionStops session? sessionUrl? AwsSource.openSession
  rcases source.sessionTokenUrl with _ | url
  · simp only [ite_self]
    exact walks_pure none w
  · by_cases needed : needsServer w.environment = true
    · simp only [needed, if_true, session_request]
      exact visit_walks session_judges .sessionToken _ w
    · simp only [if_neg needed]
      exact walks_pure none w

theorem answer_later {way : List Stop} {sent : List Request}
    (ended : walk w.network way w.answers = (sent, none)) (n : Nat) :
    answerTo (after w sent) n = answerTo w (way.length + n) := by
  have taken : (after w sent).answers = w.answers.drop sent.length := rfl
  rw [Journey.answerTo_later taken, walk_length ended]

theorem region_walks {sent : List Request}
    (ended : walk w.network (sessionStops source w) w.answers = (sent, none)) :
    Walks (regionStops source w) (some (region source w)) (after w sent)
      (regionFor source w.environment (session? source w) (after w sent)) := by
  unfold regionStops region regionFor
  rcases AwsSource.regionOf? w.environment with _ | supplied
  · unfold AwsSource.fetchRegion
    rcases source.regionUrl with _ | url
    · exact missing_walks _ _ _
    · simp only [metadata_request]
      apply walks_value (visit_walks zone_judges .region _ _)
      intro named brought
      rw [answer_later w ended] at brought
      rw [zone_used brought]
      rfl
  · exact walks_pure supplied _

theorem credentials_walks {sent : List Request}
    (ended : walk w.network (sessionStops source w ++ regionStops source w) w.answers =
      (sent, none)) :
    Walks (credentialStops source w) (credentials? source w) (after w sent)
      (credentialsFor source w.environment (session? source w) (after w sent)) := by
  unfold credentialStops credentials? credentialsFor
  rcases AwsSource.credentialsOf? w.environment with _ | supplied
  · rcases configured : source.url with _ | url
    · unfold AwsSource.fetchCredentials
      rw [configured]
      exact missing_walks _ _ _
    · simp only [fetch_credentials_eq source _ configured, metadata_request]
      show Walks ([_] ++ [_]) _ _ _
      apply walks_bind (visit_walks role_judges .roleName _ _)
      intro role further brought passed
      rw [answer_later w ended, Nat.add_zero] at brought
      have named : String.ofList role = Metadata.role source w := by
        rw [role_used brought, String.ofList_toList]
        rfl
      rw [role_url_eq, named]
      apply walks_value (visit_walks credentials_judges .securityCredentials _ _)
      intro held brought
      rw [credentials_used, answer_later _ passed, answer_later w ended] at brought
      exact brought
  · exact walks_pure supplied _

/-- Region and credentials, wherever they come from. -/
def gather (env : Environment) : Attempt (String × AwsCredentials) :=
  (do
    let session ← source.openSession (needsServer env)
    let region ← regionFor source env session
    return (session, region)) >>= fun (session, region) => do
      let credentials ← credentialsFor source env session
      return (region, credentials)

theorem subject_token_eq (audience : String) : source.subjectToken audience w =
    (gather source w.environment >>= fun (region, credentials) =>
      Attempt.ofExcept (source.signedToken audience region credentials w.now)) w := by
  rw [subject_token_run, gather]
  simp only [bind_assoc, pure_bind]

theorem gather_walks : Walks (stops source w)
    ((credentials? source w).map fun credentials => (region source w, credentials)) w
    (gather source w.environment w) := by
  have located : Walks (sessionStops source w ++ regionStops source w)
      (some (session? source w, region source w)) w ((do
        let session ← source.openSession (needsServer w.environment)
        let region ← regionFor source w.environment session
        return (session, region) : Attempt (Option String × String)) w) := by
    apply walks_bind (session_walks source w)
    intro session sent brought ended
    cases brought
    exact walks_map (region_walks source w ended) fun region => (session? source w, region)
  unfold stops gather
  apply walks_bind located
  intro (session, region) sent brought ended
  cases brought
  exact walks_map (credentials_walks source w ended) _

theorem subject_token_walks (audience : String) :
    match walk w.network (stops source w) w.answers with
    | (sent, some e) => source.subjectToken audience w = (.error (.error e), after w sent)
    | (sent, none) => ∃ credentials, credentials? source w = some credentials ∧
        source.subjectToken audience w =
          ((source.signedToken audience (region source w) credentials w.now).mapError .error,
            after w sent) := by
  have walks := gather_walks source w
  rw [subject_token_eq]
  generalize hg : gather source w.environment w = run at walks
  cases walks with
  | halted ended =>
    rw [ended]
    exact bind_error hg _
  | arrived ended brought =>
    obtain ⟨credentials, held, rfl⟩ := Option.map_eq_some_iff.mp brought
    rw [ended]
    refine ⟨credentials, held, ?_⟩
    rw [bind_ok hg]
    exact ofExcept_run _ _

/-- Nothing is asked of the server if the environment has everything. -/
theorem stops_supplied (supplied : needsServer w.environment = false) : stops source w = [] := by
  obtain ⟨region, credentials⟩ := Bool.or_eq_false_iff.mp supplied
  obtain ⟨region, hr⟩ := Option.isSome_iff_exists.mp (Option.isNone_eq_false_iff.mp region)
  obtain ⟨credentials, hc⟩ := Option.isSome_iff_exists.mp (Option.isNone_eq_false_iff.mp credentials)
  simp [stops, sessionStops, sessionUrl?, regionStops, credentialStops, supplied, hr, hc]

/-- The requests of the way are a beginning of those that its stops have to send. The first opens
the session if there is to be one, and all others carry the token that it was answered with. -/
structure Orderly (sent : List Request) : Prop where
  planned : sent <+: (stops source w).flatMap (Stop.sends w.network)
  opening : ∀ put ∈ sent, put.method = .put → sent.head? = some put ∧
    needsServer w.environment = true ∧
    (∃ url, source.sessionTokenUrl = some url ∧ Uri.parse? url = some put.uri) ∧
    put.headers = [lifetimeHeader]
  carrying : ∀ request ∈ sent, request.method = .get →
    match sessionUrl? source w with
    | some _ => ∃ put response text, put ∈ sent ∧ put.method = .put ∧
        answerTo w 0 = .response response ∧ Utf8.text? response.body = some text ∧
        request.headers = [sessionHeader (Blank.trim text)]
    | none => (∀ other ∈ sent, other.method ≠ .put) ∧ request.headers = []

theorem built_eq {method : Method} {url : String} {headers : List Header} {request : Request}
    (h : built? method url headers = some request) :
    request.method = method ∧ Uri.parse? url = some request.uri ∧ request.headers = headers := by
  obtain ⟨-, h⟩ := Option.ite_none_right_eq_some.mp h
  obtain ⟨uri, parsed, rfl⟩ := Option.map_eq_some_iff.mp h
  exact ⟨rfl, parsed, rfl⟩

theorem inquiries_send {network : Network} {request : Request}
    (h : request ∈ (regionStops source w ++ credentialStops source w).flatMap (Stop.sends network)) :
    request.method = .get ∧ request.headers = ((session? source w).map sessionHeader).toList := by
  have inquired : ∀ errand url flaw?, request ∈ (inquiry source w errand url flaw?).sends network →
      request.method = .get ∧ request.headers = ((session? source w).map sessionHeader).toList := by
    intro errand url flaw? among
    obtain ⟨method, -, headers⟩ := built_eq (visit_sends among).1
    exact ⟨method, headers⟩
  obtain ⟨stop, place, among⟩ := List.mem_flatMap.mp h
  obtain place | place := List.mem_append.mp place
  · unfold regionStops at place
    split at place
    · cases place
    · cases List.mem_singleton.mp place
      cases among
    · cases List.mem_singleton.mp place
      exact inquired _ _ _ among
  · unfold credentialStops at place
    split at place
    · cases place
    · cases List.mem_singleton.mp place
      cases among
    · obtain rfl | place := List.mem_cons.mp place
      · exact inquired _ _ _ among
      · cases List.mem_singleton.mp place
        exact inquired _ _ _ among

theorem opening_sends {network : Network} {url : String} {request : Request}
    (h : request ∈ (opening url).sends network) : request.method = .put ∧
      Uri.parse? url = some request.uri ∧ request.headers = [lifetimeHeader] :=
  built_eq (visit_sends h).1

theorem orderly_unopened {sent : List Request} (unopened : sessionUrl? source w = none)
    (planned : sent <+: (stops source w).flatMap (Stop.sends w.network)) : Orderly source w sent := by
  have way : stops source w = regionStops source w ++ credentialStops source w := by
    simp [stops, sessionStops, unopened]
  have gets : ∀ request ∈ sent, request.method = .get ∧ request.headers = [] := by
    intro request among
    have inquired := planned.subset among
    rw [way] at inquired
    simpa [session?, unopened] using inquiries_send source w inquired
  have no_put : ∀ other ∈ sent, other.method ≠ .put := by
    intro other among
    rw [(gets other among).1]
    nofun
  constructor
  · exact planned
  · intro put among method
    exact absurd method (no_put put among)
  · intro request among _
    rw [unopened]
    exact ⟨no_put, (gets request among).2⟩

theorem orderly_opened {url : String} {sent : List Request} {ending : Option CredentialsError}
    (opened : sessionUrl? source w = some url)
    (planned : sent <+: (stops source w).flatMap (Stop.sends w.network))
    (walked : walk w.network (stops source w) w.answers = (sent, ending)) : Orderly source w sent := by
  obtain ⟨needed, configured⟩ := Option.ite_none_right_eq_some.mp opened
  have way : stops source w =
      opening url :: (regionStops source w ++ credentialStops source w) := by
    simp [stops, sessionStops, opened]
  have opens : ∀ put ∈ (opening url).sends w.network, needsServer w.environment = true ∧
      (∃ url, source.sessionTokenUrl = some url ∧ Uri.parse? url = some put.uri) ∧
      put.headers = [lifetimeHeader] := by
    intro put among
    obtain ⟨-, parsed, headers⟩ := opening_sends among
    exact ⟨needed, ⟨url, configured, parsed⟩, headers⟩
  rw [way, walk, head_eq] at walked
  rcases passed : (opening url).halt? w.network (answerTo w 0) with _ | e <;>
    rw [passed] at walked <;> cases walked
  · -- The session is open, and what follows has its token.
    obtain ⟨put, alone⟩ := List.length_eq_one_iff.mp (sends_one passed)
    have among : put ∈ (opening url).sends w.network := by simp [alone]
    have puts := (opening_sends among).1
    rw [alone] at planned opens ⊢
    obtain ⟨response, text, met, read⟩ := answered passed
    have token : session? source w = some (Blank.trim text) := by
      simp [session?, opened, met, said, read]
    have later : ∀ request ∈ (walk w.network (regionStops source w ++ credentialStops source w)
        w.answers.tail).1, request.method = .get ∧
          request.headers = [sessionHeader (Blank.trim text)] := by
      intro request among
      have inquired := inquiries_send source w ((walk_begins ..).subset among)
      rwa [token] at inquired
    constructor
    · exact planned
    · intro other among method
      obtain rfl | among := List.mem_cons.mp among
      · exact ⟨rfl, opens other (List.mem_cons_self ..)⟩
      · rw [(later other among).1] at method
        cases method
    · intro request among method
      obtain rfl | among := List.mem_cons.mp among
      · rw [puts] at method
        cases method
      · rw [opened]
        exact ⟨put, response, text, List.mem_cons_self .., puts, met, read, (later request among).2⟩
  · constructor
    · exact planned
    · intro put among _
      refine ⟨?_, opens put among⟩
      rw [opening, (visit_sends among).2]
      rfl
    · intro request among method
      rw [(opening_sends among).1] at method
      cases method

theorem orderly {sent : List Request} {ending : Option CredentialsError}
    (walked : walk w.network (stops source w) w.answers = (sent, ending)) : Orderly source w sent := by
  have planned := walk_begins w.network (stops source w) w.answers
  rw [walked] at planned
  rcases opened : sessionUrl? source w with _ | url
  · exact orderly_unopened source w opened planned
  · exact orderly_opened source w opened planned walked

theorem supplied_token (audience : String) {region : String} {credentials : AwsCredentials}
    (located : AwsSource.regionOf? w.environment = some region)
    (held : AwsSource.credentialsOf? w.environment = some credentials) :
    source.subjectToken audience w =
      ((source.signedToken audience region credentials w.now).mapError .error, w) := by
  have supplied : needsServer w.environment = false := by simp [needsServer, located, held]
  have walked := subject_token_walks source w audience
  rw [stops_supplied source w supplied, walk] at walked
  obtain ⟨_, brought, outcome⟩ := walked
  rw [credentials?, held] at brought
  cases brought
  rw [outcome, Metadata.region, located, after_nil]
  rfl

/-- The region is that of the environment or of the zone, and the credentials are those of the
environment or of the role. If the environment has both, nothing is sent. What is missing is asked
for in the order of the stops, up to the first where something is wrong: its error is the outcome,
and nothing is signed. At the end of the way, region and credentials sign the request. -/
theorem metadata_plan (audience : String) :
    (∀ region, AwsSource.regionOf? w.environment = some region ↔
      Supplied w.environment "AWS_REGION" region ∨
        (∀ other, ¬ Supplied w.environment "AWS_REGION" other) ∧
          Supplied w.environment "AWS_DEFAULT_REGION" region) ∧
    (∀ credentials, AwsSource.credentialsOf? w.environment = some credentials ↔
      Supplied w.environment "AWS_ACCESS_KEY_ID" credentials.accessKeyId ∧
      Supplied w.environment "AWS_SECRET_ACCESS_KEY" credentials.secretAccessKey ∧
      ∀ token, credentials.sessionToken = some token ↔
        Supplied w.environment "AWS_SESSION_TOKEN" token) ∧
    (∀ document credentials, AwsSource.readCredentials? document = some credentials ↔
      SpellsOut document credentials) ∧
    (∀ region credentials, AwsSource.regionOf? w.environment = some region →
      AwsSource.credentialsOf? w.environment = some credentials →
      source.subjectToken audience w =
        ((source.signedToken audience region credentials w.now).mapError .error, w)) ∧
    ∃ sent ending, walk w.network (stops source w) w.answers = (sent, ending) ∧
      Orderly source w sent ∧
      match ending with
      | some e => source.subjectToken audience w = (.error (.error e), after w sent)
      | none => ∃ credentials, credentials? source w = some credentials ∧
          source.subjectToken audience w =
            ((source.signedToken audience (region source w) credentials w.now).mapError .error,
              after w sent) := by
  refine ⟨fun _ => region_iff, fun _ => credentials_iff, fun _ _ => spelled_iff,
    fun _ _ => supplied_token source w audience, ?_⟩
  have outcome := subject_token_walks source w audience
  rcases walked : walk w.network (stops source w) w.answers with ⟨sent, _ | e⟩ <;>
    rw [walked] at outcome
  · exact ⟨sent, none, rfl, orderly source w walked, outcome⟩
  · exact ⟨sent, some e, rfl, orderly source w walked, outcome⟩

end Gathering

def onInstance : AwsSource :=
  { AwsToken.regional with
    regionUrl := some "http://169.254.169.254/zone"
    url := some "http://169.254.169.254/roles//"
    sessionTokenUrl := some "http://169.254.169.254/token" }

def told (text : String) : Answer := .response ⟨200, Utf8.ofString text⟩

def serving : World :=
  ⟨.empty, .empty, fun _ files => (.notStarted, files), .scripted,
    [told "opened\n", told "us-east-2b", told " role ", told ("\x7b\"AccessKeyId\":\"AKIDEXAMPLE\"," ++
      "\"SecretAccessKey\":\"wJalrXUtnFEMI\",\"Token\":\"session\"\x7d")],
    [], 1440938160000000000, 0, [], .plain⟩

theorem after_requests (w : World) (sent : List Request) :
    (after w sent).requests = w.requests ++ sent := by
  have kept : sent.filterMap (fun request => some request) = sent := List.filterMap_some
  simp [World.requests, after, List.filterMap_map, kept]

def onServer (path : String) : Uri :=
  ⟨some "http".toList, "169.254.169.254".toList, path.toList, none⟩

def inSession (path : String) : Request :=
  ⟨.get, onServer path, [sessionHeader "opened"], []⟩

theorem metadata_plan_instance : ∃ token,
    (onInstance.subjectToken "audience" serving).1 = .ok token ∧
    (onInstance.subjectToken "audience" serving).2.requests =
      [⟨.put, onServer "/token", [lifetimeHeader], []⟩, inSession "/zone", inSession "/roles//",
        inSession "/roles/role"] := by
  obtain ⟨-, -, -, -, sent, ending, walked, -, outcome⟩ := metadata_plan onInstance serving "audience"
  have evaluated : (walk serving.network (stops onInstance serving) serving.answers).1 =
      [⟨.put, onServer "/token", [lifetimeHeader], []⟩, inSession "/zone", inSession "/roles//",
        inSession "/roles/role"] ∧
      (walk serving.network (stops onInstance serving) serving.answers).2.isNone = true := by
    decide +kernel
  rw [walked] at evaluated
  obtain ⟨planned, whole⟩ := evaluated
  obtain rfl := Option.isNone_iff_eq_none.mp whole
  obtain ⟨credentials, held, produced⟩ := outcome
  have holder : credentials? onInstance serving = some AwsToken.holder := by decide +kernel
  have located : region onInstance serving = "us-east-2" := by decide +kernel
  rw [holder, Option.some.injEq] at held
  subst held
  obtain ⟨token, signed⟩ := AwsToken.regional_token "audience" AwsToken.holder serving.now
  have same : onInstance.signedToken "audience" "us-east-2" AwsToken.holder serving.now =
      .ok token := signed
  rw [produced, located, same, after_requests]
  exact ⟨token, rfl, planned⟩

end WorkloadIdentity.Metadata
