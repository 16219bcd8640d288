import WorkloadIdentity.Proofs.Retrieval.Deferred
import WorkloadIdentity.Proofs.Session.Matching

/-!
# Headers that cannot be mistaken

Texts from the configuration, the environment and every server come to stand in headers. A text
that would end a header, or begin another, is refused where the header is made: the call fails for
good, and what would have carried the header is neither sent nor returned.
-/

set_option autoImplicit false

namespace WorkloadIdentity.Headers

open Deferred (carrying)
open Journey (bind_ok bind_error needsServer regionFor credentialsFor
  subject_token_run source_fails source_gives)
open Matching (Only)
open Messages (basic bearer clientHeaders contentType)
open OneCell (observe)
open Session (Result Step onWorld)

def tokenChars : List Char := "abcdefghijklmnopqrstuvwxyz0123456789!#$%&'*+-.^_|~\x60".toList

structure Sound (h : Header) : Prop where
  value : ∀ b ∈ h.value, b = 0x09 ∨ (0x20 ≤ b ∧ b ≠ 0x7F)
  named : h.name ≠ ""
  token : ∀ c ∈ h.name.toList, c ∈ tokenChars

instance (h : Header) : Decidable (Sound h) :=
  decidable_of_iff (h.value.all (fun b => b = 0x09 ∨ (0x20 ≤ b ∧ b ≠ 0x7F)) ∧ h.name ≠ "" ∧
      h.name.toList.all (· ∈ tokenChars)) (by
    simp only [List.all_eq_true, decide_eq_true_eq]
    exact ⟨fun ⟨value, named, token⟩ => ⟨value, named, token⟩,
      fun h => ⟨h.value, h.named, h.token⟩⟩)

def lowered : RawHeader → Header
  | (sensitive, name, value) =>
    ⟨String.ofList (name.toList.map Char.toLower), Utf8.ofString value, sensitive⟩

theorem value_iff (value : Bytes) :
    Header.isValue value = true ↔ ∀ b ∈ value, b = 0x09 ∨ (0x20 ≤ b ∧ b ≠ 0x7F) := by
  simp [Header.isValue, Header.isValueByte, or_comm]

theorem token_ascii {c : Char} (h : Header.isTokenChar c = true) : c.toNat < 128 := by
  have marks : ∀ x ∈ "!#$%&'*+-.^_|~".toList, x.toNat < 128 :=
    List.forall_iff_forall_mem.mp (by decide)
  simp only [Header.isTokenChar, Bool.or_eq_true, List.contains_iff_mem, beq_iff_eq] at h
  rcases h with (word | mark) | rfl
  · have below : c.toNat ≤ 'z'.toNat := by
      unfold Char.isAlphanum Char.isAlpha Char.isUpper Char.isLower Char.isDigit at word
      simp only [Bool.or_eq_true, Bool.and_eq_true, decide_eq_true_eq] at word
      rcases word with (⟨-, high⟩ | ⟨-, high⟩) | ⟨-, high⟩
      · exact Nat.le_trans high (by decide)
      · exact high
      · exact Nat.le_trans high (by decide)
    exact Nat.lt_of_le_of_lt below (by decide)
  · exact marks c mark
  · decide

theorem lower_wide {c : Char} (wide : 128 ≤ c.toNat) : c.toLower = c := by
  unfold Char.toLower
  simp only [UInt32.le_iff_toNat_le]
  split
  · rename_i upper
    have : c.toNat ≤ 90 := upper.2
    omega
  · rfl

theorem lower_token (c : Char) : Header.isTokenChar c = true ↔ c.toLower ∈ tokenChars := by
  -- beyond ASCII neither side holds, and within it every character is tried
  have narrow : ∀ n < 128, Header.isTokenChar (Char.ofNat n) = true ↔
      (Char.ofNat n).toLower ∈ tokenChars := by decide +kernel
  by_cases ascii : c.toNat < 128
  · simpa only [Char.ofNat_toNat] using narrow c.toNat ascii
  · have listed : ∀ x ∈ tokenChars, x.toNat < 128 := List.forall_iff_forall_mem.mp (by decide)
    rw [lower_wide (by omega)]
    exact ⟨fun h => absurd (token_ascii h) ascii, fun h => absurd (listed c h) ascii⟩

/-- What these texts have to be to make a header. -/
def Fit (raw : RawHeader) : Prop :=
  Sound (lowered raw) ∧ raw.2.1.toList.length ≤ Header.maxNameLength

instance (raw : RawHeader) : Decidable (Fit raw) := inferInstanceAs (Decidable (_ ∧ _))

/-- A header is made exactly if it is sound and its name is not too long. -/
theorem make_eq (sensitive : Bool) (name value : String) : Header.make? sensitive name value =
    if Fit (sensitive, name, value) then some (lowered (sensitive, name, value)) else none := by
  have fit : (Header.isName name.toList && Header.isValue (Utf8.ofString value)) = true ↔
      Fit (sensitive, name, value) := by
    rw [Bool.and_eq_true, value_iff, Header.isName, Bool.and_eq_true, Bool.and_eq_true,
      List.all_eq_true, decide_eq_true_eq]
    simp only [lower_token]
    constructor
    · rintro ⟨⟨⟨named, short⟩, token⟩, value⟩
      exact ⟨⟨value, by simpa [lowered] using named, by simpa [lowered] using token⟩, short⟩
    · rintro ⟨⟨value, named, token⟩, short⟩
      exact ⟨⟨⟨by simpa [lowered] using named, short⟩, by simpa [lowered] using token⟩, value⟩
  unfold Header.make?
  simp only [fit]
  rfl

theorem headers_eq (raw : List RawHeader) :
    raw.mapM (fun (sensitive, name, value) => Header.make? sensitive name value) =
      if ∀ header ∈ raw, Fit header then some (raw.map lowered) else none := by
  induction raw with
  | nil => rfl
  | cons first rest ih =>
    rw [List.mapM_cons, ih]
    simp only [make_eq, List.forall_mem_cons]
    by_cases fit : Fit first
    · by_cases fits : ∀ header ∈ rest, Fit header
      · rw [if_pos fit, if_pos fits, if_pos ⟨fit, fits⟩]
        rfl
      · rw [if_pos fit, if_neg fits, if_neg fun both => fits both.2]
        rfl
    · rw [if_neg fit]
      exact (if_neg fun both => fit both.1).symm

theorem make_request_eq (method : Method) (url : String) (raw : List RawHeader) (body : Bytes) :
    Request.make? method url raw body = if ∀ header ∈ raw, Fit header then
      (Uri.parse? url).map fun uri => ⟨method, uri, raw.map lowered, body⟩
    else none := by
  unfold Request.make?
  rw [headers_eq]
  by_cases fits : ∀ header ∈ raw, Fit header
  · rw [if_pos fits, if_pos fits]
    cases Uri.parse? url <;> rfl
  · rw [if_neg fits, if_neg fits]
    cases Uri.parse? url <;> rfl

theorem request_sound {method : Method} {url : String} {raw : List RawHeader} {body : Bytes}
    {request : Request} (made : Request.make? method url raw body = some request) :
    ∀ header ∈ request.headers, Sound header := by
  rw [make_request_eq] at made
  by_cases fits : ∀ header ∈ raw, Fit header
  · rw [if_pos fits] at made
    obtain ⟨uri, -, rfl⟩ := Option.map_eq_some_iff.mp made
    exact List.forall_mem_map.mpr fun header member => (fits header member).1
  · rw [if_neg fits] at made
    cases made

theorem request_unfit (method : Method) (url : String) {raw : List RawHeader} {header : RawHeader}
    (listed : header ∈ raw) (unfit : ¬ Sound (lowered header)) (body : Bytes) :
    Request.make? method url raw body = none := by
  rw [make_request_eq]
  exact if_neg fun fits => unfit (fits header listed).1

/-- Every header is sound, and a request that posts hides how it is authorized. -/
def Proper : Event → Prop
  | .request r => (∀ header ∈ r.headers, Sound header) ∧
      (r.method = .post → ∀ header ∈ r.headers, header.name = "authorization" →
        header.sensitive = true)
  | .command _ | .provider => True

theorem client_sensitive (config : Configuration) :
    ∀ header ∈ clientHeaders config, header.sensitive = true := by
  unfold clientHeaders
  split <;> simp [basic]

theorem grant_proper {config : Configuration} {subjectToken : String} {request : Request}
    (made : Exchange.request? config subjectToken = some request) : Proper (.request request) := by
  refine ⟨request_sound made, fun _ header member named => ?_⟩
  rw [Messages.request_eq] at made
  obtain ⟨uri, -, rfl⟩ := Option.map_eq_some_iff.mp made
  rcases List.mem_cons.mp member with rfl | authorizing
  · simp [contentType] at named
  · exact client_sensitive config header authorizing

theorem bearer_sound {accessToken : String} :
    Header.isValue (bearer accessToken).value = true ↔ Sound (bearer accessToken) :=
  ⟨fun fit => ⟨(value_iff _).mp fit, by simp [bearer], known⟩,
    fun sound => (value_iff _).mpr sound.value⟩
where
  known : ∀ c ∈ "authorization".toList, c ∈ tokenChars := List.forall_iff_forall_mem.mp (by decide)

theorem account_proper {i : Impersonation} {scopes : List String} {token : Token}
    {request : Request} (made : i.request scopes token = .ok request) :
    Proper (.request request) := by
  rw [Messages.account_request] at made
  split at made
  · cases made
  split at made
  · rename_i fit
    cases made
    refine ⟨?_, fun _ => ?_⟩
    · simp only [List.forall_mem_cons]
      exact ⟨by decide +kernel, bearer_sound.mp fit, by simp⟩
    · simp [contentType, bearer]
  · cases made

theorem retrieve_proper (config : Configuration) :
    Matching.Matches (Only Proper) config.retrieve config.retrieve :=
  Matching.retrieve_only
    ⟨fun fetches made => ⟨rfl, request_sound made, fun posts => absurd posts fetches⟩,
      fun _ => ⟨rfl, trivial⟩, rfl, trivial⟩
    (fun _ _ _ made => grant_proper made) fun _ _ _ made => account_proper made

theorem token_headers_eq (config : Configuration) (token : Token) :
    token.headers config.quotaProject =
      if ∀ header ∈ carrying config token, Sound header then .ok (carrying config token)
      else .error (.ofIncident .headerValue) := by
  have raw : (token.authorization :: Token.quotaHeader config.quotaProject).map lowered =
      carrying config token := by
    unfold carrying
    cases config.quotaProject <;> rfl
  have short : ∀ header ∈ token.authorization :: Token.quotaHeader config.quotaProject,
      header.2.1.toList.length ≤ Header.maxNameLength := by
    cases config.quotaProject <;>
      simp [Token.authorization, Token.quotaHeader, Header.maxNameLength]
  have fits : (∀ header ∈ token.authorization :: Token.quotaHeader config.quotaProject,
      Fit header) ↔ ∀ header ∈ carrying config token, Sound header := by
    rw [← raw, List.forall_mem_map]
    exact ⟨fun all header member => (all header member).1,
      fun all header member => ⟨all header member, short header member⟩⟩
  unfold Token.headers
  rw [headers_eq, raw]
  by_cases sound : ∀ header ∈ carrying config token, Sound header
  · rw [if_pos sound, if_pos (fits.mpr sound)]
  · rw [if_neg sound, if_neg fun all => sound (fits.mp all)]

theorem render_eq (c : Credentials) (token : Token) : c.render .headers (.ok token) =
    if ∀ header ∈ carrying c.config token, Sound header then .headers (carrying c.config token)
    else .error (.ofIncident .headerValue) := by
  simp only [Credentials.render, token_headers_eq]
  by_cases sound : ∀ header ∈ carrying c.config token, Sound header
  · rw [if_pos sound, if_pos sound]
  · rw [if_neg sound, if_neg sound]

theorem render_maps {c : Credentials} {call : Call} {outcome : Except Failure Token}
    {headers : List Header} (h : c.render call outcome = .headers headers) :
    ∃ token, outcome = .ok token ∧ headers = carrying c.config token ∧
      ∀ header ∈ headers, Sound header := by
  rcases outcome with (e | _) | token
  · cases h
  · cases h
  cases call with
  | refresh => cases h
  | headers =>
    rw [render_eq] at h
    split at h
    · cases h
      exact ⟨token, rfl, rfl, ‹_›⟩
    · cases h

/-- A turn at refreshing ends with the outcome that is published last, its own or a shared one. -/
theorem refreshed (c : Credentials) (seen : Nat) :
    (c.refreshAfter seen).2.config = c.config ∧ ∀ token, (c.refreshAfter seen).1 = .ok token →
      (c.refreshAfter seen).2.cache.last = some (.ok token) := by
  unfold Credentials.refreshAfter Credentials.retrieve
  split
  · rename_i outcome shared
    unfold Cache.shared? at shared
    split at shared
    · cases shared
    · refine ⟨rfl, fun token given => ?_⟩
      cases outcome <;> cases given
      exact shared
  · rcases c.config.retrieve c.world with ⟨(e | _) | token, w⟩
    · exact ⟨rfl, nofun⟩
    · exact ⟨rfl, nofun⟩
    · refine ⟨rfl, fun token given => ?_⟩
      cases given
      rfl

theorem proceed_config (c : Credentials) (call : Call) (reading : Reading) :
    (c.proceed call reading).2.config = c.config := by
  cases reading with
  | valid token => rfl
  | stale seen => exact (refreshed c seen).1

theorem proceed_maps {c : Credentials} {call : Call} {reading : Reading} {headers : List Header}
    (h : (c.proceed call reading).1 = .headers headers) :
    ∃ token, (reading = .valid token ∨ (c.proceed call reading).2.cache.last = some (.ok token)) ∧
      headers = carrying c.config token ∧ ∀ header ∈ headers, Sound header := by
  cases reading with
  | valid token =>
    have rendered : c.render call (.ok token) = .headers headers := h
    obtain ⟨_, same, entries, sound⟩ := render_maps rendered
    cases same
    exact ⟨token, .inl rfl, entries, sound⟩
  | stale seen =>
    obtain ⟨config, published⟩ := refreshed c seen
    have rendered : (c.refreshAfter seen).2.render call (c.refreshAfter seen).1 =
        .headers headers := h
    obtain ⟨token, outcome, entries, sound⟩ := render_maps rendered
    rw [config] at entries
    exact ⟨token, .inr (published token outcome), entries, sound⟩

def maps : Result → List (List Header)
  | .response (.reply (.headers headers)) _ => [headers]
  | .responses responses _ => responses.filterMap fun
    | .reply (.headers headers) => some headers
    | _ => none
  | _ => []

def Carried (config : Configuration) (headers : List Header) : Prop :=
  ∃ token, headers = carrying config token ∧ ∀ header ∈ headers, Sound header

theorem proceedAll_carried (calls : List (Call × Reading)) (c : Credentials) :
    (c.proceedAll calls).2.config = c.config ∧
      ∀ headers, Reply.headers headers ∈ (c.proceedAll calls).1 → Carried c.config headers := by
  induction calls generalizing c with
  | nil => exact ⟨rfl, by simp [Credentials.proceedAll]⟩
  | cons first rest ih =>
    obtain ⟨call, reading⟩ := first
    obtain ⟨config, replies⟩ := ih (c.proceed call reading).2
    have own := proceed_config c call reading
    rw [own] at config replies
    refine ⟨config, fun headers member => ?_⟩
    rcases List.mem_cons.mp member with here | later
    · obtain ⟨token, -, carried⟩ := proceed_maps here.symm
      exact ⟨token, carried⟩
    · exact replies headers later

theorem placed {requests : List Session.Request} {replies : List Reply} {reply : Reply}
    (h : .reply reply ∈ Session.place requests replies) : reply ∈ replies := by
  fun_induction Session.place requests replies with
  | case1 => cases h
  | case2 r rs _ first rest ih =>
    rcases List.mem_cons.mp h with same | later
    · cases same
      exact List.mem_cons_self
    · exact List.mem_cons_of_mem _ (ih later)
  | case3 r rs _ ih => exact ih h
  | case4 r rs replies _ ih =>
    rcases List.mem_cons.mp h with same | later
    · cases same
    · exact ih later

theorem asked_carried (c : Credentials) (request : Session.Request) :
    (Session.call c request).2.config = c.config ∧ ∀ headers,
      (Session.call c request).1 = .reply (.headers headers) → Carried c.config headers := by
  unfold Session.call
  split
  · refine ⟨proceed_config c _ _, fun headers shown => ?_⟩
    obtain ⟨token, -, carried⟩ := proceed_maps (Session.Response.reply.inj shown)
    exact ⟨token, carried⟩
  · exact ⟨rfl, nofun⟩

theorem shown_alone {response : Session.Response} {ticks : Calendar.Nanoseconds}
    {headers : List Header} (h : headers ∈ maps (.response response ticks)) :
    response = .reply (.headers headers) := by
  unfold maps at h
  split at h
  · rename_i same
    cases same
    rw [List.mem_singleton.mp h]
  · cases ‹_ = Result.responses _ _›
  · cases h

theorem step_carried (c : Credentials) (step : Step) :
    (Session.step c step).2.config = c.config ∧
      ∀ headers ∈ maps (Session.step c step).1, Carried c.config headers := by
  cases step with
  | call request hang =>
    cases hang with
    | false =>
      obtain ⟨config, carried⟩ := asked_carried c request
      exact ⟨config, fun headers member => carried headers (shown_alone member)⟩
    | true =>
      obtain ⟨config, carried⟩ := asked_carried (onWorld c Session.hang) request
      exact ⟨config, fun headers member => carried headers (shown_alone member)⟩
  | join requests =>
    obtain ⟨config, carried⟩ := proceedAll_carried
      (((requests.filter (·.isAskable)).map (·.call)).map fun call => (call, c.look call)) c
    refine ⟨config, fun headers member => ?_⟩
    obtain ⟨response, among, shown⟩ := List.mem_filterMap.mp member
    split at shown
    · cases shown
      exact carried _ (placed among)
    · cases shown
  | _ => exact ⟨rfl, by simp [Session.step, maps]⟩

theorem observe_carried (c : Credentials) (steps : List Step) :
    ∀ sight ∈ (observe c steps).1, ∀ headers ∈ maps sight.1, Carried c.config headers := by
  induction steps generalizing c with
  | nil => exact fun _ member => nomatch member
  | cons step rest ih =>
    obtain ⟨config, carried⟩ := step_carried (onWorld c ({ · with events := [] })) step
    have later := ih (Session.step (onWorld c ({ · with events := [] })) step).2
    rw [config] at later
    exact List.forall_mem_cons.mpr ⟨carried, later⟩

/-- An attempt fails for good, and nothing comes after the world `v`. -/
def Stops {α : Type} (m : Attempt α) (w v : World) : Prop :=
  ∃ e : CredentialsError, m w = (.error (.error e), v) ∧ e.transient = false

section Stopping

variable {α β : Type} {w v : World}

theorem stops_fail {e : CredentialsError} (final : e.transient = false) (w : World) :
    Stops (Attempt.fail e : Attempt α) w w := ⟨e, rfl, final⟩

theorem stops_first {m : Attempt α} (h : Stops m w v) (f : α → Attempt β) :
    Stops (m >>= f) w v := by
  obtain ⟨e, failed, final⟩ := h
  exact ⟨e, bind_error failed f, final⟩

theorem stops_then {m : Attempt α} {a : α} {w' : World} (given : m w = (.ok a, w'))
    {f : α → Attempt β} (h : Stops (f a) w' v) : Stops (m >>= f) w v := by
  obtain ⟨e, failed, final⟩ := h
  exact ⟨e, (bind_ok given f).trans failed, final⟩

theorem stops_unbuilt (incident : Incident) {γ : Type} (f : γ → Attempt α) (w : World) :
    Stops (Attempt.orIncident incident none >>= f) w w :=
  stops_first (stops_fail rfl w) f

theorem stops_custom {source : UrlSource} {name value : String}
    (listed : (name, value) ∈ source.headers) (unfit : ¬ Sound (lowered (false, name, value)))
    (w : World) : Stops source.subjectToken w w := by
  have unbuilt : source.request? = none :=
    request_unfit .get source.url (List.mem_map_of_mem listed) unfit []
  unfold UrlSource.subjectToken
  rw [unbuilt]
  exact stops_unbuilt _ _ w

theorem stops_account {i : Impersonation} {token : Token} (unfit : ¬ Sound (bearer token.value))
    (scopes : List String) (w : World) : Stops (i.exchange scopes token) w w := by
  obtain ⟨e, refused, final⟩ : ∃ e, i.request scopes token = .error e ∧ e.transient = false := by
    rw [Messages.account_request]
    split
    · exact ⟨_, rfl, rfl⟩
    · rw [if_neg fun fit => unfit (bearer_sound.mp fit)]
      exact ⟨_, rfl, rfl⟩
  unfold Impersonation.exchange
  rw [refused]
  exact stops_first (stops_fail final w) _

theorem session_needed {source : AwsSource} {needed : Bool} {token : String}
    (opened : source.openSession needed w = (.ok (some token), v)) : needed = true := by
  cases needed with
  | true => rfl
  | false =>
    unfold AwsSource.openSession at opened
    rcases url : source.sessionTokenUrl with _ | _ <;> rw [url] at opened <;> cases opened

section Session

variable {source : AwsSource} {token : String}
  (unfit : ¬ Sound (lowered (false, "x-aws-ec2-metadata-token", token)))

include unfit

theorem stops_fetch (errand : Errand) (url : String) (f : String → Attempt β) (w : World) :
    Stops (AwsSource.fetch errand (AwsSource.metadataRequest? (some token) url) >>= f) w w := by
  have unbuilt : AwsSource.metadataRequest? (some token) url = none :=
    request_unfit .get url List.mem_cons_self unfit []
  rw [unbuilt]
  exact stops_first (stops_unbuilt _ _ w) f

theorem stops_region (w : World) : Stops (source.fetchRegion (some token)) w w := by
  unfold AwsSource.fetchRegion
  split
  · exact stops_fail rfl w
  · exact stops_fetch unfit _ _ _ w

theorem stops_credentials (w : World) : Stops (source.fetchCredentials (some token)) w w := by
  unfold AwsSource.fetchCredentials
  split
  · exact stops_fail rfl w
  · exact stops_fetch unfit _ _ _ w

theorem stops_session {audience : String}
    (opened : source.openSession (needsServer w.environment) w = (.ok (some token), v)) :
    Stops (source.subjectToken audience) w v := by
  have needed := session_needed opened
  unfold Stops
  rw [subject_token_run]
  rcases known : AwsSource.regionOf? w.environment with _ | region
  · have stopped : Stops (regionFor source w.environment (some token)) v v := by
      unfold regionFor
      rw [known]
      exact stops_region unfit v
    exact stops_first (stops_then opened (stops_first stopped _)) _
  · have stopped : Stops (credentialsFor source w.environment (some token)) v v := by
      have unknown : AwsSource.credentialsOf? w.environment = none := by
        simpa [needsServer, known] using needed
      unfold credentialsFor
      rw [unknown]
      exact stops_credentials unfit v
    have given : regionFor source w.environment (some token) v = (.ok region, v) := by
      unfold regionFor
      rw [known]
      rfl
    have told : (do
        let session ← source.openSession (needsServer w.environment)
        let region ← regionFor source w.environment session
        pure (session, region) : Attempt (Option String × String)) w =
          (.ok (some token, region), v) := by
      rw [bind_ok opened, bind_ok given]
      rfl
    exact stops_then told (stops_first stopped _)

end Session

end Stopping

/-- Some text cannot stand in a header of the next request. The second world is the one that this
request would have been sent in. -/
inductive Obstructed (config : Configuration) (w : World) : World → Prop
  | custom {source : UrlSource} {name value : String} (consulted : config.source = .url source)
      (listed : (name, value) ∈ source.headers) (unfit : ¬ Sound (lowered (false, name, value))) :
      Obstructed config w w
  | session {source : AwsSource} {token : String} {v : World}
      (consulted : config.source = .aws source)
      (opened : source.openSession (needsServer w.environment) w = (.ok (some token), v))
      (unfit : ¬ Sound (lowered (false, "x-aws-ec2-metadata-token", token))) : Obstructed config w v
  | account {i : Impersonation} {subjectToken : String} {token : Token} {v v' : World}
      (impersonates : config.impersonation = some i)
      (sourced : config.sourceToken w = (.ok subjectToken, v))
      (granted : Exchange.exchange config subjectToken v = (.ok token, v'))
      (unfit : ¬ Sound (bearer token.value)) : Obstructed config w v'

theorem source_stops {config : Configuration} {w v : World} (h : Stops config.sourceToken w v) :
    Stops config.retrieve w v := by
  obtain ⟨e, failed, final⟩ := h
  exact ⟨e.inSubjectToken, source_fails failed, final⟩

theorem retrieve_stops {config : Configuration} {w v : World} (h : Obstructed config w v) :
    Stops config.retrieve w v := by
  cases h with
  | custom consulted listed unfit =>
    apply source_stops
    unfold Configuration.sourceToken
    rw [consulted]
    exact stops_custom listed unfit w
  | session consulted opened unfit =>
    apply source_stops
    unfold Configuration.sourceToken
    rw [consulted]
    exact stops_session unfit opened
  | account impersonates sourced granted unfit =>
    unfold Stops
    rw [source_gives sourced, impersonates]
    exact stops_then granted (stops_account unfit config.scopes v)

def Given (c : Credentials) (reading : Reading) (token : Token) : Prop :=
  reading = .valid token ∨ ∃ seen, reading = .stale seen ∧ (c.refreshAfter seen).1 = .ok token

theorem unfit_withheld {c : Credentials} {reading : Reading} {token : Token}
    (given : Given c reading token) (unfit : ¬ ∀ header ∈ carrying c.config token, Sound header) :
    ∃ e : CredentialsError, (c.proceed .headers reading).1 = .error e ∧ e.transient = false := by
  rcases given with rfl | ⟨seen, rfl, refreshing⟩
  · exact ⟨_, (render_eq c token).trans (if_neg unfit), rfl⟩
  · have rendered : (c.proceed .headers (.stale seen)).1 =
        (c.refreshAfter seen).2.render .headers (.ok token) := by rw [← refreshing]; rfl
    rw [rendered, render_eq, (refreshed c seen).1, if_neg unfit]
    exact ⟨_, rfl, rfl⟩

theorem obstructed_fails {c : Credentials} {seen : Nat} {v : World} (call : Call)
    (alone : c.cache.shared? seen = none) (h : Obstructed c.config c.world v) :
    ∃ e : CredentialsError, (c.proceed call (.stale seen)).1 = .error e ∧ e.transient = false ∧
      (c.proceed call (.stale seen)).2.world = v := by
  obtain ⟨e, failed, final⟩ := retrieve_stops h
  refine ⟨e, ?_⟩
  have turn : c.refreshAfter seen =
      (.error (.error e), { c with cache := c.cache.publish (.error e), world := v }) := by
    unfold Credentials.refreshAfter Credentials.retrieve
    rw [alone, failed]
  simp only [Credentials.proceed, turn]
  exact ⟨rfl, final, trivial⟩

/-- Whatever the texts are that the configuration, the environment and the servers supply: every
header that is sent or returned is sound, and what authorizes a client or carries an access token is
marked as sensitive. A map carries the token that the call found or that a retrieval published last,
and bills the quota project if there is one. A text that cannot stand in its header makes the call
fail for good, the map withheld, or the request and all that would follow it not sent. -/
theorem headers_stay_sound (config : Configuration) :
    (∀ (world : World) (steps : List Step), ∀ sight ∈ (observe (.new config world) steps).1,
      (∀ event ∈ sight.2, Proper event) ∧ ∀ headers ∈ maps sight.1, Carried config headers) ∧
    ∀ c : Credentials, c.config = config →
      (∀ call reading headers, (c.proceed call reading).1 = .headers headers →
        ∃ token, (reading = .valid token ∨
            (c.proceed call reading).2.cache.last = some (.ok token)) ∧
          headers = carrying config token) ∧
      (∀ reading token, Given c reading token →
        ¬ (∀ header ∈ carrying config token, Sound header) →
        ∃ e : CredentialsError, (c.proceed .headers reading).1 = .error e ∧ e.transient = false) ∧
      ∀ call seen v, c.cache.shared? seen = none → Obstructed config c.world v →
        ∃ e : CredentialsError, (c.proceed call (.stale seen)).1 = .error e ∧ e.transient = false ∧
          (c.proceed call (.stale seen)).2.world = v := by
  refine ⟨fun world steps sight member => ⟨?_, ?_⟩, ?_⟩
  · exact Matching.observe_only (retrieve_proper config) world steps sight member
  · exact observe_carried (.new config world) steps sight member
  · rintro c rfl
    refine ⟨fun call reading headers shown => ?_, fun _ _ => unfit_withheld,
      fun call _ _ => obstructed_fails call⟩
    obtain ⟨token, held, entries, -⟩ := proceed_maps shown
    exact ⟨token, held, entries⟩

/-- A broken line in a header of the configuration, one in the quota project, and neither. -/
theorem headers_stay_sound_lines :
    (∃ e : CredentialsError,
      let c := Credentials.new { Deferred.usable with
        source := .url ⟨"https://tokens/", [("x-key", "a\nb")], .text⟩ } Deferred.obliging
      (c.proceed .refresh (.stale 0)).1 = .error e ∧ e.transient = false ∧
        (c.proceed .refresh (.stale 0)).2.world = Deferred.obliging) ∧
    (∃ e : CredentialsError,
      ((Credentials.new (Deferred.configuration "https://sts/token" none (some "a\nb"))
        Deferred.obliging).proceed .headers (.stale 0)).1 = .error e ∧ e.transient = false) ∧
    ∃ token, ((Credentials.new Deferred.usable Deferred.obliging).proceed .headers
        (.stale 0)).2.cache.last = some (.ok token) ∧
      carrying Deferred.usable Deferred.finalToken = carrying Deferred.usable token := by
  refine ⟨?_, ?_, ?_⟩
  · obtain ⟨-, calls⟩ := headers_stay_sound { Deferred.usable with
      source := .url ⟨"https://tokens/", [("x-key", "a\nb")], .text⟩ }
    exact (calls (.new _ Deferred.obliging) rfl).2.2 .refresh 0 Deferred.obliging rfl
      (.custom rfl List.mem_cons_self (by decide +kernel))
  · have given := Deferred.retrieval_obliged (c := .new _ Deferred.obliging)
      (Deferred.obliging_direct "https://sts/token" (some "a\nb"))
    rw [if_pos (by decide +kernel)] at given
    obtain ⟨-, calls⟩ := headers_stay_sound
      (Deferred.configuration "https://sts/token" none (some "a\nb"))
    exact (calls (.new _ Deferred.obliging) rfl).2.1 (.stale 0) Deferred.grantedToken
      (.inr ⟨0, rfl, given⟩) (by decide +kernel)
  · have shown := Deferred.headers_obliged (c := .new Deferred.usable Deferred.obliging)
      (Deferred.obliging_account "https://sts/token" _ (some "project")) rfl
    rw [if_pos (by decide +kernel), if_pos (by decide +kernel)] at shown
    obtain ⟨-, calls⟩ := headers_stay_sound Deferred.usable
    obtain ⟨token, found | published, same⟩ :=
      (calls (.new _ Deferred.obliging) rfl).1 .headers (.stale 0) _ shown
    · cases found
    · exact ⟨token, published, same⟩

end WorkloadIdentity.Headers
