import WorkloadIdentity.Exchange.Security
import WorkloadIdentity.Exchange.ServiceAccount
import WorkloadIdentity.Proofs.Json.RoundTrip
import WorkloadIdentity.Proofs.Text.Form

/-! The two requests of an exchange. The request for a grant can be built whenever its URL is a
request URI, and the one for an account's token if also the access token can stand in a header;
decoded again, they say what the configuration says. -/

set_option autoImplicit false

namespace WorkloadIdentity

namespace Header

def IsVisible (c : Char) : Prop := 0x20 ≤ c.toNat ∧ c.toNat < 0x7F

instance (c : Char) : Decidable (IsVisible c) := inferInstanceAs (Decidable (_ ∧ _))

theorem visible_byte {b : UInt8} (low : 0x20 ≤ b.toNat) (high : b.toNat < 0x7F) :
    isValueByte b = true := by
  have other : b ≠ 0x7F := by
    rintro rfl
    exact absurd high (by decide)
  simp [isValueByte, UInt8.le_iff_toNat_le, low, other]

theorem visible_value {text : List Char} (h : ∀ c ∈ text, IsVisible c) :
    isValue (Utf8.encode text) = true := by
  rw [Utf8.encode_ascii text fun c hc => Nat.lt_succ_of_lt (h c hc).2, isValue, List.all_map,
    List.all_eq_true]
  intro c hc
  obtain ⟨low, high⟩ := h c hc
  have size := Utf8.toNat_ofNat_small (show c.toNat < 256 by omega)
  exact visible_byte (by rwa [size]) (by rwa [size])

end Header

namespace Base64

theorem symbol_visible : ∀ n < 64, Header.IsVisible (symbol n) := by decide

theorem encode_visible (bytes : Bytes) : ∀ c ∈ encode bytes, Header.IsVisible c := by
  fun_induction encode bytes with
  | case1 => simp
  | case2 a n =>
    have := a.toNat_lt
    simp only [List.forall_mem_cons]
    refine ⟨symbol_visible _ (by omega), symbol_visible _ (by omega), by decide, by decide, ?_⟩
    simp
  | case3 a b n =>
    have := a.toNat_lt
    have := b.toNat_lt
    simp only [List.forall_mem_cons]
    refine ⟨symbol_visible _ (by omega), symbol_visible _ (by omega), symbol_visible _ (by omega),
      by decide, ?_⟩
    simp
  | case4 a b c rest n ih =>
    have := a.toNat_lt
    have := b.toNat_lt
    have := c.toNat_lt
    simp only [List.forall_mem_cons]
    exact ⟨symbol_visible _ (by omega), symbol_visible _ (by omega), symbol_visible _ (by omega),
      symbol_visible _ (by omega), ih⟩

end Base64

namespace Messages

def contentType (value : String) : Header := ⟨"content-type", Utf8.ofString value, false⟩

def bearer (accessToken : String) : Header :=
  ⟨"authorization", Utf8.ofString ("Bearer " ++ accessToken), true⟩

theorem form_type_made : Header.make? false "content-type" "application/x-www-form-urlencoded" =
    some (contentType "application/x-www-form-urlencoded") := by decide

theorem json_type_made : Header.make? false "content-type" "application/json" =
    some (contentType "application/json") := by decide

theorem authorization_made (value : String) :
    Header.make? true "authorization" value = if Header.isValue (Utf8.ofString value) then
      some ⟨"authorization", Utf8.ofString value, true⟩ else none := by
  have known : Header.isName "authorization".toList = true := by decide
  rw [Header.make?, known]
  rfl

def formOf (config : Configuration) (subjectToken scope : String)
    (options : List (String × String)) : List (String × String) :=
  [("grant_type", "urn:ietf:params:oauth:grant-type:token-exchange"),
    ("requested_token_type", "urn:ietf:params:oauth:token-type:access_token"),
    ("subject_token", subjectToken), ("subject_token_type", config.subjectTokenType),
    ("scope", scope), ("audience", config.audience)] ++ options

def platformScope : String := "https://www.googleapis.com/auth/cloud-platform"

structure AsksGrant (config : Configuration) (subjectToken : String) (request : Request) :
    Prop where
  method : request.method = .post
  uri : Uri.parse? config.tokenUrl = some request.uri
  kind : request.headers.head? = some (contentType "application/x-www-form-urlencoded")
  body : match config.impersonation with
    | none =>
      Form.decode request.body = formOf config subjectToken (" ".intercalate config.scopes) []
    | some i => ∃ options,
      Form.decode request.body = formOf config subjectToken platformScope [("options", options)] ∧
        Json.ofString? options = some (.object [("serviceAccount", .string i.principal)])

def basic (id secret : String) : Header :=
  ⟨"authorization", Utf8.ofString ("Basic " ++ String.ofList
    (Base64.encode (Utf8.encode (id.toList ++ ':' :: secret.toList)))), true⟩

def clientHeaders (config : Configuration) : List Header :=
  match config.clientId, config.clientSecret with
  | some id, some secret => [basic id secret]
  | _, _ => []

theorem basic_value (id secret : String) : Header.isValue (basic id secret).value = true := by
  let bytes := Utf8.encode (id.toList ++ ':' :: secret.toList)
  have scheme : ∀ c ∈ "Basic ".toList, Header.IsVisible c := by simp [Header.IsVisible]
  have encoded : (String.ofList (Base64.encode bytes)).toList = Base64.encode bytes :=
    String.toList_ofList
  rw [basic, Utf8.ofString, String.toList_append, encoded]
  exact Header.visible_value (List.forall_mem_append.mpr ⟨scheme, Base64.encode_visible _⟩)

theorem client_header_made (config : Configuration) :
    (Exchange.clientHeader config).mapM
      (fun (sensitive, name, value) => Header.make? sensitive name value) =
        some (clientHeaders config) := by
  unfold Exchange.clientHeader clientHeaders
  rcases config.clientId with _ | id
  · rfl
  rcases config.clientSecret with _ | secret
  · rfl
  have value := basic_value id secret
  rw [basic] at value
  simp [authorization_made, value, basic]

/-- Only a URL that is no request URI keeps the request from being built. -/
theorem request_eq (config : Configuration) (subjectToken : String) :
    Exchange.request? config subjectToken = (Uri.parse? config.tokenUrl).map fun uri =>
      ⟨.post, uri, contentType "application/x-www-form-urlencoded" :: clientHeaders config,
        Utf8.encode (Form.encode (Exchange.parameters config subjectToken))⟩ := by
  unfold Exchange.request? Request.make?
  rcases Uri.parse? config.tokenUrl with _ | uri
  · rfl
  · simp [form_type_made, client_header_made]

theorem request_built (config : Configuration) (subjectToken : String) :
    ∃ headers, Exchange.request? config subjectToken = (Uri.parse? config.tokenUrl).map fun uri =>
      ⟨.post, uri, contentType "application/x-www-form-urlencoded" :: headers,
        Utf8.encode (Form.encode (Exchange.parameters config subjectToken))⟩ :=
  ⟨clientHeaders config, request_eq config subjectToken⟩

theorem options_read (i : Impersonation) : Json.ofString? (Exchange.options i).render =
    some (.object [("serviceAccount", .string i.principal)]) :=
  Tree.read_print (Exchange.options i) ⟨trivial, trivial⟩
    (show max 0 0 + 1 ≤ Tree.maxDepth by decide)

theorem request_asks {config : Configuration} {subjectToken : String} {request : Request}
    (given : config.scopes ≠ []) (h : Exchange.request? config subjectToken = some request) :
    AsksGrant config subjectToken request := by
  obtain ⟨headers, built⟩ := request_built config subjectToken
  rw [h] at built
  obtain ⟨uri, parsed, rfl⟩ := Option.map_eq_some_iff.mp built.symm
  refine ⟨rfl, parsed, rfl, ?_⟩
  simp only [Form.decode_encode]
  rcases hi : config.impersonation with _ | i
  · obtain ⟨scope, scopes, hs⟩ := List.exists_cons_of_ne_nil given
    simp [Exchange.parameters, Exchange.grantType, Exchange.accessTokenType,
      Exchange.requestedScopes, Exchange.scopePair, Exchange.optionsPair, formOf, hi, hs]
  · refine ⟨_, ?_, options_read i⟩
    simp [Exchange.parameters, Exchange.grantType, Exchange.accessTokenType,
      Exchange.requestedScopes, Exchange.scopePair, Exchange.optionsPair, formOf, defaultScope,
      platformScope, hi]

/-- The lifetime that was configured, and an hour otherwise. -/
def lifetimeText (i : Impersonation) : String := toString (i.configuredLifetime.getD 3600) ++ "s"

structure AsksAccount (i : Impersonation) (scopes : List String) (accessToken : String)
    (request : Request) : Prop where
  method : request.method = .post
  uri : Uri.parse? i.url = some request.uri
  headers : request.headers = [contentType "application/json", bearer accessToken]
  body : Json.ofBytes? request.body = some
    (.object [("lifetime", .string (lifetimeText i)),
      ("scope", .array (scopes.map .string))])

theorem sorted_texts (texts : List String) : Tree.sorted (Json.texts texts) = Json.texts texts :=
  congrArg Json.array (Tree.sorted_map .string (fun _ => rfl) texts)

theorem body_read (i : Impersonation) (scopes : List String) :
    Json.ofBytes? (Utf8.encode (i.body scopes).print) = some
      (.object [("lifetime", .string (lifetimeText i)),
        ("scope", .array (scopes.map .string))]) := by
  have wordy : Tree.WordyElements (scopes.map Json.string) :=
    Tree.wordy_map .string (fun _ => trivial) scopes
  have shallow : Tree.nesting (i.body scopes) ≤ Tree.maxDepth := by
    have texts : Tree.nestingElements (scopes.map Json.string) ≤ 0 :=
      Tree.nesting_map .string (fun _ => Nat.le_refl 0) scopes
    show max (Tree.nestingElements (scopes.map Json.string) + 1) (max 0 0) + 1 ≤ 127
    omega
  rw [Tree.read_print_bytes (i.body scopes) ⟨wordy, trivial, trivial⟩ shallow]
  show some (Json.ofMembers [("scope", Tree.sorted (Json.texts scopes)),
    ("lifetime", .string (lifetimeText i))]) = _
  rw [sorted_texts, Json.texts]
  simp (disch := decide) only [Json.ofMembers, Members.ofList, List.foldl_cons, List.foldl_nil,
    Members.insert_nil, Members.insert_before]

theorem bearer_made (accessToken : String) :
    Header.make? true "authorization" ("Bearer " ++ accessToken) =
      if Header.isValue (bearer accessToken).value then some (bearer accessToken) else none :=
  authorization_made _

theorem token_headers (token : Token) :
    token.headers none = if Header.isValue (bearer token.value).value then
      .ok [bearer token.value] else .error (.ofIncident .headerValue) := by
  unfold Token.headers Token.authorization Token.quotaHeader
  simp only [List.mapM_cons, List.mapM_nil, bearer_made]
  by_cases fit : Header.isValue (bearer token.value).value = true
  · rw [if_pos fit, if_pos fit]
    rfl
  · rw [if_neg fit, if_neg fit]
    rfl

theorem account_request (i : Impersonation) (scopes : List String) (token : Token) :
    i.request scopes token = match Uri.parse? i.url with
      | none => .error (.ofIncident .request)
      | some uri =>
        if Header.isValue (bearer token.value).value then
          .ok ⟨.post, uri, [contentType "application/json", bearer token.value],
            Utf8.encode (i.body scopes).print⟩
        else .error (.ofIncident .headerValue) := by
  unfold Impersonation.request Impersonation.bareRequest? Request.make?
  rw [token_headers]
  rcases Uri.parse? i.url with _ | uri
  · rfl
  · by_cases fit : Header.isValue (bearer token.value).value = true
    · simp only [fit, if_true, List.mapM_cons, List.mapM_nil, json_type_made]
      rfl
    · simp only [fit, List.mapM_cons, List.mapM_nil, json_type_made]
      rfl

theorem account_request_asks {i : Impersonation} {scopes : List String} {token : Token}
    {request : Request} (h : i.request scopes token = .ok request) :
    AsksAccount i scopes token.value request := by
  rw [account_request] at h
  split at h
  · cases h
  · rename_i uri parsed
    split at h
    · cases h
      exact ⟨rfl, parsed, rfl, body_read i scopes⟩
    · cases h

end Messages

end WorkloadIdentity
