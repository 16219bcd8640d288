import WorkloadIdentity.Proofs.Config.Acceptance
import WorkloadIdentity.Proofs.Url.Authority
import WorkloadIdentity.Session.Basic

/-!
# Principals of impersonation URLs

The last segment of an impersonation URL names its principal, which can be any text as long as its
marks are escaped. It is found whatever host and parents the URL has, and nothing else is found.
-/

set_option autoImplicit false

namespace WorkloadIdentity.Principals

open Impersonation (principal? principalOfPath? principalOfSegment?)
open Url (Addresses Closes Dotted Unbroken Visible joined resolved spelled)

def isKept (b : UInt8) : Bool := Percent.isUnreserved b || b == 0x40

/-- A principal with all escaped but letters, digits and `@-._~`. -/
def escaped (principal : String) : List Char := Percent.encode isKept (Utf8.ofString principal)

def accounts : List Char := "serviceAccounts".toList

def address (host : List Char) (parents : List (List Char)) (principal : String)
    (verb : List Char) : String :=
  String.ofList ("https://".toList ++ (host ++ joined (parents ++ [escaped principal ++ ':' :: verb])))

/-- A text that can stand between `https://` and a path. -/
structure IsHost (host : List Char) : Prop where
  unbroken : Unbroken host
  accepted : (Url.parse? (String.ofList ("https://".toList ++ host))).isSome = true

/-- A segment that stands for itself. -/
structure Plain (segment : List Char) : Prop where
  unbroken : Unbroken segment
  undotted : ¬ Dotted segment

/-- The URL has this path: segments without slashes, each behind one. -/
structure Leads (url : Url) (parents : List (List Char)) (last : List Char) : Prop where
  hierarchical : url.isHierarchical = true
  path : url.pathText = joined (parents ++ [last])
  slashless : ∀ s ∈ parents ++ [last], '/' ∉ s

/-- The last segment names this principal: it does not hide it behind the colon, and either it looks
like an email address or its parent is the segment of accounts. -/
structure Names (parents : List (List Char)) (last : List Char) (principal : String) : Prop where
  nonempty : principal ≠ ""
  decoded : Utf8.decode? (resolved (last.takeWhile (· != ':'))) = some principal.toList
  marked : '@' ∈ principal.toList ∨ parents.getLast? = some accounts

theorem impersonated_principal {url : Option String} {lifetime : Option Nat}
    {impersonation : Option Impersonation}
    (h : Configuration.impersonated url lifetime = .ok impersonation) :
    ∀ i ∈ impersonation, Impersonation.principal? i.url = some i.principal := by
  cases Grammar.impersonated_iff.mp h with
  | nobody => nofun
  | account named _ =>
    rintro _ ⟨⟩
    exact named

/-- Credentials impersonate the principal of their URL, from whatever they were built. -/
theorem built_principal {world : World} {origin : Session.Origin} {config : Configuration}
    (built : Session.configure world origin = .ok config) :
    ∀ i ∈ config.impersonation, Impersonation.principal? i.url = some i.principal := by
  have from_document : ∀ {value overrides}, Configuration.build value overrides = .ok config →
      ∀ i ∈ config.impersonation, Impersonation.principal? i.url = some i.principal := by
    intro value overrides built
    obtain ⟨document, read⟩ := Configuration.build_ok built
    obtain ⟨-, _, _, made, -, rfl⟩ := Configuration.ofDocument_ok.mp read
    exact impersonated_principal made
  cases origin with
  | document value overrides => exact from_document built
  | file path overrides =>
    obtain ⟨value, built⟩ := Configuration.buildFromFile_ok built
    exact from_document built
  | settings settings =>
    obtain ⟨_, _, _, _, _, _, _, _, made, rfl⟩ := Configuration.ofSettings_ok.mp built
    exact impersonated_principal made

theorem escaped_resolved (principal : String) :
    resolved (escaped principal) = Utf8.ofString principal :=
  Percent.decode_encode (by decide) _

def marks : List Char := ['/', '\\', '?', '#', ':']

theorem escaped_free {principal : String} {c : Char} (h : c ∈ escaped principal) :
    0x20 < c.toNat ∧ c ∉ marks := by
  have kept : ∀ n < 128, isKept (UInt8.ofNat n) = true →
      0x20 < (Char.ofNat n).toNat ∧ Char.ofNat n ∉ marks := by decide +kernel
  have digits : ∀ n < 16, 0x20 < (Hex.upperDigit n).toNat ∧ Hex.upperDigit n ∉ marks := by
    decide +kernel
  obtain ⟨b, -, stands, small, rfl⟩ | rfl | ⟨n, bound, rfl⟩ := Percent.mem_encode h
  · apply kept b.toNat small
    rwa [UInt8.ofNat_toNat]
  · decide
  · exact digits n bound

theorem escaped_unbroken (principal : String) : Unbroken (escaped principal) := by
  intro c among
  obtain ⟨visible, free⟩ := escaped_free among
  refine ⟨visible, ?_, ?_, ?_, ?_⟩ <;> rintro rfl <;> exact free (by decide)

theorem colon_undotted {segment : List Char} (h : ':' ∈ segment) : ¬ Dotted segment := by
  have byte : (0x3A : UInt8) ∈ resolved segment := by
    apply Percent.mem_decode (by decide) (by decide)
    exact List.mem_flatMap.mpr ⟨':', h, by decide⟩
  rintro (same | same)
  · rw [same] at byte
    exact absurd byte (by decide)
  · rw [same] at byte
    exact absurd byte (by decide)

theorem last_plain (principal : String) {verb : List Char} (h : Unbroken verb) :
    Plain (escaped principal ++ ':' :: verb) := by
  constructor
  · have colon : Unbroken [':'] := by decide
    exact Url.unbroken_append.mpr ⟨escaped_unbroken principal, Url.unbroken_append.mpr ⟨colon, h⟩⟩
  · exact colon_undotted (List.mem_append_right _ (List.mem_cons_self ..))

theorem last_principal (principal : String) (verb : List Char) :
    principalOfSegment? (spelled (escaped principal ++ ':' :: verb)) = some principal.toList := by
  have free : ∀ c ∈ escaped principal, (c != ':') = true := by
    intro c among
    rw [bne_iff_ne]
    rintro rfl
    exact (escaped_free among).2 (by decide)
  have stops : ∀ c ∈ (':' :: verb).head?, (c != ':') = false := by
    rintro c ⟨⟩
    rfl
  rw [Url.principal_spelled, (Url.scan_whole free stops).1, escaped_resolved]
  exact Utf8.decode_encode principal.toList

theorem spelled_char (c : Char) : spelled [c] = [c] ∨ '%' ∈ spelled [c] := by
  by_cases small : c.toNat < 0x80
  · have byte : Utf8.encode [c] = [UInt8.ofNat c.toNat] := Utf8.encode_ascii [c] (by simpa using small)
    rw [spelled, byte, Percent.encode, List.flatMap_singleton]
    unfold Percent.encodeByte
    split
    · rw [Utf8.toNat_ofNat_small (by omega), Char.ofNat_toNat]
      exact .inl rfl
    · exact .inr (List.mem_cons_self ..)
  · obtain ⟨b, rest, bytes⟩ : ∃ b rest, Utf8.encode [c] = b :: rest := by
      apply List.exists_cons_of_ne_nil
      intro none
      have same : Utf8.encode [c] = Utf8.encode [] := none
      cases Utf8.encode_inj.mp same
    have among : b ∈ String.utf8EncodeChar c := by
      have first : b ∈ Utf8.encode [c] := bytes ▸ List.mem_cons_self ..
      rwa [Utf8.encode_cons, show Utf8.encode [] = [] from rfl, List.append_nil] at first
    have large := Utf8.encoded_large (by omega) b among
    have refused : ¬ (Url.keepInPath b = true ∧ b < 0x80) := by
      rintro ⟨-, low⟩
      rw [UInt8.lt_iff_toNat_lt] at low
      exact absurd low (by simpa using large)
    rw [spelled, bytes, Percent.encode_cons, Percent.escaped_byte refused]
    exact .inr (List.mem_cons_self ..)

theorem spelled_unescaped {segment : List Char} (h : '%' ∉ spelled segment) :
    spelled segment = segment := by
  induction segment with
  | nil => rfl
  | cons c rest ih =>
    rw [Url.spelled_cons] at h ⊢
    rw [List.mem_append, not_or] at h
    obtain ⟨here, later⟩ := h
    rw [(spelled_char c).resolve_right here, ih later]
    rfl

theorem spelled_accounts {segment : List Char} :
    spelled segment = accounts ↔ segment = accounts := by
  constructor
  · intro same
    rw [← same]
    exact (spelled_unescaped (same ▸ by decide)).symm
  · rintro rfl
    decide +kernel

theorem path_principal {parents : List (List Char)} {principal : String} (nonempty : principal ≠ "")
    (verb : List Char) :
    principalOfPath? ((parents ++ [escaped principal ++ ':' :: verb]).map spelled).reverse =
      if '@' ∈ principal.toList ∨ parents.getLast? = some accounts then some principal.toList
      else none := by
  have last : (parents.map spelled).reverse.head? = parents.getLast?.map spelled := by
    rw [List.head?_reverse, List.getLast?_map]
  have parent : ((parents.map spelled).reverse.head? == some accounts) =
      decide (parents.getLast? = some accounts) := by
    rw [last, beq_eq_decide, decide_eq_decide]
    rcases parents.getLast? with _ | segment
    · simp
    · simp [spelled_accounts]
  have given : principal.toList.isEmpty = false := by simpa using nonempty
  rw [List.map_append, List.map_singleton, List.reverse_append, List.reverse_singleton,
    List.singleton_append, principalOfPath?, last_principal]
  show (if principal.toList.isEmpty then none else
    if principal.toList.contains '@' || (parents.map spelled).reverse.head? == some accounts then
      some principal.toList else none) = _
  rw [given, parent]
  simp

theorem https_read {rest : List Char} (visible : Visible rest) :
    Url.scheme? (Url.clean (String.ofList ("https://".toList ++ rest)).toList) =
      some ("https".toList, '/' :: '/' :: rest) := by
  have seen : Visible ("https://".toList ++ rest) :=
    Url.visible_append.mpr ⟨by decide, visible⟩
  obtain ⟨after, cleaned, nothing⟩ := Url.clean_visible seen (by simp) []
  rw [nothing rfl, List.append_nil] at cleaned
  rw [String.toList_ofList, cleaned]
  have each : ∀ c ∈ "https".toList, Url.isSchemeChar c = true := List.all_eq_true.mp (by decide)
  exact Url.scheme_eq each ('/' :: '/' :: rest)

theorem host_addresses {host : List Char} (h : IsHost host) : Addresses host := by
  refine ⟨h.unbroken, ?_, ?_⟩
  · rintro rfl
    exact absurd h.accepted (by decide +kernel)
  · rintro rfl
    exact absurd h.accepted (by decide +kernel)

theorem parse_address {host : List Char} (h : IsHost host) {segments : List (List Char)}
    (plain : ∀ s ∈ segments, Plain s) (nonempty : segments ≠ []) :
    ∃ url, Url.parse? (String.ofList ("https://".toList ++ (host ++ joined segments))) = some url ∧
      url.path = .segments (segments.map spelled) := by
  have other : Url.kindOf "https".toList ≠ .file := by decide
  have kind : Url.kindOf "https".toList = .special := by decide
  have unbroken := fun s listed => (plain s listed).unbroken
  have closes : Closes (joined segments) := by
    obtain ⟨first, rest, rfl⟩ := List.exists_cons_of_ne_nil nonempty
    rintro c ⟨⟩
    exact .inl rfl
  have alone : Visible (host ++ []) := by
    rw [List.append_nil]
    exact Url.unbroken_visible h.unbroken
  have seen : Visible (host ++ joined segments) :=
    Url.visible_append.mpr ⟨Url.unbroken_visible h.unbroken, Url.joined_visible unbroken⟩
  have accepted := h.accepted
  have bare := Url.parse_authority (https_read alone) other (host_addresses h) Url.closes_nil
  rw [List.append_nil] at bare
  rw [bare, Option.isSome_map, kind] at accepted
  obtain ⟨⟨name, port, rest⟩, read⟩ := Option.isSome_iff_exists.mp accepted
  refine ⟨Url.finish "https".toList .special name port (joined segments), ?_,
    Url.finish_path unbroken (fun s listed => (plain s listed).undotted) nonempty _ name port⟩
  rw [Url.parse_authority (https_read seen) other (host_addresses h) closes, kind, read]
  rfl

theorem path_of_segments {url : Url} {segments : List (List Char)}
    (h : url.pathSegments? = some segments) : url.path = .segments segments := by
  unfold Url.pathSegments? at h
  split at h
  · cases h
    assumption
  · cases h

theorem pathSegments_of {url : Url} {segments : List (List Char)} (path : url.path = .segments segments)
    (nonempty : segments ≠ []) : url.pathSegments? = some segments := by
  unfold Url.pathSegments?
  rw [path]
  rcases segments with _ | ⟨s, ss⟩
  · exact absurd rfl nonempty
  · rfl

/-- The principal is what was escaped, wherever the URL leads. -/
theorem address_principal {host : List Char} (h : IsHost host) {parents : List (List Char)}
    (plain : ∀ s ∈ parents, Plain s) {principal : String} (nonempty : principal ≠ "")
    {verb : List Char} (unbroken : Unbroken verb) :
    principal? (address host parents principal verb) =
      if '@' ∈ principal.toList ∨ parents.getLast? = some accounts then some principal else none := by
  have each : ∀ s ∈ parents ++ [escaped principal ++ ':' :: verb], Plain s := by
    refine List.forall_mem_append.mpr ⟨plain, ?_⟩
    intro s same
    rw [List.mem_singleton.mp same]
    exact last_plain principal unbroken
  obtain ⟨url, parsed, path⟩ := parse_address h each (by simp)
  unfold principal? address
  rw [parsed]
  simp only [Option.bind_eq_bind, Option.bind_some, pathSegments_of path (by simp),
    path_principal nonempty]
  split <;> simp

theorem joined_injective {segments others : List (List Char)} (slashless : ∀ s ∈ segments, '/' ∉ s)
    (slashless' : ∀ s ∈ others, '/' ∉ s) (same : joined segments = joined others) :
    segments = others := by
  have apart : ∀ {list : List (List Char)}, (∀ s ∈ list, '/' ∉ s) →
      ∀ s ∈ list, ∀ c ∈ s, Url.isSlash .other c = false := by
    intro list free s listed c within
    have other : c ≠ '/' := fun same => free s listed (same ▸ within)
    simp [Url.isSlash, other, Url.isSpecial]
  have left := Url.split_joined (apart slashless) [] (by simp)
  have right := Url.split_joined (apart slashless') [] (by simp)
  rw [List.nil_append, same] at left
  rw [List.nil_append, left] at right
  exact (List.cons.inj right).2

theorem leads_iff {text : String} {url : Url} (parsed : Url.parse? text = some url)
    {parents : List (List Char)} {last : List Char} :
    Leads url parents last ↔ url.path = .segments (parents ++ [last]) := by
  have slashless := Url.parse_slashless parsed
  constructor
  · intro leads
    rcases path : url.path with flat | segments
    · have hierarchical := leads.hierarchical
      simp [Url.isHierarchical, path] at hierarchical
    · have spelled : url.pathText = joined segments := by
        unfold Url.pathText
        rw [path]
        rfl
      rw [joined_injective (slashless segments path) leads.slashless (spelled.symm.trans leads.path)]
  · intro path
    refine ⟨?_, ?_, slashless _ path⟩
    · unfold Url.isHierarchical
      rw [path]
    · unfold Url.pathText
      rw [path]
      rfl

theorem path_names {parents : List (List Char)} {last principal : List Char} :
    principalOfPath? (parents ++ [last]).reverse = some principal ↔
      Names parents last (String.ofList principal) := by
  have named : principalOfPath? (parents ++ [last]).reverse = some principal ↔
      ∃ found, Utf8.decode? (resolved (last.takeWhile (· != ':'))) = some found ∧
        (if found.isEmpty then none else
          if found.contains '@' || parents.reverse.head? == some accounts then some found
          else none) = some principal := by
    rw [List.reverse_append, List.reverse_singleton, List.singleton_append]
    exact Option.bind_eq_some_iff
  rw [named]
  constructor
  · rintro ⟨found, decoded, h⟩
    obtain ⟨given, h⟩ := Option.ite_none_left_eq_some.mp h
    obtain ⟨marked, h⟩ := Option.ite_none_right_eq_some.mp h
    cases h
    refine ⟨by simpa using given, by simpa using decoded, ?_⟩
    simpa [List.head?_reverse] using marked
  · intro names
    have nonempty : principal ≠ [] := by simpa using names.nonempty
    have marked := names.marked
    rw [String.toList_ofList] at marked
    refine ⟨principal, by simpa using names.decoded, ?_⟩
    rw [if_neg (by simpa using nonempty), if_pos (by simpa [List.head?_reverse] using marked)]

/-- A principal is found exactly in hierarchical URLs whose last segment names it. -/
theorem principal_iff {text principal : String} : principal? text = some principal ↔
    ∃ url parents last, Url.parse? text = some url ∧ Leads url parents last ∧
      Names parents last principal := by
  constructor
  · intro h
    obtain ⟨url, parsed, h⟩ := Option.bind_eq_some_iff.mp h
    obtain ⟨segments, given, h⟩ := Option.bind_eq_some_iff.mp h
    obtain ⟨found, named, h⟩ := Option.bind_eq_some_iff.mp h
    cases h
    obtain rfl | ⟨parents, last, rfl⟩ := List.eq_nil_or_concat segments
    · cases named
    · rw [List.concat_eq_append] at given named
      exact ⟨url, parents, last, parsed, (leads_iff parsed).mpr (path_of_segments given),
        path_names.mp named⟩
  · rintro ⟨url, parents, last, parsed, leads, names⟩
    have path := (leads_iff parsed).mp leads
    rw [← String.ofList_toList (s := principal)] at names
    unfold principal?
    rw [parsed]
    simp only [Option.bind_eq_bind, Option.bind_some, pathSegments_of path (by simp),
      path_names.mpr names]
    simp

/-- Escaped into a URL under the segment of accounts, every principal is found again; under another
segment it is found if it looks like an email address. Conversely a principal is found only in a URL
with a hierarchical path, whose last segment up to its first colon is the principal with escapes. -/
theorem principals_found_exactly {host : List Char} {parents : List (List Char)} {principal : String}
    {verb : List Char} (reachable : IsHost host) (plain : ∀ s ∈ parents, Plain s)
    (nonempty : principal ≠ "") (unbroken : Unbroken verb) :
    principal? (address host (parents ++ [accounts]) principal verb) = some principal ∧
    (parents.getLast? ≠ some accounts → principal? (address host parents principal verb) =
      if '@' ∈ principal.toList then some principal else none) ∧
    ∀ text found, principal? text = some found ↔ ∃ url parents last,
      Url.parse? text = some url ∧ Leads url parents last ∧ Names parents last found := by
  have under : ∀ s ∈ parents ++ [accounts], Plain s := by
    refine List.forall_mem_append.mpr ⟨plain, ?_⟩
    intro s same
    rw [List.mem_singleton.mp same]
    exact ⟨by decide, by decide +kernel⟩
  refine ⟨?_, ?_, fun _ _ => principal_iff⟩
  · rw [address_principal reachable under nonempty unbroken, if_pos (.inr List.getLast?_concat)]
  · intro other
    rw [address_principal reachable plain nonempty unbroken]
    simp only [other, or_false]

/-- A principal with marks, and one that is found under accounts only. -/
theorem principals_found_exactly_marked :
    principal? (address "iam.example.com".toList (["v1".toList] ++ [accounts]) "a/b:c%d @e"
      "sign".toList) = some "a/b:c%d @e" ∧
    principal? (address "iam.example.com".toList ["v1".toList] "a/b:c%d @e" "sign".toList) =
      some "a/b:c%d @e" ∧
    principal? (address "iam.example.com".toList ["v1".toList] "robot" "sign".toList) = none := by
  have reachable : IsHost "iam.example.com".toList := ⟨by decide +kernel, by decide +kernel⟩
  have plain : ∀ s ∈ ["v1".toList], Plain s := by
    intro s same
    rw [List.mem_singleton.mp same]
    exact ⟨by decide, by decide +kernel⟩
  have letters : Unbroken "sign".toList := by decide
  have apart : ["v1".toList].getLast? ≠ some accounts := by decide
  obtain ⟨under, marked, -⟩ :=
    principals_found_exactly reachable plain (show "a/b:c%d @e" ≠ "" by decide) letters
  obtain ⟨-, bare, -⟩ :=
    principals_found_exactly reachable plain (show "robot" ≠ "" by decide) letters
  exact ⟨under, (marked apart).trans (if_pos (by decide)), (bare apart).trans (if_neg (by decide))⟩

end WorkloadIdentity.Principals
