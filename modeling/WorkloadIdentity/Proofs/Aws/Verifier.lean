import Mathlib.Data.List.Infix
import Mathlib.Data.String.Basic
import WorkloadIdentity.Proofs.Text.Blank
import WorkloadIdentity.Source.Aws

/-! A verifier of Signature Version 4, by the published steps. It is given a request as a JSON
document describes it and what it knows of the caller, and computes the authorization that the
request ought to have. It shares the hash functions and the URL parser with the signer, and
nothing of how the signer puts its texts together. A value of a header is signed without the white
space around it and with single spaces in it. The signer takes values as they come, so the two agree
exactly on values that are so already. -/

set_option autoImplicit false

namespace WorkloadIdentity.SigV4

structure Caller where
  accessKeyId : String
  secretAccessKey : String
  region : String
  service : String

structure Presented where
  url : String
  method : String
  headers : List (String × String)
  body : String

def textOf? (document : Json) (name : String) : Option String :=
  (document.get? name).bind Json.string?

def headerOf? (value : Json) : Option (String × String) := do
  return (← textOf? value "key", ← textOf? value "value")

/-- All headers but the authorization itself are signed. -/
def presented? (document : Json) : Option Presented := do
  let entries ← (← (document.get? "headers").bind Json.array?).mapM headerOf?
  return {
    url := ← textOf? document "url"
    method := ← textOf? document "method"
    headers := entries.filter (·.1 != "Authorization")
    body := ← textOf? document "body" }

def joined (separator : Char) (parts : List (List Char)) : List Char :=
  [separator].intercalate parts

/-- Every byte but the unreserved ones is escaped, the slash only where it is no separator. -/
def uriEncode (keepSlash : Bool) (text : List Char) : List Char :=
  Percent.encode (fun b => Percent.isUnreserved b || (keepSlash && b == 0x2F)) (Utf8.encode text)

def canonicalUri? (url : Url) : Option (List Char) :=
  (Utf8.decode? (Percent.decode (Utf8.encode url.pathText))).map fun path =>
    uriEncode true (if path = [] then ['/'] else path)

def inOrder (a b : String × String) : Bool := decide (a.1 < b.1 ∨ a.1 = b.1 ∧ ¬ b.2 < a.2)

def canonicalQuery (url : Url) : List Char :=
  let encoded := url.queryPairs.map fun (k, v) =>
    (String.ofList (uriEncode false k.toList), String.ofList (uriEncode false v.toList))
  joined '&' ((encoded.mergeSort inOrder).map fun (k, v) => k.toList ++ ['='] ++ v.toList)

def singleSpaced : List Char → List Char
  | ' ' :: ' ' :: rest => singleSpaced (' ' :: rest)
  | c :: rest => c :: singleSpaced rest
  | [] => []

def canonicalValue (value : String) : String :=
  String.ofList (singleSpaced (Blank.trimList value.toList))

def canonicalHeader (header : String × String) : String × String :=
  (String.ofList (header.1.toList.map Char.toLower), canonicalValue header.2)

def canonicalHeaders (headers : List (String × String)) : List (String × String) :=
  (headers.map canonicalHeader).mergeSort fun a b => decide (a.1 ≤ b.1)

def signedNames (headers : List (String × String)) : List Char :=
  joined ';' ((canonicalHeaders headers).map fun (name, _) => name.toList)

def headerLine (header : String × String) : List Char :=
  header.1.toList ++ [':'] ++ header.2.toList ++ ['\n']

def headerBlock (headers : List (String × String)) : List Char :=
  (canonicalHeaders headers).flatMap headerLine

def digest (text : List Char) : List Char := Hex.encode (Sha256.hash (Utf8.encode text))

def canonicalRequest? (request : Presented) : Option (List Char) := do
  let url ← Url.parse? request.url
  return joined '\n' [request.method.toList, ← canonicalUri? url, canonicalQuery url,
    headerBlock request.headers, signedNames request.headers, digest request.body.toList]

def scope (caller : Caller) (date : List Char) : List (List Char) :=
  [date, caller.region.toList, caller.service.toList, "aws4_request".toList]

def signingKey (caller : Caller) (date : List Char) : Bytes :=
  (scope caller date).foldl (fun key part => Sha256.hmac key (Utf8.encode part))
    (Utf8.encode ("AWS4".toList ++ caller.secretAccessKey.toList))

def stringToSign (caller : Caller) (date time canonical : List Char) : List Char :=
  joined '\n' ["AWS4-HMAC-SHA256".toList, time, joined '/' (scope caller date), digest canonical]

def signature (caller : Caller) (date time canonical : List Char) : List Char :=
  Hex.encode (Sha256.hmac (signingKey caller date)
    (Utf8.encode (stringToSign caller date time canonical)))

def authorization (caller : Caller) (headers : List (String × String))
    (date time canonical : List Char) : List Char :=
  "AWS4-HMAC-SHA256".toList ++ " Credential=".toList ++ caller.accessKeyId.toList ++ ['/'] ++
    joined '/' (scope caller date) ++ ", SignedHeaders=".toList ++ signedNames headers ++
    ", Signature=".toList ++ signature caller date time canonical

/-- The authorization that a document ought to have. The date of the scope is taken from the
date of the request by `scopeDate`. -/
def authorization? (scopeDate : List Char → List Char) (caller : Caller) (document : Json) :
    Option String := do
  let request ← presented? document
  let time ← request.headers.lookup "x-amz-date"
  let canonical ← canonicalRequest? request
  return String.ofList
    (authorization caller request.headers (scopeDate time.toList) time.toList canonical)

theorem joined_single (c : Char) (part : List Char) : joined c [part] = part :=
  List.intercalate_singleton

theorem joined_cons (c : Char) (part next : List Char) (parts : List (List Char)) :
    joined c (part :: next :: parts) = part ++ c :: joined c (next :: parts) := by
  rw [joined, List.intercalate_cons_cons, List.append_assoc]
  rfl

theorem canonical_uri_eq (url : Url) :
    canonicalUri? url = Signature.canonicalPath? url.pathText := by
  unfold canonicalUri? Signature.canonicalPath?
  rcases Utf8.decode? (Percent.decode (Utf8.encode url.pathText)) with _ | path
  · rfl
  · rcases path with _ | ⟨c, path⟩ <;> rfl

theorem encode_query_eq (text : String) :
    String.ofList (uriEncode false text.toList) = Signature.encodeQueryText text := by
  simp only [uriEncode, Bool.false_and, Bool.or_false]
  rfl

theorem in_order_eq : inOrder = Signature.pairLe := by
  funext a b
  simp only [inOrder, Signature.pairLe, Bool.decide_or, Bool.decide_and, decide_not]
  rfl

theorem canonical_query_eq (url : Url) :
    canonicalQuery url = Signature.canonicalQuery url.queryPairs := by
  simp only [canonicalQuery, encode_query_eq, in_order_eq, joined, Signature.canonicalQuery,
    Signature.canonicalPairs, List.append_assoc, List.singleton_append]

/-- No white space at the ends, and no two spaces in a row. -/
structure Settled (value : String) : Prop where
  trimmed : Blank.trim value = value
  spaced : ¬ [' ', ' '] <:+: value.toList

theorem singleSpaced_sublist (text : List Char) : (singleSpaced text).Sublist text := by
  fun_induction singleSpaced text with
  | case1 rest ih => exact ih.trans (List.sublist_cons_self ' ' (' ' :: rest))
  | case2 c rest _ ih => exact ih.cons_cons c
  | case3 => exact List.Sublist.refl []

theorem singleSpaced_iff (text : List Char) :
    singleSpaced text = text ↔ ¬ [' ', ' '] <:+: text := by
  fun_induction singleSpaced text with
  | case1 rest ih =>
    refine iff_of_false (fun same => ?_) (not_not_intro ⟨[], rest, rfl⟩)
    have short := (singleSpaced_sublist (' ' :: rest)).length_le
    rw [same, List.length_cons] at short
    omega
  | case2 c rest single ih =>
    have alone : ¬ [' ', ' '] <+: c :: rest := by
      rintro ⟨tail, whole⟩
      cases whole
      exact single tail rfl rfl
    rw [List.cons.injEq, List.infix_cons_iff, ih]
    simp [alone]
  | case3 => simp [List.infix_nil]

theorem canonicalValue_sublist (value : String) :
    (canonicalValue value).toList.Sublist value.toList := by
  rw [canonicalValue, String.toList_ofList]
  exact (singleSpaced_sublist _).trans (Blank.trim_sublist _)

theorem settled_iff {value : String} : canonicalValue value = value ↔ Settled value := by
  have texts : canonicalValue value = value ↔
      singleSpaced (Blank.trimList value.toList) = value.toList := by
    rw [← String.toList_inj, canonicalValue, String.toList_ofList]
  have trims : Blank.trim value = value ↔ Blank.trimList value.toList = value.toList := by
    rw [← String.toList_inj, Blank.trim, String.toList_ofList]
  rw [texts]
  constructor
  · intro same
    -- nothing is lost in two steps that only leave out, so nothing is lost in the first
    have trimmed : Blank.trimList value.toList = value.toList := by
      apply (Blank.trim_sublist value.toList).eq_of_length_le
      have short := (singleSpaced_sublist (Blank.trimList value.toList)).length_le
      rwa [same] at short
    rw [trimmed] at same
    exact ⟨trims.mpr trimmed, (singleSpaced_iff _).mp same⟩
  · rintro ⟨trimmed, spaced⟩
    rw [trims.mp trimmed]
    exact (singleSpaced_iff _).mpr spaced

theorem settled_unspaced {text : List Char} (h : ∀ c ∈ text, Blank.isBlank c = false) :
    Settled (String.ofList text) := by
  constructor
  · rw [Blank.trim, String.toList_ofList, Blank.trim_unspaced h]
  · intro doubled
    rw [String.toList_ofList] at doubled
    have among := doubled.subset (List.mem_cons_self ..)
    exact absurd (h ' ' among) (by decide)

def normalized (headers : List (String × String)) : List (String × String) :=
  headers.map fun h => (h.1, canonicalValue h.2)

theorem block_sublist (headers : List (String × String)) :
    ((normalized headers).flatMap headerLine).Sublist (headers.flatMap headerLine) := by
  induction headers with
  | nil => exact List.Sublist.refl []
  | cons h headers ih =>
    have value := canonicalValue_sublist h.2
    exact (((List.Sublist.refl _).append value).append (List.Sublist.refl ['\n'])).append ih

/-- Whatever a value loses, the block loses. -/
theorem block_iff (headers : List (String × String)) :
    (normalized headers).flatMap headerLine = headers.flatMap headerLine ↔
      ∀ h ∈ headers, Settled h.2 := by
  induction headers with
  | nil => simp [normalized]
  | cons h headers ih =>
    have value := canonicalValue_sublist h.2
    have later := block_sublist headers
    rw [List.forall_mem_cons, ← ih, ← settled_iff]
    constructor
    · intro same
      have long := congrArg List.length same
      have short := value.length_le
      have short' := later.length_le
      simp only [normalized, List.map_cons, List.flatMap_cons, headerLine, List.length_append]
        at long short'
      have kept : canonicalValue h.2 = h.2 :=
        String.toList_inj.mp (value.eq_of_length_le (by omega))
      refine ⟨kept, later.eq_of_length_le ?_⟩
      simp only [normalized]
      omega
    · rintro ⟨kept, rest⟩
      simp only [normalized, List.map_cons, List.flatMap_cons, kept] at rest ⊢
      rw [rest]

section Agreement

variable {headers : List (String × String)}
  (lower : ∀ h ∈ headers, String.ofList (h.1.toList.map Char.toLower) = h.1)
  (ascending : headers.Pairwise fun a b => a.1 < b.1)

include lower ascending

theorem canonical_headers_eq :
    canonicalHeaders headers = normalized headers := by
  have named : headers.map canonicalHeader = normalized headers := by
    apply List.map_congr_left
    intro h hh
    rw [canonicalHeader, lower h hh]
  unfold canonicalHeaders
  rw [named]
  refine List.mergeSort_of_pairwise (List.pairwise_map.mpr (ascending.imp ?_))
  intro a b less
  exact decide_eq_true (String.lt_asymm less)

theorem signed_names_eq : signedNames headers = Signature.signedNames headers := by
  unfold signedNames
  rw [canonical_headers_eq lower ascending, normalized, List.map_map]
  rfl

theorem header_block_iff : headerBlock headers = Signature.headerLines headers ↔
    ∀ h ∈ headers, Settled h.2 := by
  have lines : Signature.headerLines headers = headers.flatMap headerLine := by
    unfold Signature.headerLines
    congr
    funext h
    simp [headerLine]
  rw [headerBlock, canonical_headers_eq lower ascending, lines]
  exact block_iff headers

/-- The two requests have everything in common but the block. -/
theorem canonical_request_iff {text body : String} {url : Url} {canonical : List Char}
    (method : Method) (h : Url.parse? text = some url)
    (signed : Signature.canonicalRequest? method url headers body = some canonical) :
    canonicalRequest? ⟨text, method.text, headers, body⟩ = some canonical ↔
      ∀ h ∈ headers, Settled h.2 := by
  rw [← header_block_iff lower ascending]
  rcases path : Signature.canonicalPath? url.pathText with _ | path
  · simp [Signature.canonicalRequest?, path] at signed
  · simp only [Signature.canonicalRequest?, path, Option.bind_eq_bind, Option.bind_some,
      Option.pure_def, Option.some.injEq] at signed
    subst signed
    simp only [canonicalRequest?, h, canonical_uri_eq, path, canonical_query_eq,
      signed_names_eq lower ascending, Option.bind_eq_bind, Option.bind_some, joined_cons,
      joined_single, digest, Signature.hexHash, Option.pure_def, Option.some.injEq,
      List.append_assoc, List.cons_append, List.append_cancel_left_eq, List.cons.injEq, true_and,
      List.append_cancel_right_eq]

theorem authorization_eq (credentials : AwsCredentials) (region service : String)
    (date time canonical : List Char) :
    authorization ⟨credentials.accessKeyId, credentials.secretAccessKey, region, service⟩ headers
        date time canonical =
      Signature.authorization credentials ⟨date, region, service⟩ headers time canonical := by
  have scopes : joined '/' (scope ⟨credentials.accessKeyId, credentials.secretAccessKey, region,
      service⟩ date) = Signature.SigningScope.text ⟨date, region, service⟩ := by
    have last : "/aws4_request".toList = '/' :: "aws4_request".toList := by decide
    simp only [scope, joined_cons, joined_single, Signature.SigningScope.text, List.append_assoc,
      List.cons_append, last]
  have keys : signingKey ⟨credentials.accessKeyId, credentials.secretAccessKey, region, service⟩
      date = Signature.signingKey credentials.secretAccessKey ⟨date, region, service⟩ := by
    simp only [signingKey, scope, List.foldl_cons, List.foldl_nil, Signature.signingKey,
      Utf8.ofString]
  unfold authorization signature stringToSign
  rw [scopes, keys, signed_names_eq lower ascending, joined_cons, joined_cons, joined_cons, joined_single]
  unfold Signature.authorization Signature.stringToSign Signature.algorithm Signature.hexHash digest
  simp only [List.append_assoc, List.cons_append, List.nil_append]

end Agreement

end WorkloadIdentity.SigV4
