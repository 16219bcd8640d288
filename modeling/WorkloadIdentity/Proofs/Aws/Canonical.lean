import Mathlib.Data.List.Perm.Basic
import WorkloadIdentity.Aws.Signature
import WorkloadIdentity.Proofs.Text.Percent
import WorkloadIdentity.Proofs.Time.Calendar

/-! Path and query of a canonical request. Each has one spelling: the path that of its decoded
bytes, the query that of its decoded pairs in whatever order they are. So the second and the
third line of the request tell which path and which multiset of pairs a URL has, and of its own
spelling they tell nothing. -/

set_option autoImplicit false

namespace WorkloadIdentity.Canonical

open Signature

def lines (text : List Char) : List (List Char) := text.splitOn '\n'

/-- The bytes that a path stands for. An empty path stands for the root. -/
def decodedPath (url : Url) : Bytes :=
  match Percent.decode (Utf8.encode url.pathText) with
  | [] => [0x2F]
  | bytes => bytes

theorem path_eq (url : Url) : canonicalPath? url.pathText =
    (Utf8.decode? (decodedPath url)).map fun text => Percent.encode keepInPath (Utf8.encode text) := by
  unfold canonicalPath? decodedPath
  rcases Percent.decode (Utf8.encode url.pathText) with _ | ⟨b, bytes⟩
  · have empty : Utf8.decode? [] = some [] := Utf8.decode_encode []
    have root : Utf8.decode? [0x2F] = some ['/'] := Utf8.decode_encode ['/']
    rw [empty, root]
    rfl
  · rcases read : Utf8.decode? (b :: bytes) with _ | ⟨_ | ⟨c, text⟩⟩
    · rfl
    · have nothing := Utf8.encode_decode read
      cases nothing
    · rfl

theorem path_spelled {url : Url} {line : List Char} (h : canonicalPath? url.pathText = some line) :
    line = Percent.encode keepInPath (decodedPath url) := by
  rw [path_eq] at h
  obtain ⟨text, read, rfl⟩ := Option.map_eq_some_iff.mp h
  rw [Utf8.encode_decode read]

theorem path_unbroken {url : Url} {line : List Char} (h : canonicalPath? url.pathText = some line) :
    '\n' ∉ line := by
  rw [path_spelled h]
  exact Percent.encode_free (by decide) (by decide) (by decide) _

def encodedPair (pair : String × String) : String × String :=
  (encodeQueryText pair.1, encodeQueryText pair.2)

def spelled (pair : String × String) : List Char := pair.1.toList ++ '=' :: pair.2.toList

def Ascends (a b : String × String) : Prop := a.1 < b.1 ∨ a.1 = b.1 ∧ a.2 ≤ b.2

theorem encode_query_injective : Function.Injective encodeQueryText := by
  intro text other h
  have bytes := (Percent.encode_inj (by decide)).mp (String.ofList_inj.mp h)
  exact String.toList_inj.mp (Utf8.encode_inj.mp bytes)

theorem encoded_pair_injective : Function.Injective encodedPair := by
  intro a b h
  exact Prod.ext (encode_query_injective (congrArg Prod.fst h))
    (encode_query_injective (congrArg Prod.snd h))

theorem canonical_query_eq (pairs : List (String × String)) :
    canonicalQuery pairs = ['&'].intercalate ((canonicalPairs pairs).map spelled) := rfl

theorem canonical_pairs_perm (pairs : List (String × String)) :
    (canonicalPairs pairs).Perm (pairs.map encodedPair) := List.mergeSort_perm _ _

theorem pair_le_iff (a b : String × String) : pairLe a b = true ↔ Ascends a b := by
  simp only [pairLe, Ascends, Bool.or_eq_true, Bool.and_eq_true, decide_eq_true_eq, beq_iff_eq,
    Bool.not_eq_true', decide_eq_false_iff_not, String.not_lt]

theorem ascends_trans {a b c : String × String} (first : Ascends a b) (second : Ascends b c) :
    Ascends a c := by
  unfold Ascends at *
  grind

theorem ascends_total (a b : String × String) : Ascends a b ∨ Ascends b a := by
  unfold Ascends
  grind

theorem ascends_antisymm {a b : String × String} (first : Ascends a b) (second : Ascends b a) :
    a = b := by
  unfold Ascends at *
  ext : 1 <;> grind

theorem canonical_pairs_ascend (pairs : List (String × String)) :
    (canonicalPairs pairs).Pairwise Ascends := by
  have trans : ∀ a b c, pairLe a b = true → pairLe b c = true → pairLe a c = true := by
    intro a b c
    simp only [pair_le_iff]
    exact ascends_trans
  have total : ∀ a b, (pairLe a b || pairLe b a) = true := by
    intro a b
    simp only [Bool.or_eq_true, pair_le_iff]
    exact ascends_total a b
  exact (List.pairwise_mergeSort trans total _).imp (pair_le_iff _ _).mp

/-- Sorting forgets the order of the pairs and nothing else. -/
theorem canonical_pairs_of_perm {a b : List (String × String)} (perm : a.Perm b) :
    canonicalPairs a = canonicalPairs b := by
  have encoded := (canonical_pairs_perm a).trans
    ((perm.map encodedPair).trans (canonical_pairs_perm b).symm)
  exact encoded.eq_of_pairwise (fun x y _ _ => ascends_antisymm) (canonical_pairs_ascend a)
    (canonical_pairs_ascend b)

theorem query_text_free {c : Char} (reserved : Percent.isUnreserved (UInt8.ofNat c.toNat) = false)
    (sign : c ≠ '%') (digit : ∀ n < 16, c ≠ Hex.upperDigit n) (text : String) :
    c ∉ (encodeQueryText text).toList := by
  rw [encodeQueryText, String.toList_ofList]
  exact Percent.encode_free reserved sign digit _

theorem spelled_free {c : Char} (reserved : Percent.isUnreserved (UInt8.ofNat c.toNat) = false)
    (sign : c ≠ '%') (equals : c ≠ '=') (digit : ∀ n < 16, c ≠ Hex.upperDigit n)
    (pair : String × String) : c ∉ spelled (encodedPair pair) := by
  have free := query_text_free reserved sign digit
  simp only [spelled, List.mem_append, List.mem_cons, not_or]
  exact ⟨free pair.1, equals, free pair.2⟩

theorem spelled_injective : Function.Injective fun pair => spelled (encodedPair pair) := by
  intro a b h
  have free : ∀ text, '=' ∉ (encodeQueryText text).toList :=
    query_text_free (by decide) (by decide) (by decide)
  have first : (encodeQueryText a.1).toList = (encodeQueryText b.1).toList := by
    rw [← Calendar.before_mark (encodeQueryText a.2).toList (free a.1),
      ← Calendar.before_mark (encodeQueryText b.2).toList (free b.1)]
    exact congrArg (List.takeWhile (· != '=')) h
  have second : (encodeQueryText a.2).toList = (encodeQueryText b.2).toList := by
    simp only [spelled, encodedPair, first] at h
    exact (List.cons.inj (List.append_cancel_left h)).2
  apply encoded_pair_injective
  exact Prod.ext (String.toList_inj.mp first) (String.toList_inj.mp second)

theorem canonical_texts_perm (pairs : List (String × String)) :
    ((canonicalPairs pairs).map spelled).Perm (pairs.map fun pair => spelled (encodedPair pair)) := by
  have texts := (canonical_pairs_perm pairs).map spelled
  rwa [List.map_map] at texts

/-- The pairs of a query are read back at its ampersands. -/
theorem query_split {pairs : List (String × String)} (some_pair : pairs ≠ []) :
    (canonicalQuery pairs).splitOn '&' = (canonicalPairs pairs).map spelled := by
  have texts := canonical_texts_perm pairs
  rw [canonical_query_eq]
  apply List.splitOn_intercalate
  · intro part among
    obtain ⟨pair, -, rfl⟩ := List.mem_map.mp (texts.mem_iff.mp among)
    exact spelled_free (by decide) (by decide) (by decide) (by decide) pair
  · intro nothing
    rw [nothing] at texts
    exact some_pair (List.map_eq_nil_iff.mp texts.nil_eq.symm)

theorem query_empty (pairs : List (String × String)) : canonicalQuery pairs = [] ↔ pairs = [] := by
  constructor
  · intro h
    by_contra some_pair
    have among : [] ∈ (canonicalPairs pairs).map spelled := by
      rw [← query_split some_pair, h]
      simp
    obtain ⟨pair, -, empty⟩ := List.mem_map.mp among
    exact absurd empty (by simp [spelled])
  · intro h
    simp [h, canonical_query_eq, canonicalPairs]

theorem canonical_query_iff (a b : List (String × String)) :
    canonicalQuery a = canonicalQuery b ↔ a.Perm b := by
  constructor
  · intro same
    have empty : a = [] ↔ b = [] := by
      rw [← query_empty, same, query_empty]
    by_cases none : a = []
    · rw [none, empty.mp none]
    · have texts := query_split none
      rw [same, query_split (none ∘ empty.mpr)] at texts
      have perm := canonical_texts_perm b
      rw [texts] at perm
      exact (List.map_perm_map_iff spelled_injective).mp ((canonical_texts_perm a).symm.trans perm)
  · intro perm
    rw [canonical_query_eq, canonical_query_eq, canonical_pairs_of_perm perm]

theorem intercalate_free {c separator : Char} (other : c ≠ separator) (parts : List (List Char))
    (free : ∀ part ∈ parts, c ∉ part) : c ∉ [separator].intercalate parts := by
  induction parts with
  | nil => simp
  | cons part parts ih =>
    have here := free part (List.mem_cons_self ..)
    have later := ih fun p hp => free p (List.mem_cons_of_mem _ hp)
    cases parts with
    | nil => rwa [List.intercalate_singleton]
    | cons next parts =>
      rw [List.intercalate_cons_cons]
      simp only [List.mem_append, List.mem_singleton, not_or]
      exact ⟨⟨here, other⟩, later⟩

theorem query_unbroken (pairs : List (String × String)) : '\n' ∉ canonicalQuery pairs := by
  rw [canonical_query_eq]
  apply intercalate_free (by decide)
  intro part among
  obtain ⟨pair, -, rfl⟩ := List.mem_map.mp ((canonical_texts_perm pairs).mem_iff.mp among)
  exact spelled_free (by decide) (by decide) (by decide) (by decide) pair

section Whole

variable {method : Method} {headers : Members String} {body : String} {u v : Url}

/-- What follows the query: the signed headers with an empty line after them, their names, and
the hash of the body. -/
def remainder (headers : Members String) (body : String) : List Char :=
  headerLines headers ++ '\n' :: signedNames headers ++ '\n' :: hexHash body.toList

theorem request_eq {path : List Char} (h : canonicalPath? u.pathText = some path) :
    canonicalRequest? method u headers body = some (method.text.toList ++ '\n' :: (path ++
      '\n' :: (canonicalQuery u.queryPairs ++ '\n' :: remainder headers body))) := by
  simp [canonicalRequest?, h, remainder]

theorem request_lines {text : List Char}
    (h : canonicalRequest? method u headers body = some text) :
    lines text = method.text.toList :: Percent.encode keepInPath (decodedPath u) ::
      canonicalQuery u.queryPairs :: lines (remainder headers body) := by
  rcases hp : canonicalPath? u.pathText with _ | path
  · simp [canonicalRequest?, hp] at h
  have unbroken : '\n' ∉ method.text.toList := by cases method <;> decide
  rw [request_eq hp, Option.some.injEq] at h
  rw [← h, lines, List.splitOn_append_cons_self_of_not_mem unbroken,
    List.splitOn_append_cons_self_of_not_mem (path_unbroken hp),
    List.splitOn_append_cons_self_of_not_mem (query_unbroken _), path_spelled hp]
  rfl

def pathLine (text : List Char) : Option (List Char) := (lines text)[1]?

def queryLine (text : List Char) : Option (List Char) := (lines text)[2]?

theorem request_congr (path : decodedPath u = decodedPath v)
    (query : u.queryPairs.Perm v.queryPairs) :
    canonicalRequest? method u headers body = canonicalRequest? method v headers body := by
  unfold canonicalRequest?
  rw [path_eq, path_eq, path, (canonical_query_iff _ _).mpr query]

/-- Of the URL, a signature depends on the authority, the path and the pairs alone. -/
theorem sign_congr {s t : String} {host : List Char} (hs : Url.parse? s = some u)
    (ht : Url.parse? t = some v) (hu : u.authority? = some host) (hv : v.authority? = some host)
    (path : decodedPath u = decodedPath v) (query : u.queryPairs.Perm v.queryPairs)
    (credentials : AwsCredentials) (region service : String)
    (additional : List (String × String)) (now : Calendar.Nanoseconds) :
    (sign credentials region service method s additional body now).map (·.authorization) =
      (sign credentials region service method t additional body now).map (·.authorization) := by
  unfold sign
  simp only [hs, ht, hu, hv, request_congr path query]
  split <;> rfl

/-- The second line of a canonical request tells the decoded path of its URL, the third the
pairs of its query and how often each is there. Nothing else of the URL is in the request, so
other spellings of the path and the query, and another order of the pairs, have one signature. -/
theorem canonical_request_identifies {cu cv : List Char}
    (hu : canonicalRequest? method u headers body = some cu)
    (hv : canonicalRequest? method v headers body = some cv) :
    (pathLine cu = pathLine cv ↔ decodedPath u = decodedPath v) ∧
    (queryLine cu = queryLine cv ↔ u.queryPairs.Perm v.queryPairs) ∧
    (cu = cv ↔ decodedPath u = decodedPath v ∧ u.queryPairs.Perm v.queryPairs) ∧
    (∃ pairs : List (String × String), pairs.Perm (u.queryPairs.map encodedPair) ∧ pairs.Pairwise Ascends ∧
      queryLine cu = some (['&'].intercalate (pairs.map spelled))) ∧
    (∀ s t host, Url.parse? s = some u → Url.parse? t = some v → u.authority? = some host →
      v.authority? = some host → decodedPath u = decodedPath v →
      u.queryPairs.Perm v.queryPairs → ∀ credentials region service additional now,
      (sign credentials region service method s additional body now).map (·.authorization) =
        (sign credentials region service method t additional body now).map (·.authorization)) := by
  have paths : pathLine cu = pathLine cv ↔ decodedPath u = decodedPath v := by
    have inj := @Percent.encode_inj keepInPath (by decide)
    simp only [pathLine, request_lines hu, request_lines hv, List.getElem?_cons_succ,
      List.getElem?_cons_zero, Option.some.injEq, inj]
  have queries : queryLine cu = queryLine cv ↔ u.queryPairs.Perm v.queryPairs := by
    simp only [queryLine, request_lines hu, request_lines hv, List.getElem?_cons_succ,
      List.getElem?_cons_zero, Option.some.injEq, canonical_query_iff]
  have whole : cu = cv ↔ decodedPath u = decodedPath v ∧ u.queryPairs.Perm v.queryPairs := by
    constructor
    · intro same
      rw [← paths, ← queries, same]
      exact ⟨rfl, rfl⟩
    · intro same
      have equal : canonicalRequest? method u headers body = canonicalRequest? method v headers body :=
        request_congr same.1 same.2
      rwa [hu, hv, Option.some.injEq] at equal
  have emitted : queryLine cu = some (['&'].intercalate ((canonicalPairs u.queryPairs).map spelled)) := by
    simp [queryLine, request_lines hu, canonical_query_eq]
  refine ⟨paths, queries, whole, ⟨_, canonical_pairs_perm _, canonical_pairs_ascend _, emitted⟩, ?_⟩
  intro s t host hs ht su sv path query
  exact sign_congr hs ht su sv path query

theorem request_accepted (method : Method) (headers : Members String) (body : String)
    {path : String} (h : decodedPath u = Utf8.ofString path) :
    ∃ text, canonicalRequest? method u headers body = some text := by
  have line : canonicalPath? u.pathText =
      some (Percent.encode keepInPath (Utf8.encode path.toList)) := by
    rw [path_eq, h, Utf8.ofString, Utf8.decode_encode, Option.map_some]
  exact ⟨_, request_eq line⟩

def spelling? (text : String) : Option (Bytes × List (String × String)) :=
  (Url.parse? text).map fun url => (decodedPath url, url.queryPairs)

theorem spelling_parsed (text path : String) (pairs : List (String × String))
    (h : spelling? text = some (Utf8.ofString path, pairs)) :
    ∃ url, Url.parse? text = some url ∧ decodedPath url = Utf8.ofString path ∧
      url.queryPairs = pairs := by
  obtain ⟨url, parsed, same⟩ := Option.map_eq_some_iff.mp h
  exact ⟨url, parsed, congrArg Prod.fst same, congrArg Prod.snd same⟩

/-- An escaped letter and a bare space, pairs in another order, and separators, percent signs and
letters outside ASCII in their texts: the first two are spellings of one request. The third has
one of the pairs once more. -/
theorem canonical_request_identifies_spellings : ∃ u v w cu cv cw,
    Url.parse? "https://sts.amazonaws.com/a%20b?k%26=%3D&%C3%A9=1+%25&k%26=" = some u ∧
    Url.parse? "https://sts.amazonaws.com/%61 b?k%26=&é=1%20%25&k%26=%3D" = some v ∧
    Url.parse? "https://sts.amazonaws.com/a b?k%26=&é=1+%25&k%26=%3D&k%26" = some w ∧
    canonicalRequest? .post u [] "" = some cu ∧ canonicalRequest? .post v [] "" = some cv ∧
    canonicalRequest? .post w [] "" = some cw ∧ cu = cv ∧ cu ≠ cw := by
  obtain ⟨u, hu, pu, qu⟩ := spelling_parsed
    "https://sts.amazonaws.com/a%20b?k%26=%3D&%C3%A9=1+%25&k%26=" "/a b"
    [("k&", "="), ("é", "1 %"), ("k&", "")] (by decide +kernel)
  obtain ⟨v, hv, pv, qv⟩ := spelling_parsed
    "https://sts.amazonaws.com/%61 b?k%26=&é=1%20%25&k%26=%3D" "/a b"
    [("k&", ""), ("é", "1 %"), ("k&", "=")] (by decide +kernel)
  obtain ⟨w, hw, pw, qw⟩ := spelling_parsed
    "https://sts.amazonaws.com/a b?k%26=&é=1+%25&k%26=%3D&k%26" "/a b"
    [("k&", ""), ("é", "1 %"), ("k&", "="), ("k&", "")] (by decide +kernel)
  obtain ⟨cu, au⟩ := request_accepted .post [] "" pu
  obtain ⟨cv, av⟩ := request_accepted .post [] "" pv
  obtain ⟨cw, aw⟩ := request_accepted .post [] "" pw
  have alike : cu = cv := by
    rw [(canonical_request_identifies au av).2.2.1, pu, pv, qu, qv]
    exact ⟨rfl, by decide⟩
  have unlike : cu ≠ cw := by
    rw [Ne, (canonical_request_identifies au aw).2.2.1, qu, qw]
    intro same
    exact absurd same.2.length_eq (by decide)
  exact ⟨u, v, w, cu, cv, cw, hu, hv, hw, au, av, aw, alike, unlike⟩

end Whole

end WorkloadIdentity.Canonical
