import Mathlib.Data.List.TakeWhile
import WorkloadIdentity.Proofs.Config.Principals
import WorkloadIdentity.Proofs.Url.RequestUri

/-!
# One text, read as a URL and as a request URI

The principal of an impersonation URL is read from a URL, and the request is sent to the same text
read as a request URI. Both find the same last segment where the URI is absolute, but for
backslashes, which separate segments of a URL with a special scheme and are a part of the segment to
a URI.
-/

set_option autoImplicit false

namespace WorkloadIdentity.Addressing

open Impersonation (principal?)
open Principals (Names)
open Url (Addresses Closes SchemeKind Visible dropSlash finish isSlash isSpecial kindOf resolved)

def afterLast (mark : Char → Bool) (text : List Char) : List Char :=
  (text.reverse.takeWhile (!mark ·)).reverse

def lastSegment (path : List Char) : List Char := afterLast (· == '/') path

def afterBackslash (segment : List Char) : List Char := afterLast (· == '\\') segment

/-- The account that a segment stands for: what is before its first colon, with escapes resolved. -/
def account? (segment : List Char) : Option (List Char) :=
  Utf8.decode? (resolved (segment.takeWhile (· != ':')))

/-- Who is addressed by a request to this URI is the account of its last segment. -/
def AddressedTo (uri : Uri) (principal : String) : Prop :=
  account? (lastSegment uri.path) = some principal.toList

instance (uri : Uri) (principal : String) : Decidable (AddressedTo uri principal) :=
  inferInstanceAs (Decidable (_ = _))

/-- The URI has a scheme; and if backslashes separate segments under that scheme, the last segment
stands for the same account from its last backslash on. -/
structure Unambiguous (uri : Uri) : Prop where
  absolute : uri.scheme.isSome = true
  backslash : ∀ scheme ∈ uri.scheme, isSpecial (kindOf (Uri.lower scheme)) = true →
    account? (afterBackslash (lastSegment uri.path)) = account? (lastSegment uri.path)

theorem afterLast_free (mark : Char → Bool) (text : List Char) :
    ∀ c ∈ afterLast mark text, mark c = false := by
  intro c among
  have goes := List.all_eq_true.mp List.all_takeWhile c (List.mem_reverse.mp among)
  simpa using goes

theorem afterLast_cases (mark : Char → Bool) (text : List Char) :
    text = afterLast mark text ∨
      ∃ front sep, mark sep = true ∧ text = front ++ sep :: afterLast mark text := by
  have parts := List.takeWhile_append_dropWhile (p := (!mark ·)) (l := text.reverse)
  rcases stopped : text.reverse.dropWhile (!mark ·) with _ | ⟨sep, more⟩ <;> rw [stopped] at parts
  · rw [List.append_nil] at parts
    exact .inl (by rw [afterLast, parts, List.reverse_reverse])
  · refine .inr ⟨more.reverse, sep, ?_, ?_⟩
    · have stops := List.head?_dropWhile_not (!mark ·) text.reverse
      rw [stopped] at stops
      simpa using stops
    · have whole := congrArg List.reverse parts
      rw [List.reverse_append, List.reverse_cons, List.reverse_reverse, List.append_assoc] at whole
      exact whole.symm

theorem split_afterLast {mark : Char → Bool} {text piece : List Char} {before : List (List Char)}
    (h : text.splitOnP mark = before ++ [piece]) : piece = afterLast mark text := by
  have free := afterLast_free mark text
  have last : (text.splitOnP mark).getLast? = some (afterLast mark text) := by
    obtain whole | ⟨front, sep, marked, whole⟩ := afterLast_cases mark text
    · have single := List.splitOnP_eq_singleton free
      rw [← whole] at single
      rw [single, List.getLast?_singleton, ← whole]
    · have split := List.splitOnP_append_cons front (afterLast mark text) marked
      rw [← whole, List.splitOnP_eq_singleton free] at split
      rw [split, List.getLast?_concat]
  rw [h, List.getLast?_concat] at last
  exact Option.some.inj last

theorem afterLast_append {mark : Char → Bool} {c : Char} (h : mark c = true)
    (front text : List Char) : afterLast mark (front ++ c :: text) = afterLast mark text := by
  have stops : ∀ d ∈ (c :: front.reverse).head?, (!mark d) = false := by
    rintro d ⟨⟩
    simp [h]
  rw [afterLast, List.reverse_append, List.reverse_cons, List.append_assoc, List.singleton_append,
    (Url.scan_append stops text.reverse).1]
  rfl

theorem afterLast_whole {mark : Char → Bool} {text : List Char} (free : ∀ c ∈ text, mark c = false) :
    afterLast mark text = text := by
  obtain whole | ⟨front, sep, marked, whole⟩ := afterLast_cases mark text
  · exact whole.symm
  · have among : sep ∈ text := whole ▸ List.mem_append_right front (List.mem_cons_self ..)
    rw [free sep among] at marked
    cases marked

theorem dropSlash_cases (kind : SchemeKind) (path : List Char) : path = dropSlash kind path ∨
    ∃ c, isSlash kind c = true ∧ path = c :: dropSlash kind path := by
  rcases path with _ | ⟨c, rest⟩
  · exact .inl rfl
  · by_cases slash : isSlash kind c = true
    · exact .inr ⟨c, slash, by simp [dropSlash, slash]⟩
    · exact .inl (by simp [dropSlash, slash])

theorem afterLast_dropSlash (kind : SchemeKind) (path : List Char) :
    afterLast (isSlash kind) (dropSlash kind path) = afterLast (isSlash kind) path := by
  obtain same | ⟨c, slash, same⟩ := dropSlash_cases kind path
  · rw [← same]
  · have dropped := afterLast_append slash [] (dropSlash kind path)
    rw [List.nil_append, ← same] at dropped
    exact dropped.symm

theorem afterLast_slash (kind : SchemeKind) (text : List Char) : afterLast (isSlash kind) text =
    if isSpecial kind then afterBackslash (lastSegment text) else lastSegment text := by
  by_cases special : isSpecial kind = true
  · have same : (fun c => !isSlash kind c) =
        fun c => decide ((!(c == '\\')) = true ∧ (!(c == '/')) = true) := by
      funext c
      by_cases back : c = '\\' <;> by_cases slash : c = '/' <;> simp [isSlash, special, back, slash]
    rw [if_pos special, afterBackslash, lastSegment, afterLast, afterLast, afterLast,
      List.reverse_reverse, List.takeWhile_takeWhile, same]
  · have same : (fun c => !isSlash kind c) = fun c => !(c == '/') := by
      funext c
      simp [isSlash, special]
    rw [if_neg special, lastSegment, afterLast, afterLast, same]

theorem account_spelled (segment : List Char) : account? (Url.spelled segment) = account? segment :=
  Url.principal_spelled segment

theorem empty_unnamed {principal : String} (nonempty : principal ≠ "") :
    account? [] ≠ some principal.toList := by
  have nothing : account? [] = some [] := Utf8.decode_encode []
  intro same
  rw [nothing, Option.some.injEq, eq_comm, String.toList_eq_nil_iff] at same
  exact nonempty same

theorem resolved_signless {text : List Char} (h : '%' ∉ text) : resolved text = Utf8.encode text := by
  apply Percent.decode_signless
  intro sign
  exact h (Utf8.mem_of_encode (by decide : '%'.toNat < 0x80) sign)

theorem drive_unnamed {segment : List Char} {principal : String}
    (drive : Url.isDriveLetter segment = true) : ¬ Names [] segment principal := by
  intro names
  have marked : '@' ∈ principal.toList := names.marked.resolve_right nofun
  unfold Url.isDriveLetter at drive
  split at drive
  case h_2 => cases drive
  rename_i letter mark
  simp only [Bool.and_eq_true, Bool.or_eq_true, beq_iff_eq] at drive
  obtain ⟨alpha, colon⟩ := drive
  have apart : ∀ c : Char, c.isAlpha = false → c ≠ ':' → c ≠ '|' → c ∉ [letter, mark] := by
    intro c other colonless barless among
    simp only [List.mem_cons, List.not_mem_nil, or_false] at among
    obtain rfl | rfl := among
    · rw [alpha] at other
      cases other
    · exact colon.elim colonless barless
  have within := List.takeWhile_sublist (· != ':') (l := [letter, mark])
  have decoded := names.decoded
  rw [resolved_signless (fun sign => apart '%' rfl (by decide) (by decide) (within.mem sign)),
    Utf8.decode_encode, Option.some.injEq] at decoded
  rw [← decoded] at marked
  exact apart '@' rfl (by decide) (by decide) (within.mem marked)

theorem finish_account {scheme : List Char} {kind : SchemeKind} {host : Option (List Char)}
    {port : Option Nat} {tail path : List Char} {parents : List (List Char)} {last : List Char}
    {principal : String} (taken : tail.takeWhile (!Url.endsPath ·) = path)
    (leads : (finish scheme kind host port tail).path = .segments (parents ++ [last]))
    (names : Names parents last principal) :
    account? (afterLast (isSlash kind) path) = some principal.toList ∧
      ((∀ c ∈ path, isSlash kind c = false) → parents = []) := by
  have given : last ≠ [] := by
    rintro rfl
    exact empty_unnamed names.nonempty names.decoded
  have segments : Url.segmentsOf kind (dropSlash kind path) = parents ++ [last] := by
    have made := Url.Path.segments.inj leads
    rw [taken] at made
    split at made
    · simp at made
    · exact made
  obtain split | ⟨before, piece, split⟩ :=
    List.eq_nil_or_concat ((dropSlash kind path).splitOnP (isSlash kind))
  · exact absurd split (List.splitOnP_ne_nil _ _)
  rw [List.concat_eq_append] at split
  obtain ⟨named, root⟩ := Url.segments_last segments given split
  constructor
  · rw [← afterLast_dropSlash, ← split_afterLast split]
    obtain rfl | ⟨rfl, letter, alpha, rfl⟩ := named
    · rw [← account_spelled]
      exact names.decoded
    · exact absurd names (drive_unnamed (by simp [Url.isDriveLetter, alpha]))
  · intro free
    obtain same | ⟨c, slash, same⟩ := dropSlash_cases kind path
    case inr =>
      rw [free c (same ▸ List.mem_cons_self ..)] at slash
      cases slash
    rw [← same, List.splitOnP_eq_singleton free] at split
    have alone : ([] : List (List Char)) ++ [path] = before ++ [piece] := split
    exact root (List.append_inj_left' alone rfl).symm

structure Ended (path rest : List Char) : Prop where
  rooted : ∀ c ∈ path.head?, c = '/'
  on : ∀ c ∈ path, (!Url.endsPath c) = true
  stops : ∀ c ∈ rest.head?, (!Url.endsPath c) = false

section File

variable {auth path rest last : List Char} {parents : List (List Char)} {principal : String}

theorem Ended.taken (ended : Ended path rest) :
    (path ++ rest).takeWhile (!Url.endsPath ·) = path := (Url.scan_whole ended.on ended.stops).1

theorem Ended.closes (ended : Ended path rest) : Closes (path ++ rest) := by
  intro c first
  rcases path with _ | ⟨d, path⟩
  · have mark := ended.stops c first
    rw [Bool.not_eq_false', Url.endsPath, Bool.or_eq_true, beq_iff_eq, beq_iff_eq] at mark
    exact .inr mark
  · exact .inl (ended.rooted c first)

theorem drive_account (addresses : Addresses auth) (drive : Url.isDriveLetter auth = true)
    (ended : Ended path rest) (leads : (finish "file".toList .file none none
      (auth ++ (path ++ rest))).path = .segments (parents ++ [last]))
    (names : Names parents last principal) :
    account? (afterLast (isSlash .file) path) = some principal.toList := by
  have on : ∀ c ∈ auth ++ path, (!Url.endsPath c) = true :=
    List.forall_mem_append.mpr ⟨Url.unbroken_in_path addresses.unbroken, ended.on⟩
  have whole : (auth ++ (path ++ rest)).takeWhile (!Url.endsPath ·) = auth ++ path := by
    rw [← List.append_assoc]
    exact (Url.scan_whole on ended.stops).1
  obtain ⟨account, root⟩ := finish_account whole leads names
  rcases path with _ | ⟨c, path⟩
  · -- Then the letter is all there is.
    have free := Url.unbroken_slashless .file addresses.unbroken
    rw [List.append_nil] at account root
    obtain rfl := root free
    rw [afterLast_whole free] at account
    exact absurd ⟨names.nonempty, account, names.marked⟩ (drive_unnamed drive)
  · obtain rfl := ended.rooted c rfl
    rw [afterLast_append rfl] at account
    exact (congrArg account? (afterLast_append rfl [] path)).trans account

theorem file_account {url : Url} (addresses : Addresses auth) (ended : Ended path rest)
    (parsed : Url.parseFile? ('/' :: '/' :: (auth ++ (path ++ rest))) = some url)
    (leads : url.path = .segments (parents ++ [last])) (names : Names parents last principal) :
    account? (afterLast (isSlash .file) path) = some principal.toList := by
  obtain ⟨host, after⟩ := Url.authority_taken .file addresses.unbroken ended.closes
  unfold Url.parseFile? at parsed
  dsimp only at parsed
  rw [if_pos (by rfl), host, after] at parsed
  split at parsed
  · cases parsed
    exact drive_account addresses ‹_› ended leads names
  · obtain ⟨name, -, parsed⟩ := Option.bind_eq_some_iff.mp parsed
    cases parsed
    rw [Url.dropHost_path] at leads
    exact (finish_account ended.taken leads names).1

end File

theorem visible_of {p : Char → Bool} (low : ∀ n < 0x21, p (Char.ofNat n) = false) {text : List Char}
    (each : ∀ c ∈ text, p c = true) : Visible text := by
  intro c among
  by_contra small
  have refused := low c.toNat (by omega)
  rw [Char.ofNat_toNat, each c among] at refused
  cases refused

theorem authority_addresses {auth : List Char} (h : Uri.isAuthority auth = true)
    (nonempty : auth ≠ []) : Addresses auth := by
  have each := Uri.authority_chars h
  refine ⟨fun c among => ⟨visible_of (by decide) each c among, ?_, ?_, ?_, ?_⟩, nonempty, ?_⟩
  · rintro rfl
    cases each '/' among
  · rintro rfl
    cases each '\\' among
  · rintro rfl
    cases each '?' among
  · rintro rfl
    cases each '#' among
  · rintro rfl
    cases h

theorem clean_path {front tail : List Char} (visible : Visible front) (nonempty : front ≠ [])
    (ends : ∀ c ∈ tail.head?, Uri.endsPath c = true) :
    ∃ rest, Url.clean (front ++ tail) = front ++ rest ∧
      ∀ c ∈ rest.head?, Uri.endsPath c = true := by
  rcases tail with _ | ⟨mark, tail⟩
  · obtain ⟨rest, cleaned, nothing⟩ := Url.clean_visible visible nonempty []
    obtain rfl := nothing rfl
    exact ⟨[], cleaned, nofun⟩
  · have marked := ends mark rfl
    have seen : Visible (front ++ [mark]) := by
      refine Url.visible_append.mpr ⟨visible, visible_of (p := Uri.endsPath) (by decide) ?_⟩
      intro c same
      rwa [List.mem_singleton.mp same]
    obtain ⟨rest, cleaned, -⟩ := Url.clean_visible seen (by simp) tail
    rw [List.append_assoc, List.append_assoc, List.singleton_append, List.singleton_append] at cleaned
    refine ⟨mark :: rest, cleaned, ?_⟩
    rintro c ⟨⟩
    exact marked

section Absolute

variable {text principal : String} {uri : Uri} {name auth path tail : List Char}

theorem cleaned_absolute (parts : Uri.Absolute text.toList uri name auth path tail) :
    ∃ rest, Url.clean text.toList = name ++ ':' :: '/' :: '/' :: (auth ++ (path ++ rest)) ∧
      Ended path rest := by
  have addresses := authority_addresses parts.authority parts.nonempty
  have seen : Visible (name ++ ([':', '/', '/'] ++ (auth ++ path))) :=
    Url.visible_append.mpr ⟨visible_of (by decide) parts.named,
      Url.visible_append.mpr ⟨by decide,
        Url.visible_append.mpr ⟨Url.unbroken_visible addresses.unbroken,
          visible_of (by decide) parts.each⟩⟩⟩
  obtain ⟨rest, cleaned, ends⟩ := clean_path seen (by simp) parts.ends
  have whole : text.toList = name ++ ([':', '/', '/'] ++ (auth ++ path)) ++ tail := by
    rw [parts.whole]
    simp
  refine ⟨rest, ?_, parts.rooted, ?_, ?_⟩
  · rw [whole, cleaned]
    simp
  · intro c among
    rw [Bool.not_eq_true', Bool.eq_false_iff]
    intro mark
    have allowed := parts.each c among
    simp only [Url.endsPath, Bool.or_eq_true, beq_iff_eq] at mark
    obtain rfl | rfl := mark <;> cases allowed
  · intro c first
    rw [Bool.not_eq_false']
    exact ends c first

theorem afterLast_kept (parts : Uri.Absolute text.toList uri name auth path tail)
    (kind : SchemeKind) : afterLast (isSlash kind) uri.path = afterLast (isSlash kind) path := by
  rw [parts.kept]
  rcases path with _ | ⟨c, path⟩
  · exact afterLast_append rfl [] []
  · rfl

/-- The URL's principal is that of the URI's path, cut at the slashes of the URL. -/
theorem absolute_account (parts : Uri.Absolute text.toList uri name auth path tail)
    (named : principal? text = some principal) :
    account? (afterLast (isSlash (kindOf (Uri.lower name))) uri.path) = some principal.toList := by
  obtain ⟨url, parents, last, parsed, leads, names⟩ := Principals.principal_iff.mp named
  have segments := (Principals.leads_iff parsed).mp leads
  have addresses := authority_addresses parts.authority parts.nonempty
  obtain ⟨rest, cleaned, ended⟩ := cleaned_absolute parts
  obtain ⟨⟨scheme, opened⟩, opens, rest_parsed⟩ := Option.bind_eq_some_iff.mp parsed
  have read := opens
  rw [cleaned, Url.scheme_eq parts.named] at read
  obtain ⟨-, read⟩ := Option.ite_none_right_eq_some.mp read
  cases read
  rw [afterLast_kept parts]
  show account? (afterLast (isSlash (kindOf (name.map Char.toLower))) path) = _
  by_cases file : kindOf (name.map Char.toLower) = .file
  · simp only [file] at rest_parsed ⊢
    exact file_account addresses ended rest_parsed segments names
  · rw [Url.parse_authority opens file addresses ended.closes] at parsed
    obtain ⟨⟨host, port, _⟩, -, made⟩ := Option.map_eq_some_iff.mp parsed
    cases made
    exact (finish_account ended.taken segments names).1

end Absolute

theorem schemeless_unnamed {text : String} {c : Char} {rest : List Char}
    (whole : text.toList = c :: rest) (visible : 0x20 < c.toNat)
    (other : Url.isSchemeChar c = false) (colonless : c ≠ ':') : principal? text = none := by
  have seen : Visible [c] := by
    intro d same
    rwa [List.mem_singleton.mp same]
  obtain ⟨more, cleaned, -⟩ := Url.clean_visible seen (List.cons_ne_nil c []) rest
  have scheme : Url.scheme? (c :: more) = none := by
    unfold Url.scheme?
    rw [List.dropWhile_cons_of_neg (by simp [other])]
    split
    · rename_i same
      exact absurd (List.cons.inj same).1 colonless
    · rfl
  unfold principal? Url.parse?
  rw [whole]
  show ((Url.scheme? (Url.clean ([c] ++ rest))).bind _).bind _ = none
  rw [cleaned]
  show ((Url.scheme? (c :: more)).bind _).bind _ = none
  rw [scheme]
  rfl

/-- A request to the text of a URL is addressed to its principal exactly if nothing in it can be
read in two ways. -/
theorem addressed_iff {text principal : String} {uri : Uri} (named : principal? text = some principal)
    (read : Uri.parse? text = some uri) : AddressedTo uri principal ↔ Unambiguous uri := by
  cases Uri.parse_form read with
  | asterisk whole =>
    rw [schemeless_unnamed whole (by decide) (by decide) (by decide)] at named
    cases named
  | origin rest whole =>
    rw [schemeless_unnamed whole (by decide) (by decide) (by decide)] at named
    cases named
  | authority schemeless pathless =>
    obtain ⟨_, _, _, -, -, names⟩ := Principals.principal_iff.mp named
    constructor
    · intro addressed
      rw [AddressedTo, pathless] at addressed
      exact absurd addressed (empty_unnamed names.nonempty)
    · intro clear
      have absolute := clear.absolute
      rw [schemeless] at absolute
      cases absolute
  | absolute name auth path tail parts =>
    obtain ⟨scheme, given, same⟩ := Option.map_eq_some_iff.mp parts.scheme
    have account := absolute_account parts named
    rw [afterLast_slash, ← same] at account
    constructor
    · intro addressed
      refine ⟨by rw [given]; rfl, ?_⟩
      intro other given' special
      obtain rfl := Option.some.inj (given.symm.trans given')
      rw [if_pos special] at account
      exact account.trans addressed.symm
    · intro clear
      split at account
      · exact (clear.backslash scheme given ‹_›).symm.trans account
      · exact account

theorem unambiguous_of_plain {uri : Uri} (absolute : uri.scheme.isSome = true)
    (plain : '\\' ∉ lastSegment uri.path) : Unambiguous uri := by
  have free : ∀ c ∈ lastSegment uri.path, (c == '\\') = false := by
    intro c among
    rw [beq_eq_false_iff_ne]
    rintro rfl
    exact plain among
  exact ⟨absolute, fun _ _ _ => congrArg account? (afterLast_whole free)⟩

end WorkloadIdentity.Addressing
