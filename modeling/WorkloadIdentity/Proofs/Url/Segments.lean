import WorkloadIdentity.Config.Impersonation
import WorkloadIdentity.Proofs.Text.Escapes

/-!
# Segments of paths

A segment that is no dot segment goes into the path with its escapes as they are; what escapes stand
for is the same before and after. The last segment of a path is the last one of the text, unless it
is a dot segment or the letter of a drive.
-/

set_option autoImplicit false

namespace WorkloadIdentity.Url

def spelled (segment : List Char) : List Char := Percent.encode keepInPath (Utf8.encode segment)

def resolved (text : List Char) : Bytes := Percent.decode (Utf8.encode text)

/-- A dot or two, which may be written as escapes. -/
def Dotted (segment : List Char) : Prop :=
  resolved segment = [0x2E] ∨ resolved segment = [0x2E, 0x2E]

instance (segment : List Char) : Decidable (Dotted segment) := inferInstanceAs (Decidable (_ ∨ _))

theorem path_stays : Percent.Stays keepInPath := by
  have all : ∀ m < 256, (Hex.value? (Char.ofNat m)).isSome = true →
      keepInPath (UInt8.ofNat m) = true := by decide +kernel
  refine ⟨by decide, fun b n digit => ?_⟩
  have kept := all b.toNat b.toNat_lt (Option.isSome_iff_exists.mpr ⟨n, digit⟩)
  rwa [UInt8.ofNat_toNat] at kept

theorem resolved_spelled (segment : List Char) : resolved (spelled segment) = resolved segment :=
  Percent.decode_reencode path_stays _

theorem spelled_append (text more : List Char) :
    spelled (text ++ more) = spelled text ++ spelled more := by
  rw [spelled, Utf8.encode_append, Percent.encode_append]
  rfl

theorem spelled_cons (c : Char) (text : List Char) : spelled (c :: text) = spelled [c] ++ spelled text :=
  spelled_append [c] text

theorem mem_of_spelled {c : Char} {segment : List Char} (small : c.toNat < 0x80) (sign : c ≠ '%')
    (digit : ∀ n < 16, c ≠ Hex.upperDigit n) (h : c ∈ spelled segment) : c ∈ segment := by
  obtain ⟨b, among, -, low, rfl⟩ | same | ⟨n, bound, same⟩ := Percent.mem_encode h
  · apply Utf8.mem_of_encode small
    rwa [Percent.kept_char low, UInt8.ofNat_toNat]
  · exact absurd same sign
  · exact absurd same (digit n bound)

theorem slash_of_spelled {segment : List Char} (h : '/' ∈ spelled segment) : '/' ∈ segment :=
  mem_of_spelled (by decide) (by decide) (by decide) h

theorem colon_of_spelled {segment : List Char} (h : ':' ∈ spelled segment) : ':' ∈ segment :=
  mem_of_spelled (by decide) (by decide) (by decide) h

theorem before_colon (segment : List Char) :
    (spelled segment).takeWhile (· != ':') = spelled (segment.takeWhile (· != ':')) := by
  induction segment with
  | nil => rfl
  | cons c rest ih =>
    rw [spelled_cons]
    by_cases colon : c = ':'
    · subst colon
      rfl
    · have free : ∀ d ∈ spelled [c], (d != ':') = true := by
        intro d written
        rw [bne_iff_ne]
        rintro rfl
        exact colon (List.mem_singleton.mp (colon_of_spelled written)).symm
      rw [List.takeWhile_append_of_pos free, ih, List.takeWhile_cons_of_pos (by simpa using colon),
        ← spelled_cons]

theorem principal_spelled (segment : List Char) :
    Impersonation.principalOfSegment? (spelled segment) =
      Utf8.decode? (resolved (segment.takeWhile (· != ':'))) := by
  rw [← resolved_spelled, ← before_colon]
  rfl

theorem resolveDots_nil {text : List Char} (h : resolveDots text = []) : text = [] := by
  unfold resolveDots at h
  split at h
  · cases h
  · cases h
  · cases h
  · rfl

theorem resolved_dot (text : List Char) : resolved ('.' :: text) = 0x2E :: resolved text :=
  Percent.decode_cons_of_ne (by decide) _

theorem resolved_escaped_dot {digit : Char} (h : digit = 'e' ∨ digit = 'E') (text : List Char) :
    resolved ('%' :: '2' :: digit :: text) = 0x2E :: resolved text := by
  obtain rfl | rfl := h
  · exact Percent.decode_sign (0x32 :: 0x65 :: Utf8.encode text)
  · exact Percent.decode_sign (0x32 :: 0x45 :: Utf8.encode text)

theorem resolveDots_dot {text rest : List Char} (h : resolveDots text = '.' :: rest) :
    ∃ more, resolveDots more = rest ∧ resolved text = 0x2E :: resolved more := by
  unfold resolveDots at h
  split at h
  · cases h
    exact ⟨_, rfl, resolved_escaped_dot (.inl rfl) _⟩
  · cases h
    exact ⟨_, rfl, resolved_escaped_dot (.inr rfl) _⟩
  · cases h
    exact ⟨_, rfl, resolved_dot _⟩
  · cases h

theorem dots_dotted {text : List Char} (h : resolveDots text = ['.'] ∨ resolveDots text = ['.', '.']) :
    Dotted text := by
  obtain h | h := h
  · obtain ⟨more, last, read⟩ := resolveDots_dot h
    obtain rfl := resolveDots_nil last
    exact .inl read
  · obtain ⟨more, again, read⟩ := resolveDots_dot h
    obtain ⟨end_, last, read'⟩ := resolveDots_dot again
    obtain rfl := resolveDots_nil last
    exact .inr (read.trans (congrArg _ read'))

theorem ascend_subset (kind : SchemeKind) (path : List (List Char)) : ascend kind path ⊆ path := by
  unfold ascend
  split
  · exact List.Subset.refl _
  · split
    · exact List.Subset.refl _
    · exact List.nil_subset _
  · exact List.subset_cons_self ..

/-- What a segment makes of the path so far. Only a drive letter at the root of a file path is not
written as it is. -/
inductive Descends (kind : SchemeKind) (path : List (List Char)) (segment : List Char) (last : Bool) :
    List (List Char) → Prop
  | up (after : List (List Char)) (within : after ⊆ path) :
      Descends kind path segment last (if last then [] :: after else after)
  | down : Descends kind path segment last (spelled segment :: path)
  | drive (letter : Char) (alpha : letter.isAlpha = true) (file : kind = .file) (root : path = []) :
      Descends kind path segment last [[letter, ':']]

theorem descends (kind : SchemeKind) (path : List (List Char)) (segment : List Char) (last : Bool) :
    Descends kind path segment last (descend kind path segment last) := by
  unfold descend
  dsimp only
  split
  · exact .up (ascend kind path) (ascend_subset kind path)
  · exact .up path (List.Subset.refl _)
  · split
    · rename_i c d written
      split
      · rename_i letter
        simp only [isDriveLetter, Bool.and_eq_true] at letter
        exact .drive c letter.1 rfl rfl
      · rw [← written]
        exact .down
    · exact .down

theorem descend_plain {kind : SchemeKind} (other : kind ≠ .file) (path : List (List Char))
    {segment : List Char} (plain : ¬ Dotted segment) (last : Bool) :
    descend kind path segment last = spelled segment :: path := by
  have apart : ∀ dots, resolveDots (spelled segment) = dots → dots ≠ ['.'] ∧ dots ≠ ['.', '.'] := by
    rintro dots rfl
    rw [← not_or]
    intro h
    have dotted := dots_dotted h
    rw [Dotted, resolved_spelled] at dotted
    exact plain dotted
  unfold descend
  dsimp only
  split
  · exact absurd rfl (apart _ ‹_›).2
  · exact absurd rfl (apart _ ‹_›).1
  · split
    · exact absurd rfl other
    · rfl

theorem walk_cons (kind : SchemeKind) (path : List (List Char)) (segment next : List Char)
    (rest : List (List Char)) : walk kind path (segment :: next :: rest) =
      walk kind (descend kind path segment false) (next :: rest) := rfl

theorem walk_plain {kind : SchemeKind} (other : kind ≠ .file) {segments : List (List Char)}
    (plain : ∀ s ∈ segments, ¬ Dotted s) (path : List (List Char)) :
    walk kind path segments = (segments.map spelled).reverse ++ path := by
  induction segments generalizing path with
  | nil => rfl
  | cons segment rest ih =>
    obtain ⟨here, later⟩ := List.forall_mem_cons.mp plain
    rcases rest with _ | ⟨next, rest⟩
    · exact descend_plain other path here true
    · rw [walk_cons, descend_plain other path here, ih later]
      simp

theorem walk_onward (kind : SchemeKind) (path before : List (List Char)) (last : List Char) :
    ∃ above, walk kind path (before ++ [last]) = descend kind above last true ∧
      (before = [] → above = path) := by
  induction before generalizing path with
  | nil => exact ⟨path, rfl, fun _ => rfl⟩
  | cons segment rest ih =>
    obtain ⟨next, more, split⟩ : ∃ next more, rest ++ [last] = next :: more :=
      List.exists_cons_of_ne_nil (by simp)
    obtain ⟨above, walked, -⟩ := ih (descend kind path segment false)
    rw [List.cons_append, split, walk_cons, ← split]
    exact ⟨above, walked, nofun⟩

theorem walk_last (kind : SchemeKind) (before : List (List Char)) (last : List Char) :
    ∃ above, walk kind [] (before ++ [last]) = descend kind above last true ∧
      (before = [] → above = []) := walk_onward kind [] before last

theorem walk_slashless (kind : SchemeKind) {path segments : List (List Char)}
    (start : ∀ s ∈ path, '/' ∉ s) (each : ∀ s ∈ segments, '/' ∉ s) :
    ∀ s ∈ walk kind path segments, '/' ∉ s := by
  have step : ∀ path segment last, (∀ s ∈ path, '/' ∉ s) → '/' ∉ segment →
      ∀ s ∈ descend kind path segment last, '/' ∉ s := by
    intro path segment last start here
    have written := descends kind path segment last
    generalize descend kind path segment last = after at written
    cases written with
    | up after within =>
      have kept : ∀ s ∈ after, '/' ∉ s := fun s among => start s (within among)
      cases last with
      | true => exact List.forall_mem_cons.mpr ⟨nofun, kept⟩
      | false => exact kept
    | down => exact List.forall_mem_cons.mpr ⟨fun among => here (slash_of_spelled among), start⟩
    | drive letter alpha =>
      intro s among
      rw [List.mem_singleton.mp among]
      intro slash
      simp only [List.mem_cons, List.not_mem_nil, or_false, Char.reduceEq] at slash
      subst slash
      cases alpha
  induction segments generalizing path with
  | nil => exact start
  | cons segment rest ih =>
    obtain ⟨here, later⟩ := List.forall_mem_cons.mp each
    rcases rest with _ | ⟨next, rest⟩
    · exact step path segment true start here
    · rw [walk_cons]
      exact ih (step path segment false start here) later

def joined (segments : List (List Char)) : List Char := segments.flatMap ('/' :: ·)

theorem split_joined {kind : SchemeKind} {segments : List (List Char)}
    (each : ∀ s ∈ segments, ∀ c ∈ s, isSlash kind c = false) (first : List Char)
    (here : ∀ c ∈ first, isSlash kind c = false) :
    (first ++ joined segments).splitOnP (isSlash kind) = first :: segments := by
  induction segments generalizing first with
  | nil =>
    rw [joined, List.flatMap_nil, List.append_nil]
    exact List.splitOnP_eq_singleton here
  | cons next rest ih =>
    obtain ⟨following, later⟩ := List.forall_mem_cons.mp each
    show (first ++ '/' :: (next ++ joined rest)).splitOnP (isSlash kind) = _
    rw [List.splitOnP_append_cons_of_forall_mem here '/' rfl, ih later next following]

theorem splitOnP_free {α : Type} (p : α → Bool) (l : List α) :
    ∀ piece ∈ l.splitOnP p, ∀ a ∈ piece, p a = false := by
  induction l with
  | nil => simp
  | cons a l ih =>
    rw [List.splitOnP_cons_eq_if_modifyHead]
    obtain ⟨first, rest, split⟩ := List.exists_cons_of_ne_nil (List.splitOnP_ne_nil p l)
    rw [split] at ih ⊢
    split
    · exact List.forall_mem_cons.mpr ⟨nofun, ih⟩
    · rename_i other
      obtain ⟨here, later⟩ := List.forall_mem_cons.mp ih
      refine List.forall_mem_cons.mpr ⟨List.forall_mem_cons.mpr ⟨?_, here⟩, later⟩
      simpa using other

theorem segments_slashless (kind : SchemeKind) (cs : List Char) :
    ∀ s ∈ segmentsOf kind cs, '/' ∉ s := by
  have pieces : ∀ s ∈ cs.splitOnP (isSlash kind), '/' ∉ s := by
    intro s among slash
    have none : true = false := splitOnP_free (isSlash kind) cs s among '/' slash
    cases none
  have start : ∀ s ∈ ([] : List (List Char)), '/' ∉ s := nofun
  have walked : ∀ s ∈ (walk kind [] (cs.splitOnP (isSlash kind))).reverse, '/' ∉ s := by
    intro s among
    exact walk_slashless kind start pieces s (List.mem_reverse.mp among)
  unfold segmentsOf
  cases kind with
  | file =>
    dsimp only
    split
    · simp
    · rename_i trimmed
      intro s among
      exact walked s ((List.dropWhile_sublist _).mem among)
  | special => exact walked
  | other => exact walked

/-- Only empty segments at the front of a file path are left out. -/
theorem segments_walked {kind : SchemeKind} {cs : List Char} {parents : List (List Char)}
    {last : List Char} (h : segmentsOf kind cs = parents ++ [last]) (nonempty : last ≠ []) :
    ∃ above, walk kind [] (cs.splitOnP (isSlash kind)) = last :: above ∧
      (above = [] → parents = []) := by
  have whole : ∀ front, (walk kind [] (cs.splitOnP (isSlash kind))).reverse =
      front ++ (parents ++ [last]) → ∃ above,
        walk kind [] (cs.splitOnP (isSlash kind)) = last :: above ∧ (above = [] → parents = []) := by
    intro front same
    refine ⟨(front ++ parents).reverse, ?_, ?_⟩
    · rw [← List.reverse_reverse (walk kind _ _), same]
      simp
    · intro none
      exact (List.append_eq_nil_iff.mp (List.reverse_eq_nil_iff.mp none)).2
  unfold segmentsOf at h
  cases kind with
  | file =>
    dsimp only at h
    split at h
    · have lone := congrArg List.getLast? h
      simp only [List.getLast?_singleton, List.getLast?_concat, Option.some.injEq] at lone
      exact absurd lone.symm nonempty
    · apply whole ((walk .file [] (cs.splitOnP (isSlash .file))).reverse.takeWhile List.isEmpty)
      rw [← h, List.takeWhile_append_dropWhile]
  | special => exact whole [] h
  | other => exact whole [] h

/-- The last segment of a path, by the last of its text: that itself, or the letter of a drive that
is the whole path. A text of one segment makes a path of one. -/
theorem segments_last {kind : SchemeKind} {cs : List Char} {parents before : List (List Char)}
    {last piece : List Char} (h : segmentsOf kind cs = parents ++ [last]) (nonempty : last ≠ [])
    (split : cs.splitOnP (isSlash kind) = before ++ [piece]) :
    (last = spelled piece ∨
      parents = [] ∧ ∃ letter : Char, letter.isAlpha = true ∧ last = [letter, ':']) ∧
    (before = [] → parents = []) := by
  obtain ⟨above, walked, root⟩ := segments_walked h nonempty
  rw [split] at walked
  obtain ⟨path, stepped, start⟩ := walk_last kind before piece
  rw [stepped] at walked
  have written := descends kind path piece true
  rw [walked] at written
  generalize reached : last :: above = after at written
  cases written with
  | up after =>
    cases reached
    exact absurd rfl nonempty
  | down =>
    cases reached
    exact ⟨.inl rfl, fun alone => root (start alone)⟩
  | drive letter alpha =>
    cases reached
    exact ⟨.inr ⟨root rfl, letter, alpha, rfl⟩, fun _ => root rfl⟩

end WorkloadIdentity.Url
