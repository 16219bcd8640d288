import WorkloadIdentity.Http.Uri

/-!
# Forms of request URIs

A text that is read as a request URI has one of the four forms of request targets. In the absolute
form the parts of the URI stand in the text as they are, one after another.
-/

set_option autoImplicit false

namespace WorkloadIdentity.Uri

/-- A scheme, an authority and a path, with the query and the fragment after them. Only letters of a
known scheme and an empty path are read as something else. -/
structure Absolute (text : List Char) (uri : Uri) (name auth path tail : List Char) : Prop where
  whole : text = name ++ ':' :: '/' :: '/' :: (auth ++ (path ++ tail))
  scheme : uri.scheme.map lower = some (lower name)
  named : ∀ c ∈ name, isSchemeChar c = true
  authority : isAuthority auth = true
  nonempty : auth ≠ []
  rooted : ∀ c ∈ path.head?, c = '/'
  each : ∀ c ∈ path, isPathChar c = true
  ends : ∀ c ∈ tail.head?, endsPath c = true
  kept : uri.path = if path.isEmpty then ['/'] else path

inductive Form (text : List Char) (uri : Uri) : Prop
  | asterisk (whole : text = ['*'])
  | origin (rest : List Char) (whole : text = '/' :: rest)
  | authority (schemeless : uri.scheme = none) (pathless : uri.path = [])
  | absolute (name auth path tail : List Char) (parts : Absolute text uri name auth path tail)

theorem step_char {s t : Scan} {c : Char} (h : s.step? c = some t) : isAuthorityChar c = true := by
  unfold Scan.step? at h
  split at h
  · cases h
  · rename_i allowed
    simpa using allowed

theorem scan_chars {cs : List Char} {s t : Scan} (h : cs.foldlM Scan.step? s = some t) :
    ∀ c ∈ cs, isAuthorityChar c = true := by
  induction cs generalizing s with
  | nil => nofun
  | cons c cs ih =>
    rw [List.foldlM_cons] at h
    obtain ⟨next, stepped, rest⟩ := Option.bind_eq_some_iff.mp h
    exact List.forall_mem_cons.mpr ⟨step_char stepped, ih rest⟩

theorem authority_chars {cs : List Char} (h : isAuthority cs = true) :
    ∀ c ∈ cs, isAuthorityChar c = true := by
  obtain ⟨s, scanned, -⟩ := (Option.any_eq_true _ _).mp h
  exact scan_chars scanned

theorem lower_known {name : List Char}
    (h : lower name = "http".toList ∨ lower name = "https".toList) :
    lower (lower name) = lower name := by
  obtain same | same := h <;> rw [same] <;> decide

theorem scheme_form {cs scheme rest : List Char} (h : scheme? cs = some (scheme, rest)) :
    ∃ name, cs = name ++ ':' :: '/' :: '/' :: rest ∧ (∀ c ∈ name, isSchemeChar c = true) ∧
      lower scheme = lower name := by
  unfold scheme? at h
  split at h
  · rename_i after found
    simp only [Option.some.injEq, Prod.mk.injEq] at h
    obtain ⟨written, rfl⟩ := h
    refine ⟨cs.takeWhile isSchemeChar, ?_, List.all_eq_true.mp List.all_takeWhile, ?_⟩
    · rw [← found, List.takeWhile_append_dropWhile]
    · rw [← written]
      split
      · exact lower_known ‹_›
      · rfl
  · cases h

theorem path_form {cs path : List Char} {query : Option (List Char)}
    (h : pathAndQuery? cs = some (path, query)) :
    ∃ tail, cs = path ++ tail ∧ (∀ c ∈ path, isPathChar c = true) ∧
      ∀ c ∈ tail.head?, endsPath c = true := by
  have stops : ∀ c ∈ (cs.dropWhile (!endsPath ·)).head?, endsPath c = true := by
    intro c first
    have met := List.head?_dropWhile_not (!endsPath ·) cs
    rw [Option.mem_def.mp first] at met
    simpa using met
  unfold pathAndQuery? at h
  obtain ⟨allowed, h⟩ := Option.ite_none_left_eq_some.mp h
  have each : ∀ c ∈ cs.takeWhile (!endsPath ·), isPathChar c = true := by simpa using allowed
  have taken : cs.takeWhile (!endsPath ·) = path := by
    split at h
    · obtain ⟨-, h⟩ := Option.ite_none_right_eq_some.mp h
      exact (Prod.mk.inj (Option.some.inj h)).1
    · exact (Prod.mk.inj (Option.some.inj h)).1
  subst taken
  exact ⟨_, List.takeWhile_append_dropWhile.symm, each, stops⟩

theorem path_rooted {rest path tail : List Char}
    (split : rest.dropWhile (!endsAuthority ·) = path ++ tail)
    (each : ∀ c ∈ path, isPathChar c = true) : ∀ c ∈ path.head?, c = '/' := by
  intro c first
  have met := List.head?_dropWhile_not (!endsAuthority ·) rest
  rcases path with _ | ⟨d, path⟩
  · cases first
  · cases first
    rw [split] at met
    have allowed := each c (List.mem_cons_self ..)
    simp only [List.cons_append, List.head?_cons, Bool.not_eq_false', endsAuthority,
      Bool.or_eq_true, beq_iff_eq] at met
    obtain (slash | rfl) | rfl := met
    · exact slash
    · cases allowed
    · cases allowed

theorem absolute_form {text name scheme rest : List Char} {uri : Uri}
    (whole : text = name ++ ':' :: '/' :: '/' :: rest) (named : ∀ c ∈ name, isSchemeChar c = true)
    (same : lower scheme = lower name) (h : absolute? scheme rest = some uri) :
    ∃ auth path tail, Absolute text uri name auth path tail := by
  unfold absolute? at h
  obtain ⟨accepted, h⟩ := Option.ite_none_left_eq_some.mp h
  obtain ⟨⟨path, query⟩, read, h⟩ := Option.bind_eq_some_iff.mp h
  cases h
  obtain ⟨tail, split, each, ends⟩ := path_form read
  simp only [Bool.or_eq_true, not_or, Bool.not_eq_true, Bool.not_eq_false', List.isEmpty_eq_false_iff]
    at accepted
  refine ⟨rest.takeWhile (!endsAuthority ·), path, tail, ?_⟩
  constructor
  case whole =>
    rw [whole, ← split, List.takeWhile_append_dropWhile]
  case scheme => exact congrArg some same
  case named => exact named
  case authority => exact accepted.2
  case nonempty => exact accepted.1
  case rooted => exact path_rooted split each
  case each => exact each
  case ends => exact ends
  case kept => rfl

theorem parse_form {text : String} {uri : Uri} (h : parse? text = some uri) :
    Form text.toList uri := by
  unfold parse? at h
  obtain ⟨-, h⟩ := Option.ite_none_left_eq_some.mp h
  split at h
  · cases h
  · exact .asterisk ‹_›
  · exact .origin _ ‹_›
  · split at h
    · rename_i scheme rest found
      obtain ⟨-, h⟩ := Option.ite_none_left_eq_some.mp h
      obtain ⟨name, whole, named, same⟩ := scheme_form found
      obtain ⟨auth, path, tail, parts⟩ := absolute_form whole named same h
      exact .absolute name auth path tail parts
    · obtain ⟨-, h⟩ := Option.ite_none_left_eq_some.mp h
      cases h
      exact .authority rfl rfl

end WorkloadIdentity.Uri
