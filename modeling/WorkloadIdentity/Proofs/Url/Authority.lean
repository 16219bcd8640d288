import WorkloadIdentity.Proofs.Url.Segments

/-!
# From the scheme to the path

What stands between the scheme and the path has no part in the path: if it can stand alone, it can
stand before any path, which is then read as it is. Nothing visible is lost when a text is cleaned.
-/

set_option autoImplicit false

namespace WorkloadIdentity.Url

/-- A visible text without the marks that end an authority or a segment. -/
def Unbroken (text : List Char) : Prop :=
  ∀ c ∈ text, 0x20 < c.toNat ∧ c ≠ '/' ∧ c ≠ '\\' ∧ c ≠ '?' ∧ c ≠ '#'

instance (text : List Char) : Decidable (Unbroken text) := List.decidableBAll _ text

def Closes (tail : List Char) : Prop := ∀ c ∈ tail.head?, c = '/' ∨ c = '?' ∨ c = '#'

theorem closes_nil : Closes [] := nofun

theorem unbroken_append {text more : List Char} :
    Unbroken (text ++ more) ↔ Unbroken text ∧ Unbroken more := List.forall_mem_append

theorem unbroken_subset {text part : List Char} (h : Unbroken text) (within : part ⊆ text) :
    Unbroken part := fun c among => h c (within among)

theorem unbroken_slashless (kind : SchemeKind) {text : List Char} (h : Unbroken text) :
    ∀ c ∈ text, isSlash kind c = false := by
  intro c among
  obtain ⟨-, slash, back, -, -⟩ := h c among
  simp [isSlash, slash, back]

theorem unbroken_in_path {text : List Char} (h : Unbroken text) :
    ∀ c ∈ text, (!endsPath c) = true := by
  intro c among
  obtain ⟨-, -, -, query, fragment⟩ := h c among
  simp [endsPath, query, fragment]

/-- A scan that stops at the front of `tail` at the latest. -/
theorem scan_append {α : Type} {p : α → Bool} {tail : List α} (stops : ∀ a ∈ tail.head?, p a = false)
    (l : List α) : (l ++ tail).takeWhile p = l.takeWhile p ∧
      (l ++ tail).dropWhile p = l.dropWhile p ++ tail := by
  induction l with
  | nil =>
    rcases tail with _ | ⟨a, tail⟩
    · exact ⟨rfl, rfl⟩
    · have stop := stops a rfl
      simp [stop]
  | cons a l ih =>
    by_cases h : p a = true
    · simp [h, ih]
    · simp [h]

theorem scan_whole {α : Type} {p : α → Bool} {l tail : List α} (on : ∀ a ∈ l, p a = true)
    (stops : ∀ a ∈ tail.head?, p a = false) :
    (l ++ tail).takeWhile p = l ∧ (l ++ tail).dropWhile p = tail := by
  rw [List.takeWhile_append_of_pos on, List.dropWhile_append_of_pos on]
  obtain ⟨taken, dropped⟩ := scan_append stops ([] : List α)
  exact ⟨(congrArg (l ++ ·) taken).trans (List.append_nil l), dropped⟩

section Authorities

variable {auth tail : List Char} (kind : SchemeKind)

theorem unbroken_goes_on (h : Unbroken auth) : ∀ c ∈ auth, (!endsAuthority kind c) = true := by
  intro c among
  obtain ⟨-, -, -, query, fragment⟩ := h c among
  simp [endsAuthority, unbroken_slashless kind h c among, query, fragment]

theorem closes_ends (h : Closes tail) : ∀ c ∈ tail.head?, (!endsAuthority kind c) = false := by
  intro c first
  obtain rfl | rfl | rfl := h c first <;> simp [endsAuthority, isSlash]

theorem authority_taken (h : Unbroken auth) (closes : Closes tail) :
    (auth ++ tail).takeWhile (!endsAuthority kind ·) = auth ∧
      (auth ++ tail).dropWhile (!endsAuthority kind ·) = tail :=
  scan_whole (unbroken_goes_on kind h) (closes_ends kind closes)

theorem lone_at {text : List Char} (h : lastAt? text = some ([], [])) : text = ['@'] := by
  unfold lastAt? at h
  obtain ⟨marked, h⟩ := Option.ite_none_right_eq_some.mp h
  rw [Option.some.injEq, Prod.mk.injEq, List.reverse_eq_nil_iff, List.reverse_eq_nil_iff] at h
  obtain ⟨before, after⟩ := h
  rcases last : text.reverse with _ | ⟨c, rest⟩
  · rw [List.reverse_eq_nil_iff] at last
    subst last
    cases marked
  rw [last] at before after
  by_cases at_sign : c = '@'
  · subst at_sign
    have none : rest = [] := before
    rw [← List.reverse_reverse text, last, none]
    rfl
  · rw [List.takeWhile_cons_of_pos (by simpa using at_sign)] at after
    cases after

theorem userInfo_append (h : Unbroken auth) (closes : Closes tail)
    (hosted : auth ≠ ['@']) : userInfo? kind (auth ++ tail) =
      (userInfo? kind auth).map fun (given, cs) => (given, cs ++ tail) := by
  obtain ⟨taken, dropped⟩ := authority_taken kind h closes
  obtain ⟨taken', dropped'⟩ := authority_taken kind h closes_nil
  rw [List.append_nil] at taken' dropped'
  unfold userInfo?
  rw [taken, dropped, taken', dropped']
  rcases marked : lastAt? auth with _ | ⟨_ | ⟨c, info⟩, host⟩
  · rfl
  · have present : host ≠ [] := by
      rintro rfl
      exact hosted (lone_at marked)
    simp [present]
  · simp

theorem lastAt_subset {text info host : List Char} (h : lastAt? text = some (info, host)) :
    host ⊆ text := by
  unfold lastAt? at h
  obtain ⟨-, h⟩ := Option.ite_none_right_eq_some.mp h
  cases h
  intro c among
  exact List.mem_reverse.mp ((List.takeWhile_sublist _).mem (List.mem_reverse.mp among))

theorem userInfo_unbroken (h : Unbroken auth) {given : Bool} {cs : List Char}
    (read : userInfo? kind auth = some (given, cs)) : Unbroken cs := by
  obtain ⟨taken, dropped⟩ := authority_taken kind h closes_nil
  rw [List.append_nil] at taken dropped
  unfold userInfo? at read
  rw [taken, dropped] at read
  rcases marked : lastAt? auth with _ | ⟨_ | ⟨c, info⟩, host⟩ <;> rw [marked] at read
  · cases read
    exact h
  · simp only [List.append_nil, Option.ite_none_left_eq_some, Option.some.injEq,
      Prod.mk.injEq] at read
    obtain ⟨-, -, rfl⟩ := read
    exact unbroken_subset h (lastAt_subset marked)
  · simp only [List.append_nil, Option.some.injEq, Prod.mk.injEq] at read
    obtain ⟨-, rfl⟩ := read
    exact unbroken_subset h (lastAt_subset marked)

theorem hostLength_append {cs : List Char} (h : Unbroken cs) (closes : Closes tail) (inside : Bool) :
    hostLength kind inside (cs ++ tail) = hostLength kind inside cs := by
  induction cs generalizing inside with
  | nil =>
    rcases tail with _ | ⟨c, tail⟩
    · rfl
    · have ends := closes_ends kind closes c rfl
      simp only [Bool.not_eq_false'] at ends
      simp [hostLength, ends]
  | cons c cs ih =>
    obtain ⟨-, later⟩ := List.forall_mem_cons.mp h
    simp only [List.cons_append, hostLength, ih later]

theorem hostLength_le (inside : Bool) (cs : List Char) : hostLength kind inside cs ≤ cs.length := by
  induction cs generalizing inside with
  | nil => exact Nat.le_refl 0
  | cons c cs ih =>
    simp only [hostLength]
    split
    · exact Nat.zero_le _
    · exact Nat.succ_le_succ (ih _)

theorem hostLength_stops {cs : List Char} (h : Unbroken cs) (inside : Bool) :
    ∀ c ∈ (cs.drop (hostLength kind inside cs)).head?, c = ':' := by
  induction cs generalizing inside with
  | nil => nofun
  | cons d cs ih =>
    have on := unbroken_goes_on kind h d (List.mem_cons_self ..)
    obtain ⟨-, later⟩ := List.forall_mem_cons.mp h
    simp only [Bool.not_eq_true'] at on
    simp only [hostLength, on, Bool.or_false]
    split
    · rename_i colon
      rintro c ⟨⟩
      simp_all
    · exact ih later _

theorem port_append (scheme : List Char) {cs : List Char} (h : Unbroken cs) (closes : Closes tail) :
    port? scheme (cs ++ tail) = (port? scheme cs).map fun (port, _) => (port, tail) := by
  have stops : ∀ c ∈ tail.head?, c.isDigit = false := by
    intro c first
    obtain rfl | rfl | rfl := closes c first <;> rfl
  have ends : tail.head?.any (!endsPort ·) = false := by
    rcases tail with _ | ⟨c, tail⟩
    · rfl
    · obtain rfl | rfl | rfl := closes c rfl <;> rfl
  obtain ⟨taken, dropped⟩ := scan_append stops cs
  unfold port?
  rw [taken, dropped]
  rcases after : cs.dropWhile Char.isDigit with _ | ⟨c, more⟩
  · simp only [List.nil_append, ends, List.head?_nil, Option.any_none, Bool.false_or]
    split <;> rfl
  · -- Something visible after the digits is no end of the port.
    have among : c ∈ cs := (List.dropWhile_sublist Char.isDigit).mem (after ▸ List.mem_cons_self ..)
    obtain ⟨-, slash, back, query, fragment⟩ := h c among
    have bad : endsPort c = false := by simp [endsPort, slash, back, query, fragment]
    simp [bad]

def hosted (scheme : List Char) (given : Bool) (host rest : List Char) :
    Option (Option (List Char) × Option Nat × List Char) :=
  if host.isEmpty && (given || rest.head? == some ':') then none
  else
    let host := if host.isEmpty then none else some host
    match rest with
    | ':' :: rest => do
      let (port, rest) ← port? scheme rest
      return (host, port, rest)
    | rest => return (host, none, rest)

def hostOf? (kind : SchemeKind) (cs : List Char) : Option (List Char) :=
  if isSpecial kind then namedHost? cs else opaqueHost? cs

theorem authority_eq (scheme cs : List Char) : authorityParts? scheme kind cs =
    (userInfo? kind cs).bind fun (given, cs) =>
      (hostOf? kind (cs.take (hostLength kind false cs))).bind fun host =>
        hosted scheme given host (cs.drop (hostLength kind false cs)) := by
  unfold authorityParts? hostOf?
  cases isSpecial kind <;> rfl

theorem hosted_append (scheme : List Char) (given : Bool) (host : List Char) {cs : List Char}
    (h : Unbroken cs) (colon : ∀ c ∈ cs.head?, c = ':') (closes : Closes tail) :
    hosted scheme given host (cs ++ tail) =
      (hosted scheme given host cs).map fun (host, port, _) => (host, port, tail) := by
  unfold hosted
  rcases cs with _ | ⟨c, more⟩
  · rcases tail with _ | ⟨d, tail⟩
    · simp only [List.append_nil]
      split <;> rfl
    · obtain rfl | rfl | rfl := closes d rfl <;> simp <;> split <;> rfl
  · obtain rfl := colon c rfl
    obtain ⟨-, within⟩ := List.forall_mem_cons.mp h
    simp only [List.cons_append, List.head?_cons, port_append scheme within closes]
    split
    · rfl
    · rcases port? scheme more with _ | ⟨port, rest⟩ <;> rfl

/-- An authority is read in the same way whatever path follows it. -/
theorem authority_append (scheme : List Char) (h : Unbroken auth) (closes : Closes tail)
    (addressed : auth ≠ ['@']) : authorityParts? scheme kind (auth ++ tail) =
      (authorityParts? scheme kind auth).map fun (host, port, _) => (host, port, tail) := by
  rw [authority_eq, authority_eq, userInfo_append kind h closes addressed]
  rcases read : userInfo? kind auth with _ | ⟨given, cs⟩
  · rfl
  have unbroken := userInfo_unbroken kind h read
  have short := hostLength_le kind false cs
  simp only [Option.map_some, Option.bind_some, hostLength_append kind unbroken closes,
    List.take_append_of_le_length short, List.drop_append_of_le_length short]
  rcases hostOf? kind (cs.take (hostLength kind false cs)) with _ | host
  · rfl
  · exact hosted_append scheme given host (unbroken_subset unbroken (List.drop_subset _ _))
      (hostLength_stops kind unbroken false) closes

end Authorities

def Visible (text : List Char) : Prop := ∀ c ∈ text, 0x20 < c.toNat

instance (text : List Char) : Decidable (Visible text) := List.decidableBAll _ text

theorem visible_append {text more : List Char} :
    Visible (text ++ more) ↔ Visible text ∧ Visible more := List.forall_mem_append

theorem unbroken_visible {text : List Char} (h : Unbroken text) : Visible text :=
  fun c among => (h c among).1

theorem visible_kept {c : Char} (h : 0x20 < c.toNat) :
    isControlOrSpace c = false ∧ isTabOrBreak c = false := by
  constructor
  · simpa [isControlOrSpace] using h
  · have other : ∀ d : Char, d.toNat ≤ 0x20 → c ≠ d := by
      rintro d low rfl
      exact Nat.not_lt.mpr low h
    simp [isTabOrBreak, other '\t' (by decide), other '\n' (by decide), other '\r' (by decide)]

theorem clean_visible {text : List Char} (visible : Visible text) (nonempty : text ≠ [])
    (more : List Char) : ∃ rest, clean (text ++ more) = text ++ rest ∧ (more = [] → rest = []) := by
  have front : (text ++ more).dropWhile isControlOrSpace = text ++ more := by
    rcases text with _ | ⟨c, text⟩
    · exact absurd rfl nonempty
    · have first := (visible_kept (visible c (List.mem_cons_self ..))).1
      simp [first]
  have stops : ∀ c ∈ text.reverse.head?, isControlOrSpace c = false := by
    intro c last
    exact (visible_kept (visible c (List.mem_reverse.mp (List.mem_of_mem_head? last)))).1
  have kept : text.filter (fun c => !isTabOrBreak c) = text := by
    rw [List.filter_eq_self]
    intro c among
    rw [(visible_kept (visible c among)).2]
    rfl
  have cleaned : clean (text ++ more) =
      text ++ (more.reverse.dropWhile isControlOrSpace).reverse.filter (fun c => !isTabOrBreak c) := by
    rw [clean, front, List.reverse_append, (scan_append stops more.reverse).2, List.reverse_append,
      List.reverse_reverse, List.filter_append, kept]
  refine ⟨_, cleaned, ?_⟩
  rintro rfl
  rfl

theorem scheme_eq {name : List Char} (each : ∀ c ∈ name, isSchemeChar c = true) (rest : List Char) :
    scheme? (name ++ ':' :: rest) =
      if name.head?.any Char.isAlpha then some (name.map Char.toLower, rest) else none := by
  have stops : ∀ c ∈ (':' :: rest).head?, isSchemeChar c = false := by
    rintro c ⟨⟩
    rfl
  obtain ⟨taken, dropped⟩ := scan_whole each stops
  rcases name with _ | ⟨c, name⟩ <;> unfold scheme? <;> rw [dropped, taken]
  · simp
  · simp

/-- An authority that can stand before a path. -/
structure Addresses (auth : List Char) : Prop where
  unbroken : Unbroken auth
  nonempty : auth ≠ []
  addressed : auth ≠ ['@']

variable {text : String} {scheme auth tail : List Char}

/-- Whether a text with an authority is a URL depends on scheme and authority alone. -/
theorem parse_authority
    (opens : scheme? (clean text.toList) = some (scheme, '/' :: '/' :: (auth ++ tail)))
    (other : kindOf scheme ≠ .file) (addresses : Addresses auth) (closes : Closes tail) :
    parse? text = (authorityParts? scheme (kindOf scheme) auth).map fun (host, port, _) =>
      finish scheme (kindOf scheme) host port tail := by
  have slashes : ('/' :: '/' :: (auth ++ tail)).dropWhile (isSlash .special) = auth ++ tail := by
    rcases auth with _ | ⟨c, auth⟩
    · exact absurd rfl addresses.nonempty
    · have stops := unbroken_slashless .special addresses.unbroken c (List.mem_cons_self ..)
      have goes : isSlash .special '/' = true := rfl
      simp [goes, stops]
  have same := authority_append (kindOf scheme) scheme addresses.unbroken closes
    addresses.addressed
  unfold parse?
  rw [opens]
  simp only [Option.bind_eq_bind, Option.bind_some]
  rcases kind : kindOf scheme with _ | _ | _
  · exact absurd kind other
  · rw [kind] at same
    simp only [slashes, same]
    rcases authorityParts? scheme .special auth with _ | ⟨host, port, rest⟩ <;> rfl
  · rw [kind] at same
    simp only [same]
    rcases authorityParts? scheme .other auth with _ | ⟨host, port, rest⟩ <;> rfl

theorem joined_chars {segments : List (List Char)} (each : ∀ s ∈ segments, Unbroken s) :
    ∀ c ∈ joined segments, 0x20 < c.toNat ∧ c ≠ '?' ∧ c ≠ '#' := by
  intro c among
  obtain ⟨s, listed, within⟩ := List.mem_flatMap.mp among
  obtain rfl | within := List.mem_cons.mp within
  · decide
  · obtain ⟨visible, -, -, query, fragment⟩ := each s listed c within
    exact ⟨visible, query, fragment⟩

theorem joined_visible {segments : List (List Char)} (each : ∀ s ∈ segments, Unbroken s) :
    Visible (joined segments) := fun c among => (joined_chars each c among).1

theorem joined_goes_on {segments : List (List Char)} (each : ∀ s ∈ segments, Unbroken s) :
    ∀ c ∈ joined segments, (!endsPath c) = true := by
  intro c among
  obtain ⟨-, query, fragment⟩ := joined_chars each c among
  simp [endsPath, query, fragment]

theorem finish_path {segments : List (List Char)} (each : ∀ s ∈ segments, Unbroken s)
    (plain : ∀ s ∈ segments, ¬ Dotted s) (nonempty : segments ≠ []) (scheme : List Char)
    (host : Option (List Char)) (port : Option Nat) :
    (finish scheme .special host port (joined segments)).path = .segments (segments.map spelled) := by
  have whole : (joined segments).takeWhile (!endsPath ·) = joined segments := by
    have ends : ∀ c ∈ ([] : List Char).head?, (!endsPath c) = false := nofun
    have scanned := (scan_whole (joined_goes_on each) ends).1
    rwa [List.append_nil] at scanned
  obtain ⟨first, rest, rfl⟩ := List.exists_cons_of_ne_nil nonempty
  have apart : ∀ s ∈ first :: rest, ∀ c ∈ s, isSlash .special c = false :=
    fun s listed => unbroken_slashless .special (each s listed)
  obtain ⟨here, later⟩ := List.forall_mem_cons.mp apart
  have dropped : dropSlash .special (joined (first :: rest)) = first ++ joined rest := rfl
  have path : segmentsOf .special (first ++ joined rest) = (first :: rest).map spelled := by
    have kept : SchemeKind.special ≠ .file := nofun
    show (walk .special [] ((first ++ joined rest).splitOnP (isSlash .special))).reverse = _
    rw [split_joined later first here, walk_plain kept plain]
    simp
  simp only [finish, whole, dropped, path]
  rfl

def Slashless (url : Url) : Prop := ∀ segments, url.path = .segments segments → ∀ s ∈ segments, '/' ∉ s

theorem finish_slashless (scheme : List Char) (kind : SchemeKind) (host : Option (List Char))
    (port : Option Nat) (cs : List Char) : Slashless (finish scheme kind host port cs) := by
  intro segments path
  cases path
  split
  · exact nofun
  · exact segments_slashless kind _

theorem dropHost_path (url : Url) : (dropHost url).path = url.path := by
  unfold dropHost
  split
  · split <;> rfl
  · rfl

theorem file_slashless {cs : List Char} {url : Url} (h : parseFile? cs = some url) :
    Slashless url := by
  unfold parseFile? at h
  split at h
  · split at h
    · dsimp only at h
      split at h
      · cases h
        exact finish_slashless _ _ _ _ _
      · obtain ⟨name, -, h⟩ := Option.bind_eq_some_iff.mp h
        cases h
        intro segments path
        rw [dropHost_path] at path
        exact finish_slashless _ _ _ _ _ segments path
    · cases h
      exact finish_slashless _ _ _ _ _
  · cases h
    exact finish_slashless _ _ _ _ _

theorem parse_slashless {text : String} {url : Url} (h : parse? text = some url) :
    Slashless url := by
  obtain ⟨⟨scheme, rest⟩, -, h⟩ := Option.bind_eq_some_iff.mp h
  simp only at h
  split at h
  · exact file_slashless h
  · obtain ⟨⟨given, port, path⟩, -, h⟩ := Option.bind_eq_some_iff.mp h
    cases h
    exact finish_slashless _ _ _ _ _
  · split at h
    · obtain ⟨⟨given, port, path⟩, -, h⟩ := Option.bind_eq_some_iff.mp h
      cases h
      exact finish_slashless _ _ _ _ _
    · cases h
      intro segments path
      cases path
      exact segments_slashless .other _
    · cases h
      intro segments path
      cases path

end WorkloadIdentity.Url
