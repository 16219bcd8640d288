import WorkloadIdentity.Source.Aws

/-! Filling in the region. The places for it cut a text into pieces, none of which has another
such place in it; the filled text has the region between the same pieces. -/

set_option autoImplicit false

namespace WorkloadIdentity.AwsSource

def placeholder : List Char := ['\x7b', 'r', 'e', 'g', 'i', 'o', 'n', '\x7d']

/-- The pieces of a text between all placeholders. -/
structure Pieces (text : List Char) (pieces : List (List Char)) : Prop where
  whole : text = placeholder.intercalate pieces
  free : ∀ piece ∈ pieces, ¬ placeholder <:+: piece

theorem head_prefix (separator piece : List Char) (pieces : List (List Char)) :
    piece <+: separator.intercalate (piece :: pieces) := by
  cases pieces with
  | nil => exact ⟨[], by rw [List.append_nil, List.intercalate_singleton]⟩
  | cons next pieces =>
    rw [List.intercalate_cons_cons, List.append_assoc]
    exact List.prefix_append _ _

theorem pieces_exist (text : List Char) : ∃ piece pieces, Pieces text (piece :: pieces) := by
  induction text using fillRegion.induct with
  | case1 rest ih =>
    obtain ⟨piece, pieces, whole, free⟩ := ih
    refine ⟨[], piece :: pieces, ?_, ?_⟩
    · rw [List.intercalate_cons_cons, ← whole]
      rfl
    · intro p hp
      obtain rfl | hp := List.mem_cons.mp hp
      · decide
      · exact free p hp
  | case2 c rest unlike ih =>
    obtain ⟨piece, pieces, whole, free⟩ := ih
    refine ⟨c :: piece, pieces, ?_, ?_⟩
    · rw [List.intercalate_cons_cons_left, ← whole]
    · intro p hp inside
      obtain rfl | hp := List.mem_cons.mp hp
      · obtain front | later := List.infix_cons_iff.mp inside
        · -- A placeholder at the front of the piece is one at the front of the text.
          have starts : c :: piece <+: c :: rest := by
            rw [whole]
            exact List.cons_prefix_cons.mpr ⟨rfl, head_prefix placeholder piece pieces⟩
          obtain ⟨after, eq⟩ := front.trans starts
          injection eq with first others
          exact unlike after first.symm others.symm
        · exact free piece (List.mem_cons_self ..) later
      · exact free p (List.mem_cons_of_mem _ hp) inside
  | case3 => exact ⟨[], [], rfl, by decide⟩

theorem fill_region_cons (region : List Char) {c : Char} {rest : List Char}
    (h : ¬ placeholder <+: c :: rest) : fillRegion region (c :: rest) = c :: fillRegion region rest := by
  rw [fillRegion]
  rintro after rfl rfl
  exact h ⟨after, rfl⟩

theorem starts_in_no_piece {c : Char} {piece : List Char} (rest : List Char)
    (h : ¬ placeholder <:+: c :: piece) : ¬ placeholder <+: c :: (piece ++ (placeholder ++ rest)) := by
  intro front
  by_cases long : placeholder.length ≤ (c :: piece).length
  · exact h (List.prefix_of_prefix_length_le front (List.prefix_append _ _) long).isInfix
  · obtain ⟨after, eq⟩ := front
    have inner : ∀ k < 8, 0 < k → placeholder[k]? ≠ some '\x7b' := by decide
    have short : (c :: piece).length < placeholder.length := Nat.lt_of_not_le long
    have brace : (c :: piece ++ (placeholder ++ rest))[(c :: piece).length]? = some '\x7b' := by
      rw [List.getElem?_append_right (Nat.le_refl _), Nat.sub_self]
      rfl
    rw [← List.cons_append] at eq
    rw [← eq, List.getElem?_append_left short] at brace
    exact inner _ short (Nat.succ_pos _) brace

theorem fill_region_placeholder (region rest : List Char) {piece : List Char}
    (h : ¬ placeholder <:+: piece) :
    fillRegion region (piece ++ (placeholder ++ rest)) = piece ++ region ++ fillRegion region rest := by
  induction piece with
  | nil => rfl
  | cons c piece ih =>
    rw [List.cons_append, fill_region_cons region (starts_in_no_piece rest h),
      ih fun inside => h (List.infix_cons inside)]
    rfl

theorem fill_region_free (region : List Char) {piece : List Char} (h : ¬ placeholder <:+: piece) :
    fillRegion region piece = piece := by
  induction piece with
  | nil => rfl
  | cons c piece ih =>
    rw [fill_region_cons region fun front => h front.isInfix, ih fun inside => h (List.infix_cons inside)]

/-- Every placeholder is replaced, and nothing else is touched. -/
theorem fill_region_eq (region : List Char) {text : List Char} {pieces : List (List Char)}
    (h : Pieces text pieces) : fillRegion region text = region.intercalate pieces := by
  obtain ⟨rfl, free⟩ := h
  induction pieces with
  | nil => rfl
  | cons piece pieces ih =>
    have alone := free piece (List.mem_cons_self ..)
    cases pieces with
    | nil => rw [List.intercalate_singleton, List.intercalate_singleton, fill_region_free region alone]
    | cons next pieces =>
      rw [List.intercalate_cons_cons, List.intercalate_cons_cons, List.append_assoc,
        fill_region_placeholder region _ alone, ih fun p hp => free p (List.mem_cons_of_mem _ hp)]

end WorkloadIdentity.AwsSource
