import Mathlib.Data.List.SplitBy
import Mathlib.Data.List.TakeWhile
import WorkloadIdentity.Text.Blank

/-!
# White space around a text and in it

What trimming leaves is all of a text but the white space at its ends. A word has characters and no
white space among them, and there is white space or nothing on either side of it: this says which
words a text has and in which order, whatever way they are found.
-/

set_option autoImplicit false

namespace WorkloadIdentity.Blank

theorem drop_exact {before rest : List Char} (first : ∀ c ∈ before, isBlank c = true)
    (front : ∀ c ∈ rest.head?, isBlank c = false) : (before ++ rest).dropWhile isBlank = rest := by
  rw [List.dropWhile_append_of_pos first]
  cases rest with
  | nil => rfl
  | cons c rest => rw [List.dropWhile_cons_of_neg (by simp [front c rfl])]

theorem trim_parts {before text after : List Char} (first : ∀ c ∈ before, isBlank c = true)
    (last : ∀ c ∈ after, isBlank c = true) (front : ∀ c ∈ text.head?, isBlank c = false)
    (back : ∀ c ∈ text.getLast?, isBlank c = false) :
    trimList (before ++ text ++ after) = text := by
  unfold trimList
  cases text with
  | nil =>
    have all : ∀ c ∈ before ++ [] ++ after, isBlank c = true := by
      simpa [or_imp, forall_and] using ⟨first, last⟩
    rw [List.dropWhile_eq_nil_iff.mpr all]
    rfl
  | cons c rest =>
    have dropped : (before ++ (c :: rest ++ after)).dropWhile isBlank = c :: rest ++ after :=
      drop_exact first front
    rw [List.append_assoc, dropped, List.reverse_append,
      drop_exact (by simpa using last) (by rwa [List.head?_reverse]), List.reverse_reverse]

theorem drop_front (text : List Char) :
    ∀ c ∈ (text.dropWhile isBlank).head?, isBlank c = false := by
  intro c first
  have front := List.head?_dropWhile_not isBlank text
  rwa [Option.mem_def.mp first] at front

theorem trim_unspaced {text : List Char} (h : ∀ c ∈ text, isBlank c = false) :
    trimList text = text := by
  have whole : trimList ([] ++ text ++ []) = text := trim_parts nofun nofun
    (fun c first => h c (List.mem_of_head? first)) fun c last => h c (List.mem_of_getLast? last)
  rwa [List.nil_append, List.append_nil] at whole

theorem trim_sublist (text : List Char) : (trimList text).Sublist text := by
  have back : ((text.dropWhile isBlank).reverse.dropWhile isBlank).Sublist
      (text.dropWhile isBlank).reverse := List.dropWhile_sublist isBlank
  have whole := back.reverse
  rw [List.reverse_reverse] at whole
  exact whole.trans (List.dropWhile_sublist isBlank)

inductive Words : List Char → List (List Char) → Prop
  | none {blanks : List Char} (spaced : ∀ c ∈ blanks, isBlank c = true) : Words blanks []
  | word {blanks word rest : List Char} {words : List (List Char)}
      (before : ∀ c ∈ blanks, isBlank c = true) (some_text : word ≠ [])
      (solid : ∀ c ∈ word, isBlank c = false) (ends : ∀ c ∈ rest.head?, isBlank c = true)
      (later : Words rest words) : Words (blanks ++ word ++ rest) (word :: words)

def alike (a b : Char) : Bool := isBlank a == isBlank b

theorem wordsList_append {front rest : List Char}
    (apart : ∀ a ∈ front.getLast?, ∀ b ∈ rest.head?, alike a b = false) :
    wordsList (front ++ rest) = wordsList front ++ wordsList rest := by
  have cut : (front ++ rest).splitBy alike = front.splitBy alike ++ rest.splitBy alike :=
    List.splitBy_append apart
  unfold wordsList
  rw [show (fun a b => isBlank a == isBlank b) = alike from rfl, cut, List.filter_append]

theorem wordsList_blanks {blanks : List Char} (spaced : ∀ c ∈ blanks, isBlank c = true) :
    wordsList blanks = [] := by
  apply List.filter_eq_nil_iff.mpr
  intro run among
  have within : ∀ c ∈ run, c ∈ blanks := by
    intro c part
    rw [← List.flatten_splitBy alike blanks]
    exact List.mem_flatten_of_mem among part
  simpa using fun c part => spaced c (within c part)

theorem wordsList_word {word : List Char} (some_text : word ≠ [])
    (solid : ∀ c ∈ word, isBlank c = false) : wordsList word = [word] := by
  have chain : word.IsChain fun a b => alike a b = true := by
    apply List.Pairwise.isChain
    apply List.pairwise_of_forall_mem_list
    intro a ha b hb
    rw [alike, solid a ha, solid b hb]
    rfl
  have whole : word.splitBy alike = [word] := List.splitBy_of_isChain some_text chain
  obtain ⟨c, rest, rfl⟩ := List.exists_cons_of_ne_nil some_text
  unfold wordsList
  rw [show (fun a b => isBlank a == isBlank b) = alike from rfl, whole]
  simp [solid c]

theorem Words.found {text : List Char} {words : List (List Char)} (h : Words text words) :
    wordsList text = words := by
  induction h with
  | none spaced => exact wordsList_blanks spaced
  | word before some_text solid ends later ih =>
    rename_i blanks word rest words
    have opens : ∀ a ∈ blanks.getLast?, ∀ b ∈ word.head?, alike a b = false := by
      intro a last b first
      rw [alike, before a (List.mem_of_getLast? last), solid b (List.mem_of_head? first)]
      rfl
    have closes : ∀ a ∈ (blanks ++ word).getLast?, ∀ b ∈ rest.head?, alike a b = false := by
      intro a last b first
      rw [List.getLast?_append_of_ne_nil _ some_text] at last
      rw [alike, solid a (List.mem_of_getLast? last), ends b first]
      rfl
    rw [wordsList_append closes, wordsList_append opens, wordsList_blanks before,
      wordsList_word some_text solid, ih]
    rfl

theorem Words.spaced {text : List Char} {words : List (List Char)} (h : Words text words)
    {c : Char} (blank : isBlank c = true) : Words (c :: text) words := by
  cases h with
  | none spaced => exact .none (List.forall_mem_cons.mpr ⟨blank, spaced⟩)
  | word before some_text solid ends later =>
    rename_i blanks word rest words
    show Words ((c :: blanks) ++ word ++ rest) (word :: words)
    exact .word (List.forall_mem_cons.mpr ⟨blank, before⟩) some_text solid ends later

/-- Every text has words: a character more is white space, a part of the first word, or a word. -/
theorem exists_words (text : List Char) : ∃ words, Words text words := by
  induction text with
  | nil => exact ⟨[], .none nofun⟩
  | cons c text ih =>
    obtain ⟨words, read⟩ := ih
    by_cases blank : isBlank c = true
    · exact ⟨words, read.spaced blank⟩
    have solid : isBlank c = false := by simpa using blank
    by_cases ends : ∀ d ∈ text.head?, isBlank d = true
    · have alone : Words ([] ++ [c] ++ text) ([c] :: words) :=
        .word nofun (List.cons_ne_nil c []) (by simpa using solid) ends read
      exact ⟨[c] :: words, alone⟩
    cases read with
    | none spaced =>
      exact absurd (fun d first => spaced d (List.mem_of_head? first)) ends
    | word before some_text solid' ends' later =>
      rename_i blanks word rest words
      rcases blanks with _ | ⟨b, blanks⟩
      · have longer : Words ([] ++ (c :: word) ++ rest) ((c :: word) :: words) :=
          .word nofun (List.cons_ne_nil c word) (List.forall_mem_cons.mpr ⟨solid, solid'⟩) ends' later
        exact ⟨(c :: word) :: words, longer⟩
      · exact absurd (by simpa using before b (List.mem_cons_self ..)) ends

theorem words_iff {text : List Char} {words : List (List Char)} :
    Words text words ↔ wordsList text = words := by
  constructor
  · exact Words.found
  · rintro rfl
    obtain ⟨words, read⟩ := exists_words text
    rwa [read.found]

end WorkloadIdentity.Blank
