import Mathlib.Data.List.TakeWhile
import Mathlib.Data.Nat.Init
import WorkloadIdentity.Proofs.Json.Extent
import WorkloadIdentity.Proofs.Json.Strings

/-!
# Strings and numbers as they may be written

A character of a string stands there as it is, in an escape of two characters, or as one or two code
units. A number is its sign, its whole part, a fraction and an exponent. The parsers read exactly
this, a number as far as it goes.
-/

set_option autoImplicit false

namespace WorkloadIdentity.Tree

inductive WritesPiece : Piece → Text → Prop
  | plain {c : Char} (quotes : c ≠ '"') (slash : c ≠ '\\') (high : ¬ c.toNat < 0x20) :
      WritesPiece (.scalar c) [some c]
  | short {e c : Char} (known : shortEscape? e = some c) :
      WritesPiece (.scalar c) [some '\\', some e]
  | code {a b c d : Option Char} {i j k l : Nat} (first : hexValue? a = some i)
      (second : hexValue? b = some j) (third : hexValue? c = some k)
      (fourth : hexValue? d = some l) :
      WritesPiece (.escape (((i * 16 + j) * 16 + k) * 16 + l)) [some '\\', some 'u', a, b, c, d]
  | stray : WritesPiece .stray [none]

inductive WritesPieces : List Piece → Text → Prop
  | nil : WritesPieces [] []
  | cons {p : Piece} {ps : List Piece} {front text : Text} (first : WritesPiece p front)
      (others : WritesPieces ps text) : WritesPieces (p :: ps) (front ++ text)

theorem pieces_step {p : Piece} {front : Text} (h : WritesPiece p front) (rest : Text) :
    pieces? (front ++ rest) = (pieces? rest).map fun r => (p :: r.1, r.2) := by
  cases h with
  | plain quotes slash high => exact pieces_plain rest quotes slash high
  | short known =>
    refine pieces_short rest ?_ known
    rintro rfl
    cases known
  | code first second third fourth =>
    show pieces? (some '\\' :: some 'u' :: _ :: _ :: _ :: _ :: rest) = _
    rw [pieces?, first, second, third, fourth]
    simp only [Option.bind_eq_bind, Option.bind_some]
    rcases pieces? rest with _ | ⟨ps, r⟩ <;> rfl
  | stray =>
    show pieces? (none :: rest) = _
    rw [pieces?]
    rcases pieces? rest with _ | ⟨ps, r⟩ <;> rfl

theorem pieces_sound {text rest : Text} {ps : List Piece} (h : pieces? text = some (ps, rest)) :
    ∃ inner, WritesPieces ps inner ∧ text = inner ++ some '"' :: rest := by
  fun_induction pieces? text generalizing ps rest with
  | case2 rest =>
    cases h
    exact ⟨[], .nil, rfl⟩
  | case3 a b c d _ ih =>
    simp only [Option.bind_eq_bind, Option.bind_eq_some_iff] at h
    obtain ⟨i, first, j, second, k, third, l, fourth, ⟨ps, rest⟩, read, whole⟩ := h
    cases whole
    obtain ⟨inner, written, rfl⟩ := ih read
    exact ⟨_, .cons (.code first second third fourth) written, rfl⟩
  | case4 e _ _ ih =>
    simp only [Option.bind_eq_bind, Option.bind_eq_some_iff] at h
    obtain ⟨c, known, ⟨ps, rest⟩, read, whole⟩ := h
    cases whole
    obtain ⟨inner, written, rfl⟩ := ih read
    exact ⟨_, .cons (.short known) written, rfl⟩
  | case7 c _ quotes _ _ slash high ih =>
    simp only [Option.bind_eq_bind, Option.bind_eq_some_iff] at h
    obtain ⟨⟨ps, rest⟩, read, whole⟩ := h
    cases whole
    obtain ⟨inner, written, rfl⟩ := ih read
    exact ⟨_, .cons (.plain (by simpa using quotes) (by simpa using slash) high) written, rfl⟩
  | case8 _ ih =>
    simp only [Option.bind_eq_bind, Option.bind_eq_some_iff] at h
    obtain ⟨⟨ps, rest⟩, read, whole⟩ := h
    cases whole
    obtain ⟨inner, written, rfl⟩ := ih read
    exact ⟨_, .cons .stray written, rfl⟩
  | _ => cases h

theorem pieces_iff {text rest : Text} {ps : List Piece} : pieces? text = some (ps, rest) ↔
    ∃ inner, WritesPieces ps inner ∧ text = inner ++ some '"' :: rest := by
  refine ⟨pieces_sound, ?_⟩
  rintro ⟨inner, written, rfl⟩
  induction written with
  | nil => rw [List.nil_append, pieces?]
  | cons first others ih => rw [List.append_assoc, pieces_step first, ih, Option.map_some]

/-- The pieces of a character. Surrogates come in pairs. -/
inductive Shows : Char → List Piece → Prop
  | scalar (c : Char) : Shows c [.scalar c]
  | unit {code : Nat} (high : isHigh code = false) (low : isLow code = false) :
      Shows (Char.ofNat code) [.escape code]
  | pair {high low : Nat} (first : isHigh high = true) (second : isLow low = true) :
      Shows (Char.ofNat (0x10000 + (high - 0xD800) * 0x400 + (low - 0xDC00)))
        [.escape high, .escape low]

inductive Joins : List Piece → List Char → Prop
  | nil : Joins [] []
  | cons {c : Char} {front ps : List Piece} {cs : List Char} (first : Shows c front)
      (others : Joins ps cs) : Joins (front ++ ps) (c :: cs)

theorem joins_sound {ps : List Piece} {cs : List Char} (h : text? ps = some cs) : Joins ps cs := by
  fun_induction text? ps generalizing cs with
  | case1 =>
    cases h
    exact .nil
  | case2 c rest ih =>
    obtain ⟨more, read, rfl⟩ := Option.map_eq_some_iff.mp h
    exact .cons (.scalar c) (ih read)
  | case4 high low rest first second ih =>
    obtain ⟨more, read, rfl⟩ := Option.map_eq_some_iff.mp h
    exact .cons (.pair first second) (ih read)
  | case7 high low rest first second ih =>
    obtain ⟨more, read, rfl⟩ := Option.map_eq_some_iff.mp h
    exact .cons (.unit (by simpa using first) (by simpa using second)) (ih read)
  | case9 code rest _ plain ih =>
    obtain ⟨more, read, rfl⟩ := Option.map_eq_some_iff.mp h
    simp only [Bool.or_eq_true, not_or, Bool.not_eq_true] at plain
    exact .cons (.unit plain.1 plain.2) (ih read)
  | _ => cases h

theorem joins_iff {ps : List Piece} {cs : List Char} : text? ps = some cs ↔ Joins ps cs := by
  refine ⟨joins_sound, fun h => ?_⟩
  induction h with
  | nil => rfl
  | cons first others ih =>
    cases first with
    | scalar => rw [List.singleton_append, text?, ih, Option.map_some]
    | unit high low => rw [List.singleton_append, text_unit high low, ih, Option.map_some]
    | pair first second =>
      rw [List.cons_append, List.singleton_append, text?, if_pos first, if_pos second, ih,
        Option.map_some]

/-- A string with its quotes. It names no text if its pieces make none. -/
inductive WritesString : Option String → Text → Prop
  | text {t : String} {ps : List Piece} {inner : Text} (pieces : WritesPieces ps inner)
      (joined : Joins ps t.toList) : WritesString (some t) (some '"' :: (inner ++ [some '"']))
  | torn {ps : List Piece} {inner : Text} (pieces : WritesPieces ps inner)
      (apart : ∀ cs, ¬ Joins ps cs) : WritesString none (some '"' :: (inner ++ [some '"']))

theorem string_complete {s : Option String} {text : Text} (h : WritesString s text) :
    ∃ inner, text = some '"' :: inner ∧ ∀ rest, string? (inner ++ rest) = some (s, rest) := by
  cases h with
  | @text t ps inner pieces joined =>
    refine ⟨_, rfl, fun rest => ?_⟩
    rw [List.append_assoc, List.singleton_append, string?, pieces_iff.mpr ⟨inner, pieces, rfl⟩, Option.map_some]
    dsimp only
    rw [joins_iff.mpr joined, Option.map_some, String.ofList_toList]
  | @torn ps inner pieces apart =>
    refine ⟨_, rfl, fun rest => ?_⟩
    have none : text? ps = none := Option.eq_none_iff_forall_ne_some.mpr fun cs joined =>
      apart cs (joins_iff.mp joined)
    rw [List.append_assoc, List.singleton_append, string?, pieces_iff.mpr ⟨inner, pieces, rfl⟩, Option.map_some]
    dsimp only
    rw [none, Option.map_none]

theorem string_sound {s : Option String} {text rest : Text} (h : string? text = some (s, rest)) :
    ∃ inner, WritesString s (some '"' :: inner) ∧ text = inner ++ rest := by
  obtain ⟨⟨ps, rest⟩, read, same⟩ := Option.map_eq_some_iff.mp h
  cases same
  obtain ⟨inner, written, rfl⟩ := pieces_sound read
  refine ⟨inner ++ [some '"'], ?_, by simp⟩
  rcases joined : text? ps with _ | cs
  · exact .torn written fun cs other => by simp [joins_iff.mpr other] at joined
  · exact .text written (by rw [String.toList_ofList]; exact joins_iff.mp joined)

structure Digits (ds : List Char) : Prop where
  nonempty : ds ≠ []
  digits : ∀ c ∈ ds, isDigit (some c) = true

inductive WritesFraction : Option (List Char) → List Char → Prop
  | absent : WritesFraction none []
  | digits {ds : List Char} (run : Digits ds) : WritesFraction (some ds) ('.' :: ds)

inductive WritesPower : Bool × List Char → List Char → Prop
  | plain {ds : List Char} (run : Digits ds) : WritesPower (false, ds) ds
  | plus {ds : List Char} (run : Digits ds) : WritesPower (false, ds) ('+' :: ds)
  | minus {ds : List Char} (run : Digits ds) : WritesPower (true, ds) ('-' :: ds)

inductive WritesExponent : Option (Bool × List Char) → List Char → Prop
  | absent : WritesExponent none []
  | power {mark : Char} {e : Bool × List Char} {text : List Char} (letter : mark = 'e' ∨ mark = 'E')
      (written : WritesPower e text) : WritesExponent (some e) (mark :: text)

/-- No further digits follow a zero. -/
structure WritesWhole (ds : List Char) : Prop where
  run : Digits ds
  proper : ∀ d rest, ds ≠ '0' :: d :: rest

structure WritesMagnitude (n : Numeral) (text : List Char) : Prop where
  whole : WritesWhole n.whole
  parts : ∃ point power, WritesFraction n.fraction point ∧ WritesExponent n.exponent power ∧
    text = n.whole ++ (point ++ power)

inductive WritesNumeral : Numeral → List Char → Prop
  | positive {n : Numeral} {text : List Char} (sign : n.negative = false)
      (written : WritesMagnitude n text) : WritesNumeral n text
  | negative {n : Numeral} {text : List Char} (sign : n.negative = true)
      (written : WritesMagnitude n text) : WritesNumeral n ('-' :: text)

def Stops (rest : Text) : Prop :=
  ∀ c ∈ rest.head?, isDigit c = false ∧ c ≠ some '.' ∧ c ≠ some 'e' ∧ c ≠ some 'E'

def StopsDigits (rest : Text) : Prop := ∀ c ∈ rest.head?, isDigit c = false

theorem digit_unlike {c : Char} (h : isDigit (some c) = true) :
    c ≠ '-' ∧ c ≠ '+' ∧ c ≠ '.' ∧ c ≠ 'e' ∧ c ≠ 'E' := by
  refine ⟨?_, ?_, ?_, ?_, ?_⟩ <;> rintro rfl <;> exact absurd h (by decide)

theorem digits_complete {ds : List Char} (run : Digits ds) {rest : Text} (stop : StopsDigits rest) :
    someDigits? (ds.map some ++ rest) = some (ds, rest) := by
  have all : ∀ c ∈ ds.map some, isDigit c = true := by
    intro c member
    obtain ⟨d, held, rfl⟩ := List.mem_map.mp member
    exact run.digits d held
  have taken : rest.takeWhile isDigit = [] ∧ rest.dropWhile isDigit = rest := by
    cases rest with
    | nil => exact ⟨rfl, rfl⟩
    | cons c rest => simp [stop c rfl]
  have read : digits (ds.map some ++ rest) = (ds, rest) := by
    rw [digits, List.takeWhile_append_of_pos all, List.dropWhile_append_of_pos all, taken.1, taken.2]
    simp
  unfold someDigits?
  rw [read]
  split
  · rename_i empty
    cases empty
    exact absurd rfl run.nonempty
  · rfl

theorem digits_sound {text rest : Text} {ds : List Char} (h : someDigits? text = some (ds, rest)) :
    Digits ds ∧ text = ds.map some ++ rest := by
  unfold someDigits? digits at h
  split at h
  · cases h
  · rename_i nonempty
    cases h
    have run : ∀ c ∈ text.takeWhile isDigit, isDigit c = true := fun c => List.mem_takeWhile_imp
    have back (front : Text) (all : ∀ c ∈ front, isDigit c = true) :
        (front.filterMap id).map some = front := by
      induction front with
      | nil => rfl
      | cons c front ih =>
        obtain ⟨first, others⟩ := List.forall_mem_cons.mp all
        cases c with
        | none => cases first
        | some c =>
          show some c :: (front.filterMap id).map some = _
          rw [ih others]
    refine ⟨⟨fun empty => nonempty _ (by rw [empty]), fun c member => ?_⟩, ?_⟩
    · have held := List.mem_map_of_mem (f := some) member
      rw [back _ run] at held
      exact run _ held
    · rw [back _ run, List.takeWhile_append_dropWhile]

theorem whole_complete {ds : List Char} (written : WritesWhole ds) {rest : Text}
    (stop : StopsDigits rest) : whole? (ds.map some ++ rest) = some (ds, rest) := by
  unfold whole?
  rw [digits_complete written.run stop]
  split
  · rename_i same
    cases same
    exact absurd rfl (written.proper _ _)
  · rfl

theorem whole_sound {text rest : Text} {ds : List Char} (h : whole? text = some (ds, rest)) :
    WritesWhole ds ∧ text = ds.map some ++ rest := by
  unfold whole? at h
  split at h
  · cases h
  · rename_i proper
    obtain ⟨run, parts⟩ := digits_sound h
    refine ⟨⟨run, ?_⟩, parts⟩
    rintro d more rfl
    exact proper _ _ _ h

theorem fraction_complete {f : Option (List Char)} {point : List Char}
    (written : WritesFraction f point) {rest : Text} (stop : StopsDigits rest)
    (dot : ∀ c ∈ rest.head?, c ≠ some '.') : fraction? (point.map some ++ rest) = some (f, rest) := by
  cases written with
  | absent =>
    show fraction? rest = _
    unfold fraction?
    split
    · exact absurd rfl (dot _ rfl)
    · rfl
  | @digits ds run =>
    show (someDigits? (ds.map some ++ rest)).map _ = _
    rw [digits_complete run stop]
    rfl

theorem fraction_sound {text rest : Text} {f : Option (List Char)}
    (h : fraction? text = some (f, rest)) :
    ∃ point, WritesFraction f point ∧ text = point.map some ++ rest := by
  unfold fraction? at h
  split at h
  · obtain ⟨⟨ds, _⟩, read, same⟩ := Option.map_eq_some_iff.mp h
    cases same
    obtain ⟨run, rfl⟩ := digits_sound read
    exact ⟨_, .digits run, rfl⟩
  · cases h
    exact ⟨[], .absent, rfl⟩

theorem power_complete {e : Bool × List Char} {text : List Char} (written : WritesPower e text)
    {rest : Text} (stop : StopsDigits rest) :
    exponentDigits? (text.map some ++ rest) = some (e, rest) := by
  cases written with
  | plus run | minus run =>
    show (someDigits? (List.map some _ ++ rest)).map _ = _
    rw [digits_complete run stop]
    rfl
  | plain run =>
    rcases text with _ | ⟨d, ds⟩
    · exact absurd rfl run.nonempty
    obtain ⟨minus, plus, -⟩ := digit_unlike (run.digits d List.mem_cons_self)
    have read : exponentDigits? ((d :: ds).map some ++ rest) =
        (someDigits? ((d :: ds).map some ++ rest)).map fun r => ((false, r.1), r.2) := by
      rw [List.map_cons, List.cons_append, exponentDigits?]
      · simpa using minus
      · simpa using plus
    rw [read, digits_complete run stop]
    rfl

theorem power_sound {text rest : Text} {e : Bool × List Char}
    (h : exponentDigits? text = some (e, rest)) :
    ∃ power, WritesPower e power ∧ text = power.map some ++ rest := by
  unfold exponentDigits? at h
  split at h <;> obtain ⟨⟨ds, _⟩, read, same⟩ := Option.map_eq_some_iff.mp h <;> cases same <;>
    obtain ⟨run, rfl⟩ := digits_sound read
  · exact ⟨_, .minus run, rfl⟩
  · exact ⟨_, .plus run, rfl⟩
  · exact ⟨_, .plain run, rfl⟩

theorem exponent_complete {e : Option (Bool × List Char)} {power : List Char}
    (written : WritesExponent e power) {rest : Text} (stop : Stops rest) :
    exponent? (power.map some ++ rest) = some (e, rest) := by
  cases written with
  | absent =>
    show exponent? rest = _
    unfold exponent?
    split
    · exact absurd rfl (stop _ rfl).2.2.1
    · exact absurd rfl (stop _ rfl).2.2.2
    · rfl
  | @power mark e text letter written =>
    have read : exponent? ((mark :: text).map some ++ rest) =
        (exponentDigits? (text.map some ++ rest)).map fun r => (some r.1, r.2) := by
      rcases letter with rfl | rfl <;> rfl
    rw [read, power_complete written fun c first => (stop c first).1]
    rfl

theorem exponent_sound {text rest : Text} {e : Option (Bool × List Char)}
    (h : exponent? text = some (e, rest)) :
    ∃ power, WritesExponent e power ∧ text = power.map some ++ rest := by
  unfold exponent? at h
  split at h
  · obtain ⟨⟨e, _⟩, read, same⟩ := Option.map_eq_some_iff.mp h
    cases same
    obtain ⟨power, written, rfl⟩ := power_sound read
    exact ⟨_, .power (.inl rfl) written, rfl⟩
  · obtain ⟨⟨e, _⟩, read, same⟩ := Option.map_eq_some_iff.mp h
    cases same
    obtain ⟨power, written, rfl⟩ := power_sound read
    exact ⟨_, .power (.inr rfl) written, rfl⟩
  · cases h
    exact ⟨[], .absent, rfl⟩

theorem exponent_stops {e : Option (Bool × List Char)} {power : List Char}
    (written : WritesExponent e power) {rest : Text} (stop : Stops rest) :
    StopsDigits (power.map some ++ rest) ∧ ∀ c ∈ (power.map some ++ rest).head?, c ≠ some '.' := by
  cases written with
  | absent => exact ⟨fun c first => (stop c first).1, fun c first => (stop c first).2.1⟩
  | power letter _ => rcases letter with rfl | rfl <;> constructor <;> rintro _ ⟨⟩ <;> decide

theorem fraction_stops {f : Option (List Char)} {point : List Char}
    (written : WritesFraction f point) {rest : Text} (stop : StopsDigits rest) :
    StopsDigits (point.map some ++ rest) := by
  cases written with
  | absent => exact stop
  | digits _ =>
    rintro _ ⟨⟩
    rfl

theorem magnitude_complete {n : Numeral} {text : List Char} (written : WritesMagnitude n text)
    {rest : Text} (stop : Stops rest) :
    magnitude? n.negative (text.map some ++ rest) = some (n, rest) := by
  obtain ⟨whole, point, power, fraction, exponent, rfl⟩ := written
  obtain ⟨undotted, dot⟩ := exponent_stops exponent stop
  rw [List.map_append, List.map_append, List.append_assoc, List.append_assoc, magnitude?,
    whole_complete whole (fraction_stops fraction undotted)]
  simp only [Option.bind_eq_bind, Option.bind_some]
  rw [fraction_complete fraction undotted dot, Option.bind_some, exponent_complete exponent stop]
  rfl

theorem magnitude_sound {negative : Bool} {text rest : Text} {n : Numeral}
    (h : magnitude? negative text = some (n, rest)) :
    n.negative = negative ∧ ∃ inner, WritesMagnitude n inner ∧ text = inner.map some ++ rest := by
  simp only [magnitude?, Option.bind_eq_bind, Option.bind_eq_some_iff] at h
  obtain ⟨⟨_, _⟩, whole, ⟨_, _⟩, fraction, ⟨_, _⟩, exponent, same⟩ := h
  cases same
  obtain ⟨run, rfl⟩ := whole_sound whole
  obtain ⟨point, pointed, rfl⟩ := fraction_sound fraction
  obtain ⟨power, powered, rfl⟩ := exponent_sound exponent
  exact ⟨rfl, _, ⟨run, point, power, pointed, powered, rfl⟩, by simp⟩

theorem magnitude_opens {n : Numeral} {text : List Char} (written : WritesMagnitude n text) :
    ∃ d more, text = d :: more ∧ isDigit (some d) = true := by
  obtain ⟨⟨run, -⟩, point, power, -, -, rfl⟩ := written
  obtain ⟨d, more, digits⟩ := List.exists_cons_of_ne_nil run.nonempty
  rw [digits]
  exact ⟨d, _, rfl, run.digits d (by rw [digits]; exact List.mem_cons_self)⟩

theorem numeral_complete {n : Numeral} {text : List Char} (written : WritesNumeral n text)
    {rest : Text} (stop : Stops rest) : numeral? (text.map some ++ rest) = some (n, rest) := by
  cases written with
  | positive sign written =>
    have read := magnitude_complete written stop
    obtain ⟨d, more, rfl, digit⟩ := magnitude_opens written
    rw [sign] at read
    rw [List.map_cons, List.cons_append, numeral?]
    · exact read
    · simpa using (digit_unlike digit).1
  | negative sign written =>
    have read := magnitude_complete written stop
    rw [sign] at read
    exact read

theorem numeral_sound {text rest : Text} {n : Numeral} (h : numeral? text = some (n, rest)) :
    ∃ inner, WritesNumeral n inner ∧ text = inner.map some ++ rest := by
  unfold numeral? at h
  split at h
  · obtain ⟨sign, inner, written, rfl⟩ := magnitude_sound h
    exact ⟨_, .negative sign written, rfl⟩
  · obtain ⟨sign, inner, written, rfl⟩ := magnitude_sound h
    exact ⟨_, .positive sign written, rfl⟩

theorem printed_proper (n : ℕ) (d : Char) (rest : List Char) :
    Nat.toDigits 10 n ≠ '0' :: d :: rest := by
  induction n using Nat.strong_induction_on generalizing d rest with
  | h n ih =>
    rw [Nat.toDigits_eq_if (by decide)]
    split
    · simp
    · rename_i large
      intro same
      rcases front : Nat.toDigits 10 (n / 10) with _ | ⟨c, _ | ⟨c', tail⟩⟩
      · exact Nat.toDigits_ne_nil front
      · -- No more than a zero comes before the last digit.
        have value := Nat.ofDigitChars_ten_toDigits (n := n / 10)
        obtain rfl : c = '0' := by
          rw [front] at same
          exact (List.cons.inj same).1
        rw [front, Nat.ofDigitChars_cons, Nat.ofDigitChars, List.foldl_nil] at value
        simp at value
        omega
      · obtain rfl : c = '0' := by
          rw [front] at same
          exact (List.cons.inj same).1
        exact ih (n / 10) (by omega) c' tail front

theorem printed_digits (n : ℕ) : Digits (Nat.toDigits 10 n) := by
  refine ⟨Nat.toDigits_ne_nil, fun c member => ?_⟩
  have digit := Nat.isDigit_of_mem_toDigits (by decide) (by decide) member
  simpa [Char.isDigit, isDigit, Char.le_def] using digit

theorem printed_numeral (n : ℕ) :
    WritesNumeral ⟨false, Nat.toDigits 10 n, none, none⟩ (Nat.toDigits 10 n) :=
  .positive rfl ⟨⟨printed_digits n, printed_proper n⟩, [], [], .absent, .absent, by simp⟩

end WorkloadIdentity.Tree
