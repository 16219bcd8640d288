import WorkloadIdentity.Proofs.Time.Days

/-!
# How timestamps are spelled

A stamp is a date, a time of day, a fraction and a zone, each as it is written. The texts that are
read as moments are the spellings of the stamps that fit, each to the moment that its stamp denotes:
its local time less what the zone is ahead of UTC. A sixtieth second is read only at the end of a
month in UTC, as the last nanosecond of it.
-/

set_option autoImplicit false

namespace WorkloadIdentity.Rfc3339

open Calendar

inductive Zone
  | utc (letter : Char)
  | shifted (east : Bool) (hours minutes : Nat)

namespace Zone

def text : Zone → List Char
  | utc letter => [letter]
  | shifted east hours minutes =>
    (if east then '+' else '-') :: (padded 2 hours ++ ':' :: padded 2 minutes)

/-- By how many minutes local time is ahead of UTC. -/
def ahead : Zone → Int
  | utc _ => 0
  | shifted true hours minutes => hours * 60 + minutes
  | shifted false hours minutes => -(hours * 60 + minutes)

def Fits : Zone → Prop
  | utc letter => letter = 'Z' ∨ letter = 'z'
  | shifted _ hours minutes => hours ≤ 23 ∧ minutes ≤ 59

end Zone

abbrev Fraction := Option (List Char)

namespace Fraction

def text : Fraction → List Char
  | none => []
  | some ds => '.' :: ds

def Fits (fraction : Fraction) : Prop :=
  ∀ ds ∈ fraction, ds ≠ [] ∧ ∀ c ∈ ds, c.isDigit = true

end Fraction

/-- The whole nanoseconds in a fraction of a second with these digits. -/
def nanoseconds (ds : List Char) : Nat := Nat.ofDigitChars 10 ds 0 * 10 ^ 9 / 10 ^ ds.length

structure Stamp where
  year : Nat
  month : Nat
  day : Nat
  separator : Char
  hour : Nat
  minute : Nat
  second : Nat
  fraction : Fraction
  zone : Zone

namespace Stamp

def date (s : Stamp) : Date := ⟨s.year, s.month, s.day⟩

def nanosecond (s : Stamp) : Nat := s.fraction.elim 0 nanoseconds

def text (s : Stamp) : List Char :=
  padded 4 s.year ++ '-' :: (padded 2 s.month ++ '-' :: (padded 2 s.day ++ s.separator ::
    (padded 2 s.hour ++ ':' :: (padded 2 s.minute ++ ':' :: (padded 2 s.second ++
      (s.fraction.text ++ s.zone.text))))))

def seconds (s : Stamp) : Int :=
  s.date.toDays * 86400 + (s.hour * 3600 + s.minute * 60 + s.second : Nat) - s.zone.ahead * 60

def instant (s : Stamp) : Nanoseconds := s.seconds * Calendar.second + s.nanosecond

structure Fits (s : Stamp) : Prop where
  year : s.year ≤ 9999
  date : s.date.isValid = true
  separator : s.separator.toNat < 0x80
  hour : s.hour ≤ 23
  minute : s.minute ≤ 59
  fraction : s.fraction.Fits
  zone : s.zone.Fits

/-- A second that is added to the end of a month in UTC. -/
def Leap (s : Stamp) : Prop :=
  s.second = 60 ∧ ∃ year month, 1 ≤ month ∧ month ≤ 12 ∧
    s.seconds = (Date.first year month).toDays * 86400

/-- The stamp is written so. -/
structure Spells (s : Stamp) (text : String) : Prop where
  fits : s.Fits
  text : text.toList = s.text

end Stamp

theorem digits_iff {n value result : Nat} {cs rest : List Char} :
    digits? n value cs = some (result, rest) ↔ ∃ ds, ds.length = n ∧
      (∀ c ∈ ds, c.isDigit = true) ∧ cs = ds ++ rest ∧ result = Nat.ofDigitChars 10 ds value := by
  induction n generalizing value cs with
  | zero =>
    constructor
    · rintro ⟨⟩
      exact ⟨[], rfl, nofun, rfl, rfl⟩
    · rintro ⟨ds, none, -, rfl, rfl⟩
      rw [List.length_eq_zero_iff] at none
      subst none
      rfl
  | succ n ih =>
    rcases cs with _ | ⟨c, cs⟩
    · constructor
      · nofun
      · rintro ⟨_ | ⟨d, ds⟩, length, -, split, -⟩
        · cases length
        · cases split
    · show (if c.isDigit then digits? n (value * 10 + (c.toNat - '0'.toNat)) cs else none) = _ ↔ _
      rw [Option.ite_none_right_eq_some, ih]
      constructor
      · rintro ⟨digit, ds, rfl, digits, rfl, rfl⟩
        refine ⟨c :: ds, rfl, List.forall_mem_cons.mpr ⟨digit, digits⟩, rfl, ?_⟩
        rw [Nat.ofDigitChars_cons, Nat.mul_comm]
      · rintro ⟨_ | ⟨d, ds⟩, length, digits, split, rfl⟩
        · cases length
        · cases split
          obtain ⟨digit, digits⟩ := List.forall_mem_cons.mp digits
          refine ⟨digit, ds, Nat.succ.inj length, digits, rfl, ?_⟩
          rw [Nat.ofDigitChars_cons, Nat.mul_comm]

theorem digit_injective {c d : Char} (digit : c.isDigit = true) (digit' : d.isDigit = true)
    (same : c.toNat - '0'.toNat = d.toNat - '0'.toNat) : c = d := by
  have low := (Char.isDigit_iff_toNat.mp digit).1
  have low' := (Char.isDigit_iff_toNat.mp digit').1
  exact Char.toNat_inj.mp (by omega)

theorem digits_injective {ds es : List Char} (length : ds.length = es.length)
    (digits : ∀ c ∈ ds, c.isDigit = true) (digits' : ∀ c ∈ es, c.isDigit = true)
    (same : Nat.ofDigitChars 10 ds 0 = Nat.ofDigitChars 10 es 0) : ds = es := by
  induction ds generalizing es with
  | nil => exact (List.length_eq_zero_iff.mp length.symm).symm
  | cons d ds ih =>
    rcases es with _ | ⟨e, es⟩
    · cases length
    obtain ⟨digit, digits⟩ := List.forall_mem_cons.mp digits
    obtain ⟨digit', digits'⟩ := List.forall_mem_cons.mp digits'
    have length : ds.length = es.length := Nat.succ.inj length
    have later := ofDigitChars_lt digits 0
    have later' := ofDigitChars_lt digits' 0
    rw [Nat.zero_add, Nat.one_mul] at later later'
    rw [length] at later
    have split : ∀ (c : Char) (cs : List Char), Nat.ofDigitChars 10 (c :: cs) 0 =
        10 ^ cs.length * (c.toNat - '0'.toNat) + Nat.ofDigitChars 10 cs 0 := by
      intro c cs
      rw [Nat.ofDigitChars_cons, Nat.ofDigitChars_eq_ofDigitChars_zero, Nat.mul_zero, Nat.zero_add]
    rw [split, split, length] at same
    have positive : 0 < 10 ^ es.length := Nat.pow_pos (by decide)
    have heads := congrArg (· / 10 ^ es.length) same
    simp only [Nat.mul_add_div positive, Nat.div_eq_of_lt later, Nat.div_eq_of_lt later',
      Nat.add_zero] at heads
    rw [heads, Nat.add_left_cancel_iff] at same
    rw [ih length digits digits' same, digit_injective digit digit' heads]

theorem padded_value (width n : Nat) : Nat.ofDigitChars 10 (padded width n) 0 = n := by
  rw [padded, Nat.ofDigitChars_append, Nat.ofDigitChars_replicate_zero, Nat.mul_zero,
    Nat.ofDigitChars_ten_toDigits]

theorem number_iff {n result : Nat} {cs rest : List Char} (positive : 0 < n) :
    number? n cs = some (result, rest) ↔ result < 10 ^ n ∧ cs = padded n result ++ rest := by
  unfold number?
  rw [digits_iff]
  constructor
  · rintro ⟨ds, length, digits, rfl, rfl⟩
    have small := ofDigitChars_lt digits 0
    rw [Nat.zero_add, Nat.one_mul, length] at small
    have same : ds = padded n (Nat.ofDigitChars 10 ds 0) :=
      digits_injective (length.trans (padded_length_eq positive small).symm) digits
        (padded_digits _ _) (padded_value _ _).symm
    exact ⟨small, by rw [← same]⟩
  · rintro ⟨small, rfl⟩
    exact ⟨_, padded_length_eq positive small, padded_digits _ _, rfl, (padded_value _ _).symm⟩

theorem nanoseconds_short {ds : List Char} (short : ds.length ≤ 9) :
    nanoseconds ds = Nat.ofDigitChars 10 ds 0 * 10 ^ (9 - ds.length) := by
  have scale : 10 ^ 9 = 10 ^ (9 - ds.length) * 10 ^ ds.length := by
    rw [← Nat.pow_add, Nat.sub_add_cancel short]
  rw [nanoseconds, scale, ← Nat.mul_assoc, Nat.mul_div_cancel _ (Nat.pow_pos (by decide))]

/-- Up to nine digits nothing is lost. -/
theorem nanoseconds_exact {ds : List Char} (short : ds.length ≤ 9) :
    nanoseconds ds * 10 ^ ds.length = Nat.ofDigitChars 10 ds 0 * 10 ^ 9 := by
  rw [nanoseconds_short short, Nat.mul_assoc, ← Nat.pow_add, Nat.sub_add_cancel short]

/-- The first nine digits decide, since those after them make no whole nanosecond. -/
theorem nanoseconds_long {kept rest : List Char} (nine : kept.length = 9)
    (digits : ∀ c ∈ rest, c.isDigit = true) :
    nanoseconds (kept ++ rest) = Nat.ofDigitChars 10 kept 0 := by
  have small := ofDigitChars_lt digits 0
  rw [Nat.zero_add, Nat.one_mul] at small
  have positive : 0 < 10 ^ rest.length := Nat.pow_pos (by decide)
  rw [nanoseconds, List.length_append, nine, Nat.add_comm 9, Nat.pow_add,
    Nat.mul_div_mul_right _ _ (Nat.pow_pos (by decide)), Nat.ofDigitChars_append,
    Nat.ofDigitChars_eq_ofDigitChars_zero, Nat.mul_add_div positive, Nat.div_eq_of_lt small,
    Nat.add_zero]

theorem fraction_value {ds : List Char} (digits : ∀ c ∈ ds, c.isDigit = true) :
    fractionValue ds = nanoseconds ds := by
  show Nat.ofDigitChars 10 (ds.take 9) 0 * 10 ^ (9 - (ds.take 9).length) = _
  by_cases short : ds.length ≤ 9
  · rw [nanoseconds_short short, List.take_of_length_le short]
  · have nine : (ds.take 9).length = 9 := List.length_take_of_le (by omega)
    have rest : ∀ c ∈ ds.drop 9, c.isDigit = true := fun c hc => digits c (List.mem_of_mem_drop hc)
    have value := nanoseconds_long nine rest
    rw [List.take_append_drop] at value
    rw [value, nine, Nat.sub_self, Nat.pow_zero, Nat.mul_one]

/-- A text that goes on with neither a digit nor a point. -/
def Apart (rest : List Char) : Prop := ∀ c ∈ rest.head?, c.isDigit = false ∧ c ≠ '.'

theorem apart_digits {rest : List Char} (apart : Apart rest) (ds : List Char)
    (digits : ∀ c ∈ ds, c.isDigit = true) :
    (ds ++ rest).takeWhile Char.isDigit = ds ∧ (ds ++ rest).dropWhile Char.isDigit = rest := by
  rw [List.takeWhile_append_of_pos digits, List.dropWhile_append_of_pos digits]
  rcases rest with _ | ⟨c, rest⟩
  · exact ⟨List.append_nil ds, rfl⟩
  · have other := (apart c rfl).1
    simp [other]

theorem fraction_read {fraction : Fraction} {rest : List Char} (fits : fraction.Fits)
    (apart : Apart rest) :
    fraction? (fraction.text ++ rest) = some (fraction.elim 0 nanoseconds, rest) := by
  rcases fraction with _ | ds
  · rcases rest with _ | ⟨c, rest⟩
    · rfl
    · have other := (apart c rfl).2
      unfold fraction?
      split
      · rename_i found
        cases found
        exact absurd rfl other
      · rfl
  · obtain ⟨nonempty, digits⟩ := fits ds rfl
    obtain ⟨taken, dropped⟩ := apart_digits apart ds digits
    show (if ((ds ++ rest).takeWhile Char.isDigit).isEmpty then none else
      some (fractionValue ((ds ++ rest).takeWhile Char.isDigit),
        (ds ++ rest).dropWhile Char.isDigit)) = _
    rw [taken, dropped, if_neg (by simpa using nonempty), fraction_value digits]
    rfl

theorem fraction_spelled {cs rest : List Char} {nanosecond : Nat}
    (h : fraction? cs = some (nanosecond, rest)) : ∃ fraction : Fraction, fraction.Fits ∧
      cs = fraction.text ++ rest ∧ nanosecond = fraction.elim 0 nanoseconds := by
  unfold fraction? at h
  split at h
  · rename_i after
    obtain ⟨nonempty, h⟩ := Option.ite_none_left_eq_some.mp h
    cases h
    have digits : ∀ c ∈ after.takeWhile Char.isDigit, c.isDigit = true :=
      List.all_eq_true.mp List.all_takeWhile
    refine ⟨some (after.takeWhile Char.isDigit), ?_, ?_, fraction_value digits⟩
    · rintro _ ⟨⟩
      exact ⟨by simpa using nonempty, digits⟩
    · show _ = '.' :: (after.takeWhile Char.isDigit ++ after.dropWhile Char.isDigit)
      rw [List.takeWhile_append_dropWhile]
  · cases h
    exact ⟨none, nofun, rfl, rfl⟩

theorem expect_iff {c : Char} {cs rest : List Char} :
    expect? c cs = some rest ↔ cs = c :: rest := by
  rcases cs with _ | ⟨d, cs⟩
  · simp [expect?]
  · show (if c = d then some cs else none) = some rest ↔ _
    grind

theorem separator_iff {cs rest : List Char} :
    separator? cs = some rest ↔ ∃ c, c.toNat < 0x80 ∧ cs = c :: rest := by
  rcases cs with _ | ⟨d, cs⟩
  · simp [separator?]
  · show (if d.toNat < 0x80 then some cs else none) = some rest ↔ _
    grind

theorem zone_apart {zone : Zone} (fits : zone.Fits) : Apart zone.text := by
  rcases zone with letter | ⟨east, hours, minutes⟩
  · rintro _ ⟨⟩
    obtain rfl | rfl := fits <;> decide
  · rintro _ ⟨⟩
    cases east <;> decide

theorem offset_spelled {cs : List Char} {offset : Int} (h : offset? cs = some offset) :
    ∃ zone : Zone, zone.Fits ∧ cs = zone.text ∧ offset = zone.ahead := by
  unfold offset? at h
  split at h
  · cases h
    exact ⟨.utc 'Z', .inl rfl, rfl, rfl⟩
  · cases h
    exact ⟨.utc 'z', .inr rfl, rfl, rfl⟩
  · rename_i sign rest _ _
    obtain ⟨⟨hours, afterHours⟩, hoursRead, later⟩ := Option.bind_eq_some_iff.mp h
    obtain ⟨afterColon, colon, later⟩ := Option.bind_eq_some_iff.mp later
    obtain ⟨⟨minutes, after⟩, minutesRead, ends⟩ := Option.bind_eq_some_iff.mp later
    clear h later
    obtain ⟨-, rfl⟩ := (number_iff (by decide)).mp hoursRead
    obtain rfl := expect_iff.mp colon
    obtain ⟨-, rfl⟩ := (number_iff (by decide)).mp minutesRead
    obtain ⟨inside, signed⟩ := Option.ite_none_left_eq_some.mp ends
    simp only [Bool.or_eq_true, Bool.not_eq_true', decide_eq_true_eq, not_or, Nat.not_lt,
      Bool.not_eq_false, List.isEmpty_iff] at inside
    obtain ⟨⟨rfl, hour⟩, minute⟩ := inside
    split at signed
    · rename_i plus
      cases signed
      refine ⟨.shifted true hours minutes, ⟨hour, minute⟩, ?_, rfl⟩
      rw [plus, List.append_nil]
      rfl
    · obtain ⟨minus, negative⟩ := Option.ite_none_right_eq_some.mp signed
      cases negative
      refine ⟨.shifted false hours minutes, ⟨hour, minute⟩, ?_, rfl⟩
      rw [minus, List.append_nil]
      rfl
  · cases h

theorem offset_read {zone : Zone} (fits : zone.Fits) : offset? zone.text = some zone.ahead := by
  rcases zone with letter | ⟨east, hours, minutes⟩
  · obtain rfl | rfl := fits <;> rfl
  · obtain ⟨hour, minute⟩ := fits
    have hoursRead : number? 2 (padded 2 hours ++ ':' :: padded 2 minutes) =
        some (hours, ':' :: padded 2 minutes) := (number_iff (by decide)).mpr ⟨by omega, rfl⟩
    have minutesRead : number? 2 (padded 2 minutes) = some (minutes, []) :=
      (number_iff (by decide)).mpr ⟨by omega, (List.append_nil _).symm⟩
    have colon : expect? ':' (':' :: padded 2 minutes) = some (padded 2 minutes) := rfl
    cases east <;>
      simp [offset?, Zone.text, hoursRead, colon, minutesRead, Zone.ahead, hour, minute]

/-- As many digits as a number has place for, and nothing yet of what the numbers mean. -/
structure Stamp.Written (s : Stamp) : Prop where
  year : s.year < 10 ^ 4
  month : s.month < 10 ^ 2
  day : s.day < 10 ^ 2
  separator : s.separator.toNat < 0x80
  hour : s.hour < 10 ^ 2
  minute : s.minute < 10 ^ 2
  second : s.second < 10 ^ 2
  fraction : s.fraction.Fits
  zone : s.zone.Fits

def Stamp.fields (s : Stamp) : Fields :=
  ⟨s.date, s.hour, s.minute, s.second, s.nanosecond, s.zone.ahead⟩

theorem fields_iff {cs : List Char} {f : Fields} :
    fields? cs = some f ↔ ∃ s : Stamp, s.Written ∧ cs = s.text ∧ f = s.fields := by
  have four : 0 < 4 := by decide
  have two : 0 < 2 := by decide
  simp only [fields?, Option.bind_eq_bind, Option.bind_eq_some_iff, Prod.exists, number_iff four,
    number_iff two, expect_iff, separator_iff, Option.pure_def, Option.some_inj]
  constructor
  · rintro ⟨year, _, ⟨yearFits, rfl⟩, _, rfl, month, _, ⟨monthFits, rfl⟩, _, rfl, day, _,
      ⟨dayFits, rfl⟩, _, ⟨separator, separatorFits, rfl⟩, hour, _, ⟨hourFits, rfl⟩, _, rfl,
      minute, _, ⟨minuteFits, rfl⟩, _, rfl, second, _, ⟨secondFits, rfl⟩, nanosecond, _,
      fractionRead, offset, offsetRead, rfl⟩
    obtain ⟨zone, zoneFits, rfl, rfl⟩ := offset_spelled offsetRead
    obtain ⟨fraction, fractionFits, rfl, rfl⟩ := fraction_spelled fractionRead
    exact ⟨⟨year, month, day, separator, hour, minute, second, fraction, zone⟩,
      ⟨yearFits, monthFits, dayFits, separatorFits, hourFits, minuteFits, secondFits,
        fractionFits, zoneFits⟩, rfl, rfl⟩
  · rintro ⟨s, written, rfl, rfl⟩
    exact ⟨s.year, _, ⟨written.year, rfl⟩, _, rfl, s.month, _, ⟨written.month, rfl⟩, _, rfl,
      s.day, _, ⟨written.day, rfl⟩, _, ⟨s.separator, written.separator, rfl⟩, s.hour, _,
      ⟨written.hour, rfl⟩, _, rfl, s.minute, _, ⟨written.minute, rfl⟩, _, rfl, s.second, _,
      ⟨written.second, rfl⟩, _, _, fraction_read written.fraction (zone_apart written.zone), _,
      offset_read written.zone, rfl⟩

theorem moment_eq (s : Stamp) : s.fields.moment = s.instant := by
  simp only [Fields.moment, Stamp.fields, Stamp.instant, Stamp.seconds, dayLength, Calendar.second]
  unfold Nanoseconds at *
  omega

theorem endsMonth_iff (whole : Int) :
    endsMonth (whole * Calendar.second - 1) = true ↔ ∃ year month, 1 ≤ month ∧ month ≤ 12 ∧
      whole = (Date.first year month).toDays * 86400 := by
  have clock : ((whole * Calendar.second - 1) % dayLength / Calendar.second).toNat = 86399 ↔
      whole % 86400 = 0 := by
    unfold dayLength Calendar.second Nanoseconds
    omega
  have day : whole % 86400 = 0 → (whole * Calendar.second - 1) / dayLength = whole / 86400 - 1 := by
    unfold dayLength Calendar.second Nanoseconds
    omega
  have split : endsMonth (whole * Calendar.second - 1) = true ↔ whole % 86400 = 0 ∧
      (Date.ofDays (whole / 86400 - 1)).day = monthLength (Date.ofDays (whole / 86400 - 1)).year
        (Date.ofDays (whole / 86400 - 1)).month := by
    unfold endsMonth
    simp only [Calendar.split, Bool.and_eq_true, beq_iff_eq, clock]
    constructor
    · rintro ⟨midnight, last⟩
      rw [day midnight] at last
      exact ⟨midnight, last⟩
    · rintro ⟨midnight, last⟩
      rw [day midnight]
      exact ⟨midnight, last⟩
  rw [split, day_before_first, Int.sub_add_cancel]
  constructor
  · rintro ⟨midnight, year, month, one, twelve, same⟩
    exact ⟨year, month, one, twelve, by omega⟩
  · rintro ⟨year, month, one, twelve, rfl⟩
    exact ⟨by omega, year, month, one, twelve, by omega⟩

theorem leap_moment {s : Stamp} (sixty : s.second = 60) :
    Fields.moment { s.fields with second := 59, nanosecond := 999999999 } =
      s.seconds * Calendar.second - 1 := by
  simp only [Fields.moment, Stamp.fields, Stamp.seconds, dayLength, Calendar.second, sixty]
  unfold Nanoseconds at *
  omega

def Stamp.Denotes (s : Stamp) (moment : Nanoseconds) : Prop :=
  s.second ≤ 59 ∧ moment = s.instant ∨ s.Leap ∧ moment = s.seconds * Calendar.second - 1

theorem moment_iff {s : Stamp} {moment : Nanoseconds} : s.fields.moment? = some moment ↔
    (s.date.isValid = true ∧ s.hour ≤ 23 ∧ s.minute ≤ 59) ∧ s.Denotes moment := by
  unfold Fields.moment?
  rw [Option.ite_none_right_eq_some, Bool.and_eq_true, Bool.and_eq_true, decide_eq_true_eq,
    decide_eq_true_eq, @and_assoc (s.fields.date.isValid = true)]
  refine and_congr_right fun _ => ?_
  rw [moment_eq]
  show (if s.second ≤ 59 then some s.instant else if s.second = 60 then _ else none) = _ ↔ _
  by_cases ordinary : s.second ≤ 59
  · rw [if_pos ordinary, Option.some_inj]
    constructor
    · rintro rfl
      exact .inl ⟨ordinary, rfl⟩
    · rintro (⟨-, rfl⟩ | ⟨⟨sixty, -⟩, -⟩)
      · rfl
      · omega
  rw [if_neg ordinary, Option.ite_none_right_eq_some]
  constructor
  · rintro ⟨sixty, read⟩
    rw [leap_moment sixty] at read
    obtain ⟨ends, read⟩ := Option.ite_none_right_eq_some.mp read
    cases read
    exact .inr ⟨⟨sixty, (endsMonth_iff _).mp ends⟩, rfl⟩
  · rintro (⟨small, -⟩ | ⟨⟨sixty, ends⟩, rfl⟩)
    · exact absurd small ordinary
    · refine ⟨sixty, ?_⟩
      rw [leap_moment sixty, if_pos ((endsMonth_iff _).mpr ends)]

theorem fits_iff {s : Stamp} {moment : Nanoseconds} (denotes : s.Denotes moment) : s.Fits ↔
    s.Written ∧ s.date.isValid = true ∧ s.hour ≤ 23 ∧ s.minute ≤ 59 := by
  have second : s.second < 10 ^ 2 := by
    obtain ⟨ordinary, -⟩ | ⟨⟨sixty, -⟩, -⟩ := denotes <;> omega
  constructor
  · intro fits
    obtain ⟨⟨-, twelve⟩, -, last⟩ := valid_iff.mp fits.date
    have length := month_length_le s.date.year s.date.month
    have month : s.month ≤ 12 := twelve
    have day : s.day ≤ 31 := Nat.le_trans last length
    have year := fits.year
    have hour := fits.hour
    have minute := fits.minute
    exact ⟨⟨by omega, by omega, by omega, fits.separator, by omega, by omega, second,
      fits.fraction, fits.zone⟩, fits.date, hour, minute⟩
  · rintro ⟨written, valid, hour, minute⟩
    have year := written.year
    exact ⟨by omega, valid, written.separator, hour, minute, written.fraction, written.zone⟩

/-- What is read is spelled by a stamp that fits, and what such a stamp spells is read. -/
theorem parse_iff {text : String} {moment : Nanoseconds} : parse? text = some moment ↔
    ∃ s : Stamp, s.Spells text ∧ s.Denotes moment := by
  rw [parse?, Option.bind_eq_some_iff]
  constructor
  · rintro ⟨f, read, h⟩
    obtain ⟨s, written, spelled, rfl⟩ := fields_iff.mp read
    obtain ⟨meant, denotes⟩ := moment_iff.mp h
    exact ⟨s, ⟨(fits_iff denotes).mpr ⟨written, meant⟩, spelled⟩, denotes⟩
  · rintro ⟨s, ⟨fits, spelled⟩, denotes⟩
    obtain ⟨written, meant⟩ := (fits_iff denotes).mp fits
    exact ⟨s.fields, fields_iff.mpr ⟨s, written, spelled, rfl⟩, moment_iff.mpr ⟨meant, denotes⟩⟩

theorem parse_none_iff {text : String} : parse? text = none ↔
    ∀ (s : Stamp) (moment : Nanoseconds), s.Spells text → ¬ s.Denotes moment := by
  rw [Option.eq_none_iff_forall_ne_some]
  simp only [Ne, parse_iff, not_exists, not_and]
  exact forall_comm

end WorkloadIdentity.Rfc3339
