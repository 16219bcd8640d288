import Mathlib.Tactic.IntervalCases
import WorkloadIdentity.Proofs.Time.Calendar
import WorkloadIdentity.Time.Rfc3339

/-! How far timestamps reach. A year has four digits and an offset stays below a day, so there is
a latest moment that can be written, and it is. -/

set_option autoImplicit false

namespace WorkloadIdentity.Rfc3339

open Calendar

theorem digit_value {c : Char} (h : c.isDigit = true) : c.toNat - '0'.toNat ≤ 9 := by
  have upper := (Bool.and_eq_true_iff.mp h).2
  have bound : c.toNat ≤ 57 := by simpa [UInt32.le_iff_toNat_le] using upper
  show c.toNat - 48 ≤ 9
  omega

theorem digits_shift {value digit scale : Nat} (h : digit ≤ 9) :
    (value * 10 + digit + 1) * scale ≤ (value + 1) * (10 * scale) := by
  calc (value * 10 + digit + 1) * scale ≤ ((value + 1) * 10) * scale :=
        Nat.mul_le_mul_right scale (by omega)
    _ = (value + 1) * (10 * scale) := Nat.mul_assoc ..

theorem digits_lt {n value result : Nat} {cs rest : List Char}
    (h : digits? n value cs = some (result, rest)) : result < (value + 1) * 10 ^ n := by
  induction n generalizing value cs with
  | zero =>
    cases h
    omega
  | succ n ih =>
    rcases cs with _ | ⟨c, cs⟩
    · cases h
    · obtain ⟨digit, h⟩ := Option.ite_none_right_eq_some.mp h
      rw [Nat.pow_succ']
      exact Nat.lt_of_lt_of_le (ih h) (digits_shift (digit_value digit))

theorem number_lt {n result : Nat} {cs rest : List Char} (h : number? n cs = some (result, rest)) :
    result < 10 ^ n := by
  have bound := digits_lt h
  omega

theorem ofDigitChars_lt {ds : List Char} (digits : ∀ c ∈ ds, c.isDigit = true) (value : Nat) :
    Nat.ofDigitChars 10 ds value < (value + 1) * 10 ^ ds.length := by
  induction ds generalizing value with
  | nil => simp [Nat.ofDigitChars]
  | cons c ds ih =>
    have later := ih (fun d hd => digits d (List.mem_cons_of_mem _ hd))
      (10 * value + (c.toNat - '0'.toNat))
    rw [Nat.ofDigitChars_cons, List.length_cons, Nat.pow_succ']
    refine Nat.lt_of_lt_of_le later ?_
    rw [Nat.mul_comm 10 value]
    exact digits_shift (digit_value (digits c (List.mem_cons_self ..)))

theorem fraction_lt {ds : List Char} (digits : ∀ c ∈ ds, c.isDigit = true) :
    fractionValue ds < 1000000000 := by
  have digit : ∀ c ∈ ds.take 9, c.isDigit = true := fun c hc => digits c (List.mem_of_mem_take hc)
  have kept := ofDigitChars_lt digit 0
  have short : (ds.take 9).length ≤ 9 := List.length_take_le 9 ds
  rw [Nat.zero_add, Nat.one_mul] at kept
  have scale : 0 < 10 ^ (9 - (ds.take 9).length) := Nat.pow_pos (by decide)
  calc fractionValue ds < 10 ^ (ds.take 9).length * 10 ^ (9 - (ds.take 9).length) :=
        Nat.mul_lt_mul_of_pos_right kept scale
    _ = 10 ^ 9 := by rw [← Nat.pow_add, Nat.add_sub_cancel' short]

theorem fraction_bound {cs rest : List Char} {nanosecond : Nat}
    (h : fraction? cs = some (nanosecond, rest)) : nanosecond < 1000000000 := by
  unfold fraction? at h
  split at h
  · rename_i digits
    obtain ⟨-, h⟩ := Option.ite_none_left_eq_some.mp h
    cases h
    exact fraction_lt (List.all_eq_true.mp List.all_takeWhile)
  · cases h
    decide

theorem offset_bound {cs : List Char} {offset : Int} (h : offset? cs = some offset) :
    -1439 ≤ offset ∧ offset ≤ 1439 := by
  unfold offset? at h
  split at h
  · cases h
    decide
  · cases h
    decide
  · obtain ⟨⟨hours, rest⟩, -, h⟩ := Option.bind_eq_some_iff.mp h
    obtain ⟨after, -, h⟩ := Option.bind_eq_some_iff.mp h
    obtain ⟨⟨minutes, rest⟩, -, h⟩ := Option.bind_eq_some_iff.mp h
    obtain ⟨inside, h⟩ := Option.ite_none_left_eq_some.mp h
    simp only [Bool.or_eq_true, decide_eq_true_eq, not_or, Nat.not_lt] at inside
    split at h
    · cases h
      omega
    · split at h
      · cases h
        omega
      · cases h
  · cases h

/-- What four digits for the year, nine for the fraction and the offset allow. -/
structure Fields.Written (f : Fields) : Prop where
  year : f.date.year ≤ 9999
  nanosecond : f.nanosecond < 1000000000
  offset : -1439 ≤ f.offset ∧ f.offset ≤ 1439

theorem fields_written {cs : List Char} {f : Fields} (h : fields? cs = some f) : f.Written := by
  simp only [fields?, Option.bind_eq_bind, Option.bind_eq_some_iff] at h
  obtain ⟨⟨year, _⟩, yearRead, _, -, ⟨month, _⟩, -, _, -, ⟨day, _⟩, -, _, -, ⟨hour, _⟩, -, _, -,
    ⟨minute, _⟩, -, _, -, ⟨second, _⟩, -, ⟨nanosecond, _⟩, fractionRead, offset, offsetRead, h⟩ := h
  cases h
  have bound := number_lt yearRead
  refine ⟨?_, fraction_bound fractionRead, offset_bound offsetRead⟩
  show (year : Int) ≤ 9999
  omega

theorem daysBeforeYear_mono {a b : Int} (h : a ≤ b) : daysBeforeYear a ≤ daysBeforeYear b := by
  simp only [daysBeforeYear]
  omega

theorem year_days (year : Int) :
    daysBeforeYear (year + 1) = daysBeforeYear year + if isLeap year then 366 else 365 := by
  rcases leap : isLeap year <;>
    simp [isLeap, daysBeforeYear] at leap ⊢ <;> omega

theorem month_days (year : Int) {month : Nat} (first : 1 ≤ month) (last : month ≤ 12) :
    daysBeforeMonth year month + monthLength year month ≤ if isLeap year then 366 else 365 := by
  rcases leap : isLeap year <;> interval_cases month <;>
    simp [daysBeforeMonth, monthLength, leap]

theorem days_lt {d : Date} (valid : d.isValid = true) : d.toDays < daysBeforeYear (d.year + 1) := by
  simp only [Date.isValid, Bool.and_eq_true, decide_eq_true_eq] at valid
  obtain ⟨⟨⟨first, last⟩, -⟩, day⟩ := valid
  have months := month_days d.year first last
  rw [year_days, Date.toDays]
  split at months
  · rw [if_pos ‹_›]
    omega
  · rw [if_neg ‹_›]
    omega

/-- The end of the last day of the year 9999, as far to the west as an offset can be. -/
def latest : Nanoseconds := Fields.moment ⟨⟨9999, 12, 31⟩, 23, 59, 59, 999999999, -1439⟩

theorem latest_eq : latest = 253402387139999999999 := by decide

theorem days_le {d : Date} (valid : d.isValid = true) (year : d.year ≤ 9999) :
    d.toDays ≤ 2932896 := by
  have bound : daysBeforeYear (d.year + 1) ≤ daysBeforeYear 10000 :=
    daysBeforeYear_mono (by omega)
  have whole : daysBeforeYear 10000 = 2932897 := by decide
  have inside := days_lt valid
  omega

theorem moment_le {f : Fields} (written : f.Written) (valid : f.date.isValid = true)
    (hour : f.hour ≤ 23) (minute : f.minute ≤ 59) (second : f.second ≤ 59) : f.moment ≤ latest := by
  have days := days_le valid written.year
  have nanosecond := written.nanosecond
  have offset := written.offset
  rw [latest_eq, Fields.moment, dayLength, Calendar.second]
  unfold Nanoseconds at *
  omega

theorem fields_le {f : Fields} {moment : Nanoseconds} (written : f.Written)
    (h : f.moment? = some moment) : moment ≤ latest := by
  unfold Fields.moment? at h
  obtain ⟨fits, h⟩ := Option.ite_none_right_eq_some.mp h
  simp only [Bool.and_eq_true, decide_eq_true_eq] at fits
  obtain ⟨⟨valid, hour⟩, minute⟩ := fits
  split at h
  · rename_i second
    cases h
    exact moment_le written valid hour minute second
  · -- A leap second is read as the last nanosecond before it.
    obtain ⟨-, h⟩ := Option.ite_none_right_eq_some.mp h
    obtain ⟨-, h⟩ := Option.ite_none_right_eq_some.mp h
    cases h
    have last : 999999999 < 1000000000 := by decide
    exact moment_le ⟨written.year, last, written.offset⟩ valid hour minute (Nat.le_refl 59)

theorem parse_le {text : String} {moment : Nanoseconds} (h : parse? text = some moment) :
    moment ≤ latest := by
  obtain ⟨f, read, h⟩ := Option.bind_eq_some_iff.mp h
  exact fields_le (fields_written read) h

theorem parse_latest : parse? "9999-12-31T23:59:59.999999999-23:59" = some latest := by
  decide +kernel

end WorkloadIdentity.Rfc3339
