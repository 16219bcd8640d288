import Mathlib.Algebra.Ring.Nat
import WorkloadIdentity.Time.Calendar

/-! How dates are written. A date has eight digits in the years 0 to 9999 and more characters in
all others; none of them is a letter or a slash. -/

set_option autoImplicit false

namespace WorkloadIdentity.Calendar

theorem year_contains (days : Int) :
    daysBeforeYear (yearOf days) ≤ days ∧ days < daysBeforeYear (yearOf days + 1) := by
  simp only [yearOf]
  split
  · rename_i early
    constructor
    · simp only [daysBeforeYear]
      omega
    · rwa [Int.sub_add_cancel]
  split
  · rename_i late
    constructor
    · exact late
    · simp only [daysBeforeYear]
      omega
  · omega

theorem year_length (year : Int) : daysBeforeYear (year + 1) ≤ daysBeforeYear year + 366 := by
  simp only [daysBeforeYear]
  omega

theorem month_length_le (year : Int) (month : Nat) : monthLength year month ≤ 31 := by
  unfold monthLength
  split
  · split <;> omega
  all_goals omega

theorem days_before_succ (year : Int) {month : Nat} (h : 1 ≤ month) :
    daysBeforeMonth year (month + 1) = daysBeforeMonth year month + monthLength year month := by
  obtain ⟨m, rfl⟩ : ∃ m, month = m + 1 := ⟨month - 1, by omega⟩
  rfl

theorem december_starts (year : Int) : 334 ≤ daysBeforeMonth year 12 := by
  rcases leap : isLeap year <;> simp [daysBeforeMonth, monthLength, leap]

theorem takeWhile_stops {α : Type} (p : α → Bool) (l : List α)
    (h : (l.takeWhile p).length < l.length) : p l[(l.takeWhile p).length] = false := by
  induction l with
  | nil => simp at h
  | cons a l ih =>
    by_cases ha : p a = true
    · simp only [List.takeWhile_cons, ha, if_true, List.length_cons] at h ⊢
      exact ih (Nat.lt_of_succ_lt_succ h)
    · simp only [Bool.not_eq_true] at ha
      simp [ha]

theorem month_le (year : Int) (dayOfYear : Nat) : (monthAndDay year dayOfYear).1 ≤ 12 := by
  have bound := List.takeWhile_sublist (fun m => decide (daysBeforeMonth year (m + 1) ≤ dayOfYear))
    (l := List.range 12)
  simpa [monthAndDay] using bound.length_le

theorem day_le (year : Int) {dayOfYear : Nat} (h : dayOfYear ≤ 365) :
    (monthAndDay year dayOfYear).2 ≤ 32 := by
  have stops := takeWhile_stops (fun m => decide (daysBeforeMonth year (m + 1) ≤ dayOfYear))
    (List.range 12)
  have month := month_le year dayOfYear
  simp only [monthAndDay] at month ⊢
  generalize hm : (List.takeWhile _ (List.range 12)).length = m at stops month ⊢
  by_cases last : m = 12
  · have december := december_starts year
    rw [last]
    omega
  · have ends := stops (by rw [List.length_range]; omega)
    rw [List.getElem_range, decide_eq_false_iff_not] at ends
    have length := month_length_le year m
    rcases Nat.eq_zero_or_pos m with rfl | first
    · simp [daysBeforeMonth] at ends
    · rw [days_before_succ year first] at ends
      omega

theorem padded_length (width n : Nat) :
    (padded width n).length = max width (Nat.toDigits 10 n).length := by
  simp only [padded, List.length_append, List.length_replicate]
  omega

theorem padded_length_eq {width n : Nat} (positive : 0 < width) (h : n < 10 ^ width) :
    (padded width n).length = width := by
  have short := (Nat.length_toDigits_le_iff (b := 10) (by omega) positive).mpr h
  rw [padded_length]
  omega

theorem padded_digits (width n : Nat) : ∀ c ∈ padded width n, c.isDigit = true := by
  intro c hc
  obtain hc | hc := List.mem_append.mp hc
  · rw [(List.mem_replicate.mp hc).2]
    rfl
  · exact Nat.isDigit_of_mem_toDigits (by omega) (by omega) hc

theorem day_of_year_le (days : Int) :
    (days - daysBeforeYear (yearOf days)).toNat ≤ 365 := by
  have ends := (year_contains days).2
  have length := year_length (yearOf days)
  omega

def yearAt (t : Nanoseconds) : Int := (split t).1.year

theorem date_length (t : Nanoseconds) (h : 0 ≤ yearAt t ∧ yearAt t ≤ 9999) :
    (dateText t).length = 8 := by
  have year : (yearText (yearAt t)).length = 4 := by
    rw [yearText, if_pos h]
    exact padded_length_eq (by omega) (by omega)
  have month : (padded 2 (split t).1.month).length = 2 := by
    apply padded_length_eq (by omega)
    have bound : (split t).1.month ≤ 12 := month_le _ _
    omega
  have day : (padded 2 (split t).1.day).length = 2 := by
    apply padded_length_eq (by omega)
    have bound : (split t).1.day ≤ 32 := day_le _ (day_of_year_le _)
    omega
  simp only [dateText, List.length_append]
  rw [show (yearText (split t).1.year).length = 4 from year, month, day]

theorem date_length_signed (t : Nanoseconds) (h : ¬ (0 ≤ yearAt t ∧ yearAt t ≤ 9999)) :
    8 < (dateText t).length := by
  have year : 5 ≤ (yearText (yearAt t)).length := by
    rw [yearText, if_neg h, List.length_cons, padded_length]
    omega
  have month := padded_length 2 (split t).1.month
  have day := padded_length 2 (split t).1.day
  simp only [dateText, List.length_append]
  have year' : 5 ≤ (yearText (split t).1.year).length := year
  omega

theorem date_chars (t : Nanoseconds) : ∀ c ∈ dateText t, c ≠ 'T' ∧ c ≠ '/' := by
  have digit : ∀ c : Char, c.isDigit = true → c ≠ 'T' ∧ c ≠ '/' := by
    rintro c hc
    constructor <;> rintro rfl <;> exact absurd hc (by decide)
  intro c hc
  simp only [dateText, List.mem_append] at hc
  obtain (hc | hc) | hc := hc
  · unfold yearText at hc
    split at hc
    · exact digit c (padded_digits _ _ c hc)
    · obtain hc | hc := List.mem_cons.mp hc
      · rw [hc]
        split <;> decide
      · exact digit c (padded_digits _ _ c hc)
  · exact digit c (padded_digits _ _ c hc)
  · exact digit c (padded_digits _ _ c hc)

theorem before_mark {mark : Char} {text : List Char} (rest : List Char) (h : mark ∉ text) :
    (text ++ mark :: rest).takeWhile (· != mark) = text := by
  rw [List.takeWhile_append_of_pos]
  · simp
  · intro c hc
    rw [bne_iff_ne]
    rintro rfl
    exact h hc

theorem moment_date (t : Nanoseconds) : (momentText t).takeWhile (· != 'T') = dateText t := by
  simp only [momentText, List.append_assoc, List.cons_append]
  exact before_mark _ fun hc => (date_chars t 'T' hc).1 rfl

theorem moment_take_date (t : Nanoseconds) : (momentText t).take 8 = (dateText t).take 8 := by
  have long : 8 ≤ (dateText t).length := by
    by_cases h : 0 ≤ yearAt t ∧ yearAt t ≤ 9999
    · rw [date_length t h]
    · exact Nat.le_of_lt (date_length_signed t h)
  simp only [momentText, List.append_assoc, List.cons_append]
  rw [List.take_append_of_le_length long]

/-- The first eight characters of a moment are its date in these years only. -/
theorem moment_take (t : Nanoseconds) :
    (momentText t).take 8 = dateText t ↔ 0 ≤ yearAt t ∧ yearAt t ≤ 9999 := by
  rw [moment_take_date]
  constructor
  · intro whole
    by_contra h
    have signed := date_length_signed t h
    rw [← whole, List.length_take] at signed
    omega
  · intro h
    exact List.take_of_length_le (Nat.le_of_eq (date_length t h))

end WorkloadIdentity.Calendar
