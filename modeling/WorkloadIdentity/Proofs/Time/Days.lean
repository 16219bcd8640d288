import WorkloadIdentity.Proofs.Time.Timestamps

/-!
# Dates and days

Counting days from 1970-01-01 and reading a day as a date undo each other. What pins the count down
is that this first day is zero and that the next day is one more, over the ends of months and years.
-/

set_option autoImplicit false

namespace WorkloadIdentity.Calendar

open Rfc3339 (days_lt daysBeforeYear_mono year_days)

def Date.next (d : Date) : Date :=
  if d.day < monthLength d.year d.month then ⟨d.year, d.month, d.day + 1⟩
  else if d.month < 12 then ⟨d.year, d.month + 1, 1⟩
  else ⟨d.year + 1, 1, 1⟩

def Date.first (year : Int) (month : Nat) : Date := ⟨year, month, 1⟩

theorem valid_iff {d : Date} : d.isValid = true ↔
    (1 ≤ d.month ∧ d.month ≤ 12) ∧ 1 ≤ d.day ∧ d.day ≤ monthLength d.year d.month := by
  simp only [Date.isValid, Bool.and_eq_true, decide_eq_true_eq]
  omega

theorem month_length_pos (year : Int) (month : Nat) : 1 ≤ monthLength year month := by
  unfold monthLength
  split
  · split <;> omega
  all_goals omega

theorem year_ends (year : Int) :
    daysBeforeYear (year + 1) = daysBeforeYear year + daysBeforeMonth year 13 := by
  rw [year_days]
  rcases leap : isLeap year <;> simp [daysBeforeMonth, monthLength, leap]

theorem daysBeforeMonth_mono (year : Int) {a b : Nat} (h : a ≤ b) :
    daysBeforeMonth year a ≤ daysBeforeMonth year b := by
  induction h with
  | refl => exact Nat.le_refl _
  | @step b _ ih =>
    rcases Nat.eq_zero_or_pos b with rfl | positive
    · exact ih
    · show daysBeforeMonth year a ≤ daysBeforeMonth year (b + 1)
      rw [days_before_succ year positive]
      omega

theorem toDays_epoch : (Date.first 1970 1).toDays = 0 := by decide

theorem first_valid (year : Int) {month : Nat} (one : 1 ≤ month) (twelve : month ≤ 12) :
    (Date.first year month).isValid = true :=
  valid_iff.mpr ⟨⟨one, twelve⟩, Nat.le_refl 1, month_length_pos year month⟩

theorem next_valid {d : Date} (valid : d.isValid = true) : d.next.isValid = true := by
  obtain ⟨⟨one, twelve⟩, first, last⟩ := valid_iff.mp valid
  unfold Date.next
  split
  · rename_i inside
    exact valid_iff.mpr ⟨⟨one, twelve⟩, Nat.le_add_left 1 d.day, inside⟩
  split
  · exact first_valid d.year (by omega) (by omega)
  · exact first_valid (d.year + 1) (by omega) (by omega)

theorem toDays_next {d : Date} (valid : d.isValid = true) : d.next.toDays = d.toDays + 1 := by
  obtain ⟨⟨one, twelve⟩, first, last⟩ := valid_iff.mp valid
  unfold Date.next
  split
  · simp only [Date.toDays]
    omega
  have ends := days_before_succ d.year one
  split
  · simp only [Date.toDays]
    omega
  · have december : d.month = 12 := by omega
    have start : daysBeforeMonth (d.year + 1) 1 = 0 := rfl
    have whole : daysBeforeMonth d.year 13 = daysBeforeMonth d.year d.month + d.day := by
      rw [show d.day = monthLength d.year d.month by omega, ← ends, december]
    simp only [Date.toDays, start, year_ends, whole]
    omega

theorem within_year {d : Date} (valid : d.isValid = true) :
    daysBeforeYear d.year ≤ d.toDays ∧ d.toDays < daysBeforeYear (d.year + 1) := by
  have first := (valid_iff.mp valid).2.1
  refine ⟨?_, days_lt valid⟩
  rw [Date.toDays]
  omega

theorem within_month {d : Date} (valid : d.isValid = true) :
    daysBeforeYear d.year + daysBeforeMonth d.year d.month ≤ d.toDays ∧
      d.toDays < daysBeforeYear d.year + daysBeforeMonth d.year (d.month + 1) := by
  obtain ⟨⟨one, -⟩, first, last⟩ := valid_iff.mp valid
  rw [days_before_succ d.year one, Date.toDays]
  omega

theorem toDays_injective {d e : Date} (valid : d.isValid = true) (valid' : e.isValid = true)
    (same : d.toDays = e.toDays) : d = e := by
  have years : d.year = e.year := by
    have before := within_year valid
    have after := within_year valid'
    by_contra differ
    obtain early | late := Int.lt_or_gt_of_ne differ
    · have apart : daysBeforeYear (d.year + 1) ≤ daysBeforeYear e.year := daysBeforeYear_mono early
      omega
    · have apart : daysBeforeYear (e.year + 1) ≤ daysBeforeYear d.year := daysBeforeYear_mono late
      omega
  have months : d.month = e.month := by
    have before := within_month valid
    have after := within_month valid'
    rw [← years] at after
    by_contra differ
    obtain early | late := Nat.lt_or_gt_of_ne differ
    · have apart := daysBeforeMonth_mono d.year (show d.month + 1 ≤ e.month from early)
      omega
    · have apart := daysBeforeMonth_mono d.year (show e.month + 1 ≤ d.month from late)
      omega
  have days : d.day = e.day := by
    simp only [Date.toDays, years, months] at same
    omega
  cases d
  cases e
  simp_all

theorem takeWhile_passes {α : Type} (p : α → Bool) (l : List α) {i : Nat}
    (h : i < (l.takeWhile p).length) (within : i < l.length) : p l[i] = true := by
  have passes := List.all_eq_true.mp List.all_takeWhile _ (List.getElem_mem h)
  rwa [(List.takeWhile_prefix p).getElem h] at passes

theorem month_found (year : Int) {dayOfYear : Nat}
    (inside : dayOfYear < daysBeforeMonth year 13) :
    1 ≤ (monthAndDay year dayOfYear).1 ∧
    daysBeforeMonth year (monthAndDay year dayOfYear).1 ≤ dayOfYear ∧
    dayOfYear < daysBeforeMonth year ((monthAndDay year dayOfYear).1 + 1) := by
  have stops := takeWhile_stops (fun m => decide (daysBeforeMonth year (m + 1) ≤ dayOfYear))
    (List.range 12)
  have month := month_le year dayOfYear
  have begun : ∀ m, m < (monthAndDay year dayOfYear).1 → daysBeforeMonth year (m + 1) ≤ dayOfYear := by
    intro m before
    have within : m < (List.range 12).length := by
      rw [List.length_range]
      omega
    have holds := takeWhile_passes _ (List.range 12) before within
    rwa [List.getElem_range, decide_eq_true_eq] at holds
  have ends : dayOfYear < daysBeforeMonth year ((monthAndDay year dayOfYear).1 + 1) := by
    by_cases last : (monthAndDay year dayOfYear).1 = 12
    · rwa [last]
    · have stop := stops (by
        rw [List.length_range]
        exact Nat.lt_of_le_of_ne month last)
      rw [List.getElem_range, decide_eq_false_iff_not, Nat.not_le] at stop
      exact stop
  have one : 1 ≤ (monthAndDay year dayOfYear).1 := by
    by_contra none
    have zero : (monthAndDay year dayOfYear).1 = 0 := by omega
    rw [zero] at ends
    exact absurd ends (Nat.not_lt_zero _)
  refine ⟨one, ?_, ends⟩
  have at_month := begun ((monthAndDay year dayOfYear).1 - 1) (by omega)
  rwa [Nat.sub_add_cancel one] at at_month

theorem ofDays_found (days : Int) :
    (Date.ofDays days).isValid = true ∧ (Date.ofDays days).toDays = days := by
  have year := year_contains days
  have length := year_ends (yearOf days)
  have inside : (days - daysBeforeYear (yearOf days)).toNat <
      daysBeforeMonth (yearOf days) 13 := by omega
  obtain ⟨one, begun, ends⟩ := month_found (yearOf days) inside
  have twelve := month_le (yearOf days) (days - daysBeforeYear (yearOf days)).toNat
  rw [days_before_succ _ one] at ends
  have day : (monthAndDay (yearOf days) (days - daysBeforeYear (yearOf days)).toNat).2 =
    (days - daysBeforeYear (yearOf days)).toNat - daysBeforeMonth (yearOf days)
      (monthAndDay (yearOf days) (days - daysBeforeYear (yearOf days)).toNat).1 + 1 := rfl
  constructor
  · exact valid_iff.mpr ⟨⟨one, twelve⟩, by simp only [Date.ofDays]; omega,
      by simp only [Date.ofDays]; omega⟩
  · simp only [Date.ofDays, Date.toDays]
    omega

theorem month_ends_iff {d : Date} (valid : d.isValid = true) :
    d.day = monthLength d.year d.month ↔ d.next.day = 1 := by
  obtain ⟨-, first, last⟩ := valid_iff.mp valid
  unfold Date.next
  split
  · simp only
    omega
  split
  · simp only [iff_true]
    omega
  · simp only [iff_true]
    omega

theorem day_before_first (days : Int) :
    (Date.ofDays days).day = monthLength (Date.ofDays days).year (Date.ofDays days).month ↔
      ∃ year month, 1 ≤ month ∧ month ≤ 12 ∧ (Date.first year month).toDays = days + 1 := by
  obtain ⟨valid, counted⟩ := ofDays_found days
  have after := toDays_next valid
  rw [counted] at after
  rw [month_ends_iff valid]
  constructor
  · intro first
    obtain ⟨⟨one, twelve⟩, -⟩ := valid_iff.mp (next_valid valid)
    refine ⟨(Date.ofDays days).next.year, (Date.ofDays days).next.month, one, twelve, ?_⟩
    rw [← after, Date.first, ← first]
  · rintro ⟨year, month, one, twelve, same⟩
    rw [← toDays_injective (first_valid year one twelve) (next_valid valid) (same.trans after.symm)]
    rfl

end WorkloadIdentity.Calendar
