/-! The Gregorian calendar. Days are counted from 1970-01-01, moments in nanoseconds from
its midnight in UTC. -/

set_option autoImplicit false

namespace WorkloadIdentity.Calendar

def isLeap (year : Int) : Bool := year % 4 == 0 && (year % 100 != 0 || year % 400 == 0)

def monthLength (year : Int) (month : Nat) : Nat :=
  match month with
  | 2 => if isLeap year then 29 else 28
  | 4 | 6 | 9 | 11 => 30
  | _ => 31

/-- The days of the months before `month`. -/
def daysBeforeMonth (year : Int) : Nat → Nat
  | 0 | 1 => 0
  | month + 2 => daysBeforeMonth year (month + 1) + monthLength year (month + 1)

/-- The days from 1970-01-01 to the first day of the year. -/
def daysBeforeYear (year : Int) : Int :=
  let before := year - 1
  365 * before + before / 4 - before / 100 + before / 400 - 719162

structure Date where
  year : Int
  month : Nat
  day : Nat
  deriving DecidableEq, Repr

def Date.isValid (d : Date) : Bool :=
  1 ≤ d.month && d.month ≤ 12 && 1 ≤ d.day && d.day ≤ monthLength d.year d.month

def Date.toDays (d : Date) : Int :=
  daysBeforeYear d.year + daysBeforeMonth d.year d.month + d.day - 1

/-- The month and day of a day of the year, counted from zero. -/
def monthAndDay (year : Int) (dayOfYear : Nat) : Nat × Nat :=
  let month := ((List.range 12).takeWhile fun m =>
    daysBeforeMonth year (m + 1) ≤ dayOfYear).length
  (month, dayOfYear - daysBeforeMonth year month + 1)

/-- The year of a day: the estimate by mean length is at most one off. -/
def yearOf (days : Int) : Int :=
  let guess := (400 * (days + 719162)) / 146097 + 1
  if days < daysBeforeYear guess then guess - 1
  else if daysBeforeYear (guess + 1) ≤ days then guess + 1
  else guess

def Date.ofDays (days : Int) : Date :=
  let year := yearOf days
  let (month, day) := monthAndDay year (days - daysBeforeYear year).toNat
  ⟨year, month, day⟩

abbrev Nanoseconds := Int

def second : Nanoseconds := 1000000000

def dayLength : Nanoseconds := 86400 * second

/-- A moment as its day and the seconds since midnight. -/
def split (t : Nanoseconds) : Date × Nat :=
  (Date.ofDays (t / dayLength), (t % dayLength / second).toNat)

def padded (width n : Nat) : List Char :=
  let ds := Nat.toDigits 10 n
  List.replicate (width - ds.length) '0' ++ ds

/-- Years outside 0 to 9999 carry a sign. -/
def yearText (year : Int) : List Char :=
  if 0 ≤ year ∧ year ≤ 9999 then padded 4 year.toNat
  else (if year < 0 then '-' else '+') :: padded 4 year.natAbs

/-- The basic form `YYYYMMDD`. -/
def dateText (t : Nanoseconds) : List Char :=
  let d := (split t).1
  yearText d.year ++ padded 2 d.month ++ padded 2 d.day

/-- The basic form `YYYYMMDDThhmmssZ`. -/
def momentText (t : Nanoseconds) : List Char :=
  let s := (split t).2
  dateText t ++ 'T' :: padded 2 (s / 3600) ++ padded 2 (s / 60 % 60) ++ padded 2 (s % 60) ++ ['Z']

end WorkloadIdentity.Calendar
