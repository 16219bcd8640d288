import WorkloadIdentity.Time.Calendar

/-! Timestamps of RFC 3339, read as moments. Any ASCII character separates date and time,
digits of the fraction beyond nanoseconds are dropped, and a leap second stands for the
last nanosecond of its minute. -/

set_option autoImplicit false

namespace WorkloadIdentity.Rfc3339

open Calendar

/-- Exactly `n` digits. -/
def digits? : Nat → Nat → List Char → Option (Nat × List Char)
  | 0, value, cs => some (value, cs)
  | n + 1, value, c :: cs =>
    if c.isDigit then digits? n (value * 10 + (c.toNat - '0'.toNat)) cs else none
  | _ + 1, _, [] => none

def number? (n : Nat) (cs : List Char) : Option (Nat × List Char) := digits? n 0 cs

def expect? (c : Char) : List Char → Option (List Char)
  | d :: cs => if c = d then some cs else none
  | [] => none

def separator? : List Char → Option (List Char)
  | c :: cs => if c.toNat < 0x80 then some cs else none
  | [] => none

/-- Nanoseconds from the digits of a fraction. -/
def fractionValue (ds : List Char) : Nat :=
  let kept := ds.take 9
  Nat.ofDigitChars 10 kept 0 * Nat.pow 10 (9 - kept.length)

def fraction? (cs : List Char) : Option (Nat × List Char) :=
  match cs with
  | '.' :: rest =>
    let ds := rest.takeWhile Char.isDigit
    if ds.isEmpty then none else some (fractionValue ds, rest.dropWhile Char.isDigit)
  | _ => some (0, cs)

/-- The offset from UTC in minutes, at the end of the text. -/
def offset? (cs : List Char) : Option Int :=
  match cs with
  | ['Z'] | ['z'] => some 0
  | sign :: rest => do
    let (hours, rest) ← number? 2 rest
    let rest ← expect? ':' rest
    let (minutes, rest) ← number? 2 rest
    if !rest.isEmpty || hours > 23 || minutes > 59 then none
    else if sign = '+' then some (hours * 60 + minutes)
    else if sign = '-' then some (-(hours * 60 + minutes : Nat))
    else none
  | [] => none

structure Fields where
  date : Date
  hour : Nat
  minute : Nat
  second : Nat
  nanosecond : Nat
  offset : Int
  deriving DecidableEq, Repr

def fields? (cs : List Char) : Option Fields := do
  let (year, cs) ← number? 4 cs
  let cs ← expect? '-' cs
  let (month, cs) ← number? 2 cs
  let cs ← expect? '-' cs
  let (day, cs) ← number? 2 cs
  let cs ← separator? cs
  let (hour, cs) ← number? 2 cs
  let cs ← expect? ':' cs
  let (minute, cs) ← number? 2 cs
  let cs ← expect? ':' cs
  let (second, cs) ← number? 2 cs
  let (nanosecond, cs) ← fraction? cs
  let offset ← offset? cs
  return ⟨⟨year, month, day⟩, hour, minute, second, nanosecond, offset⟩

def Fields.moment (f : Fields) : Nanoseconds :=
  f.date.toDays * dayLength +
    ((f.hour * 3600 + f.minute * 60 + f.second : Nat) - f.offset * 60) * Calendar.second +
    f.nanosecond

/-- Leap seconds end a month in UTC. -/
def endsMonth (t : Nanoseconds) : Bool :=
  let (d, s) := split t
  s == 86399 && d.day == monthLength d.year d.month

def Fields.moment? (f : Fields) : Option Nanoseconds :=
  if f.date.isValid && f.hour ≤ 23 && f.minute ≤ 59 then
    if f.second ≤ 59 then some f.moment
    else if f.second = 60 then
      let t := { f with second := 59, nanosecond := 999999999 }.moment
      if endsMonth t then some t else none
    else none
  else none

def parse? (text : String) : Option Nanoseconds := (fields? text.toList).bind Fields.moment?

end WorkloadIdentity.Rfc3339
