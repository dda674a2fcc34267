/-!
# The calendar

Days of the proleptic Gregorian calendar are counted from 0001-01-01, which is day 0. A `Date` names a year, a month and
a day of the month; `Date.number` counts it and `Date.ofNumber` names it again. Years before 1 are 0, -1 and so on.
-/

namespace FeedQuery

/-- A day of the calendar. -/
structure Date where
  year : Int
  month : Nat
  day : Nat
deriving DecidableEq, Repr

namespace Date

/-- Whether February has 29 days. -/
def isLeap (year : Int) : Bool :=
  year % 4 == 0 && (year % 100 != 0 || year % 400 == 0)

/-- The lengths of the months of a year. -/
def monthLengths (year : Int) : List Nat :=
  [31, if isLeap year then 29 else 28, 31, 30, 31, 30, 31, 31, 30, 31, 30, 31]

/-- How many days of the count lie before the first day of a year. -/
def daysBefore (year : Int) : Int :=
  365 * (year - 1) + (year - 1) / 4 - (year - 1) / 100 + (year - 1) / 400

/-- Whether the month exists and has the day. -/
def isValid (d : Date) : Bool :=
  match d.month with
  | 0 => false
  | month + 1 => match (monthLengths d.year)[month]? with
    | some length => 1 ≤ d.day && d.day ≤ length
    | none => false

/-- Whether no day of the month follows. -/
def endsMonth (d : Date) : Bool :=
  (monthLengths d.year)[d.month - 1]? == some d.day

/-- The number of a day. -/
def number (d : Date) : Int :=
  daysBefore d.year + (((monthLengths d.year).take (d.month - 1)).foldl (· + ·) 0 : Nat) + d.day - 1

/-- The year that holds a day: a year of mean length gives it up to one. -/
def yearOf (number : Int) : Int :=
  let guess := number * 400 / 146097 + 1
  if number < daysBefore guess then guess - 1
  else if daysBefore (guess + 1) ≤ number then guess + 1
  else guess

/-- The month, from `month` on, and the day in it, given how many days lie before it. -/
def monthOf (month : Nat) (elapsed : Nat) : List Nat → Nat × Nat
  | [] => (month, elapsed + 1)
  | length :: rest => if elapsed < length then (month, elapsed + 1) else monthOf (month + 1) (elapsed - length) rest

/-- The day with a number. -/
def ofNumber (number : Int) : Date :=
  let year := yearOf number
  let (month, day) := monthOf 1 (number - daysBefore year).toNat (monthLengths year)
  ⟨year, month, day⟩

end Date

end FeedQuery
