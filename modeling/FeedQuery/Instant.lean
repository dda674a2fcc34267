import FeedQuery.Calendar
import FeedQuery.Number.Decimal

/-!
# Instants

An `Instant` is a point in time together with the offset of the clock that showed it. Instants are ordered as points in
time: the offset only decides how one is written. They are read and written as RFC 3339 asks, with these choices: any
single ASCII character may stand between date and time, digits after the ninth of a fraction are dropped, and a leap
second is the last nanosecond before the end of the month.
-/

namespace FeedQuery

/-- A point in time and the offset of its clock. -/
structure Instant where
  /-- Nanoseconds since the start of 1970, in UTC. -/
  nanos : Int
  /-- Minutes that the clock is ahead of UTC. -/
  offset : Int
deriving DecidableEq, Repr, Inhabited

namespace Instant

/-- Instants are ordered as points in time. -/
instance : Ord Instant := ⟨fun a b => compare a.nanos b.nanos⟩

def nanosPerSecond : Int := 1000000000

def nanosPerMinute : Int := 60 * nanosPerSecond

def nanosPerDay : Int := 1440 * nanosPerMinute

/-- The number of 1970-01-01. -/
def epochDay : Int := 719162

/-- A reading of a clock on a day. -/
structure Reading where
  date : Date
  hour : Nat
  minute : Nat
  second : Nat
  nano : Nat
deriving DecidableEq, Repr

/-- The point in time at which a clock with the given offset shows a reading. -/
def ofReading (r : Reading) (offset : Int) : Instant :=
  ⟨(r.date.number - epochDay) * nanosPerDay + (r.hour * 60 + r.minute - offset) * nanosPerMinute +
      r.second * nanosPerSecond + r.nano,
    offset⟩

/-- What a clock with the given offset shows at a point in time. -/
def readingAt (nanos offset : Int) : Reading :=
  let localNanos := nanos + offset * nanosPerMinute
  let inDay := (localNanos % nanosPerDay).toNat
  let seconds := inDay / nanosPerSecond.toNat
  ⟨Date.ofNumber (localNanos / nanosPerDay + epochDay), seconds / 3600, seconds / 60 % 60, seconds % 60,
    inDay % nanosPerSecond.toNat⟩

/-- What the instant's own clock shows. -/
def reading (t : Instant) : Reading := readingAt t.nanos t.offset

/-- The first and last second of the years -9999 to 9999, counted from 1970. -/
def lowestSecond : Int := -377705116800

def highestSecond : Int := 253402300799

/-- The instant a number of seconds after the start of 1970, on a clock that shows UTC. -/
def ofSeconds? (seconds : Int) : Option Instant :=
  if lowestSecond ≤ seconds ∧ seconds ≤ highestSecond then some ⟨seconds * nanosPerSecond, 0⟩ else none

/-- Exactly `count` digits, and what follows them. -/
def readDigits? (count : Nat) (text : List Char) : Option (Nat × List Char) :=
  let digits := text.take count
  if digits.length = count ∧ digits.all Char.isDigit then
    some (Decimal.ofDigits (digits.map Decimal.digitValue), text.drop count)
  else none

/-- What follows a given character. -/
def expect? (c : Char) : List Char → Option (List Char)
  | d :: rest => if d = c then some rest else none
  | [] => none

/-- A date: four, two and two digits with hyphens between them. -/
def readDate? (text : List Char) : Option (Date × List Char) := do
  let (year, text) ← readDigits? 4 text
  let text ← expect? '-' text
  let (month, text) ← readDigits? 2 text
  let text ← expect? '-' text
  let (day, text) ← readDigits? 2 text
  let date : Date := ⟨year, month, day⟩
  if date.isValid then some (date, text) else none

/-- A fraction of a second in nanoseconds: digits after the ninth are dropped. No point is no fraction. -/
def readFraction? : List Char → Option (Nat × List Char)
  | '.' :: text =>
    match Decimal.spanDigits text with
    | (d :: ds, rest) =>
      let kept := (d :: ds).take 9
      some (Decimal.ofDigits kept * Nat.pow 10 (9 - kept.length), rest)
    | _ => none
  | text => some (0, text)

/-- An offset in minutes: `Z` in either case, or a sign, hours and minutes. -/
def readOffset? : List Char → Option Int
  | ['Z'] => some 0
  | ['z'] => some 0
  | sign :: text => do
    let negative ← if sign = '-' then some true else if sign = '+' then some false else none
    let (hour, text) ← readDigits? 2 text
    let text ← expect? ':' text
    let (minute, text) ← readDigits? 2 text
    if text.isEmpty ∧ hour ≤ 23 ∧ minute ≤ 59 then
      let minutes : Int := hour * 60 + minute
      some (if negative then -minutes else minutes)
    else none
  | [] => none

/-- Whether in UTC the instant lies in the last nanosecond of a month. -/
def endsMonth (t : Instant) : Bool :=
  let r := readingAt t.nanos 0
  r.hour == 23 && r.minute == 59 && r.second == 59 && r.nano == 999999999 && r.date.endsMonth && r.date.year ≤ 9999

/-- A date, any ASCII character, hours, minutes and seconds with an optional fraction, and an offset. -/
def ofList? (text : List Char) : Option Instant := do
  let (date, text) ← readDate? text
  let text ← match text with
    | separator :: text => if separator.toNat < 128 then some text else none
    | [] => none
  let (hour, text) ← readDigits? 2 text
  let text ← expect? ':' text
  let (minute, text) ← readDigits? 2 text
  let text ← expect? ':' text
  let (second, text) ← readDigits? 2 text
  let (nano, text) ← readFraction? text
  let offset ← readOffset? text
  if hour ≤ 23 ∧ minute ≤ 59 ∧ second ≤ 59 then some (ofReading ⟨date, hour, minute, second, nano⟩ offset)
  else if hour ≤ 23 ∧ minute ≤ 59 ∧ second = 60 then
    let t := ofReading ⟨date, hour, minute, 59, 999999999⟩ offset
    if t.endsMonth then some t else none
  else none

/-- Reads an RFC 3339 text. -/
def ofText? (text : String) : Option Instant := ofList? text.toList

/-- Decimal digits filled up with zeros to a width. -/
def padded (width value : Nat) : List Char :=
  List.replicate (width - (Decimal.digitsOf value).length) '0' ++ Decimal.digitsOf value

/-- A fraction of a second without trailing zeros, with its point; nothing for zero. -/
def fractionText (nano : Nat) : List Char :=
  if nano = 0 then [] else '.' :: ((padded 9 nano).reverse.dropWhile (· == '0')).reverse

/-- `Z` for no offset, else a sign, hours and minutes. -/
def offsetText (offset : Int) : List Char :=
  if offset = 0 then ['Z']
  else (if offset < 0 then '-' else '+') :: (padded 2 (offset.natAbs / 60) ++ ':' :: padded 2 (offset.natAbs % 60))

/-- The characters of the RFC 3339 text, if the clock shows a year of four digits. -/
def toList? (t : Instant) : Option (List Char) :=
  let r := t.reading
  if 0 ≤ r.date.year ∧ r.date.year ≤ 9999 then
    some (padded 4 r.date.year.toNat ++ '-' :: (padded 2 r.date.month ++ '-' :: (padded 2 r.date.day ++ 'T' ::
      (padded 2 r.hour ++ ':' ::
        (padded 2 r.minute ++ ':' :: (padded 2 r.second ++ fractionText r.nano ++ offsetText t.offset))))))
  else none

/-- The RFC 3339 text; nothing if the clock shows a year that has not four digits. -/
def toText (t : Instant) : String :=
  match t.toList? with
  | some text => String.ofList text
  | none => ""

end Instant

end FeedQuery
