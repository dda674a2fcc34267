import FeedQuery.Number.Double

/-!
# Numbers as decimal text

`Double.ofText?` reads a decimal text to the nearest double. `Double.toText` writes the fewest digits that read back,
never with an exponent. `readInteger?` and `readCount?` read integers that have to lie in a range.
-/

namespace FeedQuery

namespace Decimal

/-- The value of a decimal digit. -/
def digitValue (c : Char) : Nat := c.toNat - '0'.toNat

/-- The digits at the front of a text, and what follows them. -/
def spanDigits (text : List Char) : List Nat × List Char :=
  ((text.takeWhile Char.isDigit).map digitValue, text.dropWhile Char.isDigit)

/-- The number that a list of digits makes, first digit first. -/
def ofDigits (digits : List Nat) : Nat :=
  digits.foldl (fun value d => value * 10 + d) 0

/-- A sign at the front of a text: whether it is a minus, and what follows it. No sign is a plus. -/
def readSign : List Char → Bool × List Char
  | '-' :: rest => (true, rest)
  | '+' :: rest => (false, rest)
  | text => (false, text)

/-- The double nearest to `digits * 10 ^ exponent`. A value far out of range is decided by its exponent alone. -/
def toDouble (negative : Bool) (digits : List Nat) (exponent : Int) : Double :=
  let value := ofDigits digits
  let top := (digits.dropWhile (· == 0)).length + exponent
  if value == 0 || top < -400 then ⟨negative, 0⟩
  else if top > 400 then ⟨negative, Double.infinity⟩
  else if exponent < 0 then .ofRatio negative value (Nat.pow 10 exponent.natAbs)
  else .ofRatio negative (value * Nat.pow 10 exponent.natAbs) 1

/-- An exponent part: nothing, or `e` and an integer. `none` when the text goes on after it. -/
def readExponent? : List Char → Option Int
  | [] => some 0
  | c :: rest =>
    if c == 'e' || c == 'E' then
      let (negative, rest) := readSign rest
      match spanDigits rest with
      | (d :: ds, []) => some (if negative then -(ofDigits (d :: ds) : Int) else ofDigits (d :: ds))
      | _ => none
    else none

/-- A number without its sign: digits with an optional point, at least one digit on either side of it, and an exponent
part. -/
def readUnsigned? (negative : Bool) (text : List Char) : Option Double :=
  let (whole, rest) := spanDigits text
  let (fraction, rest) := match rest with
    | '.' :: rest => spanDigits rest
    | rest => ([], rest)
  if whole.isEmpty && fraction.isEmpty then none
  else (readExponent? rest).map fun exponent => toDouble negative (whole ++ fraction) (exponent - fraction.length)

/-- An ASCII letter in lower case, any other character as it is. -/
def lower (c : Char) : Char := c.toLower

/-- A number text: an optional sign, then a decimal number, or `inf`, `infinity` or `nan` in any case. -/
def readDouble? (text : List Char) : Option Double :=
  let (negative, rest) := readSign text
  match String.ofList (rest.map lower) with
  | "inf" | "infinity" => some ⟨negative, Double.infinity⟩
  | "nan" => some .nan
  | _ => readUnsigned? negative rest

/-- An integer text: an optional sign and at least one digit, within the given bounds. -/
def readInteger? (lowest highest : Int) (text : List Char) : Option Int :=
  let (negative, rest) := readSign text
  match spanDigits rest with
  | (d :: ds, []) =>
    let value : Int := if negative then -(ofDigits (d :: ds) : Int) else ofDigits (d :: ds)
    if lowest ≤ value ∧ value ≤ highest then some value else none
  | _ => none

/-- A count text: an optional plus sign and at least one digit, at most the given bound. A minus sign is refused. -/
def readCount? (highest : Nat) (text : List Char) : Option Nat :=
  match text with
  | '-' :: _ => none
  | text => (readInteger? 0 highest text).map Int.toNat

/-- The decimal digits of a number, first digit first; zero has one digit. -/
def digitsOf (value : Nat) : List Char := Nat.toDigits 10 value

/-- The reals that round to a finite non-zero double, in multiples of `2 ^ -1076`: both ends, and whether they belong to
it. -/
structure RoundingInterval where
  value : Nat
  low : Nat
  high : Nat
  closed : Bool

/-- The interval of a finite double. Below a power of two the gap is half of the gap above. -/
def roundingInterval (d : Double) : RoundingInterval :=
  let unit := Nat.pow 2 BinaryFormat.double.fractionBits
  let exponent := d.magnitude / unit
  let gap := Nat.pow 2 (exponent - 1)
  let below := if d.magnitude % unit == 0 && exponent > 1 then gap else 2 * gap
  ⟨4 * d.quanta, 4 * d.quanta - below, 4 * d.quanta + 2 * gap, d.magnitude % 2 == 0⟩

/-- Whether `count * numerator / denominator` lies in the interval; both measure multiples of `2 ^ -1076`. -/
def RoundingInterval.holds (i : RoundingInterval) (count numerator denominator : Nat) : Bool :=
  let point := count * numerator
  if i.closed then i.low * denominator ≤ point && point ≤ i.high * denominator
  else i.low * denominator < point && point < i.high * denominator

/-- The multiple of `10 ^ exponent` in the interval that is nearest to the value, if there is one other than zero. Of
two that are equally near it is the larger. -/
def RoundingInterval.onGrid? (i : RoundingInterval) (exponent : Int) : Option Nat :=
  let numerator := Nat.pow 2 1076 * (if exponent < 0 then 1 else Nat.pow 10 exponent.natAbs)
  let denominator := if exponent < 0 then Nat.pow 10 exponent.natAbs else 1
  let lower := i.value * denominator / numerator
  let upper := lower + 1
  let lowerHolds := lower != 0 && i.holds lower numerator denominator
  let upperHolds := i.holds upper numerator denominator
  let nearerLower := i.value * denominator - lower * numerator < upper * numerator - i.value * denominator
  if lowerHolds && (nearerLower || !upperHolds) then some lower
  else if upperHolds then some upper
  else none

/-- The coarsest decimal grid with a point in the interval, from `exponent` down: the point and the grid's exponent. -/
def RoundingInterval.shortest (i : RoundingInterval) : Nat → Int → Nat × Int
  | 0, exponent => (0, exponent)
  | fuel + 1, exponent =>
    match i.onGrid? exponent with
    | some count => (count, exponent)
    | none => i.shortest fuel (exponent - 1)

/-- The fewest digits that read back as a finite non-zero double, with the power of ten of the last digit. -/
def shortestDigits (d : Double) : Nat × Int :=
  let interval := roundingInterval d
  let start := (digitsOf (interval.value / Nat.pow 2 1076)).length
  interval.shortest (start + 360) start

/-- Digits without an exponent: a point is put inside them, or zeros are put before or after them. -/
def positional (digits : List Char) (exponent : Int) : List Char :=
  if exponent ≥ 0 then digits ++ List.replicate exponent.toNat '0'
  else
    let places := exponent.natAbs
    if places < digits.length then
      digits.take (digits.length - places) ++ '.' :: digits.drop (digits.length - places)
    else '0' :: '.' :: (List.replicate (places - digits.length) '0' ++ digits)

end Decimal

/-- Reads a number text to the nearest double. -/
def Double.ofText? (text : String) : Option Double := Decimal.readDouble? text.toList

/-- The fewest digits that read back, never with an exponent. An integral number has no point. -/
def Double.toText (d : Double) : String :=
  if d.isNaN then "NaN"
  else
    let body :=
      if d.magnitude == 0 then ['0']
      else if d.isFinite then
        let (count, exponent) := Decimal.shortestDigits d
        Decimal.positional (Decimal.digitsOf count) exponent
      else ['i', 'n', 'f']
    String.ofList (if d.negative then '-' :: body else body)

end FeedQuery
