/-!
# Binary floating point numbers

A `Double` is a sign and a magnitude. The magnitude is the number that the exponent and fraction bits make when they are
read together, so that a larger magnitude is a larger number and the order of doubles is the order of integers
(`Double.key?`). Everything above the magnitude of infinity is not a number. `Single` is the same for the 32-bit format.

`BinaryFormat.round` is the only place where a value is rounded: to nearest, a half to the even neighbour.
-/

namespace FeedQuery

/-- The parameters of a binary interchange format: a finite magnitude counts multiples of `2 ^ -scale`, and every
`2 ^ fractionBits` magnitudes the spacing doubles. -/
structure BinaryFormat where
  fractionBits : Nat
  scale : Nat
  infinity : Nat
deriving DecidableEq, Repr

namespace BinaryFormat

/-- The 64-bit format. -/
def double : BinaryFormat := ⟨52, 1074, 0x7ff0000000000000⟩

/-- The 32-bit format. -/
def single : BinaryFormat := ⟨23, 149, 0x7f800000⟩

/-- How many multiples of `2 ^ -scale` a finite magnitude stands for. -/
def quanta (format : BinaryFormat) (magnitude : Nat) : Nat :=
  let unit := Nat.pow 2 format.fractionBits
  if magnitude < unit then magnitude else (unit + magnitude % unit) * Nat.pow 2 (magnitude / unit - 1)

/-- The quotient rounded to the nearest integer, a half to the even one. -/
def divideToEven (numerator denominator : Nat) : Nat :=
  let floor := numerator / denominator
  let twice := 2 * (numerator % denominator)
  if twice > denominator || (twice == denominator && floor % 2 == 1) then floor + 1 else floor

/-- The magnitude nearest to a non-negative ratio; one beyond the largest finite number gives infinity. -/
def round (format : BinaryFormat) (numerator denominator : Nat) : Nat :=
  let scaled := numerator * Nat.pow 2 format.scale
  let shift := (scaled / denominator).log2 - format.fractionBits
  min format.infinity (shift * Nat.pow 2 format.fractionBits + divideToEven scaled (denominator * Nat.pow 2 shift))

/-- The number of hexadecimal digits of the format's bits. -/
def hexDigits (format : BinaryFormat) : Nat :=
  (format.infinity.log2 + 2) / 4

end BinaryFormat

/-- A 64-bit floating point number. -/
structure Double where
  negative : Bool
  magnitude : Nat
deriving DecidableEq, Repr, Inhabited

namespace Double

/-- The magnitude of infinity; larger ones are not numbers. -/
def infinity : Nat := BinaryFormat.double.infinity

/-- Positive zero. -/
def zero : Double := ⟨false, 0⟩

/-- Some value that is not a number. -/
def nan : Double := ⟨false, infinity + Nat.pow 2 51⟩

/-- Whether the value is a number other than an infinity. -/
def isFinite (d : Double) : Bool := d.magnitude < infinity

/-- Whether the value is not a number. -/
def isNaN (d : Double) : Bool := infinity < d.magnitude

/-- The place of a number in the order of all numbers; the two zeros share one place. -/
def key? (d : Double) : Option Int :=
  if d.isNaN then none else some (if d.negative then -d.magnitude else d.magnitude)

/-- The order of two numbers; what is not a number is incomparable. -/
def compare? (a b : Double) : Option Ordering :=
  match a.key?, b.key? with
  | some x, some y => some (compare x y)
  | _, _ => none

/-- The double nearest to a ratio with the given sign. -/
def ofRatio (negative : Bool) (numerator denominator : Nat) : Double :=
  ⟨negative, BinaryFormat.double.round numerator denominator⟩

/-- The double nearest to an integer. -/
def ofInt (value : Int) : Double :=
  ofRatio (value < 0) value.natAbs 1

/-- The double whose sign, exponent and fraction bits are those of a 64-bit word. -/
def ofBits (bits : Nat) : Double :=
  ⟨bits / Nat.pow 2 63 % 2 == 1, bits % Nat.pow 2 63⟩

/-- The 64 bits; every value that is not a number has the bits of `nan`. -/
def bits (d : Double) : Nat :=
  if d.isNaN then nan.magnitude else (if d.negative then Nat.pow 2 63 else 0) + d.magnitude

/-- How many multiples of `2 ^ -1074` a finite double stands for, sign apart. -/
def quanta (d : Double) : Nat := BinaryFormat.double.quanta d.magnitude

end Double

/-- A 32-bit floating point number. -/
structure Single where
  negative : Bool
  magnitude : Nat
deriving DecidableEq, Repr, Inhabited

namespace Single

/-- The magnitude of infinity; larger ones are not numbers. -/
def infinity : Nat := BinaryFormat.single.infinity

/-- Some value that is not a number. -/
def nan : Single := ⟨false, infinity + Nat.pow 2 22⟩

/-- The 32-bit number nearest to a double. -/
def ofDouble (d : Double) : Single :=
  if d.isNaN then nan
  else if d.isFinite then ⟨d.negative, BinaryFormat.single.round d.quanta (Nat.pow 2 BinaryFormat.double.scale)⟩
  else ⟨d.negative, infinity⟩

/-- The double with the same value. -/
def toDouble (s : Single) : Double :=
  if s.magnitude > infinity then .nan
  else if s.magnitude < infinity then
    .ofRatio s.negative (BinaryFormat.single.quanta s.magnitude) (Nat.pow 2 BinaryFormat.single.scale)
  else ⟨s.negative, Double.infinity⟩

/-- The 32 bits; every value that is not a number has the bits of `nan`. -/
def bits (s : Single) : Nat :=
  if s.magnitude > infinity then nan.magnitude else (if s.negative then Nat.pow 2 31 else 0) + s.magnitude

end Single

end FeedQuery
