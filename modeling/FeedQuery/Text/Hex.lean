/-!
# Hexadecimal digits

Digits are read in either case and written in lower case.
-/

namespace FeedQuery.Text

/-- The value of a hexadecimal digit in either case. -/
def hexDigit? (c : Char) : Option Nat :=
  if '0' ≤ c ∧ c ≤ '9' then some (c.toNat - '0'.toNat)
  else if 'a' ≤ c ∧ c ≤ 'f' then some (c.toNat - 'a'.toNat + 10)
  else if 'A' ≤ c ∧ c ≤ 'F' then some (c.toNat - 'A'.toNat + 10)
  else none

/-- A digit below sixteen in lower case. -/
def hexChar (digit : Nat) : Char :=
  if digit < 10 then Char.ofNat ('0'.toNat + digit) else Char.ofNat ('a'.toNat + (digit - 10))

/-- The lowest `width` digits of a number, highest first. -/
def hexPadded (width n : Nat) : List Char :=
  (List.range width).map fun place => hexChar (n / Nat.pow 16 (width - 1 - place) % 16)

/-- The digits of a number without leading zeros; zero has one digit. -/
def hex (n : Nat) : List Char := hexPadded (n.log2 / 4 + 1) n

/-- The number that a list of digits makes, highest first. -/
def ofHex (digits : List Nat) : Nat := digits.foldl (fun value d => value * 16 + d) 0

end FeedQuery.Text
