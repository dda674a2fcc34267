import FeedQuery.Calendar
import FeedQuery.Json
import FeedQuery.Number.Decimal
import FeedQuery.Text.Blank
import FeedQuery.Text.Hex

/-!
# Scalars in TOML

The values that are written without quotes: booleans, integers, floating-point numbers, dates and times. Each is a JSON
value; a number that is not finite is null, and a date or time is an object with one field, which holds its text.
-/

namespace FeedQuery.Toml

/-- Digits in groups with an underscore between two groups. -/
def digits? (isDigit : Char → Bool) (text : List Char) : Option (List Char) :=
  let groups := Text.splitList '_' text
  if groups.all fun group => !group.isEmpty && group.all isDigit then some groups.flatten else none

/-- Decimal digits of which the first is zero only if it is the only one. -/
def whole? (text : List Char) : Option (List Char) :=
  match digits? Char.isDigit text with
  | some ['0'] => some ['0']
  | some ('0' :: _) => none
  | found => found

/-- The value of digits in some base. -/
def ofDigits (base : Nat) (digits : List Char) : Nat :=
  digits.foldl (fun value c => value * base + (Text.hexDigit? c).getD 0) 0

/-- An integer that has 64 bits. -/
def integer (value : Int) : Option Json := (Number.ofInt? value).map .number

/-- An integer in the base that its mark names. -/
def marked? (base : Nat) (text : List Char) : Option Json :=
  let isDigit (c : Char) : Bool := ((Text.hexDigit? c).map (decide <| · < base)).getD false
  (digits? isDigit text).bind fun digits => integer (ofDigits base digits)

/-- What follows the whole part of a floating-point number: a fraction, an exponent or both. -/
def isFloatTail (text : List Char) : Bool :=
  let exponent (text : List Char) : Bool :=
    match text with
    | c :: rest => (c == 'e' || c == 'E') && (digits? Char.isDigit (Decimal.readSign rest).2).isSome
    | [] => false
  match text with
  | '.' :: rest =>
    let isMark (c : Char) : Bool := c == 'e' || c == 'E'
    let fraction := rest.takeWhile (!isMark ·)
    let rest := rest.dropWhile (!isMark ·)
    (digits? Char.isDigit fraction).isSome && (rest.isEmpty || exponent rest)
  | text => exponent text

/-- A floating-point number; one that is too large for a double is refused. -/
def float? (negative : Bool) (text : List Char) : Option Json :=
  let isWhole (c : Char) : Bool := c.isDigit || c == '_'
  if (whole? (text.takeWhile isWhole)).isSome && isFloatTail (text.dropWhile isWhole) then
    ((Decimal.readUnsigned? negative (text.filter (· != '_'))).bind Number.ofDouble?).map .number
  else none

/-- A number. Only decimal integers may have a sign. -/
def number? (text : List Char) : Option Json :=
  match text with
  | '0' :: 'x' :: rest => marked? 16 rest
  | '0' :: 'o' :: rest => marked? 8 rest
  | '0' :: 'b' :: rest => marked? 2 rest
  | text =>
    let (negative, rest) := Decimal.readSign text
    match rest with
    | ['i', 'n', 'f'] | ['n', 'a', 'n'] => some .null
    | rest => match whole? rest with
      | some digits => integer (if negative then -(ofDigits 10 digits : Int) else ofDigits 10 digits)
      | none => float? negative rest

/-- A number of exactly two digits, at most `highest`. -/
def pair? (highest : Nat) (a b : Char) : Option Nat :=
  let value := Decimal.ofDigits [Decimal.digitValue a, Decimal.digitValue b]
  if a.isDigit && b.isDigit && value ≤ highest then some value else none

/-- The text of a date at the front of a text, and what follows it. -/
def date? (text : List Char) : Option (List Char × List Char) :=
  match text with
  | y₁ :: y₂ :: y₃ :: y₄ :: '-' :: m₁ :: m₂ :: '-' :: d₁ :: d₂ :: rest => do
    let century ← pair? 99 y₁ y₂
    let year ← pair? 99 y₃ y₄
    let month ← pair? 12 m₁ m₂
    let day ← pair? 31 d₁ d₂
    if Date.isValid ⟨(century * 100 + year : Nat), month, day⟩ then some (text.take 10, rest) else none
  | _ => none

/-- A fraction of a second with nine digits at most and no zeros at its end; it keeps one digit. -/
def trimFraction (digits : List Char) : List Char :=
  match (digits.take 9).reverse.dropWhile (· == '0') with
  | [] => ['0']
  | kept => kept.reverse

/-- The text of a time at the front of a text, and what follows it. Seconds may be left out, and a fraction with
them. -/
def time? (text : List Char) : Option (List Char × List Char) :=
  match text with
  | h₁ :: h₂ :: ':' :: m₁ :: m₂ :: rest => do
    let _ ← pair? 23 h₁ h₂
    let _ ← pair? 59 m₁ m₂
    let clock := text.take 5
    match rest with
    | ':' :: s₁ :: s₂ :: rest =>
      let _ ← pair? 60 s₁ s₂
      let clock := clock ++ [':', s₁, s₂]
      match rest with
      | '.' :: rest =>
        let fraction := rest.takeWhile Char.isDigit
        if fraction.isEmpty then none
        else some (clock ++ '.' :: trimFraction fraction, rest.dropWhile Char.isDigit)
      | rest => some (clock, rest)
    | ':' :: _ => none
    | rest => some (clock, rest)
  | _ => none

/-- The text of an offset from UTC. -/
def offset? (text : List Char) : Option (List Char) :=
  match text with
  | ['Z'] | ['z'] => some ['Z']
  | [sign, h₁, h₂, ':', m₁, m₂] => do
    let _ ← pair? 23 h₁ h₂
    let _ ← pair? 59 m₁ m₂
    if sign == '+' || sign == '-' then some text else none
  | _ => none

/-- The field that holds the text of a date or time. -/
def dateField : String := "$__toml_private_datetime"

/-- A date, a time, or both with or without an offset. -/
def datetime? (text : List Char) : Option Json :=
  let value (text : List Char) : Json := .object [(dateField, .string (String.ofList text))]
  match date? text with
  | some (date, []) => some (value date)
  | some (date, separator :: rest) =>
    if separator == 'T' || separator == 't' || separator == ' ' then do
      let (time, rest) ← time? rest
      let offset ← if rest.isEmpty then some [] else offset? rest
      some (value (date ++ 'T' :: time ++ offset))
    else none
  | none => match time? text with
    | some (time, []) => some (value time)
    | _ => none

/-- A value that is written without quotes. -/
def scalar? (text : List Char) : Option Json :=
  match String.ofList text with
  | "true" => some (.bool true)
  | "false" => some (.bool false)
  | _ => (number? text).or (datetime? text)

end FeedQuery.Toml
