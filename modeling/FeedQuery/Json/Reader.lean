import FeedQuery.Json
import FeedQuery.Number.Decimal
import FeedQuery.Text.Hex

/-!
# Reading JSON

`Json.ofText?` reads one JSON text. An integer that has not 64 bits, and minus zero, are read as doubles; a number
beyond the largest double is refused. Of two fields with one name the last counts. Arrays and objects nest at most 127
deep.
-/

namespace FeedQuery.Json.Reader

/-- The blanks that JSON allows between tokens. -/
def isSpace (c : Char) : Bool := c == ' ' || c == '\n' || c == '\t' || c == '\r'

def skipSpace (text : List Char) : List Char := text.dropWhile isSpace

/-- What follows a word. -/
def expect? : List Char → List Char → Option (List Char)
  | [], text => some text
  | c :: word, d :: text => if c = d then expect? word text else none
  | _ :: _, [] => none

/-- The value of four hexadecimal digits, and what follows them. -/
def hex4? (text : List Char) : Option (Nat × List Char) :=
  match text with
  | a :: b :: c :: d :: rest =>
    match Text.hexDigit? a, Text.hexDigit? b, Text.hexDigit? c, Text.hexDigit? d with
    | some a, some b, some c, some d => some (Text.ofHex [a, b, c, d], rest)
    | _, _, _, _ => none
  | _ => none

/-- The character of a `\u` escape, after the `u`. A high surrogate needs a low one in the next escape. -/
def unicodeEscape? (text : List Char) : Option (Char × List Char) := do
  let (unit, rest) ← hex4? text
  if 0xdc00 ≤ unit ∧ unit ≤ 0xdfff then none
  else if 0xd800 ≤ unit ∧ unit ≤ 0xdbff then
    let rest ← expect? ['\\', 'u'] rest
    let (low, rest) ← hex4? rest
    if 0xdc00 ≤ low ∧ low ≤ 0xdfff then
      some (Char.ofNat (0x10000 + (unit - 0xd800) * 0x400 + (low - 0xdc00)), rest)
    else none
  else some (Char.ofNat unit, rest)

/-- The character of an escape, after the backslash. -/
def escape? : List Char → Option (Char × List Char)
  | '"' :: rest => some ('"', rest)
  | '\\' :: rest => some ('\\', rest)
  | '/' :: rest => some ('/', rest)
  | 'b' :: rest => some ('\x08', rest)
  | 'f' :: rest => some ('\x0c', rest)
  | 'n' :: rest => some ('\n', rest)
  | 'r' :: rest => some ('\r', rest)
  | 't' :: rest => some ('\t', rest)
  | 'u' :: rest => unicodeEscape? rest
  | _ => none

/-- The rest of a string after its opening quote; `read` holds what was read, last character first. -/
def stringBody? : Nat → List Char → List Char → Option (String × List Char)
  | 0, _, _ => none
  | _ + 1, _, [] => none
  | _ + 1, read, '"' :: rest => some (String.ofList read.reverse, rest)
  | fuel + 1, read, '\\' :: rest => (escape? rest).bind fun (c, rest) => stringBody? fuel (c :: read) rest
  | fuel + 1, read, c :: rest => if c.toNat < 0x20 then none else stringBody? fuel (c :: read) rest

/-- A string after its opening quote. -/
def string? (text : List Char) : Option (String × List Char) := stringBody? (text.length + 1) [] text

/-- The digits before the point: zero, or digits that do not start with zero. -/
def whole? (text : List Char) : Option (List Nat × List Char) :=
  match text with
  | '0' :: rest => if (rest.head?.map Char.isDigit).getD false then none else some ([0], rest)
  | _ => match Decimal.spanDigits text with
    | ([], _) => none
    | (digits, rest) => some (digits, rest)

/-- The digits after the point, if there is one. -/
def fraction? : List Char → Option (Option (List Nat) × List Char)
  | '.' :: rest => match Decimal.spanDigits rest with
    | ([], _) => none
    | (digits, rest) => some (some digits, rest)
  | text => some (none, text)

/-- The exponent, if there is one. -/
def exponent? : List Char → Option (Option Int × List Char)
  | c :: rest =>
    if c == 'e' || c == 'E' then
      let (negative, rest) := Decimal.readSign rest
      match Decimal.spanDigits rest with
      | ([], _) => none
      | (digits, rest) =>
        some (some (if negative then -(Decimal.ofDigits digits : Int) else Decimal.ofDigits digits), rest)
    else some (none, c :: rest)
  | [] => some (none, [])

/-- A number. -/
def number? (text : List Char) : Option (Number × List Char) := do
  let (negative, rest) := match text with
    | '-' :: rest => (true, rest)
    | rest => (false, rest)
  let (whole, rest) ← whole? rest
  let (fraction, rest) ← fraction? rest
  let (exponent, rest) ← exponent? rest
  let double := Decimal.toDouble negative (whole ++ fraction.getD []) (exponent.getD 0 - (fraction.getD []).length)
  let value : Int := if negative then -(Decimal.ofDigits whole : Int) else Decimal.ofDigits whole
  let integer := if fraction.isNone && exponent.isNone && !(negative && value == 0) then Number.ofInt? value else none
  match integer with
  | some found => some (found, rest)
  | none => (Number.ofDouble? double).map (·, rest)

mutual

/-- A value, at most `depth` containers deep. -/
def value? (fuel depth : Nat) (text : List Char) : Option (Json × List Char) :=
  match fuel with
  | 0 => none
  | fuel + 1 =>
    match skipSpace text with
    | '"' :: rest => (string? rest).map fun (value, rest) => (.string value, rest)
    | '[' :: rest =>
      match depth with
      | 0 => none
      | depth + 1 =>
        match skipSpace rest with
        | ']' :: rest => some (.array [], rest)
        | rest => items? fuel depth [] rest
    | '\x7b' :: rest =>
      match depth with
      | 0 => none
      | depth + 1 =>
        match skipSpace rest with
        | '\x7d' :: rest => some (.object [], rest)
        | rest => members? fuel depth [] rest
    | 'n' :: rest => (expect? ['u', 'l', 'l'] rest).map (.null, ·)
    | 't' :: rest => (expect? ['r', 'u', 'e'] rest).map (.bool true, ·)
    | 'f' :: rest => (expect? ['a', 'l', 's', 'e'] rest).map (.bool false, ·)
    | rest => (number? rest).map fun (value, rest) => (.number value, rest)

/-- The rest of an array from an item on; `read` holds the items before it, last one first. -/
def items? (fuel depth : Nat) (read : List Json) (text : List Char) : Option (Json × List Char) :=
  match fuel with
  | 0 => none
  | fuel + 1 =>
    match value? fuel depth text with
    | none => none
    | some (item, rest) =>
      match skipSpace rest with
      | ',' :: rest => items? fuel depth (item :: read) rest
      | ']' :: rest => some (.array (item :: read).reverse, rest)
      | _ => none

/-- The rest of an object from a name on; `read` holds the fields before it, last one first. -/
def members? (fuel depth : Nat) (read : List (String × Json)) (text : List Char) : Option (Json × List Char) :=
  match fuel with
  | 0 => none
  | fuel + 1 =>
    match skipSpace text with
    | '"' :: rest =>
      match string? rest with
      | none => none
      | some (name, rest) =>
        match skipSpace rest with
        | ':' :: rest =>
          match value? fuel depth rest with
          | none => none
          | some (item, rest) =>
            match skipSpace rest with
            | ',' :: rest => members? fuel depth ((name, item) :: read) rest
            | '\x7d' :: rest => some (.object (Fields.ofList ((name, item) :: read).reverse), rest)
            | _ => none
        | _ => none
    | _ => none

end

end FeedQuery.Json.Reader

namespace FeedQuery.Json

/-- How deep arrays and objects may nest. -/
def maxDepth : Nat := 127

/-- Reads one JSON text. -/
def ofText? (text : String) : Option Json :=
  let chars := text.toList
  match Reader.value? (2 * chars.length + 2) maxDepth chars with
  | some (value, rest) => if (Reader.skipSpace rest).isEmpty then some value else none
  | none => none

end FeedQuery.Json
