import FeedQuery.Text.Hex

/-!
# Strings in TOML

A basic string is in double quotes and has escapes; a literal string is in single quotes and has none. Between three
quotes a string may go over several lines: a line break right after the opening quotes is not part of it, and one or two
quotes may stand anywhere inside. Control characters other than the tab have to be escaped.
-/

namespace FeedQuery.Toml

/-- Whether a character may stand for itself in a string or a comment. -/
def isPlain (c : Char) : Bool := c == '\t' || (0x20 ≤ c.toNat && c.toNat != 0x7f)

/-- The character whose number is written with the given count of hexadecimal digits, and what follows. -/
def codePoint? (count : Nat) (text : List Char) : Option (Char × List Char) := do
  if text.length < count then none
  let digits ← (text.take count).mapM Text.hexDigit?
  let value := Text.ofHex digits
  if value.isValidChar then some (Char.ofNat value, text.drop count) else none

/-- The character of an escape, after the backslash, and what follows. -/
def escape? : List Char → Option (Char × List Char)
  | 'b' :: rest => some ('\x08', rest)
  | 't' :: rest => some ('\t', rest)
  | 'n' :: rest => some ('\n', rest)
  | 'f' :: rest => some ('\x0c', rest)
  | 'r' :: rest => some ('\r', rest)
  | 'e' :: rest => some ('\x1b', rest)
  | '"' :: rest => some ('"', rest)
  | '\\' :: rest => some ('\\', rest)
  | 'x' :: rest => codePoint? 2 rest
  | 'u' :: rest => codePoint? 4 rest
  | 'U' :: rest => codePoint? 8 rest
  | _ => none

/-- The rest of a basic string on one line; `read` holds what was read, last character first. -/
def basicBody? : Nat → List Char → List Char → Option (List Char × List Char)
  | 0, _, _ => none
  | _ + 1, _, [] => none
  | _ + 1, read, '"' :: rest => some (read.reverse, rest)
  | fuel + 1, read, '\\' :: rest => (escape? rest).bind fun (c, rest) => basicBody? fuel (c :: read) rest
  | fuel + 1, read, c :: rest => if isPlain c then basicBody? fuel (c :: read) rest else none

/-- The rest of a literal string on one line. -/
def literalBody? (text : List Char) : Option (List Char × List Char) :=
  let inside := text.takeWhile (· != '\'')
  match text.dropWhile (· != '\'') with
  | _ :: rest => if inside.all isPlain then some (inside, rest) else none
  | [] => none

/-- What follows a line break at the front of a text, if there is one. -/
def lineBreak? : List Char → Option (List Char)
  | '\n' :: rest => some rest
  | '\r' :: '\n' :: rest => some rest
  | _ => none

/-- Whether a character is a blank within a line. -/
def isSpace (c : Char) : Bool := c == ' ' || c == '\t'

/-- What follows a backslash at the end of a line: the text from the next character on that is no blank or line
break. -/
def continuation? (text : List Char) : Option (List Char) :=
  (lineBreak? (text.dropWhile isSpace)).map fun rest => rest.dropWhile fun c => isSpace c || c == '\n' || c == '\r'

/-- The rest of a string between three quotes; `read` holds what was read, last character first. With `escapes` a
backslash begins an escape or, at the end of a line, takes away all blanks and line breaks up to the next character. -/
def linesBody? (quote : Char) (escapes : Bool) : Nat → List Char → List Char → Option (List Char × List Char)
  | 0, _, _ => none
  | _ + 1, _, [] => none
  | fuel + 1, read, c :: rest =>
    if c == quote then
      let count := min 5 ((c :: rest).takeWhile (· == quote)).length
      let after := (c :: rest).drop count
      if 3 ≤ count then some (read.reverse ++ List.replicate (count - 3) quote, after)
      else linesBody? quote escapes fuel (List.replicate count quote ++ read) after
    else if escapes && c == '\\' then
      match continuation? rest with
      | some rest => linesBody? quote escapes fuel read rest
      | none => (escape? rest).bind fun (c, rest) => linesBody? quote escapes fuel (c :: read) rest
    else if isPlain c || (lineBreak? (c :: rest)).isSome then linesBody? quote escapes fuel (c :: read) rest
    else none

/-- A string on one line, if the text begins with one, and what follows. -/
def line? : List Char → Option (List Char × List Char)
  | '"' :: rest => basicBody? (rest.length + 1) [] rest
  | '\'' :: rest => literalBody? rest
  | _ => none

/-- A string, if the text begins with one, and what follows. -/
def string? (text : List Char) : Option (List Char × List Char) :=
  let lines (quote : Char) (escapes : Bool) (rest : List Char) : Option (List Char × List Char) :=
    linesBody? quote escapes (rest.length + 1) [] ((lineBreak? rest).getD rest)
  match text with
  | '"' :: '"' :: '"' :: rest => lines '"' true rest
  | '\'' :: '\'' :: '\'' :: rest => lines '\'' false rest
  | text => line? text

end FeedQuery.Toml
