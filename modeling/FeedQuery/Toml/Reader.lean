import FeedQuery.Toml.Quoted
import FeedQuery.Toml.Scalar
import FeedQuery.Toml.Table

/-!
# Reading TOML

A text is a list of parts: the entries before the first header, and for each header the entries under it. `Toml.ofText?`
reads the parts and puts them together into one table; it refuses what is no TOML and what defines something twice.
Arrays and inline tables may go over several lines, and a comma may stand after their last item.
-/

namespace FeedQuery.Toml

/-- The entries under one header; the entries before the first header have an empty key. -/
structure Part where
  key : List String
  /-- Whether the header is one of several with a table each. -/
  repeated : Bool
  entries : List (List String × Json)

/-- Skips blanks, line breaks and comments; `comment` says whether the text begins in a comment. -/
def skipGap? (comment : Bool) : List Char → Option (List Char)
  | [] => some []
  | '\n' :: rest => skipGap? false rest
  | '\r' :: '\n' :: rest => skipGap? false rest
  | c :: rest =>
    if comment then (if isPlain c then skipGap? true rest else none)
    else if isSpace c then skipGap? false rest
    else if c == '#' then skipGap? true rest
    else some (c :: rest)

/-- Skips the rest of a line that holds nothing more than blanks and a comment. -/
def endLine? (comment : Bool) : List Char → Option (List Char)
  | [] => some []
  | '\n' :: rest => some rest
  | '\r' :: '\n' :: rest => some rest
  | c :: rest =>
    if comment then (if isPlain c then endLine? true rest else none)
    else if isSpace c then endLine? false rest
    else if c == '#' then endLine? true rest
    else none

/-- Whether a character may stand in a key without quotes. -/
def isBare (c : Char) : Bool := c.isAlphanum || c == '-' || c == '_'

/-- One name of a key, and what follows it. -/
def name? (text : List Char) : Option (String × List Char) :=
  match line? text with
  | some (name, rest) => some (String.ofList name, rest)
  | none =>
    let name := text.takeWhile isBare
    if name.isEmpty then none else some (String.ofList name, text.dropWhile isBare)

/-- A key: names with dots between them, and what follows the blanks after it. -/
def key? : Nat → List Char → Option (List String × List Char)
  | 0, _ => none
  | fuel + 1, text => do
    let (name, rest) ← name? (text.dropWhile isSpace)
    match rest.dropWhile isSpace with
    | '.' :: rest =>
      let (names, rest) ← key? fuel rest
      some (name :: names, rest)
    | rest => some ([name], rest)

/-- Whether a character may stand in a value without quotes. -/
def isScalar (c : Char) : Bool := c.isAlphanum || c == '_' || c == '+' || c == '-' || c == '.' || c == ':'

/-- A value without quotes, and what follows it. A blank may stand between a date and a time. -/
def unquoted? (text : List Char) : Option (Json × List Char) :=
  let token := text.takeWhile isScalar
  let rest := text.dropWhile isScalar
  match rest with
  | ' ' :: next =>
    if (date? token) matches some (_, []) then
      if (next.head?.map Char.isDigit).getD false then
        (scalar? (token ++ ' ' :: next.takeWhile isScalar)).map (·, next.dropWhile isScalar)
      else (scalar? token).map (·, rest)
    else (scalar? token).map (·, rest)
  | rest => (scalar? token).map (·, rest)

/-- The object that the entries of an inline table make. -/
def inlineTable? (entries : List (List String × Json)) : Option Json :=
  (Table.putAll? entries []).map Table.toJson

mutual

/-- A value, at most `depth` containers deep. -/
def value? (fuel depth : Nat) (text : List Char) : Option (Json × List Char) :=
  match fuel with
  | 0 => none
  | fuel + 1 =>
    match text with
    | '[' :: rest =>
      match depth with
      | 0 => none
      | depth + 1 => items? fuel depth [] rest
    | '\x7b' :: rest =>
      match depth with
      | 0 => none
      | depth + 1 => entries? fuel depth [] rest
    | text =>
      match text.head? with
      | some '"' | some '\'' => (string? text).map fun (value, rest) => (.string (String.ofList value), rest)
      | _ => unquoted? text

/-- The rest of an array where an item or its end may stand; `read` holds the items before, last one first. -/
def items? (fuel depth : Nat) (read : List Json) (text : List Char) : Option (Json × List Char) :=
  match fuel with
  | 0 => none
  | fuel + 1 =>
    match skipGap? false text with
    | none => none
    | some (']' :: rest) => some (.array read.reverse, rest)
    | some rest =>
      match value? fuel depth rest with
      | none => none
      | some (item, rest) =>
        match skipGap? false rest with
        | some (',' :: rest) => items? fuel depth (item :: read) rest
        | some (']' :: rest) => some (.array (item :: read).reverse, rest)
        | _ => none

/-- The rest of an inline table where an entry or its end may stand; `read` holds the entries before, last one first. -/
def entries? (fuel depth : Nat) (read : List (List String × Json)) (text : List Char) : Option (Json × List Char) :=
  match fuel with
  | 0 => none
  | fuel + 1 =>
    match skipGap? false text with
    | none => none
    | some ('\x7d' :: rest) => (inlineTable? read.reverse).map (·, rest)
    | some rest =>
      match entry? fuel depth rest with
      | none => none
      | some (entry, rest) =>
        match skipGap? false rest with
        | some (',' :: rest) => entries? fuel depth (entry :: read) rest
        | some ('\x7d' :: rest) => (inlineTable? (entry :: read).reverse).map (·, rest)
        | _ => none

/-- A key, an equals sign and a value. -/
def entry? (fuel depth : Nat) (text : List Char) : Option ((List String × Json) × List Char) :=
  match fuel with
  | 0 => none
  | fuel + 1 =>
    match key? (text.length + 1) text with
    | some (key, '=' :: rest) => (value? fuel depth (rest.dropWhile isSpace)).map fun (value, rest) =>
        ((key, value), rest)
    | _ => none

end

/-- How deep arrays and inline tables may nest. -/
def maxDepth : Nat := 80

/-- The header at the front of a text, as a part without entries, and what follows its line. -/
def header? (text : List Char) : Option (Part × List Char) :=
  match text with
  | '[' :: '[' :: rest =>
    match key? (rest.length + 1) rest with
    | some (key, ']' :: ']' :: rest) => (endLine? false rest).map (⟨key, true, []⟩, ·)
    | _ => none
  | '[' :: rest =>
    match key? (rest.length + 1) rest with
    | some (key, ']' :: rest) => (endLine? false rest).map (⟨key, false, []⟩, ·)
    | _ => none
  | _ => none

/-- The parts of a text, `part` being the one that it begins in, with the entries that it has so far in reverse. -/
def parts? (fuel : Nat) (part : Part) (text : List Char) : Option (List Part) :=
  match fuel with
  | 0 => none
  | fuel + 1 =>
    let done : Part := { part with entries := part.entries.reverse }
    match skipGap? false text with
    | none => none
    | some [] => some [done]
    | some ('[' :: rest) => do
      let (next, rest) ← header? ('[' :: rest)
      let parts ← parts? fuel next rest
      some (done :: parts)
    | some rest => do
      let (entry, rest) ← entry? (2 * rest.length + 2) maxDepth rest
      let rest ← endLine? false rest
      parts? fuel { part with entries := entry :: part.entries } rest

/-- Adds a part to the table of a text. -/
def addPart? (t : Table) (part : Part) : Option Table :=
  if part.key.isEmpty then t.putAll? part.entries else t.under? part.repeated (Table.putAll? part.entries) part.key

/-- The table that a text is. -/
def ofText? (text : String) : Option Json := do
  let chars := match text.toList with
    | '\uFEFF' :: rest => rest
    | chars => chars
  let parts ← parts? (chars.length + 1) ⟨[], false, []⟩ chars
  let table ← parts.foldlM addPart? []
  some table.toJson

end FeedQuery.Toml
