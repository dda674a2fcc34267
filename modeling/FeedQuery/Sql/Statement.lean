import FeedQuery.Instant
import FeedQuery.Json
import FeedQuery.Number.Double
import FeedQuery.Uuid

/-!
# Statements

A statement is a list of pieces: fixed text, and values that are sent beside it. Its text holds a placeholder for each
value, numbered from one in the order of the pieces, so that the value of the placeholder with number `k` is the `k`-th
that is sent.
-/

namespace FeedQuery.Sql

/-- A value that is sent beside the text of a statement, with its type in the database. -/
inductive Bind where
  | text (value : String)
  | texts (values : List String)
  | uuid (value : Uuid)
  | uuids (values : List Uuid)
  | double (value : Double)
  | bool (value : Bool)
  | integer (value : Int)
  | json (value : Json)
  /-- Microseconds since the start of 2000, in UTC. -/
  | timestamp (micros : Int)
deriving Repr

namespace Bind

/-- The start of 2000 in nanoseconds since the start of 1970. -/
def timestampEpoch : Int := 946684800 * Instant.nanosPerSecond

/-- An instant as the database keeps it: what is less than a microsecond is cut off towards the start of 2000. -/
def ofInstant (t : Instant) : Bind := .timestamp ((t.nanos - timestampEpoch).tdiv 1000)

/-- A row count as the database takes it; more than it can hold is the most that it can hold. -/
def ofCount (n : Nat) : Bind := .integer (min n (Nat.pow 2 63 - 1) : Nat)

end Bind

/-- A part of a statement. -/
inductive Piece where
  | text (text : String)
  | bind (value : Bind)
deriving Repr

/-- A statement in pieces. -/
structure Statement where
  pieces : List Piece
deriving Repr

namespace Statement

/-- A statement without values. -/
def ofText (text : String) : Statement := ⟨[.text text]⟩

/-- The text of pieces whose first placeholder has the given number. -/
def textFrom (number : Nat) : List Piece → String
  | [] => ""
  | .text text :: rest => text ++ textFrom number rest
  | .bind _ :: rest => "$" ++ toString number ++ textFrom (number + 1) rest

/-- The text, with a numbered placeholder for each value. -/
def text (s : Statement) : String := textFrom 1 s.pieces

/-- The values, in the order of their placeholders. -/
def binds (s : Statement) : List Bind :=
  s.pieces.filterMap fun
    | .bind value => some value
    | .text _ => none

end Statement

end FeedQuery.Sql
