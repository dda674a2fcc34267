import FeedQuery.Rejection
import FeedQuery.Query

/-!
# Cursors

A cursor is all that a caller carries from one page to the next: the identifier at the position field of the last
document, and the value of the primary key when that key is not unique. A `CursorPlan` says how a cursor lies in an
ordered result: `sortKeys` is the order, `bound` accepts what comes strictly after a cursor, and `next?` makes the
cursor of a page.
-/

namespace FeedQuery

/-- A place in an ordered result. -/
structure Cursor where
  lastId : Uuid
  lastValue : Option Double
deriving DecidableEq, Repr

namespace Cursor

/-- A parameter that is given and not blank, without the blanks around it. -/
def given? (raw : Option String) : Option String := (raw.map Text.trim).filter fun text => !text.isEmpty

/-- The value of a cursor: a finite number. -/
def readValue (raw : String) : Except CursorFault Double :=
  match Double.ofText? raw with
  | none => .error (.notANumber raw)
  | some value => if value.isFinite then .ok value else .error .notFinite

/-- Reads the two parameters. A value without an identifier is passed over. -/
def read (cursor nextValue : Option String) : Except CursorFault (Option Cursor) :=
  match given? cursor with
  | none => .ok none
  | some raw =>
    match Uuid.ofText? raw with
    | none => .error (.notAnId raw)
    | some id =>
      match given? nextValue with
      | none => .ok (some ⟨id, none⟩)
      | some raw => (readValue raw).map fun value => some ⟨id, some value⟩

end Cursor

/-- What the next request has to carry. -/
structure NextCursor where
  cursor : String
  value : Option Double
deriving DecidableEq, Repr

/-- How a cursor lies in an ordered result. -/
structure CursorPlan where
  /-- The field of the documents that holds the identifier. -/
  position : Path
  direction : Direction
  /-- A key before the identifier: a number that several documents may share. -/
  key : Option SortKey
deriving DecidableEq, Repr

namespace CursorPlan

/-- By identifier alone. -/
def byId (direction : Direction) : CursorPlan := ⟨.id, direction, none⟩

/-- By a key, then the newest identifier first. -/
def keyed (key : SortKey) : CursorPlan := ⟨.id, .descending, some key⟩

/-- The order: the key first, the position last. -/
def sortKeys (p : CursorPlan) : List SortKey := p.key.toList ++ [⟨p.position, p.direction, .id⟩]

/-- What lies strictly after a scalar in a direction. -/
def after (direction : Direction) (path : Path) (value : Scalar) : Predicate :=
  match direction with
  | .descending => .order path .lt value
  | .ascending => .order path .gt value

/-- What lies strictly after a cursor when the identifier is read from a given field. -/
def boundAt (p : CursorPlan) (position : Path) (cursor : Cursor) : Predicate :=
  let afterId := after p.direction position (.id cursor.lastId)
  match p.key, cursor.lastValue with
  | some key, some value =>
    .any [after key.direction key.path (.number value), .all [.eq key.path (.number value), afterId]]
  | _, _ => afterId

/-- What lies strictly after a cursor; without one, everything. -/
def bound (p : CursorPlan) (cursor : Option Cursor) : Predicate :=
  match cursor with
  | some cursor => p.boundAt p.position cursor
  | none => .always

/-- The cursor of a page that ends with a document. An empty page has none. -/
def next? (p : CursorPlan) (last : Option Document) : Option NextCursor :=
  last.bind fun last => ((last.get? p.position).bind Json.string?).map fun cursor =>
    ⟨cursor, (p.key.bind fun key => last.get? key.path).bind Json.double?⟩

end CursorPlan

end FeedQuery
