import FeedQuery.Document
import FeedQuery.Instant

/-!
# Scalars

A scalar is what a predicate compares a field with. A stored value is decoded under the kind of the scalar first, so
that values of different kinds are never equal and never ordered. Equality sees into arrays: a field matches when one of
its elements does.
-/

namespace FeedQuery

/-- How a stored value is read. -/
inductive ValueKind where
  | id
  | text
  | number
  | bool
  | datetime
deriving DecidableEq, Repr, Inhabited

/-- A typed value. -/
inductive Scalar where
  | id (value : Uuid)
  | text (value : String)
  | number (value : Double)
  | bool (value : Bool)
  | datetime (value : Instant)
  | null
deriving DecidableEq, Repr, Inhabited

namespace ValueKind

/-- Reads a stored value; `none` if it is not of the kind. -/
def decode : ValueKind → Json → Option Scalar
  | .id, value => (value.string?.bind Uuid.ofText?).map .id
  | .text, value => value.string?.map .text
  | .number, value => value.double?.map .number
  | .bool, value => value.bool?.map .bool
  | .datetime, value => (value.string?.bind Instant.ofText?).map .datetime

end ValueKind

namespace Scalar

/-- The kind of a scalar; null has none. -/
def kind? : Scalar → Option ValueKind
  | .id _ => some .id
  | .text _ => some .text
  | .number _ => some .number
  | .bool _ => some .bool
  | .datetime _ => some .datetime
  | .null => none

/-- The stored form of a scalar. -/
def toJson : Scalar → Json
  | .id value => .string value.toText
  | .text value => .string value
  | .number value => .ofDouble value
  | .bool value => .bool value
  | .datetime value => .string value.toText
  | .null => .null

/-- The order of two scalars of one kind. -/
def compare? : Scalar → Scalar → Option Ordering
  | .id a, .id b => some (compare a b)
  | .text a, .text b => some (compare a b)
  | .number a, .number b => a.compare? b
  | .bool a, .bool b => some (compare a b)
  | .datetime a, .datetime b => some (compare a b)
  | .null, .null => some .eq
  | _, _ => none

/-- The order of a stored value relative to the scalar: `lt` when the stored value comes first. A value of another kind
has none. -/
def orderOf (s : Scalar) (value : Json) : Option Ordering :=
  s.kind?.bind fun kind => (kind.decode value).bind fun stored => stored.compare? s

/-- Whether a field holds the scalar: null is a missing field too, and an array holds what one of its elements is. -/
def holdsAt (s : Scalar) (field : Option Json) : Bool :=
  match s, field with
  | .null, none => true
  | .null, some .null => true
  | .null, some _ => false
  | _, none => false
  | s, some (.array items) => items.any fun item => s.orderOf item == some .eq
  | s, some value => s.orderOf value == some .eq

def id? : Scalar → Option Uuid
  | .id value => some value
  | _ => none

def bool? : Scalar → Option Bool
  | .bool value => some value
  | _ => none

def text? : Scalar → Option String
  | .text value => some value
  | _ => none

end Scalar

end FeedQuery
