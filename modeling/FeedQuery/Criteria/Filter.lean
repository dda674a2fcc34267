import FeedQuery.Rejection
import FeedQuery.Predicate

/-!
# Filters

A filter names a field and a value. Every field has one kind of value; a value that is not of that kind is a fault.
-/

namespace FeedQuery

/-- What can be filtered by. -/
inductive FilterKind where
  | owner
  | agent
  | task
  | collection
  | concept
  | similar
  | likedBy
  | minDate
  | maxDate
  | visibility
  | search
  | minLikes
  | name
  | baseModel
deriving DecidableEq, Repr, Inhabited

namespace FilterKind

/-- The names of filter fields. -/
def fields : List (String × FilterKind) := [
  ("user", .owner), ("owner", .owner), ("agent", .agent), ("task", .task), ("collection", .collection),
  ("concept", .concept),
  ("creation", .similar), ("likedBy", .likedBy), ("minDate", .minDate), ("maxDate", .maxDate), ("public", .visibility),
  ("visibility", .visibility), ("search", .search), ("minLikes", .minLikes), ("name", .name), ("baseModel", .baseModel)]

/-- The kind that a field name stands for. -/
def ofField? (field : String) : Option FilterKind := fields.lookup field

/-- Whether repeated filters of the kind collect their values. Of any other kind the last value counts. -/
def isMultiValued : FilterKind → Bool
  | .owner | .agent | .task | .name | .baseModel => true
  | _ => false

/-- A date: RFC 3339, or seconds since the start of 1970. -/
def readDate? (raw : String) : Option Instant :=
  match Instant.ofText? raw with
  | some t => some t
  | none => (Decimal.readInteger? (-(Nat.pow 2 63)) (Nat.pow 2 63 - 1) raw.toList).bind Instant.ofSeconds?

/-- A visibility, in any case of letters. -/
def readVisibility? (raw : String) : Option Bool :=
  match Text.lower raw with
  | "true" | "1" | "public" => some true
  | "false" | "0" | "private" => some false
  | _ => none

/-- Reads the value of a filter. -/
def read (kind : FilterKind) (raw : String) : Except FilterFault Scalar :=
  match kind with
  | .owner | .agent | .task | .collection | .concept | .similar | .likedBy =>
    match Uuid.ofText? raw with
    | some id => .ok (.id id)
    | none => .error (.notAnId raw)
  | .minDate | .maxDate =>
    match readDate? raw with
    | some t => .ok (.datetime t)
    | none => .error (.notADate raw)
  | .visibility =>
    match readVisibility? raw with
    | some isPublic => .ok (.bool isPublic)
    | none => .error (.notAVisibility raw)
  | .minLikes =>
    match (Double.ofText? raw).filter Double.isFinite with
    | some number => .ok (.number number)
    | none => .error (.notANumber raw)
  | .search | .name | .baseModel => if raw.isEmpty then .error .empty else .ok (.text raw)

end FilterKind

/-- The values that a request gives for one kind of filter. -/
structure FilterTerm where
  kind : FilterKind
  values : List Scalar
deriving DecidableEq, Repr

end FeedQuery
