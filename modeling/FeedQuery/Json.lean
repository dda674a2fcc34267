import FeedQuery.Number.Double

/-!
# JSON values

A `Json` is a value as a document stores it. A number keeps its kind: an integer of 64 bits stays an integer, anything
else is a finite double, and both count as the same number when they are compared (`Number.toDouble`). The fields of an
object are a list of names and values; `Fields.get?`, `Fields.set` and `Fields.erase` see one value to a name.
-/

namespace FeedQuery

/-- A stored number. -/
inductive Number where
  | integer (value : Int) (bounds : -(Nat.pow 2 63) ≤ value ∧ value < Nat.pow 2 64)
  | decimal (value : Double) (finite : value.isFinite = true)
deriving DecidableEq, Repr

/-- The double nearest to a stored number. -/
def Number.toDouble : Number → Double
  | .integer value _ => .ofInt value
  | .decimal value _ => value

/-- An integer, if it has 64 bits. -/
def Number.ofInt? (value : Int) : Option Number :=
  if bounds : -(Nat.pow 2 63) ≤ value ∧ value < Nat.pow 2 64 then some (.integer value bounds) else none

/-- A finite double. -/
def Number.ofDouble? (value : Double) : Option Number :=
  if finite : value.isFinite = true then some (.decimal value finite) else none

/-- Values under names, as an object has them. -/
abbrev Fields (α : Type) := List (String × α)

namespace Fields

/-- The value under a name. -/
def get? {α : Type} (name : String) : Fields α → Option α
  | [] => none
  | (key, value) :: rest => if key = name then some value else get? name rest

/-- Puts a value under a name: in the place of the value that was there, or at the end. -/
def set {α : Type} (name : String) (value : α) : Fields α → Fields α
  | [] => [(name, value)]
  | (key, old) :: rest => if key = name then (name, value) :: rest else (key, old) :: set name value rest

/-- Takes a name away. -/
def erase {α : Type} (name : String) (fields : Fields α) : Fields α :=
  fields.filter fun field => field.1 != name

/-- The fields that names and values make when they are put one after the other: the last value of a name counts. -/
def ofList {α : Type} (fields : List (String × α)) : Fields α :=
  fields.foldl (fun done field => set field.1 field.2 done) []

end Fields

/-- A JSON value. -/
inductive Json where
  | null
  | bool (value : Bool)
  | number (value : Number)
  | string (value : String)
  | array (items : List Json)
  | object (fields : List (String × Json))
deriving Repr, Inhabited

namespace Json

def string? : Json → Option String
  | .string value => some value
  | _ => none

def bool? : Json → Option Bool
  | .bool value => some value
  | _ => none

def array? : Json → Option (List Json)
  | .array items => some items
  | _ => none

def object? : Json → Option (Fields Json)
  | .object fields => some fields
  | _ => none

/-- The double nearest to a number. -/
def double? : Json → Option Double
  | .number value => some value.toDouble
  | _ => none

/-- An integer, however it is written. -/
def integer? : Json → Option Int
  | .number (.integer value _) => some value
  | _ => none

/-- An integer that is not negative and at most `highest`. -/
def count? (highest : Nat) (value : Json) : Option Nat :=
  value.integer?.bind fun n => if 0 ≤ n ∧ n ≤ highest then some n.toNat else none

/-- The value under a name of an object. -/
def field? (name : String) (value : Json) : Option Json :=
  value.object?.bind (Fields.get? name)

/-- A number of documents, seconds or the like. A count that has not 64 bits is written as the largest that has. -/
def ofNat (value : Nat) : Json :=
  match Number.ofInt? value with
  | some found => .number found
  | none => .number (.integer (Nat.pow 2 64 - 1) (by decide))

/-- A double; one that is not finite has no JSON number and becomes null. -/
def ofDouble (value : Double) : Json :=
  match Number.ofDouble? value with
  | some found => .number found
  | none => .null

end Json

end FeedQuery
