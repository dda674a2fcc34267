import FeedQuery.Scalar
import FeedQuery.Text.Blank

/-!
# Sort keys

Documents are ordered by a list of keys, the first key that tells them apart. A field that is missing, or not of the
kind of the key, comes before every other field; a descending key turns the whole order round.
-/

namespace FeedQuery

/-- A direction of sorting. -/
inductive Direction where
  | ascending
  | descending
deriving DecidableEq, Repr, Inhabited

namespace Direction

/-- The direction that a text names; blanks around it and the case of its letters do not count. -/
def ofText? (text : String) : Option Direction :=
  match Text.lower (Text.trim text) with
  | "1" | "asc" | "ascending" => some .ascending
  | "-1" | "desc" | "descending" => some .descending
  | _ => none

/-- The SQL for a direction: missing values come first ascending and last descending, as they do in `SortKey.order`. -/
def sql : Direction → String
  | .ascending => "ASC NULLS FIRST"
  | .descending => "DESC NULLS LAST"

/-- The order in this direction, given the ascending order. -/
def apply : Direction → Ordering → Ordering
  | .ascending, o => o
  | .descending, o => o.swap

end Direction

/-- A field to sort by. -/
structure SortKey where
  path : Path
  direction : Direction
  kind : ValueKind
deriving DecidableEq, Repr

namespace SortKey

/-- The newest identifier first: the order that breaks ties. -/
def idDescending : SortKey := ⟨.id, .descending, .id⟩

/-- What the key reads from a document. -/
def read (k : SortKey) (d : Document) : Option Scalar := (d.get? k.path).bind k.kind.decode

/-- The ascending order of two readings: nothing comes first. -/
def order : Option Scalar → Option Scalar → Ordering
  | none, none => .eq
  | none, some _ => .lt
  | some _, none => .gt
  | some a, some b => (a.compare? b).getD .eq

/-- The order of two documents by one key. -/
def compare (k : SortKey) (a b : Document) : Ordering := k.direction.apply (order (k.read a) (k.read b))

end SortKey

/-- The order of two documents by the first key that tells them apart. -/
def compareDocuments : List SortKey → Document → Document → Ordering
  | [], _, _ => .eq
  | key :: rest, a, b => (key.compare a b).then (compareDocuments rest a b)

end FeedQuery
