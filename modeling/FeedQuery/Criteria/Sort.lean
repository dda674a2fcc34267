import FeedQuery.Predicate
import FeedQuery.SortKey

/-!
# Orders

What a request can be sorted by. Most fields are keys of the documents; `liked` and `following` choose how documents are
reached.
-/

namespace FeedQuery

/-- A count that documents carry. -/
inductive Counter where
  | likeCount
  | popularity
  | followerCount
  | creationCount
deriving DecidableEq, Repr, Inhabited

/-- The field that holds a counter. -/
def Counter.path : Counter → Path
  | .likeCount => .field "likeCount"
  | .popularity => .field "popularity"
  | .followerCount => .field "followerCount"
  | .creationCount => .field "creationCount"

/-- The field that holds the score of a document. -/
def Path.similarity : Path := .field "similarity"

/-- What can be sorted by. -/
inductive SortField where
  | createdAt
  | counter (counter : Counter)
  | liked
  | following
  | similarity
deriving DecidableEq, Repr, Inhabited

namespace SortField

/-- The names of sort fields. -/
def fields : List (String × SortField) := [
  ("createdAt", .createdAt), ("likeCount", .counter .likeCount), ("popularity", .counter .popularity),
  ("followerCount", .counter .followerCount), ("creationCount", .counter .creationCount), ("liked", .liked),
  ("following", .following), ("similarity", .similarity), ("score", .similarity)]

/-- The sort field that a name stands for. -/
def ofField? (field : String) : Option SortField := fields.lookup field

/-- Whether the field orders documents by something they carry. -/
def isLiteral : SortField → Bool
  | .liked | .following => false
  | _ => true

end SortField

/-- The order that a request asks for. Ties fall back to the newest identifier. -/
structure SortSpec where
  field : SortField
  direction : Direction
deriving DecidableEq, Repr

namespace SortSpec

/-- The key that comes before the identifier. Without one the identifiers alone decide, which is the order of
creation. -/
def primaryKey? (s : SortSpec) : Option SortKey :=
  match s.field with
  | .counter counter => some ⟨counter.path, s.direction, .number⟩
  | .similarity => some ⟨.similarity, s.direction, .number⟩
  | _ => none

/-- What the order demands of a document: a counter above zero. -/
def sideFilter? (s : SortSpec) : Option Predicate :=
  match s.field with
  | .counter counter => some (.order counter.path .gt (.number .zero))
  | _ => none

end SortSpec

end FeedQuery
