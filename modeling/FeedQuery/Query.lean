import FeedQuery.Predicate
import FeedQuery.SortKey

/-!
# Queries

A query is a scan of one collection: filter, sort, skip, limit. It is the only thing that a store is asked for.
`Query.apply` says what it means on a list of documents; sorting is stable, and without a sort key the order of the
store stays.
-/

namespace FeedQuery

/-- A filtered, sorted and bounded scan. -/
structure Query where
  predicate : Predicate
  sort : List SortKey
  skip : Option Nat
  limit : Option Nat
deriving Repr

/-- The documents in the order of the keys; documents that no key tells apart stay as they were. -/
def sortDocuments (keys : List SortKey) (docs : List Document) : List Document :=
  docs.mergeSort fun a b => compareDocuments keys a b != .gt

namespace Query

/-- All documents that satisfy a predicate. -/
def filter (predicate : Predicate) : Query := ⟨predicate, [], none, none⟩

/-- The documents that satisfy the predicate, in order. -/
def ordered (q : Query) (docs : List Document) : List Document :=
  let matched := docs.filter q.predicate.accepts
  if q.sort.isEmpty then matched else sortDocuments q.sort matched

/-- What the query finds in a list of documents. -/
def apply (q : Query) (docs : List Document) : List Document :=
  let rest := (q.ordered docs).drop (q.skip.getD 0)
  match q.limit with
  | some limit => rest.take limit
  | none => rest

end Query

end FeedQuery
