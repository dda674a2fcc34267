import FeedQuery.Embedding
import FeedQuery.Service

/-!
# The vector index

Documents have points in a vector index, under their identifiers. Similarity asks for the points that are nearest to the
point of a document, and search for those that are nearest to the embedding of a text, both among the documents of one
collection. Points that are under something else than an identifier are passed over.
-/

namespace FeedQuery.VectorIndex

/-- What a point is under. -/
inductive PointId where
  | name (text : String)
  | number (value : Nat)
deriving DecidableEq, Repr

/-- A point that was found, with its score; it may come without what it is under. -/
structure ScoredPoint where
  id : Option PointId
  score : Single
deriving DecidableEq, Repr

/-- What points are to be near to. -/
inductive Center where
  | point (id : PointId)
  | vector (values : List Single)
deriving DecidableEq, Repr

/-- A question for the points nearest to a center, among those of one collection of documents. -/
structure NearestQuery where
  collection : Collection
  center : Center
  limit : Nat
deriving DecidableEq, Repr

/-- The vector of a point that counts. -/
def vectorName : String := "dense"

/-- The entry of a point that names its collection of documents. -/
def collectionEntry : String := "kind"

/-- What is asked of the index. -/
inductive Question where
  /-- Whether there is a point. -/
  | exists (id : PointId)
  | nearest (query : NearestQuery)
deriving DecidableEq, Repr

/-- An index as its clients see it; a question has no answer when the index fails. -/
structure Index where
  contains : PointId → Option Bool
  nearest : NearestQuery → Option (List ScoredPoint)

/-- The point of a document. -/
def pointOf (id : Uuid) : PointId := .name id.toText

/-- The document that a point belongs to, with its relevance. -/
def neighbor? (p : ScoredPoint) : Option Neighbor :=
  match p.id with
  | some (.name text) => (Uuid.ofText? text).map fun id => ⟨id, p.score.toDouble⟩
  | _ => none

/-- Why the index gives no neighbors. -/
inductive Failure where
  | index
  | embedding (failure : Embedding.Failure)
  /-- The embedding has another number of dimensions than the index. -/
  | dimensions (found expected : Nat)
deriving DecidableEq, Repr

/-- What a failure means for a request. -/
def Failure.toServiceError : Failure → ServiceError
  | .index => .vectorIndex "The index did not answer."
  | .embedding failure => .provider failure.message
  | .dimensions found expected =>
    .provider ("Embedding has " ++ toString found ++ " dimensions, the index expects " ++ toString expected ++ ".")

/-- The neighbors of a document: what was asked, and the neighbors, if the document has a point. One more point than is
wanted is asked for, because the document is its own nearest neighbor. -/
def similar (index : Index) (collection : Collection) (reference : Uuid) (topK : Nat) :
    List Question × Except Failure (Option (List Neighbor)) :=
  let id := pointOf reference
  match index.contains id with
  | none => ([.exists id], .error .index)
  | some false => ([.exists id], .ok none)
  | some true =>
    let query : NearestQuery := ⟨collection, .point id, topK + 1⟩
    match index.nearest query with
    | none => ([.exists id, .nearest query], .error .index)
    | some points =>
      let neighbors := (points.filterMap neighbor?).filter fun n => n.id != reference
      ([.exists id, .nearest query], .ok (some (neighbors.take topK)))

/-- The documents that a text finds: what was asked of the embedding service and of the index, and the documents. -/
def search (service : Embedding.Service) (config : Config.Embedding) (index : Index) (dimensions : Nat)
    (collection : Collection) (text : String) (topK : Nat) :
    List Embedding.Request × List Question × Except Failure (List Neighbor) :=
  match Embedding.embed service config text with
  | (asked, .error failure) => (asked, [], .error (.embedding failure))
  | (asked, .ok vector) =>
    if vector.length != dimensions then (asked, [], .error (.dimensions vector.length dimensions))
    else
      let query : NearestQuery := ⟨collection, .vector vector, topK⟩
      match index.nearest query with
      | none => (asked, [.nearest query], .error .index)
      | some points => (asked, [.nearest query], .ok (points.filterMap neighbor?))

end FeedQuery.VectorIndex
