import FeedQuery.Visibility

/-!
# Reactions

An account likes or bookmarks a document by a document of its own in the collection of reactions.
-/

namespace FeedQuery

/-- A way to react to a document. -/
inductive Reaction where
  | like
  | bookmark
deriving DecidableEq, Repr

namespace Reaction

/-- The word that stored reactions carry. -/
def name : Reaction → String
  | .like => "like"
  | .bookmark => "bookmark"

/-- The field of a page's documents that says whether the viewer reacted so. -/
def flag : Reaction → Path
  | .like => .field "liked"
  | .bookmark => .field "bookmarked"

/-- The field that holds the viewer's reactions until they are counted. -/
def scratch : Reaction → Path
  | .like => .field "_liked"
  | .bookmark => .field "_bookmarked"

/-- The reactions of one kind that an account has to documents of a collection. -/
def of (user : Uuid) (reaction : Reaction) (collection : Collection) (softDelete : SoftDelete) : Predicate :=
  .all [
    .eq (.field "user") (.id user),
    .eq (.field "reaction") (.text reaction.name),
    .eq (.field "entityType") (.text collection.entityType),
    softDelete.predicate]

end Reaction

end FeedQuery
