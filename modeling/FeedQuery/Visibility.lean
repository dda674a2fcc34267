import FeedQuery.Criteria

/-!
# Visibility

Who asks decides what may be seen. A view is relaxed when it shows the viewer's own documents, or a collection that the
viewer owns or contributes to; every other view shows public documents only. A list of someone's likes has a rule of its
own.
-/

namespace FeedQuery

/-- Whether documents that were deleted stay out of sight. -/
inductive SoftDelete where
  | exclude
  | keep
deriving DecidableEq, Repr, Inhabited

/-- Whether a document is public. -/
def Path.isPublic : Path := .field "public"

/-- Whether a document was deleted. -/
def Path.deleted : Path := .field "deleted"

/-- Accepts documents that were not deleted, or all. -/
def SoftDelete.predicate : SoftDelete → Predicate
  | .exclude => .ne .deleted (.bool true)
  | .keep => .always

/-- What the rules have to know about who asks. -/
structure Visibility where
  viewer : Option Uuid
  isOwnProfile : Bool
  ownsCollection : Bool
  viaLikedBy : Bool
  softDelete : SoftDelete
deriving DecidableEq, Repr

/-- A public document counts when someone else than its owner liked it; a document that its owner liked counts while it
is private. -/
def likedByVisibility (collection : Collection) (liker : Uuid) : Predicate :=
  .any [
    .all [.ne collection.owner (.id liker), .eq .isPublic (.bool true)],
    .all [.eq collection.owner (.id liker), .ne .isPublic (.bool true)]]

namespace Visibility

/-- What the criteria and the viewer say. Whether the viewer has a share in the collection asked for is known to the
caller. -/
def resolve (c : Criteria) (viewer : Option Uuid) (ownsCollection : Bool) (softDelete : SoftDelete) : Visibility where
  viewer := viewer
  isOwnProfile := match viewer, c.ids .owner with
    | some viewer, [owner] => viewer == owner
    | _, _ => false
  ownsCollection := viewer.isSome && ownsCollection
  viaLikedBy := c.likedBy?.isSome
  softDelete := softDelete

/-- Whether documents that are not public may be seen. -/
def isRelaxed (v : Visibility) : Bool := v.isOwnProfile || v.ownsCollection

/-- Which documents may be seen, deleted ones apart. -/
def openness (v : Visibility) (c : Criteria) (collection : Collection) : Predicate :=
  match if v.viaLikedBy then c.likedBy? else none with
  | some liker => likedByVisibility collection liker
  | none =>
    if v.isRelaxed then
      match c.visibility? with
      | some isPublic => .eq .isPublic (.bool isPublic)
      | none => .always
    else .eq .isPublic (.bool true)

/-- Which documents may be seen. -/
def predicate (v : Visibility) (c : Criteria) (collection : Collection) : Predicate :=
  .all [v.openness c collection, v.softDelete.predicate]

end Visibility

end FeedQuery
