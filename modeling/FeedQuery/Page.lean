import FeedQuery.Cursor
import FeedQuery.Reaction

/-!
# Pages

What a request is answered with: documents and how to go on, or one numbered page of a listing and how many there are.
-/

namespace FeedQuery

/-- A page of a feed. -/
structure FeedPage where
  docs : List Document
  nextCursor : Option String
  nextValue : Option Double
  /-- Whether the viewer liked each document, by the identifier it carries. -/
  reactions : Option (Fields Bool)
  bookmarks : Option (Fields Bool)
deriving Repr

namespace FeedPage

/-- No documents, and no way to go on. -/
def empty : FeedPage := ⟨[], none, none, none, none⟩

/-- The flags of documents that carry an identifier; a flag that is not there, or not a truth value, is false. -/
def flags (docs : List Document) (flag : Path) : Fields Bool :=
  .ofList (docs.filterMap fun d => ((d.get? .id).bind Json.string?).map fun id =>
    (id, ((d.get? flag).bind Json.bool?).getD false))

/-- The page of some documents. -/
def assemble (docs : List Document) (cursor : CursorPlan) (viewer : Option Uuid) : FeedPage :=
  let next := cursor.next? docs.getLast?
  ⟨docs, next.map NextCursor.cursor, next.bind NextCursor.value, viewer.map fun _ => flags docs Reaction.like.flag,
    viewer.map fun _ => flags docs Reaction.bookmark.flag⟩

/-- A page as a body: what it has not is not written. -/
def toJson (p : FeedPage) : Json :=
  let flagsJson (flags : Fields Bool) : Json := .object (flags.map fun flag => (flag.1, .bool flag.2))
  .object ([("docs", .array (p.docs.map Document.toJson))] ++
    (p.nextCursor.map fun cursor => ("nextCursor", .string cursor)).toList ++
    (p.nextValue.map fun value => ("nextValue", .ofDouble value)).toList ++
    (p.reactions.map fun flags => ("reactions", flagsJson flags)).toList ++
    (p.bookmarks.map fun flags => ("bookmarks", flagsJson flags)).toList)

end FeedPage

/-- A numbered page of a listing. -/
structure ListPage where
  docs : List Document
  total : Nat
  page : Nat
  pageSize : Nat
  pages : Nat
deriving Repr

namespace ListPage

/-- The page of some documents; the last page may be short. -/
def assemble (docs : List Document) (total page pageSize : Nat) : ListPage :=
  let size := max pageSize 1
  ⟨docs, total, page, pageSize, (total + size - 1) / size⟩

/-- A page as a body. -/
def toJson (p : ListPage) : Json :=
  .object [("docs", .array (p.docs.map Document.toJson)), ("total", .ofNat p.total), ("page", .ofNat p.page),
    ("pageSize", .ofNat p.pageSize), ("pages", .ofNat p.pages)]

end ListPage

end FeedQuery
