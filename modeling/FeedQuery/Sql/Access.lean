import FeedQuery.Query
import FeedQuery.Sql.Condition

/-!
# Statements on the documents

The statements that find, count and write documents. All collections are in one table, so that each of the first two is
confined to the rows of its collection.
-/

namespace FeedQuery.Sql

/-- Pieces one after another, with a text between each two. -/
def joined (separator : String) : List (List Piece) → List Piece
  | [] => []
  | [pieces] => pieces
  | pieces :: rest => pieces ++ .text separator :: joined separator rest

/-- The pieces that order rows. -/
def orderPieces (keys : List SortKey) : List Piece :=
  if keys.isEmpty then [] else .text " ORDER BY " :: joined ", " (keys.map sortPieces)

/-- The pieces that bound the rows, if they are bounded. -/
def boundPieces (words : String) : Option Nat → List Piece
  | none => []
  | some n => [.text words, .bind (.ofCount n)]

namespace Statement

/-- Finds the bodies of the documents that a query asks for. -/
def select (collection : Collection) (query : Query) : Statement :=
  ⟨.text "SELECT body FROM feed_documents WHERE " :: (scope collection query.predicate).pieces ++
    orderPieces query.sort ++
    boundPieces " OFFSET " query.skip ++ boundPieces " LIMIT " query.limit⟩

/-- Counts the documents that satisfy a predicate. -/
def count (collection : Collection) (predicate : Predicate) : Statement :=
  ⟨.text "SELECT count(*) FROM feed_documents WHERE " :: (scope collection predicate).pieces⟩

/-- Writes a document in the place of the one with its identifier, if there is one. -/
def upsert (collection : Collection) (id : Uuid) (doc : Document) : Statement :=
  ⟨[.text "INSERT INTO feed_documents (collection, doc_id, body)\nVALUES (", .bind (.text collection.name), .text ", ",
    .bind (.uuid id), .text ", ", .bind (.json doc.toJson),
    .text ")\nON CONFLICT (collection, doc_id) DO UPDATE\nSET body = EXCLUDED.body,\n\tupdated_at = now()"]⟩

end Statement

end FeedQuery.Sql
