import FeedQuery.Sql.Statement

/-!
# The schema

One table holds the documents of all collections, with an index for each way in which they are found. Every statement
leaves alone what is there already, so that the schema can be applied any number of times.
-/

namespace FeedQuery.Sql

/-- The table of documents. -/
def tableDefinition : String :=
  "CREATE TABLE IF NOT EXISTS feed_documents (\n\tcollection text NOT NULL,\n\tdoc_id uuid NOT NULL,\n" ++
  "\tbody jsonb NOT NULL,\n\tupdated_at timestamptz NOT NULL DEFAULT now(),\n\tPRIMARY KEY (collection, doc_id)\n)"

/-- An index on the table of documents. -/
structure Index where
  name : String
  /-- What is indexed, and how. -/
  target : String
deriving DecidableEq, Repr

/-- The statement that makes an index. -/
def Index.definition (i : Index) : String :=
  "CREATE INDEX IF NOT EXISTS idx_feed_documents_" ++ i.name ++ "\n\tON feed_documents " ++ i.target

/-- The newest documents of a collection, those of an owner, those about an entity, the rows of a follower, and any
value in a body. -/
def indexes : List Index := [
  ⟨"collection_doc_desc", "(collection, doc_id DESC)"⟩,
  ⟨"owner", "(collection, (body ->> 'user'), doc_id DESC)"⟩,
  ⟨"entity", "(collection, (body ->> 'entityId'))"⟩,
  ⟨"follower", "(collection, (body ->> 'follower'))"⟩,
  ⟨"body", "USING gin (body jsonb_path_ops)"⟩]

/-- The statements of the schema, in order. -/
def schemaStatements : List String := tableDefinition :: indexes.map Index.definition

/-- The schema as one text. -/
def schemaText : String :=
  tableDefinition ++ ";\n\n" ++ String.join (indexes.map fun i => i.definition ++ ";\n") ++ "\n"

end FeedQuery.Sql
