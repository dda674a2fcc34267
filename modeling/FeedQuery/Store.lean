import FeedQuery.Query

/-!
# The store

A store holds the documents of every collection in the order in which their identifiers first came. Writing a document
whose identifier is there puts it in the place of the old one. Reading is a `Query`.
-/

namespace FeedQuery

/-- Why a store does not answer. -/
inductive StorageError where
  /-- The document or query is not one that a store takes. -/
  | argument (message : String)
  | database (message : String)
  | vectorIndex (message : String)
deriving DecidableEq, Repr

/-- The message of a storage error. -/
def StorageError.message : StorageError → String
  | .argument message => "Invalid argument: " ++ message
  | .database message => message
  | .vectorIndex message => message

/-- The identifier of a document that is to be stored. -/
def Document.storeId (d : Document) : Except StorageError Uuid :=
  match d.id? with
  | some id => .ok id
  | none => .error (.argument "Document _id must be a UUID string.")

/-- The documents of all collections. -/
structure Store where
  docs : Collection → List Document

namespace Store

/-- No documents. -/
def empty : Store := ⟨fun _ => []⟩

/-- Puts a document in the place of the one with its identifier, or at the end. -/
def upsert (id : Uuid) (doc : Document) : List Document → List Document
  | [] => [doc]
  | old :: rest => if old.id? = some id then doc :: rest else old :: upsert id doc rest

/-- Writes a document. -/
def insert (s : Store) (collection : Collection) (doc : Document) : Except StorageError Store :=
  doc.storeId.map fun id => ⟨fun c => if c = collection then upsert id doc (s.docs c) else s.docs c⟩

/-- What a query finds in a collection. -/
def find (s : Store) (collection : Collection) (query : Query) : List Document := query.apply (s.docs collection)

/-- How many documents of a collection satisfy a predicate. -/
def count (s : Store) (collection : Collection) (predicate : Predicate) : Nat :=
  (s.find collection (.filter predicate)).length

/-- How many documents a collection has. -/
def size (s : Store) (collection : Collection) : Nat := (s.docs collection).length

end Store

end FeedQuery
