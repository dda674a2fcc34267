import FeedQuery.Query
import FeedQuery.Scores

/-!
# Pipelines

A pipeline is a list of stages over one collection. A lookup attaches documents of another collection; the other stages
need nothing but the documents that reach them, and what they do to these is said here.
-/

namespace FeedQuery

/-- Attaches the documents of another collection whose `foreign` field holds a value of the `local` field. -/
structure Lookup where
  collection : Collection
  localPath : Path
  foreignPath : Path
  filter : Predicate
  sort : List SortKey
  /-- How many documents are attached for one value at most. -/
  cap : Option Nat
  /-- The top-level fields that attached documents keep; with none named they keep all. -/
  project : List Path
  target : Path
  /-- Attach the first document alone instead of an array. Nothing is written when there is none. -/
  single : Bool
deriving Repr

namespace Lookup

/-- Attaches the one document that a field names by its identifier. -/
def byId (collection : Collection) (localPath target : Path) : Lookup :=
  ⟨collection, localPath, .id, .always, [], none, [], target, true⟩

end Lookup

/-- A step of a pipeline. -/
inductive Stage where
  | filter (predicate : Predicate)
  | sort (keys : List SortKey)
  | skip (count : Nat)
  | limit (count : Nat)
  /-- One document for each element of an array; a document without elements is dropped. -/
  | unwind (path : Path)
  | lookup (lookup : Lookup)
  /-- An embedded object takes the place of the document, and fields of the document are copied into it. -/
  | replaceRoot (path : Path) (carry : List (Path × Path))
  /-- Writes the score of a document's identifier. -/
  | score (path : Path) (scores : Scores)
  /-- Replaces an array by whether it had elements. -/
  | flag (path source : Path)
  | unset (paths : List Path)
deriving Repr

/-- Stages over the documents of one collection. -/
structure Pipeline where
  collection : Collection
  stages : List Stage
deriving Repr

namespace Document

/-- One copy of the document for each element at the path; a value that is no array counts as its own element. -/
def unwind (path : Path) (d : Document) : List Document :=
  match d.get? path with
  | some (.array items) => items.map fun item => d.set path item
  | some .null | none => []
  | some _ => [d]

/-- Copies fields of one document into another. -/
def carryInto (d : Document) (carry : List (Path × Path)) (root : Document) : Document :=
  carry.foldl (fun root fromTo => match d.get? fromTo.1 with
    | some value => root.set fromTo.2 value
    | none => root) root

/-- The object at the path, with fields copied over from the document. -/
def replaceRoot? (path : Path) (carry : List (Path × Path)) (d : Document) : Option Document :=
  ((d.get? path).bind ofJson?).map (d.carryInto carry)

/-- Writes the score of the document's identifier, if it has one. -/
def score (path : Path) (scores : Scores) (d : Document) : Document :=
  match d.id?.bind scores.get? with
  | some score => d.set path (Scalar.number score).toJson
  | none => d

/-- Whether a removed field counted as present: an array by its elements, null not at all. -/
def isPresent : Option Json → Bool
  | some (.array items) => !items.isEmpty
  | some .null => false
  | none => false
  | some _ => true

/-- Replaces the field `source` by whether it was present, written at `path`. -/
def flag (path source : Path) (d : Document) : Document :=
  (d.erase source).set path (.bool (isPresent (d.top? source)))

/-- Takes several fields away. -/
def unset (paths : List Path) (d : Document) : Document := paths.foldl erase d

/-- The document with the named fields only, or the whole document if none is named. -/
def project (paths : List Path) (d : Document) : Document :=
  if paths.isEmpty then d
  else paths.foldl (fun kept path => match d.get? path with
    | some value => kept.set path value
    | none => kept) ⟨[]⟩

end Document

end FeedQuery
