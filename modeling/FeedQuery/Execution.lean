import FeedQuery.Exchange
import FeedQuery.Pipeline

/-!
# Executing pipelines

The leading stages of a pipeline are one query, and so are the documents that a lookup needs; they go to the store. All
other stages work on the documents that the store returned.
-/

namespace FeedQuery

namespace Lookup

/-- A value that documents are joined by: the text that makes two values one, and the scalar that asks for it. -/
structure Key where
  text : String
  scalar : Scalar
deriving DecidableEq, Repr

/-- The key of a value. An identifier has one key however it is spelled; null, arrays and objects have none. -/
def key? : Json → Option Key
  | .string raw =>
    match Uuid.ofText? raw with
    | some id => some ⟨id.toText, .id id⟩
    | none => some ⟨raw, .text raw⟩
  | .number value => some ⟨value.toDouble.toText, .number value.toDouble⟩
  | .bool value => some ⟨if value then "true" else "false", .bool value⟩
  | _ => none

/-- The values at a path: the elements of an array, or the value itself; null counts as missing. -/
def valuesAt (path : Path) (d : Document) : List Json :=
  match d.get? path with
  | some (.array items) => items
  | some .null => []
  | none => []
  | some value => [value]

/-- The keys at a path. -/
def keysAt (path : Path) (d : Document) : List Key := (valuesAt path d).filterMap key?

/-- The first key of each text, without those whose text was seen. -/
def distinct : List String → List Key → List Key
  | _, [] => []
  | seen, key :: rest => if key.text ∈ seen then distinct seen rest else key :: distinct (key.text :: seen) rest

/-- The keys that several documents ask for, each once. -/
def keysOf (l : Lookup) (docs : List Document) : List Key := distinct [] (docs.flatMap (keysAt l.localPath))

/-- Asks for the documents of all keys at once. -/
def batchQuery (l : Lookup) (keys : List Key) : Query where
  predicate := .all [l.filter, .oneOf l.foreignPath (keys.map Key.scalar)]
  sort := l.sort
  skip := none
  limit := none

/-- Asks for the documents of one key, not more than the cap. -/
def cappedQuery (l : Lookup) (cap : Nat) (key : Key) : Query where
  predicate := .all [l.filter, .eq l.foreignPath key.scalar]
  sort := l.sort
  skip := none
  limit := some cap

/-- The documents that hold a key, once for each time they hold it. -/
def holding (l : Lookup) (found : List Document) (text : String) : List Document :=
  found.flatMap fun d => ((keysAt l.foreignPath d).filter fun key => key.text == text).map fun _ => d

/-- Asks for the documents of each key in turn. -/
def fetchEach (l : Lookup) (cap : Nat) : List Key → Exchange (Fields (List Document))
  | [] => .done []
  | key :: rest =>
    .find l.collection (l.cappedQuery cap key) fun found => do
      let others ← l.fetchEach cap rest
      pure ((key.text, found) :: others)

/-- The documents of the other collection, by the text of a key. Nothing is asked where there is no key. -/
def fetch (l : Lookup) (keys : List Key) : Exchange (String → List Document) :=
  if keys.isEmpty then .done fun _ => []
  else match l.cap with
    | some cap => do
      let found ← l.fetchEach cap keys
      pure fun text => (Fields.get? text found).getD []
    | none => .find l.collection (l.batchQuery keys) fun found => .done (l.holding found)

/-- Attaches to a document what its keys found. -/
def attach (l : Lookup) (matching : String → List Document) (d : Document) : Document :=
  let found := (keysAt l.localPath d).flatMap fun key => (matching key.text).map fun m => (m.project l.project).toJson
  if l.single then
    match found with
    | first :: _ => d.set l.target first
    | [] => d
  else d.set l.target (.array found)

/-- Attaches documents of the other collection. -/
def join (l : Lookup) (docs : List Document) : Exchange (List Document) := do
  let matching ← l.fetch (l.keysOf docs)
  pure (docs.map (l.attach matching))

end Lookup

namespace Stage

/-- What a stage makes of documents. -/
def apply (stage : Stage) (docs : List Document) : Exchange (List Document) :=
  match stage with
  | .filter predicate => .done (docs.filter predicate.accepts)
  | .sort keys => .done (sortDocuments keys docs)
  | .skip count => .done (docs.drop count)
  | .limit count => .done (docs.take count)
  | .unwind path => .done (docs.flatMap (Document.unwind path))
  | .lookup attached => attached.join docs
  | .replaceRoot path carry => .done (docs.filterMap (Document.replaceRoot? path carry))
  | .score path scores => .done (docs.map (Document.score path scores))
  | .flag path source => .done (docs.map (Document.flag path source))
  | .unset paths => .done (docs.map (Document.unset paths))

/-- What a list of stages makes of documents, stage after stage. -/
def applyAll : List Stage → List Document → Exchange (List Document)
  | [], docs => .done docs
  | stage :: rest, docs => do
    let docs ← stage.apply docs
    applyAll rest docs

end Stage

namespace Pipeline

/-- The predicates of the leading filters, and the stages after them. -/
def leadingFilters : List Stage → List Predicate × List Stage
  | .filter predicate :: rest => (predicate :: (leadingFilters rest).1, (leadingFilters rest).2)
  | stages => ([], stages)

/-- The keys of a leading sort, and the stages after it. -/
def leadingSort : List Stage → List SortKey × List Stage
  | .sort keys :: rest => (keys, rest)
  | stages => ([], stages)

/-- The count of a leading skip, and the stages after it. -/
def leadingSkip : List Stage → Option Nat × List Stage
  | .skip count :: rest => (some count, rest)
  | stages => (none, stages)

/-- The count of a leading limit, and the stages after it. -/
def leadingLimit : List Stage → Option Nat × List Stage
  | .limit count :: rest => (some count, rest)
  | stages => (none, stages)

/-- The query that the leading filters, sort, skip and limit make, and the stages after them. -/
def leadingQuery (stages : List Stage) : Query × List Stage :=
  let (predicates, stages) := leadingFilters stages
  let (sort, stages) := leadingSort stages
  let (skip, stages) := leadingSkip stages
  let (limit, stages) := leadingLimit stages
  (⟨.all predicates, sort, skip, limit⟩, stages)

/-- The documents of a pipeline. A query that accepts nothing is not asked. -/
def execute (p : Pipeline) : Exchange (List Document) :=
  let (query, rest) := leadingQuery p.stages
  if query.predicate.isNever then .done []
  else .find p.collection query (Stage.applyAll rest)

/-- How many documents a pipeline yields. The store counts what is one scan. -/
def count (p : Pipeline) : Exchange Nat :=
  match p.stages with
  | [.filter predicate] => .count p.collection predicate .done
  | [.filter predicate, .sort _] => .count p.collection predicate .done
  | _ => do
    let docs ← p.execute
    pure docs.length

end Pipeline

end FeedQuery
