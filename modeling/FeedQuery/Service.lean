import FeedQuery.Execution
import FeedQuery.Page
import FeedQuery.Plan
import FeedQuery.Settings

/-!
# Serving requests

A request is checked before anything is asked: `feed` and `list` refuse it, or give the exchange that answers it. The
exchange first asks whether the viewer has a share in the collection named, then the collaborators, and then executes
the plan. A collaborator without an answer makes the page empty; a store that fails makes the request fail.
-/

namespace FeedQuery

/-- Why a request is not answered. -/
inductive ServiceError where
  | invalidRequest (message : String)
  | provider (message : String)
  | storage (message : String)
  | vectorIndex (message : String)
deriving DecidableEq, Repr

namespace ServiceError

/-- The message of a service error. -/
def message : ServiceError → String
  | .invalidRequest message => "Invalid request: " ++ message
  | .provider message => "Provider error: " ++ message
  | .storage message => "Storage error: " ++ message
  | .vectorIndex message => "Qdrant error: " ++ message

/-- What a failure of the store means for a request. -/
def ofStorage : StorageError → ServiceError
  | .argument message => .invalidRequest message
  | .database message => .storage message
  | .vectorIndex message => .vectorIndex message

/-- What a rejection means for a request. -/
def ofRejection (r : Rejection) : ServiceError := .invalidRequest r.message

end ServiceError

/-- A request for a page of a feed. -/
structure FeedRequest where
  collection : Collection
  viewer : Option Uuid
  filters : List String
  sorts : List String
  cursor : Option String
  nextValue : Option String
  limit : Option Nat
  softDelete : SoftDelete
deriving DecidableEq, Repr

/-- A request for a numbered page of a listing. -/
structure ListRequest where
  collection : Collection
  viewer : Option Uuid
  filters : List String
  sorts : List String
  /-- Pages are counted from one. -/
  page : Option Nat
  pageSize : Option Nat
  softDelete : SoftDelete
deriving DecidableEq, Repr

/-- What collaborators say about a request. -/
inductive Consultation where
  /-- Nobody was asked. -/
  | unneeded
  | allowed (scores : Scores)
  /-- Somebody had no answer. -/
  | unresolved
deriving DecidableEq, Repr

/-- A request whose questions about who asks and what is similar are answered. -/
structure Prepared where
  collection : Collection
  criteria : Criteria
  visibility : Visibility
  strategy : Strategy
  allowed : Option Scores
deriving Repr

namespace Prepared

/-- The plan for a window. -/
def plan (p : Prepared) (window : Window) (followingCap : Nat) : Plan :=
  .build ⟨p.collection, p.criteria, p.visibility, p.strategy, p.allowed, window, followingCap⟩

end Prepared

/-- The scores that a reply gives. -/
def Scores.ofNeighbors (neighbors : List Neighbor) : Scores :=
  .ofList (neighbors.map fun n => (n.id, n.score))

namespace Service

/-- Refuses a collection that is no feed. -/
def checkFeed (collection : Collection) : Except ServiceError Unit :=
  if collection.isFeed then .ok () else .error (.invalidRequest (collection.name ++ " is not a feed."))

/-- The page size: the default, or what is asked for up to the maximum. -/
def pageSize (settings : Settings) : Option Nat → Except ServiceError Nat
  | none => .ok settings.defaultLimit
  | some 0 => .error (.invalidRequest "limit must be greater than zero.")
  | some limit => .ok (min limit settings.maxLimit)

/-- The page number; pages are counted from one. -/
def pageNumber : Option Nat → Except ServiceError Nat
  | none => .ok 1
  | some 0 => .error (.invalidRequest "page starts at 1.")
  | some page => .ok page

/-- The collection with an identifier, if the viewer owns it or contributes to it. -/
def sharePredicate (collection viewer : Uuid) : Predicate :=
  .all [.eq .id (.id collection), .any [.eq (.field "user") (.id viewer), .eq (.field "contributors") (.id viewer)]]

/-- Whether the viewer has a share in the collection that the criteria name. Without either nothing is asked. -/
def ownsCollection (c : Criteria) (viewer : Option Uuid) : Exchange Bool :=
  match viewer, c.id? .collection with
  | some viewer, some collection =>
    .count .collections (sharePredicate collection viewer) fun n => .done (decide (0 < n))
  | _, _ => .done false

/-- What a text search allows, given what similarity allows. -/
def consultSearch (settings : Settings) (collection : Collection) (similar : Option Scores) :
    Option String → Exchange Consultation
  | none => .done (match similar with
    | some scores => .allowed scores
    | none => .unneeded)
  | some text => .search collection text settings.searchTopK fun reply => .done (match reply with
    | none => .unresolved
    | some neighbors => match similar with
      | some scores => .allowed (scores.intersect (.ofNeighbors neighbors))
      | none => .allowed (.ofNeighbors neighbors))

/-- What collaborators allow: similarity is asked first, and search only when similarity had an answer. -/
def consult (settings : Settings) (collection : Collection) (hints : Hints) : Exchange Consultation :=
  match hints.similarTo with
  | none => consultSearch settings collection none hints.search
  | some reference => .similar collection reference settings.similarityTopK fun reply => match reply with
    | none => .done .unresolved
    | some neighbors => consultSearch settings collection (some (.ofNeighbors neighbors)) hints.search

/-- Answers the questions that a plan rests on; `none` when a collaborator had no answer. -/
def prepare (settings : Settings) (collection : Collection) (c : Criteria) (viewer : Option Uuid)
    (softDelete : SoftDelete) :
    Exchange (Option Prepared) := do
  let owns ← ownsCollection c viewer
  let consultation ← consult settings collection c.hints
  let prepared (allowed : Option Scores) : Prepared :=
    ⟨collection, c, .resolve c viewer owns softDelete, .select c viewer, allowed⟩
  pure (match consultation with
    | .unneeded => some (prepared none)
    | .allowed scores => some (prepared (some scores))
    | .unresolved => none)

/-- Executes the plan of a feed request. -/
def servePage (settings : Settings) (viewer : Option Uuid) (cursor : Option Cursor) (limit : Nat) :
    Option Prepared → Exchange FeedPage
  | none => .done .empty
  | some prepared => do
    let plan := prepared.plan (.cursor cursor limit) settings.followingCap
    let docs ← plan.pipeline.execute
    pure (.assemble docs plan.cursor viewer)

/-- Refuses a request for a page of a feed, or gives the exchange that answers it. -/
def feed (settings : Settings) (r : FeedRequest) : Except ServiceError (Exchange FeedPage) := do
  checkFeed r.collection
  let limit ← pageSize settings r.limit
  let cursor ← (Cursor.read r.cursor r.nextValue).mapError fun fault => .ofRejection (.cursor fault)
  let criteria ← (Criteria.compile r.filters r.sorts).mapError .ofRejection
  pure do
    let prepared ← prepare settings r.collection criteria r.viewer r.softDelete
    servePage settings r.viewer cursor limit prepared

/-- Executes the plan of a listing, and counts without its window. -/
def serveList (settings : Settings) (page size : Nat) : Option Prepared → Exchange ListPage
  | none => .done (.assemble [] 0 page size)
  | some prepared => do
    let docs ← (prepared.plan (.offset ((page - 1) * size) size) settings.followingCap).pipeline.execute
    let total ← (prepared.plan .all settings.followingCap).corePipeline.count
    pure (.assemble docs total page size)

/-- Refuses a request for a page of a listing, or gives the exchange that answers it. -/
def list (settings : Settings) (r : ListRequest) : Except ServiceError (Exchange ListPage) := do
  checkFeed r.collection
  let page ← pageNumber r.page
  let size ← pageSize settings r.pageSize
  let criteria ← (Criteria.compile r.filters r.sorts).mapError .ofRejection
  pure do
    let prepared ← prepare settings r.collection criteria r.viewer r.softDelete
    serveList settings page size prepared

end Service

end FeedQuery
