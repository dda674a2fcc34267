import FeedQuery.Cursor
import FeedQuery.Pipeline
import FeedQuery.Reaction
import FeedQuery.Strategy

/-!
# Plans

A plan is the pipeline that answers a request. Its core reaches the documents in the way of the strategy, filters, sorts
and cuts them; its enrichment attaches summaries and the viewer's reactions. Where documents are joined, the cursor's
bound goes into the join, except when the order reads a score: scores exist only after the join, so there the bound
comes late.
-/

namespace FeedQuery

/-- The part of an ordered result that a request wants. -/
inductive Window where
  | cursor (place : Option Cursor) (limit : Nat)
  | offset (skip limit : Nat)
  /-- Everything, for counting. -/
  | all
deriving DecidableEq, Repr

namespace Window

/-- The cursor to go on from. -/
def cursor? : Window → Option Cursor
  | .cursor place _ => place
  | _ => none

/-- How many documents are wanted at most. -/
def limit? : Window → Option Nat
  | .cursor _ limit => some limit
  | .offset _ limit => some limit
  | .all => none

/-- The stages that cut the window out. -/
def stages : Window → List Stage
  | .cursor _ limit => [.limit limit]
  | .offset skip limit => [.skip skip, .limit limit]
  | .all => []

end Window

namespace Path

/-- Where a joined document is held before it becomes the root. -/
def joined : Path := field "doc"

/-- Where the documents of a followed account are held before they are unwound. -/
def fanOut : Path := field "docs"

/-- Where likes are held while documents without one are dropped. -/
def likedByScratch : Path := field "_likedBy"

/-- The identifier of the like through which a document was reached. -/
def likedId : Path := field "likedId"

/-- When the like through which a document was reached was made. -/
def likedAt : Path := field "likedAt"

end Path

/-- All that decides a plan. -/
structure PlanRequest where
  collection : Collection
  criteria : Criteria
  visibility : Visibility
  strategy : Strategy
  /-- The documents that collaborators allow, if one was asked. -/
  allowed : Option Scores
  window : Window
  followingCap : Nat
deriving Repr

namespace PlanRequest

/-- The order that counts: an order by similarity counts only where there are scores. -/
def effectiveSort (r : PlanRequest) : Option SortSpec :=
  match r.criteria.sort, r.allowed with
  | some ⟨.similarity, _⟩, none => none
  | sort, _ => sort

/-- Whether the order reads a score. -/
def isScored (r : PlanRequest) : Bool :=
  match r.effectiveSort with
  | some ⟨.similarity, _⟩ => true
  | _ => false

/-- Whether documents come in the order of the likes that lead to them. -/
def isReactionOrder (r : PlanRequest) : Bool := r.strategy.isReactionFanOut && r.effectiveSort.isNone

/-- How a cursor lies in the result. -/
def cursorPlan (r : PlanRequest) : CursorPlan :=
  if r.isReactionOrder then ⟨.likedId, .descending, none⟩
  else match r.effectiveSort with
    | some sort => match sort.primaryKey? with
      | some key => .keyed key
      | none => .byId sort.direction
    | none => .byId .descending

/-- What every document has to satisfy, however it is reached. -/
def documentFilter (r : PlanRequest) : Predicate :=
  .all [
    r.visibility.predicate r.criteria r.collection,
    r.criteria.documentPredicate r.collection,
    (r.allowed.map Scores.predicate).getD .always]

/-- What comes after the cursor. -/
def bound (r : PlanRequest) : Predicate := r.cursorPlan.bound r.window.cursor?

/-- What a join has to satisfy that fetches documents. -/
def joinFilter (r : PlanRequest) : Predicate :=
  if r.isScored then r.documentFilter else .all [r.documentFilter, r.bound]

/-- Writes the scores, if the order reads them. -/
def scoring (r : PlanRequest) : List Stage :=
  match r.isScored, r.allowed with
  | true, some scores => [.score .similarity scores]
  | _, _ => []

/-- Drops the documents that an account has not liked. -/
def likedBySemiJoin (collection : Collection) (liker : Uuid) (softDelete : SoftDelete) : List Stage := [
  .lookup {
    collection := .reactions
    localPath := .id
    foreignPath := .field "entityId"
    filter := Reaction.of liker .like collection softDelete
    sort := []
    cap := none
    project := [.id]
    target := .likedByScratch
    single := false },
  .filter (.notEmpty .likedByScratch),
  .unset [.likedByScratch]]

/-- The semi-join that a filter by likes needs where the strategy does not go through the likes. -/
def likedBy (r : PlanRequest) : List Stage :=
  match r.strategy.isReactionFanOut, r.criteria.likedBy? with
  | false, some liker => likedBySemiJoin r.collection liker r.visibility.softDelete
  | _, _ => []

/-- The bound, where it could not go into the join. -/
def lateBound (r : PlanRequest) : List Stage :=
  if r.isScored && !r.bound.isAlways then [.filter r.bound] else []

/-- The stages on documents that were reached. -/
def tail (r : PlanRequest) : List Stage :=
  r.scoring ++ r.likedBy ++ r.lateBound ++ .sort r.cursorPlan.sortKeys :: r.window.stages

/-- Fetches the one document that a field names. -/
def memberLookup (r : PlanRequest) (localPath : Path) (filter : Predicate) : Stage :=
  .lookup { Lookup.byId r.collection localPath .joined with filter := filter }

/-- The live documents of a supporting collection that a scalar is at a path of. -/
def liveRoot (r : PlanRequest) (path : Path) (id : Uuid) : Stage :=
  .filter (.all [.eq path (.id id), r.visibility.softDelete.predicate])

/-- From a root through a list of identifiers to documents. -/
def listed (r : PlanRequest) (root : Path) (id : Uuid) (list : Path) : List Stage :=
  r.liveRoot root id :: .unwind list :: r.memberLookup list r.joinFilter :: .replaceRoot .joined [] :: r.tail

/-- From the follows of an account to the documents of those it follows, a bounded number of each. -/
def graph (r : PlanRequest) : Option Uuid → List Stage
  | none => [.filter .never]
  | some follower =>
    r.liveRoot (.field "follower") follower ::
    .lookup {
      collection := r.collection
      localPath := .field "following"
      foreignPath := r.collection.owner
      filter := r.joinFilter
      sort := if r.isScored then [.idDescending] else r.cursorPlan.sortKeys
      cap := some (max (r.window.limit?.getD 0) r.followingCap)
      project := []
      target := .fanOut
      single := false } ::
    .unwind .fanOut :: .replaceRoot .fanOut [] :: r.tail

/-- The root stages of likes: in the order of the likes, the bound reads the identifier of the like. -/
def likes (r : PlanRequest) (liker : Uuid) : List Stage :=
  let likes := Reaction.of liker .like r.collection r.visibility.softDelete
  if r.isReactionOrder then
    let bound := match r.window.cursor? with
      | some cursor => r.cursorPlan.boundAt .id cursor
      | none => .always
    [.filter (.all [likes, bound]), .sort [.idDescending]]
  else [.filter likes]

/-- From the likes of an account to the documents it liked. -/
def reactions (r : PlanRequest) : Option Uuid → List Stage
  | none => [.filter .never]
  | some liker =>
    r.likes liker ++
    r.memberLookup (.field "entityId") (if r.isReactionOrder then r.documentFilter else r.joinFilter) ::
    .replaceRoot .joined [(.id, .likedId), (.createdAt, .likedAt)] :: r.tail

/-- The collection that the pipeline starts from. -/
def root (r : PlanRequest) : Collection :=
  match r.strategy with
  | .membership _ => .collections
  | .taskOutput _ => .tasks
  | .graphFanOut _ => .follows
  | .reactionFanOut _ => .reactions
  | .direct => r.collection

/-- The stages that reach, filter, sort and cut the documents. -/
def core (r : PlanRequest) : List Stage :=
  match r.strategy with
  | .membership collection => r.listed .id collection (.field "creations")
  | .taskOutput concept => r.listed ⟨"args", ["concept"]⟩ concept (.field "result")
  | .graphFanOut follower => r.graph follower
  | .reactionFanOut liker => r.reactions liker
  | .direct => .filter r.joinFilter :: r.tail

end PlanRequest

/-- Replaces a reference by a few fields of the document it names. -/
def summary (collection : Collection) (field : Path) (names : List String) : Stage :=
  .lookup { Lookup.byId collection field field with project := names.map Path.field }

/-- Writes whether the viewer reacted to each document. -/
def reactionFlag (viewer : Uuid) (collection : Collection) (reaction : Reaction) : List Stage := [
  .lookup {
    collection := .reactions
    localPath := .id
    foreignPath := .field "entityId"
    filter := Reaction.of viewer reaction collection .exclude
    sort := []
    cap := none
    project := [.id]
    target := reaction.scratch
    single := false },
  .flag reaction.flag reaction.scratch]

/-- Summaries of owner, agent and task, then the viewer's reactions. -/
def enrichment (collection : Collection) (viewer : Option Uuid) : List Stage :=
  (if collection == .creators then [] else [summary .creators collection.owner ["_id", "username", "userImage"]]) ++
  (if collection.hasAgent then [summary .agents (.field "agent") ["_id", "name", "username", "userImage"]] else []) ++
  (if collection.hasTask then [summary .tasks (.field "task") ["_id", "status", "tool"]] else []) ++
  (match viewer with
    | some viewer => reactionFlag viewer collection .like ++ reactionFlag viewer collection .bookmark
    | none => [])

/-- The pipeline that answers a request, and how a cursor lies in its result. -/
structure Plan where
  strategy : Strategy
  root : Collection
  core : List Stage
  enrichment : List Stage
  cursor : CursorPlan
deriving Repr

namespace Plan

/-- The plan of a request. -/
def build (r : PlanRequest) : Plan where
  strategy := r.strategy
  root := r.root
  core := r.core
  enrichment := FeedQuery.enrichment r.collection r.visibility.viewer
  cursor := r.cursorPlan

/-- What the first stage demands of the root collection. -/
def rootFilter (p : Plan) : Predicate :=
  match p.core with
  | .filter predicate :: _ => predicate
  | _ => .always

/-- The whole pipeline. -/
def pipeline (p : Plan) : Pipeline := ⟨p.root, p.core ++ p.enrichment⟩

/-- The pipeline without enrichment, which is enough to count. -/
def corePipeline (p : Plan) : Pipeline := ⟨p.root, p.core⟩

end Plan

end FeedQuery
