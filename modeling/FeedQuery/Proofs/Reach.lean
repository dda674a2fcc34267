import Mathlib.Data.List.Basic
import FeedQuery.Proofs.Tail

/-!
# What a strategy reaches

Each strategy but the direct one goes from rows of a supporting collection to documents: `PlanRequest.rows` are the
documents that hold the links, one link each, and `PlanRequest.link` is where. `PlanRequest.documents` is what the core
of a plan yields. Where the order is one of the documents it is a plain selection from the documents reached, after the
bound and in order, whatever the strategy and wherever the plan applies the filter and the bound
(`PlanRequest.documents_direct`, `PlanRequest.documents_joined`); where it is the order of the likes it is a selection
from the likes (`PlanRequest.documents_likes`).
-/

namespace FeedQuery

open Stage

/-- The object that the document itself has where a joined document is held. -/
def Document.own? (d : Document) : Option Document := (d.get? .joined).bind ofJson?

/-- The document has no object under `doc`, where a joined document is held. -/
def Document.IsPlain (d : Document) : Prop := (d.get? .joined).bind Document.ofJson? = none

theorem Document.own?_eq_none {d : Document} : d.own? = none ↔ d.IsPlain := Iff.rfl

instance : DecidablePred Document.IsPlain := fun d =>
  decidable_of_iff (((d.get? .joined).bind Document.ofJson?).isNone = true) Option.isNone_iff_eq_none

namespace Document

/-- A document is unwound by writing the elements of an array in its place, if it is one. -/
theorem mem_unwind {p : Path} {d row : Document} (h : row ∈ d.unwind p) : row = d ∨ ∃ item, row = d.set p item := by
  unfold unwind at h
  split at h
  · obtain ⟨item, -, rfl⟩ := List.mem_map.1 h
    exact .inr ⟨item, rfl⟩
  · simp at h
  · simp at h
  · exact .inl (List.mem_singleton.1 h)

theorem IsPlain.unwind {name : String} (hn : name ≠ "doc") {d row : Document} (h : d.IsPlain)
    (hrow : row ∈ d.unwind (.field name)) : row.IsPlain := by
  rcases mem_unwind hrow with rfl | ⟨item, rfl⟩
  · exact h
  · unfold IsPlain
    rw [get?_set_field, if_neg (by exact fun e => hn e.symm)]
    exact h

@[simp] theorem project_nil (d : Document) : d.project [] = d := rfl

end Document

/-- No document of a collection that holds links has an object under `doc`. -/
def Store.HasPlainLinks (store : Store) : Prop :=
  ∀ c ∈ [Collection.collections, .tasks, .reactions], ∀ d ∈ store.docs c, d.IsPlain

instance : DecidablePred Store.HasPlainLinks := fun store =>
  inferInstanceAs (Decidable (∀ c ∈ [Collection.collections, .tasks, .reactions], ∀ d ∈ store.docs c, d.IsPlain))

namespace PlanRequest

variable {store : Store} {others : Collaborators} (q : PlanRequest)

/-- Fetches the one document that a field names. -/
def member (localPath : Path) (filter : Predicate) : Lookup :=
  { Lookup.byId q.collection localPath .joined with filter := filter }

theorem memberLookup_eq (localPath : Path) (filter : Predicate) :
    q.memberLookup localPath filter = .lookup (q.member localPath filter) := rfl

/-- Joining documents by identifier and putting them in the place of the rows: for a row that finds nothing stands the
object that it has itself where a joined document is held, and a row without such an object is dropped. -/
theorem results_memberLookup (localPath : Path) (filter : Predicate) {carry : List (Path × Path)}
    (hcarry : ∀ c ∈ carry, c.1.first ≠ "doc") (rows : List Document) (rest : List Stage) :
    results store others (q.memberLookup localPath filter :: .replaceRoot .joined carry :: rest) rows =
      results store others rest (rows.filterMap fun row => (((q.member localPath filter).found
        ((q.member localPath filter).matching store others rows) row).head?.or row.own?).map
          (row.carryInto carry)) := by
  rw [memberLookup_eq, results_lookup, results_replaceRoot, List.filterMap_map]
  refine congrArg (results store others rest) (List.filterMap_congr ?_)
  intro row _
  rw [Function.comp_apply, Lookup.attach_single _ _ rfl]
  generalize ((q.member localPath filter).found ((q.member localPath filter).matching store others rows) row).head? =
    first
  cases first with
  | none => rfl
  | some found =>
    have hread : (row.set .joined found.toJson).get? .joined = some found.toJson := Document.get?_set_self row "doc" _
    have hroot : ((row.set .joined found.toJson).get? .joined).bind Document.ofJson? = some found := by
      rw [hread]
      rfl
    change Document.replaceRoot? .joined carry (row.set .joined found.toJson) = _
    rw [Document.replaceRoot?, hroot, Option.map_some, Option.some_or, Option.map_some, Option.some.injEq]
    refine Document.carryInto_congr ?_ found
    intro c hc
    exact (Document.get?_set_field row "doc" found.toJson c.1).trans (if_neg (hcarry c hc))

/-- What the root of a list of links has to satisfy. -/
def live (path : Path) (id : Uuid) : Predicate := .all [.eq path (.id id), q.visibility.softDelete.predicate]

/-- The documents that hold the links of the strategy, one link each: the live collection and the live tasks unwound,
the live likes. -/
def rows (store : Store) : List Document :=
  match q.strategy with
  | .membership collection =>
    ((store.docs .collections).filter (q.live .id collection).accepts).flatMap (Document.unwind (.field "creations"))
  | .taskOutput concept =>
    ((store.docs .tasks).filter (q.live ⟨"args", ["concept"]⟩ concept).accepts).flatMap
      (Document.unwind (.field "result"))
  | .reactionFanOut (some liker) =>
    (store.docs .reactions).filter (Reaction.of liker .like q.collection q.visibility.softDelete).accepts
  | _ => []

/-- Where a row holds its link. -/
def link : Path :=
  match q.strategy with
  | .membership _ => .field "creations"
  | .taskOutput _ => .field "result"
  | _ => .field "entityId"

/-- The identifiers that the rows hold as their links; none for a link that is no identifier. -/
def links (store : Store) : List (Option Uuid) := (q.rows store).map fun row => (row.get? q.link).bind Json.id?

/-- What a row passes on to the document that it leads to: a like its identifier and its time. -/
def carried : List (Path × Path) :=
  match q.strategy with
  | .reactionFanOut _ => [(.id, .likedId), (.createdAt, .likedAt)]
  | _ => []

theorem carried_first (c : Path × Path) (hc : c ∈ q.carried) : c.1.first ≠ "doc" := by
  unfold carried at hc
  split at hc
  · simp only [List.mem_cons, List.not_mem_nil, or_false] at hc
    rcases hc with rfl | rfl <;> decide
  · simp at hc

/-- The collection that the plan starts from has no object under `doc`. -/
def HasPlainRoot (store : Store) : Prop := ∀ d ∈ store.docs q.root, d.IsPlain

/-- The rows are as plain as the documents that they come from. -/
theorem isPlain_of_mem_rows (hplain : q.HasPlainRoot store) {row : Document} (hrow : row ∈ q.rows store) :
    row.IsPlain := by
  unfold HasPlainRoot root at hplain
  unfold rows at hrow
  split at hrow
  · next hs =>
    rw [hs] at hplain
    obtain ⟨d, hd, hr⟩ := List.mem_flatMap.1 hrow
    exact (hplain d (List.mem_filter.1 hd).1).unwind (by decide) hr
  · next hs =>
    rw [hs] at hplain
    obtain ⟨d, hd, hr⟩ := List.mem_flatMap.1 hrow
    exact (hplain d (List.mem_filter.1 hd).1).unwind (by decide) hr
  · next hs =>
    rw [hs] at hplain
    exact hplain row (List.mem_filter.1 hrow).1
  · simp at hrow

/-- The documents that the core of the plan yields. -/
def documents (store : Store) (others : Collaborators) : List Document :=
  results store others q.core (store.docs q.root)

/-- The documents that some rows reach with a filter, with what the rows pass on. -/
def fetch (store : Store) (others : Collaborators) (filter : Predicate) (rows : List Document) : List Document :=
  rows.filterMap fun row =>
    ((q.member q.link filter).found ((q.member q.link filter).matching store others rows) row).head?.map
    (row.carryInto q.carried)

/-- Documents are joined through links: by membership, task output, or likes. -/
def IsThroughLinks : Prop :=
  match q.strategy with
  | .membership _ | .taskOutput _ | .reactionFanOut _ => True
  | _ => False

/-- Documents are joined through links in the order of the documents: by membership, task output, or likes with an order
of their own. -/
def IsJoined : Prop :=
  match q.strategy with
  | .membership _ | .taskOutput _ => True
  | .reactionFanOut _ => q.isReactionOrder = false
  | _ => False

/-- What comes after the cursor among the likes. -/
def likesBound : Predicate :=
  match q.window.cursor? with
  | some cursor => q.cursorPlan.boundAt .id cursor
  | none => .always

/-- The rows that documents are joined with: in the order of the likes those after the cursor, the last first, and
otherwise all. -/
def joinedRows (store : Store) : List Document :=
  if q.isReactionOrder then sortDocuments [.idDescending] ((q.rows store).filter q.likesBound.accepts) else q.rows store

/-- What the documents that rows are joined with have to satisfy. -/
def memberFilter : Predicate := if q.isReactionOrder then q.documentFilter else q.joinFilter

theorem joinedRows_subset (store : Store) : q.joinedRows store ⊆ q.rows store := by
  intro row hrow
  unfold joinedRows at hrow
  split at hrow
  · rw [mem_sortDocuments] at hrow
    exact (List.mem_filter.1 hrow).1
  · exact hrow

/-- Where all documents that may hold links are plain, those are that the plan starts from. -/
theorem hasPlainRoot (hplain : store.HasPlainLinks) (hg : ∀ follower, q.strategy ≠ .graphFanOut follower)
    (hd : q.strategy ≠ .direct) : q.HasPlainRoot store := by
  unfold HasPlainRoot root
  cases hs : q.strategy with
  | membership collection => exact hplain .collections (by simp)
  | taskOutput concept => exact hplain .tasks (by simp)
  | graphFanOut follower => exact absurd hs (hg follower)
  | reactionFanOut liker => exact hplain .reactions (by simp)
  | direct => exact absurd hs hd

theorem hasPlainRoot_of_isJoined (hplain : store.HasPlainLinks) (h : q.IsJoined) : q.HasPlainRoot store := by
  unfold IsJoined at h
  refine q.hasPlainRoot hplain ?_ ?_
  · intro follower hs
    simp [hs] at h
  · intro hs
    simp [hs] at h

/-- A plan that starts with a filter that accepts nothing reaches nothing. -/
theorem documents_of_never (store : Store) (others : Collaborators) (h : q.core = [.filter .never]) :
    q.documents store others = results store others q.tail [] := by
  have hnone : (store.docs q.root).filter Predicate.never.accepts = [] := List.filter_eq_nil_iff.2 fun d _ => by simp
  rw [documents, h, results_filter, hnone, results_empty, results_empty]

/-- Through links, a plan joins its rows with documents, puts these in the place of the rows, and goes on with its
tail. -/
theorem documents_of_isThroughLinks (h : q.IsThroughLinks) : q.documents store others = results store others
    (q.memberLookup q.link q.memberFilter :: .replaceRoot .joined q.carried :: q.tail) (q.joinedRows store) := by
  unfold IsThroughLinks at h
  cases hs : q.strategy with
  | membership collection =>
    have hr : q.isReactionOrder = false := isReactionOrder_of_strategy (by rw [hs]; rfl)
    simp only [documents, core, root, listed, liveRoot, link, carried, memberFilter, joinedRows, rows, hs, hr,
      results_filter, results_unwind]
    rfl
  | taskOutput concept =>
    have hr : q.isReactionOrder = false := isReactionOrder_of_strategy (by rw [hs]; rfl)
    simp only [documents, core, root, listed, liveRoot, link, carried, memberFilter, joinedRows, rows, hs, hr,
      results_filter, results_unwind]
    rfl
  | graphFanOut follower => simp [hs] at h
  | reactionFanOut liker =>
    cases liker with
    | none =>
      have hnone : q.joinedRows store = [] :=
        List.subset_nil.1 (List.Subset.trans (q.joinedRows_subset store) (by simp [rows, hs]))
      rw [q.documents_of_never store others (by simp [core, hs, reactions]), hnone, results_empty, results_empty]
    | some liker =>
      have hroot : q.root = .reactions := by rw [root, hs]
      have hlink : q.link = .field "entityId" := by rw [link, hs]
      have hcarried : q.carried = [(.id, .likedId), (.createdAt, .likedAt)] := by rw [carried, hs]
      have hcore : q.core = q.likes liker ++ q.memberLookup q.link q.memberFilter :: .replaceRoot .joined q.carried ::
          q.tail := by
        rw [core, hs, hlink, hcarried]
        rfl
      rw [documents, hcore, hroot, results_append]
      refine congrArg (results store others _) ?_
      cases hr : q.isReactionOrder with
      | false => simp [likes, joinedRows, rows, hs, hr]
      | true =>
        simp only [likes, joinedRows, rows, hs, hr, if_true, results_filter, results_sort, results_nil,
          List.filter_filter]
        refine congrArg (sortDocuments _) (List.filter_congr fun d _ => ?_)
        rw [Predicate.accepts_all, List.all_cons, List.all_cons, List.all_nil, Bool.and_true]
        exact Bool.and_comm ..
  | direct => simp [hs] at h

/-- Where the plan starts from plain documents, rows that find nothing are dropped. -/
theorem documents_of_plain (hplain : q.HasPlainRoot store) (h : q.IsThroughLinks) :
    q.documents store others = results store others q.tail
      (q.fetch store others q.memberFilter (q.joinedRows store)) := by
  rw [q.documents_of_isThroughLinks h, q.results_memberLookup _ _ q.carried_first]
  refine congrArg (results store others q.tail) (List.filterMap_congr ?_)
  intro row hrow
  rw [Document.own?_eq_none.2 (q.isPlain_of_mem_rows hplain (q.joinedRows_subset store hrow)), Option.or_none]

/-- Through links, a plan yields what its tail makes of the documents that the rows reach. -/
theorem documents_of_isJoined (hplain : q.HasPlainRoot store) (h : q.IsJoined) :
    q.documents store others = results store others q.tail (q.fetch store others q.joinFilter (q.rows store)) := by
  obtain ⟨hlinks, hr⟩ : q.IsThroughLinks ∧ q.isReactionOrder = false := by
    unfold IsJoined at h
    unfold IsThroughLinks
    cases hs : q.strategy <;> simp_all [isReactionOrder, Strategy.isReactionFanOut]
  rw [q.documents_of_plain hplain hlinks, memberFilter, joinedRows, hr]
  rfl

/-! ## What follows reach -/

/-- Joining documents in arrays and putting each element in the place of the row. -/
theorem results_fanOut {l : Lookup} (hs : l.single = false) (hp : l.project = []) (ht : l.target = .fanOut)
    (rows : List Document) (rest : List Stage) :
    results store others (.lookup l :: .unwind .fanOut :: .replaceRoot .fanOut [] :: rest) rows =
      results store others rest (rows.flatMap (l.found (l.matching store others rows))) := by
  rw [results_lookup, results_unwind, results_replaceRoot, List.flatMap_map, List.filterMap_flatMap]
  refine congrArg (results store others rest) (List.flatMap_congr ?_)
  intro row _
  rw [Lookup.attach_array _ row hs, hp, ht]
  generalize l.found (l.matching store others rows) row = found
  have hunwind : (row.set .fanOut (.array (found.map fun m => (m.project []).toJson))).unwind .fanOut =
      found.map fun m => (row.set .fanOut (.array (found.map fun m => (m.project []).toJson))).set .fanOut
        m.toJson := by
    have hget : (row.set .fanOut (.array (found.map fun m => (m.project []).toJson))).get? .fanOut =
        some (.array (found.map fun m => (m.project []).toJson)) := Document.get?_set_self row "docs" _
    rw [Document.unwind, hget]
    simp
  have hroot (d m : Document) : (d.set .fanOut m.toJson).replaceRoot? .fanOut [] = some m := by
    have hget : (d.set .fanOut m.toJson).get? .fanOut = some m.toJson := Document.get?_set_self d "docs" _
    rw [Document.replaceRoot?, hget]
    rfl
  rw [hunwind, List.filterMap_map]
  simp only [Function.comp_def, hroot]
  exact List.filterMap_some

/-- The live follows of an account. -/
def follows (store : Store) (follower : Uuid) : List Document :=
  (store.docs .follows).filter (q.live (.field "follower") follower).accepts

/-- Joins a follow with documents of the followed account, no more of them than the window or the cap asks for. -/
def fanOut : Lookup where
  collection := q.collection
  localPath := .field "following"
  foreignPath := q.collection.owner
  filter := q.joinFilter
  sort := if q.isScored then [.idDescending] else q.cursorPlan.sortKeys
  cap := some (max (q.window.limit?.getD 0) q.followingCap)
  project := []
  target := .fanOut
  single := false

theorem graph_some (follower : Uuid) : q.graph (some follower) = q.liveRoot (.field "follower") follower ::
    .lookup q.fanOut ::
    .unwind .fanOut :: .replaceRoot .fanOut [] :: q.tail := rfl

variable {q} in
/-- Through follows, a plan yields what its tail makes of the documents that the live follows are joined with. -/
theorem documents_graph {follower : Uuid} (hs : q.strategy = .graphFanOut (some follower)) :
    q.documents store others = results store others q.tail ((q.follows store follower).flatMap
      (q.fanOut.found (q.fanOut.matching store others (q.follows store follower)))) := by
  have hcore : q.core = q.graph (some follower) := by rw [core, hs]
  have hroot : q.root = .follows := by rw [root, hs]
  rw [documents, hcore, graph_some, hroot, liveRoot, results_filter, results_fanOut rfl rfl rfl]
  rfl

/-! ## In the order of the likes -/

section Likes

variable {q} {liker : Uuid} (hs : q.strategy = .reactionFanOut (some liker))
include hs

theorem rows_likes :
    q.rows store = (store.docs .reactions).filter
      (Reaction.of liker .like q.collection q.visibility.softDelete).accepts := by
  rw [rows, hs]

/-- In the order of the likes, a plan yields what its tail makes of the documents that the likes after the cursor
reach. -/
theorem documents_of_likes (hplain : q.HasPlainRoot store) (h : q.isReactionOrder = true) :
    q.documents store others = results store others q.tail (q.fetch store others q.documentFilter
      (sortDocuments [.idDescending] ((q.rows store).filter q.likesBound.accepts))) := by
  have hlinks : q.IsThroughLinks := by simp [IsThroughLinks, hs]
  rw [q.documents_of_plain hplain hlinks, memberFilter, joinedRows, h]
  rfl

end Likes

/-! ## What a plan looks up -/

theorem accepts_joinFilter (d : Document) :
    q.joinFilter.accepts d = (q.documentFilter.accepts d && (q.isScored || q.bound.accepts d)) := by
  unfold joinFilter
  cases q.isScored <;> simp

theorem accepts_of_joinFilter {d : Document} (h : q.joinFilter.accepts d = true) :
    q.documentFilter.accepts d = true := by
  rw [accepts_joinFilter] at h
  exact (Bool.and_eq_true_iff.1 h).1

theorem lookup_not_mem_window (w : Window) (l : Lookup) : .lookup l ∉ w.stages := by
  cases w <;> simp [Window.stages]

section Lookups

variable {q} (hliked : q.criteria.likedBy? = none) {l : Lookup}
include hliked

variable (l) in
/-- Where nobody's likes are asked for, the tail of a plan looks nothing up. -/
theorem lookup_not_mem_tail : .lookup l ∉ q.tail := by
  have hscoring : .lookup l ∉ q.scoring := by
    unfold scoring
    split <;> simp
  have hlikedBy : q.likedBy = [] := by
    unfold likedBy
    rw [hliked]
    cases q.strategy.isReactionFanOut <;> rfl
  have hlate : .lookup l ∉ q.lateBound := by
    unfold lateBound
    split <;> simp
  simp [tail, hscoring, hlikedBy, hlate, lookup_not_mem_window]

variable (hl : .lookup l ∈ q.core)
include hl

/-- There, through follows, a plan looks up what it joins with them and nothing else. -/
theorem lookup_of_mem_graph {follower : Option Uuid} (hs : q.strategy = .graphFanOut follower) : l = q.fanOut := by
  rw [core, hs] at hl
  cases follower with
  | none => simp [graph] at hl
  | some follower => simpa [graph_some, liveRoot, lookup_not_mem_tail hliked l] using hl

/-- There, whatever a plan looks up are documents of its collection, by their identifiers or for a follow, through the
document filter. -/
theorem lookup_of_mem_core :
    (∃ path filter, l = q.member path filter ∧ ∀ d, filter.accepts d = true → q.documentFilter.accepts d = true) ∨
    l = q.fanOut ∧ ∃ follower, q.strategy = .graphFanOut follower := by
  have htail := lookup_not_mem_tail hliked l
  have hjoin : ∀ d, q.joinFilter.accepts d = true → q.documentFilter.accepts d = true :=
    fun d => q.accepts_of_joinFilter
  have hlisted (root : Path) (id : Uuid) (list : Path) (hl : .lookup l ∈ q.listed root id list) :
      l = q.member list q.joinFilter := by simpa [listed, liveRoot, memberLookup_eq, htail] using hl
  cases hs : q.strategy with
  | membership named =>
    rw [core, hs] at hl
    exact .inl ⟨_, _, hlisted _ _ _ hl, hjoin⟩
  | taskOutput concept =>
    rw [core, hs] at hl
    exact .inl ⟨_, _, hlisted _ _ _ hl, hjoin⟩
  | graphFanOut follower => exact .inr ⟨lookup_of_mem_graph hliked hl hs, follower, rfl⟩
  | reactionFanOut liker =>
    rw [core, hs] at hl
    cases liker with
    | none => simp [reactions] at hl
    | some liker =>
      have hlikes : .lookup l ∉ q.likes liker := by
        unfold likes
        dsimp only
        split <;> simp
      cases ho : q.isReactionOrder with
      | true =>
        have hmember : l = q.member (.field "entityId") q.documentFilter := by
          simpa [reactions, hlikes, memberLookup_eq, htail, ho] using hl
        exact .inl ⟨_, _, hmember, fun d hd => hd⟩
      | false =>
        have hmember : l = q.member (.field "entityId") q.joinFilter := by
          simpa [reactions, hlikes, memberLookup_eq, htail, ho] using hl
        exact .inl ⟨_, _, hmember, hjoin⟩
  | direct =>
    rw [core, hs] at hl
    simp [htail] at hl

end Lookups

end PlanRequest

end FeedQuery
