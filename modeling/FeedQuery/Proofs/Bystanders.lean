import FeedQuery.Proofs.Marking
import FeedQuery.Proofs.Soundness

/-!
# Bystanders

A viewer who has no privilege, and who is not asked for what was followed or liked, decides nothing about a plan
(`Bystander.core_eq`). Two such viewers are answered alike, but for the marks that their documents carry and the two
maps of these (`bystanders_answered_alike`).
-/

namespace FeedQuery

open Stage

/-! ## What is not personal -/

/-- The document without what enrichment writes for a viewer. -/
def Document.impersonal (d : Document) : Document :=
  d.unset [Reaction.like.flag, Reaction.bookmark.flag, Reaction.like.scratch, Reaction.bookmark.scratch]

/-- A page without what is personal: the marks of its documents and the maps of them. -/
def FeedPage.impersonal (p : FeedPage) : FeedPage :=
  { p with docs := p.docs.map Document.impersonal, reactions := none, bookmarks := none }

/-- A page of a listing without the marks of its documents. -/
def ListPage.impersonal (p : ListPage) : ListPage := { p with docs := p.docs.map Document.impersonal }

/-- Only the fields of other names are kept. -/
theorem Document.impersonal_eq (d : Document) : d.impersonal =
    ⟨d.fields.filter fun field => !(["liked", "bookmarked", "_liked", "_bookmarked"].contains field.1)⟩ := unset_eq _ d

/-- A mark is personal. -/
theorem Document.impersonal_mark (reaction : Reaction) (reacted : Bool) (d : Document) :
    (d.mark reaction reacted).impersonal = d.impersonal := by
  have hflag : (!(["liked", "bookmarked", "_liked", "_bookmarked"].contains reaction.flag.toText)) = false := by
    cases reaction <;> decide
  have hscratch : (!(["liked", "bookmarked", "_liked", "_bookmarked"].contains reaction.scratch.toText)) = false := by
    cases reaction <;> decide
  rw [impersonal_eq, impersonal_eq]
  refine congrArg Document.mk ((Fields.filter_set (p := fun name => !List.contains _ name) _ _ hflag).trans ?_)
  -- what the mark was made from is taken away in any case
  rw [erase, Fields.erase, List.filter_filter]
  refine List.filter_congr fun field _ => Bool.and_eq_left_iff_imp.2 fun hkept => ?_
  rw [bne_iff_ne]
  intro hname
  rw [hname, hscratch] at hkept
  cases hkept

/-- Enriched for anybody, the documents are the same but for what is personal. -/
theorem map_impersonal_enrichment (store : Store) (others : Collaborators) (collection : Collection)
    (viewer : Option Uuid) (docs : List Document) :
    (results store others (enrichment collection viewer) docs).map Document.impersonal =
      (results store others (enrichment collection none) docs).map Document.impersonal := by
  cases viewer with
  | none => rfl
  | some viewer =>
    obtain ⟨liked, bookmarked, hmarks, -⟩ := exists_results_enrichment store others collection viewer docs
    rw [hmarks, List.map_map]
    refine List.map_congr_left fun d _ => ?_
    rw [Function.comp_apply, Document.impersonal_mark, Document.impersonal_mark]

/-! ## What a plan takes from the viewer -/

/-- Views that show the same, deleted documents included, make the same core of a plan. -/
theorem PlanRequest.core_of_visibility {q : PlanRequest} {v : Visibility}
    (hopenness : v.openness q.criteria q.collection = q.visibility.openness q.criteria q.collection)
    (hsoft : v.softDelete = q.visibility.softDelete) : ({ q with visibility := v } : PlanRequest).core = q.core := by
  have hfilter : ({ q with visibility := v } : PlanRequest).documentFilter = q.documentFilter := by
    unfold documentFilter Visibility.predicate
    rw [hopenness, hsoft]
  have hjoin : ({ q with visibility := v } : PlanRequest).joinFilter = q.joinFilter := by
    unfold joinFilter
    rw [hfilter]
    rfl
  have htail : ({ q with visibility := v } : PlanRequest).tail = q.tail := by
    unfold tail likedBy
    rw [hsoft]
    rfl
  unfold core listed graph reactions likes liveRoot
  simp only [hfilter, hjoin, htail, hsoft]
  rfl

/-- The view that somebody has. -/
def Visibility.of (store : Store) (others : Collaborators) (c : Criteria) (softDelete : SoftDelete)
    (viewer : Option Uuid) : Visibility :=
  .resolve c viewer ((Service.ownsCollection c viewer).run store others) softDelete

/-- The viewer has no say in what a request is answered with: nobody's follows are gone through, likes only if it is
said whose, and either the viewer has no privilege or it is said whose likes are asked for. -/
structure Bystander (store : Store) (others : Collaborators) (c : Criteria) (softDelete : SoftDelete)
    (viewer : Option Uuid) : Prop where
  unfollowed : ∀ follower, Strategy.select c viewer ≠ .graphFanOut follower
  likedBy : ∀ liker, Strategy.select c viewer = .reactionFanOut liker → c.likedBy?.isSome = true
  isRelaxed : (Visibility.of store others c softDelete viewer).isRelaxed = false ∨ c.likedBy?.isSome = true

namespace Bystander

variable {settings : Settings} {store : Store} {others : Collaborators} {c : Criteria} {softDelete : SoftDelete}
  {viewer : Option Uuid}

/-- Documents are reached in the same way for both. -/
theorem select_eq (h : Bystander store others c softDelete viewer) (viewer' : Option Uuid) :
    Strategy.select c viewer' = Strategy.select c viewer := by
  have hunfollowed := h.unfollowed viewer
  have hlikedBy := h.likedBy (c.likedBy?.or viewer)
  unfold Strategy.select at *
  split
  · rfl
  · rfl
  · split
    · simp_all
    · split
      · obtain ⟨liker, hliker⟩ := Option.isSome_iff_exists.1 (hlikedBy (by simp_all))
        rw [hliker]
        rfl
      · rfl

/-- Bystanders may see the same. -/
theorem openness_eq (h : Bystander store others c softDelete viewer) (collection : Collection) :
    (Visibility.of store others c softDelete viewer).openness c collection =
      match c.likedBy? with
      | some liker => likedByVisibility collection liker
      | none => .eq .isPublic (.bool true) := by
  unfold Visibility.openness
  rcases h.isRelaxed with hstrict | hliked
  · rw [hstrict]
    cases hliker : c.likedBy? with
    | none => simp
    | some liker => simp [Visibility.of, Visibility.resolve, hliker]
  · obtain ⟨liker, hliker⟩ := Option.isSome_iff_exists.1 hliked
    simp [Visibility.of, Visibility.resolve, hliker]

end Bystander

/-- What is prepared, as another viewer sees it. -/
def Prepared.seen (p : Prepared) (v : Visibility) : Prepared := { p with visibility := v }

section Seen

variable {settings : Settings} {store : Store} {others : Collaborators} {collection : Collection} {c : Criteria}
  {softDelete : SoftDelete} {viewer viewer' : Option Uuid} (h : Bystander store others c softDelete viewer)
  (h' : Bystander store others c softDelete viewer')

variable (viewer') in
include h in
/-- For another viewer the same is prepared, but for the view. -/
theorem Bystander.prepare_eq : (Service.prepare settings collection c viewer' softDelete).run store others =
    ((Service.prepare settings collection c viewer softDelete).run store others).map
      (·.seen (.of store others c softDelete viewer')) := by
  unfold Service.prepare
  simp only [Exchange.run_bind, Exchange.run_pure, h.select_eq viewer']
  cases (Service.consult settings collection c.hints).run store others <;> rfl

variable {p : Prepared} (hp : (Service.prepare settings collection c viewer softDelete).run store others = some p)
include h h' hp

/-- The core of a plan is the same for both, in every window. -/
theorem Bystander.core_eq (window : Window) (followingCap : Nat) :
    ((p.seen (.of store others c softDelete viewer')).request window followingCap).core =
      (p.request window followingCap).core := by
  obtain ⟨collection', criteria, visibility, strategy, allowed⟩ := p
  obtain ⟨rfl, rfl, rfl, rfl, -⟩ := (Prepared.mk.injEq ..).mp (Service.prepare_eq_some hp).1
  exact PlanRequest.core_of_visibility (q := Prepared.request ⟨_, _, _, _, _⟩ window followingCap)
    ((h'.openness_eq _).trans (h.openness_eq _).symm) rfl

/-- Executed for both, a plan yields the same documents but for what is personal. -/
theorem Bystander.map_impersonal_execute (window : Window) (followingCap : Nat) :
    (((p.seen (.of store others c softDelete viewer')).plan window
      followingCap).pipeline.execute.run store others).map Document.impersonal =
      ((p.plan window followingCap).pipeline.execute.run store others).map Document.impersonal := by
  rw [Prepared.run_execute, Prepared.run_execute, map_impersonal_enrichment,
    map_impersonal_enrichment store others _ p.visibility.viewer, PlanRequest.documents, h.core_eq h' hp]
  rfl

/-- A page of a feed is the same for both but for what is personal. -/
theorem Bystander.servePage_eq (place : Option Cursor) (limit : Nat) :
    ((Service.servePage settings viewer' place limit
      (some (p.seen (.of store others c softDelete viewer')))).run store others).impersonal =
      ((Service.servePage settings viewer place limit (some p)).run store others).impersonal := by
  have hdocs := h.map_impersonal_execute h' hp (.cursor place limit) settings.followingCap
  have hnext (p : Prepared) : (p.plan (.cursor place limit) settings.followingCap).cursor.next?
      ((p.plan (.cursor place limit) settings.followingCap).pipeline.execute.run store others).getLast? =
      p.cursorPlan.next?
        (results store others (p.request (.cursor place limit) settings.followingCap).core
          (store.docs p.core.root)).getLast? := by
    rw [Prepared.run_execute]
    exact PlanRequest.next?_enrichment store others _ _ _ _
  unfold Service.servePage
  simp only [Exchange.run_bind, Exchange.run_pure, FeedPage.impersonal, FeedPage.assemble, hdocs, hnext,
    h.core_eq h' hp]
  rfl

/-- A page of a listing is the same for both but for what is personal. -/
theorem Bystander.serveList_eq (page size : Nat) :
    ((Service.serveList settings page size
      (some (p.seen (.of store others c softDelete viewer')))).run store others).impersonal =
      ((Service.serveList settings page size (some p)).run store others).impersonal := by
  have hdocs := h.map_impersonal_execute h' hp (.offset ((page - 1) * size) size) settings.followingCap
  have hcount : ((p.seen (.of store others c softDelete viewer')).plan .all
      settings.followingCap).corePipeline = (p.plan .all settings.followingCap).corePipeline :=
    congrArg (Pipeline.mk _) (h.core_eq h' hp .all settings.followingCap)
  unfold Service.serveList
  simp only [Exchange.run_bind, Exchange.run_pure, ListPage.impersonal, ListPage.assemble, hdocs, hcount]

end Seen

/-- Two viewers who have no say in what is answered, of whom either may be nobody, are answered alike: both are refused
for the same reason, or both are given a page of the same documents in the same order that goes on at the same place, in
a listing with the same numbers. But for the marks of the documents and the maps of these, the pages are the same. -/
theorem bystanders_answered_alike (settings : Settings) (store : Store) (others : Collaborators)
    (viewer viewer' : Option Uuid) :
    (∀ r : FeedRequest, (∀ c, Criteria.compile r.filters r.sorts = .ok c →
      Bystander store others c r.softDelete viewer ∧ Bystander store others c r.softDelete viewer') →
        (Service.feed settings { r with viewer := viewer }).map (fun answer => (answer.run store others).impersonal) =
          (Service.feed settings { r with viewer := viewer' }).map fun answer => (answer.run store others).impersonal) ∧
    ∀ r : ListRequest, (∀ c, Criteria.compile r.filters r.sorts = .ok c →
      Bystander store others c r.softDelete viewer ∧ Bystander store others c r.softDelete viewer') →
        (Service.list settings { r with viewer := viewer }).map (fun answer => (answer.run store others).impersonal) =
          (Service.list settings { r with viewer := viewer' }).map fun answer =>
            (answer.run store others).impersonal := by
  constructor
  · intro r hbystanders
    unfold Service.feed
    dsimp only
    -- the viewer is not looked at before a request is prepared
    rcases Service.checkFeed r.collection with _ | _
    · rfl
    rcases Service.pageSize settings r.limit with _ | limit
    · rfl
    rcases Cursor.read r.cursor r.nextValue with _ | place
    · rfl
    cases hc : Criteria.compile r.filters r.sorts with
    | error _ => rfl
    | ok c =>
      obtain ⟨h, h'⟩ := hbystanders c hc
      refine congrArg Except.ok ?_
      dsimp only
      rw [Exchange.run_bind, Exchange.run_bind, h.prepare_eq viewer']
      cases hp : (Service.prepare settings r.collection c viewer r.softDelete).run store others with
      | none => rfl
      | some p => exact (h.servePage_eq h' hp place limit).symm
  · intro r hbystanders
    unfold Service.list
    dsimp only
    rcases Service.checkFeed r.collection with _ | _
    · rfl
    rcases Service.pageNumber r.page with _ | number
    · rfl
    rcases Service.pageSize settings r.pageSize with _ | size
    · rfl
    cases hc : Criteria.compile r.filters r.sorts with
    | error _ => rfl
    | ok c =>
      obtain ⟨h, h'⟩ := hbystanders c hc
      refine congrArg Except.ok ?_
      dsimp only
      rw [Exchange.run_bind, Exchange.run_bind, h.prepare_eq viewer']
      cases hp : (Service.prepare settings r.collection c viewer r.softDelete).run store others with
      | none => rfl
      | some p => exact (h.serveList_eq h' hp number size).symm

/-- The theorem at the small store, for nobody and for the account that liked a document. -/
theorem bystanders_answered_alike_sample :
    let feed (viewer : Option Uuid) := (Service.feed {} (Sample.request [] [] viewer)).map fun answer =>
      (answer.run Sample.store .absent).impersonal
    let list (viewer : Option Uuid) :=
      (Service.list {} ⟨.creations, viewer, [], [], none, none, .exclude⟩).map fun answer =>
      (answer.run Sample.store .absent).impersonal
    feed none = feed (some (Sample.uuid 3)) ∧ list none = list (some (Sample.uuid 3)) := by
  have hbystander (c : Criteria) (h : Criteria.compile [] [] = .ok c) (viewer : Option Uuid) :
      Bystander Sample.store .absent c .exclude viewer := by
    obtain rfl := Except.ok.inj h
    refine ⟨fun _ h => (by cases h), fun _ h => (by cases h), .inl ?_⟩
    cases viewer <;> rfl
  obtain ⟨hfeed, hlist⟩ := bystanders_answered_alike {} Sample.store .absent none (some (Sample.uuid 3))
  exact ⟨hfeed (Sample.request [] [] none) fun c h => ⟨hbystander c h _, hbystander c h _⟩,
    hlist ⟨.creations, none, [], [], none, none, .exclude⟩ fun c h => ⟨hbystander c h _, hbystander c h _⟩⟩

end FeedQuery
