import FeedQuery.Proofs.Interpretation
import FeedQuery.Proofs.Soundness

/-!
# Hidden documents

Where a view shows nothing but public documents that were not deleted, the other documents of the collection have no
influence on what is answered: two stores that differ in such documents alone answer every request alike
(`hidden_documents_unseen`). Whatever a plan finds in the collection it finds through the document filter
(`PlanRequest.lookup_of_mem_core`), and what passes that filter is sorted, cut and counted afterwards; enrichment reads
other collections (`collection_of_mem_enrichment`).
-/

namespace FeedQuery

open Stage

/-- The document is public and was not deleted. -/
def Document.IsOpen (d : Document) : Prop :=
  (Predicate.eq .isPublic (.bool true)).accepts d = true ∧ (Predicate.ne .deleted (.bool true)).accepts d = true

/-- The stores hold the same documents, but for documents of one collection that are not public or were deleted. -/
structure Store.AgreesOpenly (collection : Collection) (s s' : Store) : Prop where
  elsewhere : ∀ c ≠ collection, s.docs c = s'.docs c
  shown : ∀ d : Document, d.IsOpen → (d ∈ s.docs collection ↔ d ∈ s'.docs collection)

/-- What passes a filter that lets open documents through alone is the same in both stores, but for the order. -/
theorem Store.AgreesOpenly.filter_perm {collection : Collection} {s s' : Store} (h : s.AgreesOpenly collection s')
    (hs : Identified (s.docs collection)) (hs' : Identified (s'.docs collection)) {accepts : Document → Bool}
    (hopen : ∀ d, accepts d = true → d.IsOpen) :
    ((s.docs collection).filter accepts).Perm ((s'.docs collection).filter accepts) := by
  refine (List.perm_ext_iff_of_nodup (hs.filter _).nodup (hs'.filter _).nodup).2 ?_
  intro d
  simp only [List.mem_filter]
  exact and_congr_left fun hd => h.shown d (hopen d hd)

/-- Writing a document that is not open, with a new identifier, leaves the store as it was openly. -/
theorem Store.agreesOpenly_of_insert {collection : Collection} {s s' : Store} {d : Document}
    (h : s.insert collection d = .ok s') (hhidden : ¬d.IsOpen) (hnew : ∀ e ∈ s.docs collection, e.id? ≠ d.id?) :
    s.AgreesOpenly collection s' := by
  obtain ⟨id, hid, rfl⟩ := insert_eq_ok h
  rw [hid] at hnew
  constructor
  · intro c hc
    exact (if_neg hc).symm
  · intro e he
    have hne : e ≠ d := by
      rintro rfl
      exact hhidden he
    simp [upsert_of_new hnew, hne]

namespace Lookup

variable {l : Lookup} {s s' : Store}

/-- Documents that are looked up by their identifiers may be arranged in any way. -/
theorem holding_congr (hforeign : l.foreignPath = .id) {found found' : List Document} (h : Identified found)
    (hp : found.Perm found') (text : String) : l.holding found text = l.holding found' text := by
  have hholding : (l.holding found text).Perm (l.holding found' text) := hp.flatMap_right _
  -- one text is the identifier of one document at most
  have hsame : ∀ a b : Document, a ∈ l.holding found text → b ∈ l.holding found' text → True → True → a = b := by
    intro a b ha hb _ _
    obtain ⟨ha, j, hj, hja⟩ := mem_holding.1 ha
    obtain ⟨hb, k, hk, hkb⟩ := mem_holding.1 (hholding.mem_iff.2 hb)
    obtain ⟨u, hu⟩ := h.exists_id? ha
    obtain ⟨v, hv⟩ := h.exists_id? hb
    rw [hforeign, keysAt_of_id? ((Document.id?_eq a).symm.trans hu), List.mem_singleton] at hj
    rw [hforeign, keysAt_of_id? ((Document.id?_eq b).symm.trans hv), List.mem_singleton] at hk
    subst hj hk
    exact h.eq_of_id? ha hb (by rw [hu, hv, Uuid.toText_injective (hja.trans hkb.symm)])
  have htrue (xs : List Document) : xs.Pairwise fun _ _ => True := List.pairwise_of_forall fun _ _ => trivial
  exact List.Perm.eq_of_pairwise hsame (htrue _) (htrue _) hholding

end Lookup

namespace PlanRequest

variable {q : PlanRequest} {s s' : Store}

/-- The document filter accepts nothing but open documents, and no plan but a direct one starts from their
collection. -/
structure IsRestricted (q : PlanRequest) : Prop where
  likedBy : q.criteria.likedBy? = none
  isRelaxed : q.visibility.isRelaxed = false
  softDelete : q.visibility.softDelete = .exclude
  root : q.root = q.collection → q.strategy = .direct

/-- What the document filter of a restricted plan accepts is open. -/
theorem IsRestricted.isOpen (h : q.IsRestricted) {d : Document} (hd : q.documentFilter.accepts d = true) :
    d.IsOpen := by
  have hopenness : q.visibility.openness q.criteria q.collection = .eq .isPublic (.bool true) := by
    unfold Visibility.openness
    rw [h.likedBy, h.isRelaxed]
    cases q.visibility.viaLikedBy <;> rfl
  simp only [documentFilter, Visibility.predicate, hopenness, h.softDelete, SoftDelete.predicate, Predicate.accepts_all,
    List.all_cons, List.all_nil, Bool.and_eq_true] at hd
  exact ⟨hd.1.1, hd.1.2.1⟩

/-! ## Over stores that agree openly -/

section AgreesOpenly

variable (h : q.IsRestricted) (hs : s.Reachable) (hs' : s'.Reachable) (hagrees : s.AgreesOpenly q.collection s')
include h hs hs' hagrees

/-- What passes a filter that lets through no more than the document filter is the same, but for the order. -/
theorem filter_perm {accepts : Document → Bool} (haccepts : ∀ d, accepts d = true → q.documentFilter.accepts d = true) :
    ((s.docs q.collection).filter accepts).Perm ((s'.docs q.collection).filter accepts) :=
  hagrees.filter_perm (hs.identified _) (hs'.identified _) fun d hd => h.isOpen (haccepts d hd)

/-- Documents that are joined by their identifiers are the same. -/
theorem partners_member (path : Path) {filter : Predicate}
    (hfilter : ∀ d, filter.accepts d = true → q.documentFilter.accepts d = true) (docs : List Document) :
    (q.member path filter).partners s docs = (q.member path filter).partners s' docs := by
  funext text
  unfold Lookup.partners Lookup.candidates
  change (q.member path filter).holding (sortDocuments [] _) text =
    (q.member path filter).holding (sortDocuments [] _) text
  rw [sortDocuments_nil, sortDocuments_nil]
  exact Lookup.holding_congr rfl ((hs.identified _).filter _)
    (filter_perm h hs hs' hagrees fun d hd => hfilter d (Bool.and_eq_true_iff.1 hd).1) text

/-- Documents that follows are joined with are the same, and in the same order. -/
theorem partners_fanOut {follower : Option Uuid} (hstrategy : q.strategy = .graphFanOut follower)
    (docs : List Document) :
    q.fanOut.partners s docs = q.fanOut.partners s' docs := by
  obtain ⟨direction, hkey⟩ : ∃ direction, ⟨.id, direction, .id⟩ ∈ q.fanOut.sort := by
    have hr : q.isReactionOrder = false := isReactionOrder_of_strategy (by rw [hstrategy]; rfl)
    unfold fanOut
    dsimp only
    split
    · exact ⟨.descending, List.mem_singleton_self _⟩
    · exact ⟨_, q.idKey_mem_sortKeys hr⟩
  have hcandidates (values : List Scalar) : q.fanOut.candidates s values = q.fanOut.candidates s' values := by
    refine sortDocuments_eq_of_separates (((hs.identified _).filter _).separates hkey) (filter_perm h hs hs' hagrees ?_)
    intro d hd
    exact q.accepts_of_joinFilter (Bool.and_eq_true_iff.1 hd).1
  funext text
  unfold Lookup.partners
  simp only [hcandidates]

/-- Lookups of the plan find the same. -/
theorem partners_of_mem_core {l : Lookup} (hl : .lookup l ∈ q.core) (docs : List Document) :
    l.partners s docs = l.partners s' docs := by
  rcases lookup_of_mem_core h.likedBy hl with ⟨path, filter, rfl, hfilter⟩ | ⟨rfl, follower, hstrategy⟩
  · exact partners_member h hs hs' hagrees path hfilter docs
  · exact partners_fanOut h hs hs' hagrees hstrategy docs

/-- A restricted plan yields the same documents: directly they are sorted in one way, and else it starts from what both
stores hold. -/
theorem documents_congr (others : Collaborators) : q.documents s others = q.documents s' others := by
  by_cases hroot : q.root = q.collection
  · have hdirect := h.root hroot
    have hr : q.isReactionOrder = false := isReactionOrder_of_strategy (by rw [hdirect]; rfl)
    have hperm := (((filter_perm h hs hs' hagrees fun d hd => hd).map q.dress).filter q.bound.accepts)
    have hdistinct :=
      (q.distinct_map_dress hr ((hs'.identified q.collection).filter q.documentFilter.accepts)).filter q.bound.accepts
    rw [q.documents_direct (hs.identified _) hdirect, q.documents_direct (hs'.identified _) hdirect,
      admits_of_likedBy h.likedBy, admits_of_likedBy h.likedBy, sortDocuments_congr hperm hdistinct]
    exact results_congr others (fun l hl => absurd hl (lookup_not_mem_window _ l)) _
  · have hlinks : s.docs q.root = s'.docs q.root := hagrees.elsewhere _ hroot
    rw [documents, hlinks]
    exact results_congr others (fun l hl => partners_of_mem_core h hs hs' hagrees hl) _

end AgreesOpenly

end PlanRequest

/-! ## What is answered -/

/-- Enrichment looks up what belongs to documents in other collections. -/
theorem collection_of_mem_enrichment {collection : Collection} (hcollection : collection ≠ .reactions)
    {viewer : Option Uuid} {l : Lookup} (hl : .lookup l ∈ enrichment collection viewer) :
    l.collection ≠ collection := by
  have hsummary {c : Collection} {field : Path} {names : List String} (hl : .lookup l ∈ [summary c field names]) :
      l.collection = c := by
    obtain rfl := Stage.lookup.inj (List.mem_singleton.1 hl)
    rfl
  simp only [enrichment, List.mem_append] at hl
  rcases hl with ((hl | hl) | hl) | hl
  · split at hl
    · simp at hl
    · next hcreators =>
      rintro rfl
      exact hcreators (beq_iff_eq.2 (hsummary hl))
  · split at hl
    · next hagent =>
      rintro rfl
      rw [hsummary hl] at hagent
      exact absurd hagent (by decide)
    · simp at hl
  · split at hl
    · next htask =>
      rintro rfl
      rw [hsummary hl] at htask
      exact absurd htask (by decide)
    · simp at hl
  · cases viewer with
    | none => simp at hl
    | some viewer =>
      have hreactions : l.collection = .reactions := by
        simp only [reactionFlag, List.mem_append, List.mem_cons, Stage.lookup.injEq, List.not_mem_nil, reduceCtorEq,
          or_false] at hl
        rcases hl with rfl | rfl <;> rfl
      rw [hreactions]
      exact hcollection.symm

theorem Strategy.membership_of_select {c : Criteria} {viewer : Option Uuid} {collection : Uuid}
    (h : select c viewer = .membership collection) : c.id? .collection = some collection := by
  unfold select at h
  split at h
  · next named hmembership =>
    obtain rfl := Strategy.membership.inj h
    exact hmembership
  · simp at h
  · split at h
    · simp at h
    · split at h <;> simp at h

/-- Only a direct plan starts from the documents that are asked for, unless the members of a collection of collections
are. -/
theorem PlanRequest.direct_of_root {q : PlanRequest} {viewer : Option Uuid} (hfeed : q.collection.isFeed = true)
    (hs : q.strategy = .select q.criteria viewer)
    (hunnamed : q.collection = .collections → q.criteria.id? .collection = none)
    (hroot : q.root = q.collection) : q.strategy = .direct := by
  unfold root at hroot
  cases hstrategy : q.strategy with
  | membership named =>
    rw [hstrategy] at hroot
    have hnamed := Strategy.membership_of_select (hs.symm.trans hstrategy)
    rw [hunnamed hroot.symm] at hnamed
    cases hnamed
  | direct => rfl
  | _ =>
    rw [hstrategy] at hroot
    dsimp only at hroot
    rw [← hroot] at hfeed
    exact absurd hfeed (by decide)

/-- The viewer sees nothing but open documents of the collection: the view is not relaxed, and nobody's likes are asked
for. Where collections are asked for, they are not asked for as the members of one. -/
structure Outsider (store : Store) (others : Collaborators) (collection : Collection) (viewer : Option Uuid)
    (c : Criteria) : Prop where
  likedBy : c.likedBy? = none
  isRelaxed :
    (Visibility.resolve c viewer ((Service.ownsCollection c viewer).run store others) .exclude).isRelaxed = false
  unnamed : collection = .collections → c.id? .collection = none

section Answers

variable {settings : Settings} {s s' : Store} {others : Collaborators} {collection : Collection} {viewer : Option Uuid}
  {c : Criteria} {p : Prepared} (hs : s.Reachable) (hs' : s'.Reachable) (hagrees : s.AgreesOpenly collection s')
  (hfeed : collection.isFeed = true) (hc : Outsider s others collection viewer c)

include hagrees hc in
/-- What is prepared for an outsider is the same. -/
theorem Outsider.prepare_eq : (Service.prepare settings collection c viewer .exclude).run s others =
    (Service.prepare settings collection c viewer .exclude).run s' others := by
  refine Service.prepare_congr settings collection .exclude ?_
  by_cases hcollections : collection = .collections
  · have hunnamed := hc.unnamed hcollections
    rw [Service.ownsCollection_of_none hunnamed, Service.ownsCollection_of_none hunnamed]
  · have hdocs := hagrees.elsewhere .collections (Ne.symm hcollections)
    have hcount (predicate : Predicate) : s.count .collections predicate = s'.count .collections predicate := by
      rw [Store.count, Store.count, Store.find, Store.find, hdocs]
    unfold Service.ownsCollection
    split
    · simp only [Exchange.run, hcount]
    · rfl

variable (hp : (Service.prepare settings collection c viewer .exclude).run s others = some p)

include hfeed hc hp in
/-- What is prepared for an outsider has a restricted plan in every window. -/
theorem Outsider.isRestricted (window : Window) (followingCap : Nat) :
    (p.request window followingCap).IsRestricted := by
  obtain ⟨collection', criteria, visibility, strategy, allowed⟩ := p
  obtain ⟨rfl, rfl, rfl, rfl, -⟩ := (Prepared.mk.injEq ..).mp (Service.prepare_eq_some hp).1
  exact ⟨hc.likedBy, hc.isRelaxed, rfl, PlanRequest.direct_of_root hfeed rfl hc.unnamed⟩

include hs hs' hagrees hfeed hc hp

/-- What is prepared for an outsider yields the same documents in every window. -/
theorem Outsider.documents_eq (window : Window) (followingCap : Nat) :
    (p.request window followingCap).documents s others = (p.request window followingCap).documents s' others := by
  refine PlanRequest.documents_congr (hc.isRestricted hfeed hp window followingCap) hs hs' ?_ others
  rw [← Service.collection_of_prepare hp] at hagrees
  exact hagrees

/-- Enriched, they are the same too. -/
theorem Outsider.execute_eq (window : Window) (followingCap : Nat) :
    (p.plan window followingCap).pipeline.execute.run s others =
      (p.plan window followingCap).pipeline.execute.run s' others := by
  have hreactions : collection ≠ .reactions := by
    rintro rfl
    exact absurd hfeed (by decide)
  rw [p.run_execute, p.run_execute, hc.documents_eq hs hs' hagrees hfeed hp, Service.collection_of_prepare hp]
  refine results_congr others (fun l hl docs => Lookup.partners_congr (hagrees.elsewhere _ ?_) docs) _
  exact collection_of_mem_enrichment hreactions hl

/-- So are they when they are counted. -/
theorem Outsider.count_eq (window : Window) (followingCap : Nat) :
    (p.plan window followingCap).corePipeline.count.run s others =
      (p.plan window followingCap).corePipeline.count.run s' others := by
  rw [Pipeline.run_count, Pipeline.run_count]
  exact congrArg List.length (hc.documents_eq hs hs' hagrees hfeed hp window followingCap)

end Answers

/-- Two stores that hold the same documents, but for documents of one collection that are not public or were deleted,
answer an outsider alike, whatever is asked of that collection and in whatever way its documents are reached: every page
of a feed is the same with all that is on it, and every page of a listing, with the total and the number of pages. It
needs that deleted documents are to stay out of sight. -/
theorem hidden_documents_unseen {s s' : Store} (hs : s.Reachable) (hs' : s'.Reachable) {collection : Collection}
    (hagrees : s.AgreesOpenly collection s') (settings : Settings) (others : Collaborators) :
    (∀ r : FeedRequest, r.collection = collection → r.softDelete = .exclude →
      (∀ c, Criteria.compile r.filters r.sorts = .ok c → Outsider s others collection r.viewer c) →
      ∀ page, Answers settings s others r page ↔ Answers settings s' others r page) ∧
    ∀ r : ListRequest, r.collection = collection → r.softDelete = .exclude →
      (∀ c, Criteria.compile r.filters r.sorts = .ok c → Outsider s others collection r.viewer c) →
      ∀ page, Lists settings s others r page ↔ Lists settings s' others r page := by
  constructor
  · rintro r rfl hsoft houtsider page
    refine exists_congr fun answer => and_congr_right fun hanswer => ?_
    have hfeed : r.collection.isFeed = true := Service.isFeed_of_checkFeed hanswer
    obtain ⟨limit, place, c, hcompile, rfl⟩ := Service.feed_eq_ok hanswer
    have hc := houtsider c hcompile
    rw [hsoft, Exchange.run_bind, Exchange.run_bind, ← hc.prepare_eq hagrees]
    cases hp : (Service.prepare settings r.collection c r.viewer .exclude).run s others with
    | none => rfl
    | some p =>
      simp only [Service.servePage, Exchange.run_bind, Exchange.run_pure]
      rw [hc.execute_eq hs hs' hagrees hfeed hp]
  · rintro r rfl hsoft houtsider page
    refine exists_congr fun answer => and_congr_right fun hanswer => ?_
    have hfeed : r.collection.isFeed = true := Service.isFeed_of_checkFeed hanswer
    obtain ⟨number, size, c, hcompile, rfl⟩ := Service.list_eq_ok hanswer
    have hc := houtsider c hcompile
    rw [hsoft, Exchange.run_bind, Exchange.run_bind, ← hc.prepare_eq hagrees]
    cases hp : (Service.prepare settings r.collection c r.viewer .exclude).run s others with
    | none => rfl
    | some p =>
      simp only [Service.serveList, Exchange.run_bind, Exchange.run_pure]
      rw [hc.execute_eq hs hs' hagrees hfeed hp, hc.count_eq hs hs' hagrees hfeed hp]

/-- A document that is not public. -/
def Sample.hidden : Document := (creation 6).set .isPublic (.bool false)

/-- The theorem at the small store before and after the hidden document is written, for somebody who asks for all
documents. -/
theorem hidden_documents_unseen_sample : ∃ crowded, Sample.store.insert .creations Sample.hidden = .ok crowded ∧
    (∀ page, Answers {} Sample.store .absent (Sample.request [] [] none) page ↔
      Answers {} crowded .absent (Sample.request [] [] none) page) ∧
    ∀ page, Lists {} Sample.store .absent ⟨.creations, none, [], [], none, none, .exclude⟩ page ↔
      Lists {} crowded .absent ⟨.creations, none, [], [], none, none, .exclude⟩ page := by
  have hid : Sample.hidden.id?.isSome = true := by decide +kernel
  have hhidden : ¬Sample.hidden.IsOpen := fun h => absurd h.1 (by decide)
  have hnew : ∀ e ∈ Sample.store.docs .creations, e.id? ≠ Sample.hidden.id? := by decide +kernel
  obtain ⟨crowded, hwrite⟩ := Sample.store.exists_insert .creations hid
  have houtsider (c : Criteria) (h : Criteria.compile [] [] = .ok c) :
      Outsider Sample.store .absent .creations none c := by
    obtain rfl := Except.ok.inj h
    exact ⟨rfl, rfl, fun h => by cases h⟩
  have hstore : Sample.store.Reachable := Store.reachable_ofList _
  obtain ⟨hfeed, hlist⟩ := hidden_documents_unseen hstore (hstore.insert hwrite)
    (Store.agreesOpenly_of_insert hwrite hhidden hnew) {} .absent
  exact ⟨crowded, hwrite, hfeed _ rfl rfl houtsider, hlist _ rfl rfl houtsider⟩

end FeedQuery
