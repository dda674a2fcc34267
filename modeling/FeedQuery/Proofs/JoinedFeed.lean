import FeedQuery.Proofs.Paging

/-!
# Feeds through links, in the order of the documents

A feed of the members of a collection, of what the tasks for a concept made, or of what an account liked with an order
of its own goes through all the documents that are linked to and that the request admits, in the order of the request:
joining them, scoring them and putting the bound early or late comes to filtering the stored documents and sorting them.
-/

namespace FeedQuery

namespace PlanRequest

variable {store : Store} {q : PlanRequest}

/-- The rows with the admitted documents that they link to. -/
def reached (q : PlanRequest) (store : Store) : List (Document × Document) :=
  (q.rows store).filterMap fun row => ((q.target? store row).filter (q.admits store)).map fun d => (row, d)

theorem selection_eq (q : PlanRequest) (store : Store) :
    q.selection store = (q.reached store).map fun x => q.dress (x.1.carryInto q.carried x.2) := by
  unfold selection reached
  rw [List.map_filterMap]
  refine List.filterMap_congr ?_
  intro row _
  rw [Option.map_map]
  rfl

/-- What the rows reach are the stored documents with their links. -/
theorem map_reached {ids : List Uuid} (hlinks : q.links store = ids.map some) :
    (q.reached store).map Prod.snd = ids.filterMap fun u => (store.get? q.collection u).filter (q.admits store) := by
  have hrows : (q.reached store).map Prod.snd =
      (q.links store).filterMap fun link => (link.bind (store.get? q.collection)).filter (q.admits store) := by
    unfold reached links
    rw [List.map_filterMap, List.filterMap_map]
    refine List.filterMap_congr ?_
    intro row _
    rw [Option.map_map]
    exact Option.map_id'
  rw [hrows, hlinks, List.filterMap_map]
  rfl

theorem linked_of_links {ids : List Uuid} (hlinks : q.links store = ids.map some) : q.Linked (q.rows store) := by
  intro row hrow
  have hmem : ((row.get? q.link).bind Json.id?) ∈ q.links store := List.mem_map_of_mem hrow
  rw [hlinks] at hmem
  obtain ⟨u, -, hu⟩ := List.mem_map.1 hmem
  rw [← hu]
  rfl

/-- The stored documents that are linked to by one of the identifiers, that the request accepts, and that the account
liked whose likes are asked for. -/
def expected (q : PlanRequest) (store : Store) (ids : List Uuid) : List Document :=
  (store.docs q.collection).filter fun d =>
    d.id?.any (fun u => ids.contains u) && (q.accepts d && q.passes store d)

section Reached

variable {ids : List Uuid} (hstore : Identified (store.docs q.collection)) (hlinks : q.links store = ids.map some)
  (hids : ids.Nodup)
include hstore hlinks

theorem mem_reached {x : Document × Document} (hx : x ∈ q.reached store) :
    x.2 ∈ store.docs q.collection ∧ q.admits store x.2 = true := by
  have hmem : x.2 ∈ (q.reached store).map Prod.snd := List.mem_map_of_mem hx
  rw [map_reached hlinks] at hmem
  obtain ⟨u, -, hu⟩ := List.mem_filterMap.1 hmem
  obtain ⟨hget, hadmits⟩ := Option.filter_eq_some_iff.1 hu
  exact ⟨((Store.get?_eq_some hstore).1 hget).1, hadmits⟩

include hids

/-- No document is reached twice. -/
theorem identified_reached : Identified ((q.reached store).map Prod.snd) := by
  rw [map_reached hlinks]
  constructor
  · intro d hd
    obtain ⟨u, -, hu⟩ := List.mem_filterMap.1 hd
    rw [((Store.get?_eq_some hstore).1 (Option.filter_eq_some_iff.1 hu).1).2]
    rfl
  · refine List.pairwise_filterMap.2 (hids.imp fun {u v} huv d hd e he hde => huv ?_)
    have hu := ((Store.get?_eq_some hstore).1 (Option.filter_eq_some_iff.1 hd).1).2
    have hv := ((Store.get?_eq_some hstore).1 (Option.filter_eq_some_iff.1 he).1).2
    exact Option.some.inj (hu.symm.trans (hde.trans hv))

/-- Every stored document that is linked to and admitted is reached. -/
theorem reached_perm : ((q.reached store).map Prod.snd).Perm (q.expected store ids) := by
  refine (List.perm_ext_iff_of_nodup (identified_reached hstore hlinks hids).nodup (hstore.filter _).nodup).2 ?_
  intro d
  rw [map_reached hlinks, List.mem_filterMap, List.mem_filter]
  constructor
  · rintro ⟨u, hu, hd⟩
    obtain ⟨hget, hadmits⟩ := Option.filter_eq_some_iff.1 hd
    obtain ⟨hd, hid⟩ := (Store.get?_eq_some hstore).1 hget
    rw [admits_eq] at hadmits
    exact ⟨hd, by simp only [hid, Option.any_some, List.contains_iff_mem.2 hu, Bool.true_and, hadmits]⟩
  · rintro ⟨hd, hp⟩
    obtain ⟨u, hid⟩ := hstore.exists_id? hd
    rw [hid, Option.any_some, ← admits_eq, Bool.and_eq_true, List.contains_iff_mem] at hp
    exact ⟨u, hp.1, Option.filter_eq_some_iff.2 ⟨(Store.get?_eq_some hstore).2 ⟨hd, hid⟩, hp.2⟩⟩

/-- No document is selected twice. -/
theorem identified_selection : Identified (q.selection store) := by
  refine (identified_reached hstore hlinks hids).of_ids ?_
  rw [selection_eq, List.map_map, List.map_map]
  exact List.map_congr_left fun x _ => by simp

end Reached

section Selection

variable (h : q.IsJoined) {ids : List Uuid} (hstore : Identified (store.docs q.collection))
include h hstore

/-- What is selected has a place, and so can be gone on from. -/
theorem isSome_place?_selection (hfinite : q.HasFiniteScores) (hlinks : q.links store = ids.map some) {d : Document}
    (hd : d ∈ q.selection store) :
    (q.cursorPlan.place? d).isSome = true := by
  rw [selection_eq] at hd
  obtain ⟨x, hx, rfl⟩ := List.mem_map.1 hd
  obtain ⟨hmem, hadmits⟩ := mem_reached hstore hlinks hx
  obtain ⟨u, hu⟩ := hstore.exists_id? hmem
  exact q.isSome_place?_dress (fun _ => hfinite) (isReactionOrder_of_isJoined h) hu (q.accepts_of_admits hadmits)
    (q.agreesApart_carried x.1 x.2)

/-- The expected documents, as they are sorted, are told apart. -/
theorem distinct_expected (ids : List Uuid) : ((q.expected store ids).map q.dress).Pairwise
    fun a b => compareDocuments q.cursorPlan.sortKeys a b ≠ .eq := by
  have hexpected : Identified (q.expected store ids) := hstore.filter _
  exact q.distinct_map_dress (isReactionOrder_of_isJoined h) hexpected

/-- In order, what is selected through the links are the documents that are expected, whatever the rows pass on. -/
theorem map_id?_sortDocuments_selection (hlinks : q.links store = ids.map some) (hids : ids.Nodup) :
    (sortDocuments q.cursorPlan.sortKeys (q.selection store)).map Document.id? =
      (sortDocuments q.cursorPlan.sortKeys ((q.expected store ids).map q.dress)).map Document.id? := by
  have halike (x : Document × Document) : q.cursorPlan.Alike (q.dress x.2) (q.dress (x.1.carryInto q.carried x.2)) := by
    refine q.alike_of_agreesApart (q.dress_congr (q.agreesApart_carried x.1 x.2) (by simp)) ?_ (by decide)
    rw [position_cursorPlan, isReactionOrder_of_isJoined h, if_neg (by decide)]
    decide
  have hperm : ((q.reached store).map fun x => q.dress x.2).Perm ((q.expected store ids).map q.dress) := by
    have hdressed := (reached_perm hstore hlinks hids).map q.dress
    rwa [List.map_map] at hdressed
  -- the pairs are sorted once; what the rows pass on does not matter for their order
  obtain ⟨sorted, -, hcarried, hplain⟩ := sortDocuments_map_map
    (fun (x : Document × Document) (_ : x ∈ q.reached store) y _ => (halike x).compare (halike y))
  rw [selection_eq, hcarried, ← sortDocuments_congr hperm (distinct_expected h hstore ids), hplain]
  simp only [List.map_map]
  exact List.map_congr_left fun x _ => by simp

end Selection

end PlanRequest

section JoinedFeed

variable {settings : Settings} {store : Store} {others : Collaborators} {r : FeedRequest} {limit : Nat} {p : Prepared}

/-- The request yields in order what is selected through the links. -/
theorem yields_joined (hstore : store.Reachable) (hplain : store.HasPlainLinks) (hothers : others.IsFinite)
    (hr : Serves settings store others r limit p) (h : p.core.IsJoined) {ids : List Uuid}
    (hlinks : p.core.links store = ids.map some) (hids : ids.Nodup) :
    p.Yields settings store others (sortDocuments p.cursorPlan.sortKeys (p.core.selection store)) ∧
      p.Orders (sortDocuments p.cursorPlan.sortKeys (p.core.selection store)) := by
  have hkind : Identified (store.docs p.core.collection) := hstore.identified _
  have hselection : Identified (p.core.selection store) := PlanRequest.identified_selection hkind hlinks hids
  have hplaced : ∀ d ∈ p.core.selection store, (p.cursorPlan.place? d).isSome = true := fun d hd =>
    PlanRequest.isSome_place?_selection h hkind (hr.hasFiniteScores hothers) hlinks hd
  have hdistinct := p.core.distinct_of_identified (PlanRequest.isReactionOrder_of_isJoined h) hselection
  have hroot : p.core.HasPlainRoot store := p.core.hasPlainRoot_of_isJoined hplain h
  refine ⟨Prepared.yields_of_documents ?_, strict_sortDocuments hdistinct, ?_⟩
  · intro place limit
    exact (p.request (.cursor place limit) settings.followingCap).documents_joined hkind hroot h
      (PlanRequest.linked_of_links hlinks)
  · intro d hd
    exact hplaced d ((mem_sortDocuments _).1 hd)

/-- A feed through links, in an order of the documents, over a store that does not change, in two parts. It needs that
no document that may hold links has an object under `doc`, and that the links are identifiers and distinct.
1. A client can follow the pages to the first empty one.
2. The pages that it sees show, by identifier, exactly the stored documents that are linked to and admitted, in the
   order of the request, which tells them all apart; none is shown twice, and every page but the last that has documents
   is full. -/
theorem joined_feed_exact (hstore : store.Reachable) (hplain : store.HasPlainLinks) (hothers : others.IsFinite)
    (hr : Serves settings store others r limit p) (hstart : Cursor.given? r.cursor = none) (hlimit : 0 < limit)
    (h : p.core.IsJoined) {ids : List Uuid} (hlinks : p.core.links store = ids.map some) (hids : ids.Nodup) :
    (∃ pages, Following settings store others r pages) ∧
    ∀ pages, Following settings store others r pages →
      (pages.flatMap FeedPage.docs).map Document.id? =
        (sortDocuments p.cursorPlan.sortKeys ((p.core.expected store ids).map p.core.dress)).map Document.id? ∧
      (sortDocuments p.cursorPlan.sortKeys ((p.core.expected store ids).map p.core.dress)).Pairwise
        (fun a b => compareDocuments p.cursorPlan.sortKeys a b = .lt) ∧
      Identified (pages.flatMap FeedPage.docs) ∧
      FullPages limit (pages.map FeedPage.docs) := by
  obtain ⟨hy, horders⟩ := yields_joined hstore hplain hothers hr h hlinks hids
  have hkind : Identified (store.docs p.core.collection) := hstore.identified _
  have hread : Cursor.read r.cursor r.nextValue = .ok none := Cursor.read_start hstart
  have hremains := p.remains_start (sortDocuments p.cursorPlan.sortKeys (p.core.selection store))
  refine ⟨exists_following hy horders hlimit hr hread hremains, ?_⟩
  intro pages hpages
  obtain ⟨raws, rfl, hflat, hfull⟩ := hpages.eq_of_remains hy horders hlimit hr hread hremains
  have hids? : ((raws.map (p.decorate store others)).flatMap FeedPage.docs).map Document.id? =
      (sortDocuments p.cursorPlan.sortKeys (p.core.selection store)).map Document.id? := by
    rw [← hflat]
    exact p.map_id?_decorate store others raws
  refine ⟨?_, ?_, ?_, ?_⟩
  · rw [hids?]
    exact PlanRequest.map_id?_sortDocuments_selection h hkind hlinks hids
  · exact strict_sortDocuments (PlanRequest.distinct_expected h hkind ids)
  · have hselection : Identified (p.core.selection store) := PlanRequest.identified_selection hkind hlinks hids
    exact (hselection.perm (sortDocuments_perm _ _).symm).of_ids hids?
  · exact hfull.decorate p store others

/-- The theorem at the members of the small store's collection. -/
theorem joined_feed_exact_sample :
    let p := Sample.prepared ⟨[⟨.collection, [.id (Sample.uuid 5)]⟩], none, false, false⟩ none
    let r := Sample.request ["collection;00000000-0000-0000-0000-000000000005"] [] none
    (∃ pages, Following {} Sample.store .absent r pages) ∧
    ∀ pages, Following {} Sample.store .absent r pages →
      (pages.flatMap FeedPage.docs).map Document.id? = (sortDocuments p.cursorPlan.sortKeys
        ((p.core.expected Sample.store [Sample.uuid 1, Sample.uuid 2]).map p.core.dress)).map Document.id? ∧
      (sortDocuments p.cursorPlan.sortKeys
        ((p.core.expected Sample.store [Sample.uuid 1, Sample.uuid 2]).map p.core.dress)).Pairwise
          (fun a b => compareDocuments p.cursorPlan.sortKeys a b = .lt) ∧
      Identified (pages.flatMap FeedPage.docs) ∧
      FullPages 1 (pages.map FeedPage.docs) := by
  have hothers : Collaborators.absent.IsFinite := Collaborators.isFinite_absent
  have hplain : Sample.store.HasPlainLinks := by decide +kernel
  have hserves : Serves {} Sample.store .absent
      (Sample.request ["collection;00000000-0000-0000-0000-000000000005"] [] none) 1
      (Sample.prepared ⟨[⟨.collection, [.id (Sample.uuid 5)]⟩], none, false, false⟩ none) :=
    ⟨rfl, rfl, ⟨[⟨.collection, [.id (Sample.uuid 5)]⟩], none, false, false⟩, rfl, rfl⟩
  exact joined_feed_exact (Store.reachable_ofList _) hplain hothers hserves rfl (by decide) trivial
    (by decide +kernel) (by decide)

end JoinedFeed

end FeedQuery
