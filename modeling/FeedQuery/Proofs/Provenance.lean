import FeedQuery.Proofs.Soundness

/-!
# Where a document that is shown was listed

A request for the members of a collection shows documents that the collection lists, and a request for what the tasks
for a concept made shows documents that such a task lists (`Shown.exists_collection`, `Shown.exists_task`).
-/

namespace FeedQuery

open Stage

/-- The identifier is in the value: the value spells it, or is an array with an element that it is in. -/
inductive Json.Holds (u : Uuid) : Json → Prop where
  | value {j : Json} : j.id? = some u → Holds u j
  | element {items : List Json} {item : Json} : item ∈ items → Holds u item → Holds u (.array items)

/-- The document has a list that the identifier of the other is in. -/
def Document.Lists (holder : Document) (list : Path) (d : Document) : Prop :=
  ∃ u value, d.id? = some u ∧ holder.get? list = some value ∧ value.Holds u

/-- Where a field holds an identifier, the identifier is in its value. -/
theorem Json.exists_holds {field : Option Json} {u : Uuid} (h : (Scalar.id u).holdsAt field = true) :
    ∃ value, field = some value ∧ value.Holds u := by
  cases field with
  | none => simp [Scalar.holdsAt] at h
  | some value =>
    refine ⟨value, rfl, ?_⟩
    cases value with
    | array items =>
      obtain ⟨item, hitem, hu⟩ := List.any_eq_true.1 h
      exact .element hitem (.value (Scalar.orderOf_id_eq.1 hu))
    | _ => exact .value (Scalar.orderOf_id_eq.1 h)

namespace Document

theorem Lists.of_id? {holder d e : Document} {list : Path} (h : holder.Lists list d) (hid : e.id? = d.id?) :
    holder.Lists list e := by
  obtain ⟨u, value, hu, hrest⟩ := h
  exact ⟨u, value, hid.trans hu, hrest⟩

/-- What a row that was unwound from a list holds is in the list. -/
theorem lists_of_mem_unwind {name : String} {holder row d : Document}
    (hrow : row ∈ holder.unwind (.field name)) {u : Uuid} (hu : d.id? = some u)
    (h : (Predicate.eq (.field name) (.id u)).accepts row = true) : holder.Lists (.field name) d := by
  rw [Predicate.accepts_eq] at h
  unfold unwind at hrow
  split at hrow
  · next items hitems =>
    obtain ⟨item, hitem, rfl⟩ := List.mem_map.1 hrow
    rw [get?_set_self] at h
    obtain ⟨value, hvalue, hholds⟩ := Json.exists_holds h
    obtain rfl := Option.some.inj hvalue
    exact ⟨u, .array items, hu, hitems, .element hitem hholds⟩
  · simp at hrow
  · simp at hrow
  · obtain rfl := List.mem_singleton.1 hrow
    obtain ⟨value, hvalue, hholds⟩ := Json.exists_holds h
    exact ⟨u, value, hu, hvalue, hholds⟩

/-- A document with an identifier has it where identifiers are. -/
theorem accepts_id_iff {d : Document} (hd : d.id?.isSome = true) {u : Uuid} :
    (Predicate.eq .id (.id u)).accepts d = true ↔ d.id? = some u := by
  obtain ⟨v, hv⟩ := Option.isSome_iff_exists.1 hd
  rw [Predicate.accepts_eq, Scalar.holdsAt_id_iff, ← Lookup.exists_key_iff,
    Lookup.keysAt_of_id? ((Document.id?_eq d).symm.trans hv), hv, Option.some.injEq]
  constructor
  · rintro ⟨key, hkey, htext⟩
    rw [List.mem_singleton.1 hkey] at htext
    exact Uuid.toText_injective htext
  · rintro rfl
    exact ⟨Lookup.idKey v, List.mem_singleton_self _, rfl⟩

end Document

namespace PlanRequest

variable {store : Store} {others : Collaborators} {q : PlanRequest}

/-- Rows that are unwound from lists name what is in the lists. -/
theorem exists_lists {holders : List Document} {p : Predicate} {name : String} (hlink : q.link = .field name)
    {row x : Document} (hrow : row ∈ (holders.filter p.accepts).flatMap (Document.unwind (.field name)))
    (hnames : q.names row x = true) :
    ∃ holder ∈ holders, p.accepts holder = true ∧ holder.Lists (.field name) x := by
  obtain ⟨holder, hholder, hrow⟩ := List.mem_flatMap.1 hrow
  obtain ⟨hmem, haccepts⟩ := List.mem_filter.1 hholder
  obtain ⟨u, hu, hholds⟩ := (Option.any_eq_true _ _).1 hnames
  rw [hlink] at hholds
  exact ⟨holder, hmem, haccepts, Document.lists_of_mem_unwind hrow hu hholds⟩

section Rows

variable (hids : Identified (store.docs q.collection)) (hplain : store.HasPlainLinks)
include hids hplain

/-- Through links, a row of the plan names each document that the plan yields. -/
theorem exists_row (hlinks : q.IsThroughLinks) {x : Document} (hx : x ∈ q.documents store others) :
    ∃ row ∈ q.rows store, q.names row x = true := by
  have hroot : q.HasPlainRoot store := by
    refine q.hasPlainRoot hplain ?_ ?_
    · intro follower hs
      simp [IsThroughLinks, hs] at hlinks
    · intro hs
      simp [IsThroughLinks, hs] at hlinks
  rw [q.documents_of_plain hroot hlinks] at hx
  obtain ⟨y, hy, rfl⟩ := q.exists_of_mem_results_tail hx
  obtain ⟨row, hrow, d, -, -, hnames, rfl⟩ := exists_of_mem_fetch hids hy
  refine ⟨row, q.joinedRows_subset store hrow, ?_⟩
  rw [names, id?_dress, (q.agreesApart_carried row d).id?_eq (by simp)]
  exact hnames

/-- What a plan yields as a member of a collection is listed by the collection. -/
theorem exists_collection {named : Uuid} (hs : q.strategy = .membership named) {x : Document}
    (hx : x ∈ q.documents store others) :
    ∃ holder ∈ store.docs .collections, (q.live .id named).accepts holder = true ∧
      holder.Lists (.field "creations") x := by
  obtain ⟨row, hrow, hnames⟩ := exists_row hids hplain (by simp [IsThroughLinks, hs]) hx
  rw [rows, hs] at hrow
  exact exists_lists (by rw [link, hs]) hrow hnames

/-- What a plan yields as made for a concept is listed by a task for the concept. -/
theorem exists_task {concept : Uuid} (hs : q.strategy = .taskOutput concept) {x : Document}
    (hx : x ∈ q.documents store others) :
    ∃ task ∈ store.docs .tasks, (q.live ⟨"args", ["concept"]⟩ concept).accepts task = true ∧
      task.Lists (.field "result") x := by
  obtain ⟨row, hrow, hnames⟩ := exists_row hids hplain (by simp [IsThroughLinks, hs]) hx
  rw [rows, hs] at hrow
  exact exists_lists (by rw [link, hs]) hrow hnames

end Rows

end PlanRequest

namespace Strategy

variable {c : Criteria} (viewer : Option Uuid)

/-- A collection that is named comes before all other ways to reach documents. -/
theorem select_of_collection {named : Uuid} (h : c.id? .collection = some named) :
    select c viewer = .membership named := by
  unfold select Criteria.hints
  rw [h]

/-- Without one, a concept does. -/
theorem select_of_concept {concept : Uuid} (hnone : c.id? .collection = none) (h : c.id? .concept = some concept) :
    select c viewer = .taskOutput concept := by
  unfold select Criteria.hints
  rw [hnone, h]

end Strategy

/-! ## What is shown -/

section Shown

variable {settings : Settings} {store : Store} {others : Collaborators} {collection : Collection} {viewer : Option Uuid}
  {softDelete : SoftDelete} {c : Criteria} {x : Document}
  (h : Shown settings store others collection viewer softDelete c x)
include h

/-- A document that is shown is one that the plan yields, enriched. -/
theorem Shown.exists_documents :
    ∃ p, (Service.prepare settings collection c viewer softDelete).run store others = some p ∧
    ∃ window followingCap, ∃ y ∈ (p.request window followingCap).documents store others, y.id? = x.id? := by
  obtain ⟨p, hp, window, followingCap, hx⟩ := h
  rw [p.run_execute] at hx
  have hid := List.mem_map_of_mem (f := Document.id?) hx
  rw [map_id?_enrichment] at hid
  obtain ⟨y, hy, hyx⟩ := List.mem_map.1 hid
  exact ⟨p, hp, window, followingCap, y, hy, hyx⟩

variable (hstore : store.Reachable) (hplain : store.HasPlainLinks)
include hstore hplain

/-- Where a collection is named, it is there and lists what is shown. -/
theorem Shown.exists_collection {named : Uuid} (hnamed : c.id? .collection = some named) :
    ∃ holder ∈ store.docs .collections, holder.id? = some named ∧ softDelete.predicate.accepts holder = true ∧
      holder.Lists (.field "creations") x := by
  obtain ⟨⟨collection', criteria', visibility, strategy, allowed⟩, hp, window, followingCap, y, hy, hyx⟩ :=
    h.exists_documents
  obtain ⟨rfl, rfl, rfl, rfl, -⟩ := (Prepared.mk.injEq ..).mp (Service.prepare_eq_some hp).1
  obtain ⟨holder, hholder, hlive, hlists⟩ := PlanRequest.exists_collection (hstore.identified collection') hplain
    (Strategy.select_of_collection viewer hnamed) hy
  simp only [PlanRequest.live, Predicate.accepts_all, List.all_cons, List.all_nil, Bool.and_eq_true, Bool.and_true]
    at hlive
  exact ⟨holder, hholder, (Document.accepts_id_iff ((hstore.identified .collections).isSome holder hholder)).1 hlive.1,
    hlive.2, hlists.of_id? hyx.symm⟩

/-- Where no collection is named but a concept, a task for the concept lists what is shown. -/
theorem Shown.exists_task {concept : Uuid} (hnone : c.id? .collection = none)
    (hconcept : c.id? .concept = some concept) :
    ∃ task ∈ store.docs .tasks, (Predicate.eq ⟨"args", ["concept"]⟩ (.id concept)).accepts task = true ∧
      softDelete.predicate.accepts task = true ∧ task.Lists (.field "result") x := by
  obtain ⟨⟨collection', criteria', visibility, strategy, allowed⟩, hp, window, followingCap, y, hy, hyx⟩ :=
    h.exists_documents
  obtain ⟨rfl, rfl, rfl, rfl, -⟩ := (Prepared.mk.injEq ..).mp (Service.prepare_eq_some hp).1
  obtain ⟨task, htask, hlive, hlists⟩ := PlanRequest.exists_task (hstore.identified collection') hplain
    (Strategy.select_of_concept viewer hnone hconcept) hy
  simp only [PlanRequest.live, Predicate.accepts_all, List.all_cons, List.all_nil, Bool.and_eq_true, Bool.and_true]
    at hlive
  exact ⟨task, htask, hlive.1, hlive.2, hlists.of_id? hyx.symm⟩

end Shown

end FeedQuery
