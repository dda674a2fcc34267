import FeedQuery.Proofs.Repetition

/-!
# Rows that find nothing

Through links, a plan joins rows with documents and puts what a row finds in its place. A join of one document writes
nothing into a row that finds nothing (`PlanRequest.finds?_eq_none_iff`), so in the place of such a row comes the object
that it has itself where a joined document is held, if there is one (`PlanRequest.yield?_of_isUnmatched`). That object
was not looked up: neither the document filter nor the rule of what may be seen was applied to it.
-/

namespace FeedQuery

open Document (AgreesApart)
open Stage

namespace PlanRequest

variable {store : Store} {others : Collaborators} (q : PlanRequest)

/-- The document that a row finds. -/
def finds? (store : Store) (others : Collaborators) (row : Document) : Option Document :=
  ((q.member q.link q.memberFilter).found ((q.member q.link q.memberFilter).matching store others (q.joinedRows store))
    row).head?

/-- What comes in the place of a row: the document that it finds, or else the object that it has itself, with what the
row passes on. -/
def yield? (store : Store) (others : Collaborators) (row : Document) : Option Document :=
  ((q.finds? store others row).or row.own?).map (row.carryInto q.carried)

/-- The row names no stored document that the filter of the join accepts. -/
def IsUnmatched (store : Store) (row : Document) : Prop :=
  ∀ d ∈ store.docs q.collection, q.memberFilter.accepts d = true → q.names row d = false

/-- Executing the core of a plan yields its documents. -/
theorem run_corePipeline (store : Store) (others : Collaborators) :
    (Plan.build q).corePipeline.execute.run store others = q.documents store others := Pipeline.run_execute ..

/-- Through links, the core of a plan yields what its tail makes of what comes in the place of the rows. -/
theorem documents_yield? (h : q.IsThroughLinks) : q.documents store others =
    results store others q.tail ((q.joinedRows store).filterMap (q.yield? store others)) := by
  rw [q.documents_of_isThroughLinks h, q.results_memberLookup _ _ q.carried_first]
  rfl

section Found

variable {q} (hids : Identified (store.docs q.collection))
include hids

/-- Rows that are joined find nothing exactly where they are unmatched. -/
theorem finds?_eq_none_iff {row : Document} (hrow : row ∈ q.joinedRows store) :
    q.finds? store others row = none ↔ q.IsUnmatched store row := by
  constructor
  · intro hnone d hd haccepts
    rw [Bool.eq_false_iff]
    intro hnames
    obtain ⟨u, hu, hholds⟩ := (Option.any_eq_true _ _).1 hnames
    rw [Predicate.accepts_eq, Scalar.holdsAt_id_iff] at hholds
    -- the row asks for the document by a key that spells its identifier
    obtain ⟨key, hkey, htext⟩ := Lookup.exists_key_iff.2 hholds
    have hask : (q.member q.link q.memberFilter).Asks (q.joinedRows store) u := ⟨row, hrow, hholds⟩
    have hmatching : d ∈ (q.member q.link q.memberFilter).matching store others (q.joinedRows store) key.text := by
      rw [htext, Lookup.mem_matching_iff rfl hask]
      exact ⟨hd, haccepts, Lookup.valuesAt_of_id? ((Document.id?_eq d).symm.trans hu)⟩
    rw [finds?, List.head?_eq_none_iff, Lookup.found, List.flatMap_eq_nil_iff] at hnone
    simp [hnone key hkey] at hmatching
  · intro hunmatched
    cases hfinds : q.finds? store others row with
    | none => rfl
    | some d =>
      obtain ⟨hstored, haccepts, hnames⟩ := of_found hids hfinds
      simp [hunmatched d hstored haccepts] at hnames

/-- In the place of an unmatched row comes its own object, with what the row passes on. -/
theorem yield?_of_isUnmatched {row : Document} (hrow : row ∈ q.joinedRows store) (h : q.IsUnmatched store row) :
    q.yield? store others row = row.own?.map (row.carryInto q.carried) := by
  rw [yield?, (finds?_eq_none_iff hids hrow).2 h, Option.none_or]

/-- What comes in the place of a row is a stored document that the row names and the filter of the join accepts, or the
object of an unmatched row. -/
theorem of_yield? {row y : Document} (hrow : row ∈ q.joinedRows store) (h : q.yield? store others row = some y) :
    (∃ d ∈ store.docs q.collection, q.memberFilter.accepts d = true ∧ q.names row d = true ∧
      AgreesApart ["likedId", "likedAt"] d y) ∨
      q.IsUnmatched store row ∧ ∃ own, row.own? = some own ∧ AgreesApart ["likedId", "likedAt"] own y := by
  unfold yield? at h
  obtain ⟨root, hroot, rfl⟩ := Option.map_eq_some_iff.1 h
  cases hfinds : q.finds? store others row with
  | none =>
    rw [hfinds, Option.none_or] at hroot
    exact .inr ⟨(finds?_eq_none_iff hids hrow).1 hfinds, root, hroot, q.agreesApart_carried row root⟩
  | some d =>
    rw [hfinds, Option.some_or, Option.some.injEq] at hroot
    subst hroot
    obtain ⟨hstored, haccepts, hnames⟩ := of_found hids hfinds
    exact .inl ⟨d, hstored, haccepts, hnames, q.agreesApart_carried row d⟩

end Found

end PlanRequest

/-- Of what a plan makes of links, be they the members of a collection, the results of tasks or the likes of an account:
its core yields what its tail makes of what comes in the place of the rows. Every document of it comes from a row, and
is, apart from fields that the plan writes or takes away, either a stored document that the row names and the filter of
the join accepts or the object that the row itself has where a joined document is held, and the latter only where the
row names no such document. In the place of a row that names none comes that object, so the row is dropped only if it
has none. -/
theorem unmatched_rows_yield_own {store : Store} (hstore : store.Reachable) (others : Collaborators) {q : PlanRequest}
    (hlinks : q.IsThroughLinks) :
    (Plan.build q).corePipeline.execute.run store others =
      results store others q.tail ((q.joinedRows store).filterMap (q.yield? store others)) ∧
    (∀ x ∈ (Plan.build q).corePipeline.execute.run store others, ∃ row ∈ q.joinedRows store,
      (∃ d ∈ store.docs q.collection, q.memberFilter.accepts d = true ∧ q.names row d = true ∧
        AgreesApart ["likedId", "likedAt", "similarity", "_likedBy"] d x) ∨
      q.IsUnmatched store row ∧ ∃ own, row.own? = some own ∧
        AgreesApart ["likedId", "likedAt", "similarity", "_likedBy"] own x) ∧
    ∀ row ∈ q.joinedRows store, q.IsUnmatched store row →
      q.yield? store others row = row.own?.map (row.carryInto q.carried) ∧
        (q.yield? store others row = none ↔ row.IsPlain) := by
  have hids : Identified (store.docs q.collection) := hstore.identified q.collection
  have hyield : (Plan.build q).corePipeline.execute.run store others =
      results store others q.tail ((q.joinedRows store).filterMap (q.yield? store others)) := by
    rw [q.run_corePipeline, q.documents_yield? hlinks]
  refine ⟨hyield, ?_, ?_⟩
  · intro x hx
    rw [hyield] at hx
    obtain ⟨y, hy, rfl⟩ := q.exists_of_mem_results_tail hx
    obtain ⟨row, hrow, hy⟩ := List.mem_filterMap.1 hy
    refine ⟨row, hrow, ?_⟩
    have hdress : AgreesApart ["likedId", "likedAt", "similarity", "_likedBy"] y (q.dress y) :=
      (q.agreesApart_dress y).mono (by simp)
    rcases PlanRequest.of_yield? hids hrow hy with ⟨d, hd, haccepts, hnames, hagrees⟩ | ⟨hunmatched, own, hown, hagrees⟩
    · exact .inl ⟨d, hd, haccepts, hnames, (hagrees.mono (by simp)).trans hdress⟩
    · exact .inr ⟨hunmatched, own, hown, (hagrees.mono (by simp)).trans hdress⟩
  · intro row hrow hunmatched
    have hown : q.yield? store others row = row.own?.map (row.carryInto q.carried) :=
      PlanRequest.yield?_of_isUnmatched hids hrow hunmatched
    exact ⟨hown, by rw [hown, Option.map_eq_none_iff, Document.own?_eq_none]⟩

/-- The theorem at the members of a collection of two documents. -/
theorem unmatched_rows_yield_own_sample :
    let q := Sample.preparedMembers.request (.cursor none 2) 10
    (q.joinedRows Sample.store).length = 2 ∧
    (Plan.build q).corePipeline.execute.run Sample.store .absent =
      results Sample.store .absent q.tail ((q.joinedRows Sample.store).filterMap (q.yield? Sample.store .absent)) ∧
    (∀ x ∈ (Plan.build q).corePipeline.execute.run Sample.store .absent, ∃ row ∈ q.joinedRows Sample.store,
      (∃ d ∈ Sample.store.docs q.collection, q.memberFilter.accepts d = true ∧ q.names row d = true ∧
        AgreesApart ["likedId", "likedAt", "similarity", "_likedBy"] d x) ∨
      q.IsUnmatched Sample.store row ∧ ∃ own, row.own? = some own ∧
        AgreesApart ["likedId", "likedAt", "similarity", "_likedBy"] own x) ∧
    ∀ row ∈ q.joinedRows Sample.store, q.IsUnmatched Sample.store row →
      q.yield? Sample.store .absent row = row.own?.map (row.carryInto q.carried) ∧
        (q.yield? Sample.store .absent row = none ↔ row.IsPlain) :=
  ⟨by decide +kernel, unmatched_rows_yield_own (Store.reachable_ofList _) .absent trivial⟩

/-- A private document that was deleted, as the object that a link holds where a joined document is held. -/
def Sample.stray : Json :=
  .object [("_id", .string (uuid 9).toText), ("public", .bool false), ("deleted", .bool true)]

/-- A collection, a task and a like that all name a document which is not there, and all hold the object. -/
def Sample.strays : Store := .ofList [(.creations, creation 1),
  (.collections, ⟨[("_id", .string (uuid 5).toText), ("creations", .array [.string (uuid 7).toText]), ("doc", stray)]⟩),
  (.tasks, ⟨[("_id", .string (uuid 6).toText), ("args", .object [("concept", .string (uuid 8).toText)]),
    ("result", .array [.string (uuid 7).toText]), ("doc", stray)]⟩),
  (.reactions, ⟨[("_id", .string (uuid 4).toText), ("user", .string (uuid 3).toText), ("reaction", .string "like"),
    ("entityType", .string "creation"), ("entityId", .string (uuid 7).toText), ("doc", stray)]⟩)]

/-- Requests for the members of the collection, the results of the task and the likes of the account, with their
criteria. -/
def Sample.strayRequests : List (FeedRequest × Criteria) := [
  (request ["collection;00000000-0000-0000-0000-000000000005"] [] none,
  ⟨[⟨.collection, [.id (uuid 5)]⟩], none, false, false⟩),
  (request ["concept;00000000-0000-0000-0000-000000000008"] [] none,
  ⟨[⟨.concept, [.id (uuid 8)]⟩], none, false, false⟩),
  (request ["likedBy;00000000-0000-0000-0000-000000000003"] ["createdAt"] none,
    ⟨[⟨.likedBy, [.id (uuid 3)]⟩], some ⟨.createdAt, .descending⟩, false, false⟩)]

theorem Sample.serves_strayRequests : ∀ rc ∈ strayRequests, Serves {} strays .absent rc.1 1 (prepared rc.2 none) := by
  have hcompile : ∀ rc ∈ strayRequests, Criteria.compile rc.1.filters rc.1.sorts = .ok rc.2 := by decide +kernel
  intro rc hrc
  have hc := hcompile rc hrc
  simp only [strayRequests, List.mem_cons, List.not_mem_nil, or_false] at hrc
  rcases hrc with rfl | rfl | rfl
  · exact ⟨rfl, rfl, _, hc, rfl⟩
  · exact ⟨rfl, rfl, _, hc, rfl⟩
  · exact ⟨rfl, rfl, _, hc, rfl⟩

/-- What the core of a plan for one document yields where nothing but the object comes in the place of the rows. -/
theorem Sample.map_id?_strays (c : Criteria) :
    let q := (prepared c none).request (.cursor none 1) ({} : Settings).followingCap
    let docs := (q.joinedRows strays).filterMap (q.yield? strays .absent)
    q.IsThroughLinks → ((∀ d ∈ docs, d.id?.isSome = true) ∧
      (((docs.filter (q.passes strays)).map q.dress).filter fun d => !q.isScored || q.bound.accepts d).map
        Document.id? =
        List.replicate 1 (some (uuid 9))) →
    ((Plan.build q).corePipeline.execute.run strays .absent).map Document.id? = [some (uuid 9)] := by
  intro q docs hlinks ⟨hids, hsame⟩
  have hdocs : q.documents strays .absent = results strays .absent (Window.cursor none 1).stages
      (sortDocuments q.cursorPlan.sortKeys
        (((docs.filter (q.passes strays)).map q.dress).filter fun d => !q.isScored || q.bound.accepts d)) := by
    rw [q.documents_yield? hlinks, q.results_tail hids]
    rfl
  rw [q.run_corePipeline, hdocs]
  exact map_id?_page hsame

/-- The store holds one document of the collection that is asked for, which nothing names, and the core of each plan
yields the object. -/
theorem own_objects_emitted : Sample.strays.docs .creations = [Sample.creation 1] ∧
    ∀ rc ∈ Sample.strayRequests, Serves {} Sample.strays .absent rc.1 1 (Sample.prepared rc.2 none) ∧
      (((Sample.prepared rc.2 none).plan (.cursor none 1) ({} : Settings).followingCap).corePipeline.execute.run
        Sample.strays
        .absent).map Document.id? = [some (Sample.uuid 9)] := by
  refine ⟨rfl, ?_⟩
  intro rc hrc
  refine ⟨Sample.serves_strayRequests rc hrc, ?_⟩
  simp only [Sample.strayRequests, List.mem_cons, List.not_mem_nil, or_false] at hrc
  rcases hrc with rfl | rfl | rfl
  · exact Sample.map_id?_strays _ trivial (by decide +kernel)
  · exact Sample.map_id?_strays _ trivial (by decide +kernel)
  · exact Sample.map_id?_strays _ trivial (by decide +kernel)

end FeedQuery
