import FeedQuery.Proofs.FanOut

/-!
# What a plan gathers

Before its tail, a plan gathers documents in the way of its strategy (`PlanRequest.gathered`,
`PlanRequest.documents_gathered`). Each comes from a stored document that the document filter accepts
(`PlanRequest.exists_source_of_mem_gathered`), and is gathered no more often than there are routes to it: as many as
live follows name an owner of it, or as rows hold its identifier (`PlanRequest.countP_gathered_le`).
-/

namespace FeedQuery

open Document (AgreesApart)
open Stage

/-- Counts that are at most one where a predicate holds, and zero elsewhere, add up to no more than the predicate
holds. -/
theorem sum_map_le_countP {α : Type} {count : α → Nat} {p : α → Bool} (h : ∀ a, count a ≤ (p a).toNat) (xs : List α) :
    (xs.map count).sum ≤ xs.countP p := by
  induction xs with
  | nil => simp
  | cons x rest ih =>
    have hx := h x
    rw [List.map_cons, List.sum_cons, List.countP_cons]
    cases hp : p x <;> simp [hp] at hx ⊢ <;> omega

namespace PlanRequest

variable {store : Store} {others : Collaborators} (q : PlanRequest)

/-- The documents that a plan gathers for its tail. -/
def gathered (store : Store) (others : Collaborators) : List Document :=
  match q.strategy with
  | .direct => (store.docs q.collection).filter q.joinFilter.accepts
  | .graphFanOut none => []
  | .graphFanOut (some follower) => q.firsts store follower q.share
  | _ =>
    if q.isReactionOrder then
      q.fetch store others q.documentFilter (sortDocuments [.idDescending] ((q.rows store).filter q.likesBound.accepts))
    else q.fetch store others q.joinFilter (q.rows store)

/-- A plan yields what its tail makes of the documents that it gathers. -/
theorem documents_gathered (hplain : store.HasPlainLinks) :
    q.documents store others = results store others q.tail (q.gathered store others) := by
  have hjoined (h : q.IsJoined) :
      q.documents store others = results store others q.tail (q.fetch store others q.joinFilter (q.rows store)) :=
    q.documents_of_isJoined (q.hasPlainRoot_of_isJoined hplain h) h
  unfold gathered
  cases hs : q.strategy with
  | membership named =>
    have hr : q.isReactionOrder = false := isReactionOrder_of_strategy (by rw [hs]; rfl)
    simp only [hr]
    exact hjoined (by simp [IsJoined, hs])
  | taskOutput concept =>
    have hr : q.isReactionOrder = false := isReactionOrder_of_strategy (by rw [hs]; rfl)
    simp only [hr]
    exact hjoined (by simp [IsJoined, hs])
  | graphFanOut follower =>
    cases follower with
    | none => exact q.documents_of_never store others (by simp [core, hs, graph])
    | some follower => exact results_firsts hs
  | reactionFanOut liker =>
    cases hr : q.isReactionOrder with
    | false => exact hjoined (by simpa only [IsJoined, hs] using hr)
    | true =>
      cases liker with
      | none =>
        have hnone : q.rows store = [] := by rw [rows, hs]
        simp only [hnone, List.filter_nil, sortDocuments_of_pairwise .nil, if_true]
        exact q.documents_of_never store others (by simp [core, hs, reactions])
      | some liker => exact documents_of_likes hs (q.hasPlainRoot hplain (by simp [hs]) (by simp [hs])) hr
  | direct =>
    have hcore : q.core = .filter q.joinFilter :: q.tail := by rw [core, hs]
    have hroot : q.root = q.collection := by rw [root, hs]
    rw [documents, hcore, hroot, results_filter]

/-! ## Routes -/

/-- Whether a row names a document: its link holds the identifier of the document. -/
def names (row d : Document) : Bool := d.id?.any fun u => (Predicate.eq q.link (.id u)).accepts row

/-- On how many routes a plan may reach a document: directly on one, through follows on one for each time that a live
follow names an owner of the document, and through other rows on one for each row that names the document. -/
def routes (store : Store) (d : Document) : Nat :=
  match q.strategy with
  | .direct => 1
  | .graphFanOut none => 0
  | .graphFanOut (some follower) => (q.followees store follower).countP fun name => q.owns name d
  | _ => (q.rows store).countP fun row => q.names row d

section Gathered

variable {q} (hids : Identified (store.docs q.collection))
include hids

/-- What a row finds is a stored document that passes the filter and that the row names. -/
theorem of_found {filter : Predicate} {rows : List Document} {row d : Document}
    (h : ((q.member q.link filter).found ((q.member q.link filter).matching store others rows) row).head? = some d) :
    d ∈ store.docs q.collection ∧ filter.accepts d = true ∧ q.names row d = true := by
  obtain ⟨key, hkey, hmatching⟩ := List.mem_flatMap.1 (List.mem_of_head? h)
  obtain ⟨hstored, haccepts⟩ := Lookup.of_mem_matching hmatching
  refine ⟨hstored, haccepts, ?_⟩
  obtain ⟨u, hu⟩ := hids.exists_id? hstored
  obtain ⟨found, hfound, htext⟩ := Lookup.exists_key_of_mem_matching rfl hmatching
  have hforeign : Lookup.keysAt (q.member q.link filter).foreignPath d = [Lookup.idKey u] :=
    Lookup.keysAt_of_id? ((Document.id?_eq d).symm.trans hu)
  rw [hforeign, List.mem_singleton] at hfound
  subst hfound
  -- the key through which the row found the document spells the identifier of the document
  rw [names, hu, Option.any_some, Predicate.accepts_eq, Scalar.holdsAt_id_iff, ← Lookup.exists_key_iff]
  exact ⟨key, hkey, htext.symm⟩

/-- What rows fetch are stored documents that pass the filter, each with what a row that names it passes on. -/
theorem exists_of_mem_fetch {filter : Predicate} {rows : List Document} {x : Document}
    (hx : x ∈ q.fetch store others filter rows) : ∃ row ∈ rows, ∃ d ∈ store.docs q.collection,
      filter.accepts d = true ∧ q.names row d = true ∧ x = row.carryInto q.carried d := by
  obtain ⟨row, hrow, hhead⟩ := List.mem_filterMap.1 hx
  obtain ⟨d, hd, rfl⟩ := Option.map_eq_some_iff.1 hhead
  obtain ⟨hstored, haccepts, hnames⟩ := of_found hids hd
  exact ⟨row, hrow, d, hstored, haccepts, hnames, rfl⟩

/-- A document is fetched no more often than rows name it. -/
theorem countP_fetch_le (filter : Predicate) (rows : List Document) {d : Document} (hd : d ∈ store.docs q.collection) :
    (q.fetch store others filter rows).countP (fun x => x.id? == d.id?) ≤ rows.countP fun row => q.names row d := by
  rw [fetch, List.countP_filterMap]
  refine List.countP_mono_left fun row _ h => ?_
  cases hhead : ((q.member q.link filter).found ((q.member q.link filter).matching store others rows) row).head? with
  | none => simp [hhead] at h
  | some e =>
    obtain ⟨hstored, -, hnames⟩ := of_found hids hhead
    have hid : e.id? = d.id? := by simpa [hhead] using h
    rwa [← hids.eq_of_id? hstored hd hid]

/-- Of the first documents of an owner at most one has a given identifier, and none where the document has another
owner. -/
theorem countP_offered_le (name : Lookup.Key) (count : Nat) {d : Document} (hd : d ∈ store.docs q.collection) :
    ((sortDocuments q.fanOut.sort (q.offered store name)).take count).countP (fun x => x.id? == d.id?) ≤
      (q.owns name d).toNat := by
  have hoffered : ((sortDocuments q.fanOut.sort (q.offered store name)).take count).countP (fun x => x.id? == d.id?) ≤
      (q.offered store name).countP fun x => x.id? == d.id? :=
    (List.Sublist.countP_le (List.take_sublist _ _)).trans (Nat.le_of_eq ((sortDocuments_perm _ _).countP_eq _))
  refine hoffered.trans ?_
  cases howns : q.owns name d with
  | true => exact (List.Sublist.countP_le List.filter_sublist).trans (Nat.le_of_eq (hids.countP_id? hd))
  | false =>
    refine Nat.le_of_eq (List.countP_eq_zero.2 fun e he hid => ?_)
    obtain ⟨hstored, haccepts⟩ := List.mem_filter.1 he
    rw [hids.eq_of_id? hstored hd (beq_iff_eq.1 hid)] at haccepts
    simp [howns] at haccepts

/-- A document is gathered no more often than there are routes to it. -/
theorem countP_gathered_le {d : Document} (hd : d ∈ store.docs q.collection) :
    (q.gathered store others).countP (fun x => x.id? == d.id?) ≤ q.routes store d := by
  have hrows : (if q.isReactionOrder then
      q.fetch store others q.documentFilter (sortDocuments [.idDescending] ((q.rows store).filter q.likesBound.accepts))
      else q.fetch store others q.joinFilter (q.rows store)).countP (fun x => x.id? == d.id?) ≤
        (q.rows store).countP fun row => q.names row d := by
    split
    · refine (countP_fetch_le hids _ _ hd).trans ?_
      rw [(sortDocuments_perm _ _).countP_eq]
      exact List.Sublist.countP_le List.filter_sublist
    · exact countP_fetch_le hids _ _ hd
  unfold gathered routes
  cases hs : q.strategy with
  | membership named => exact hrows
  | taskOutput concept => exact hrows
  | graphFanOut follower =>
    cases follower with
    | none => simp
    | some follower =>
      dsimp only
      rw [firsts, List.countP_flatMap]
      exact sum_map_le_countP (fun name => countP_offered_le hids name q.share hd) _
  | reactionFanOut liker => exact hrows
  | direct => exact (List.Sublist.countP_le List.filter_sublist).trans (Nat.le_of_eq (hids.countP_id? hd))

/-! ## Where documents come from -/

variable (q) in
/-- What makes a stored document one that a plan may yield, apart from the filter by likes of the plan's tail. -/
structure IsSource (store : Store) (d : Document) : Prop where
  stored : d ∈ store.docs q.collection
  accepted : q.documentFilter.accepts d = true
  liked : ∀ liker, q.strategy = .reactionFanOut (some liker) →
    store.isLiked q.collection liker q.visibility.softDelete d = true

omit hids in
/-- What a like of an account names is liked by it. -/
theorem isLiked_of_names {liker : Uuid} (hs : q.strategy = .reactionFanOut (some liker)) {row d : Document}
    (hrow : row ∈ q.rows store) (hnames : q.names row d = true) :
    store.isLiked q.collection liker q.visibility.softDelete d = true := by
  have hlink : q.link = .field "entityId" := by rw [link, hs]
  obtain ⟨u, hu, hholds⟩ := (Option.any_eq_true _ _).1 hnames
  rw [rows_likes hs, List.mem_filter] at hrow
  rw [hlink] at hholds
  rw [Store.isLiked, hu, Option.any_some, List.any_eq_true]
  exact ⟨row, hrow.1, by rw [hrow.2, hholds]; rfl⟩

/-- What rows of the plan fetch comes from documents that they may reach. -/
theorem exists_source_of_mem_fetch {filter : Predicate}
    (hfilter : ∀ d, filter.accepts d = true → q.documentFilter.accepts d = true)
    {rows : List Document} (hrows : rows ⊆ q.rows store) {x : Document} (hx : x ∈ q.fetch store others filter rows) :
    ∃ d, q.IsSource store d ∧ filter.accepts d = true ∧ AgreesApart ["likedId", "likedAt"] d x := by
  obtain ⟨row, hrow, d, hstored, haccepts, hnames, rfl⟩ := exists_of_mem_fetch hids hx
  exact ⟨d, ⟨hstored, hfilter d haccepts, fun liker hs => isLiked_of_names hs (hrows hrow) hnames⟩, haccepts,
    q.agreesApart_carried row d⟩

/-- Every strategy gathers documents that the filter accepts, and through likes only such that were liked. In an order
of the documents they have passed the bound, where it reads no score. -/
theorem exists_source_of_mem_gathered {x : Document} (hx : x ∈ q.gathered store others) : ∃ d, q.IsSource store d ∧
    (q.isReactionOrder = false → q.joinFilter.accepts d = true) ∧ AgreesApart ["likedId", "likedAt"] d x := by
  have hrows (hx : x ∈ if q.isReactionOrder then
      q.fetch store others q.documentFilter (sortDocuments [.idDescending] ((q.rows store).filter q.likesBound.accepts))
      else q.fetch store others q.joinFilter (q.rows store)) : ∃ d, q.IsSource store d ∧
        (q.isReactionOrder = false → q.joinFilter.accepts d = true) ∧ AgreesApart ["likedId", "likedAt"] d x := by
    cases hr : q.isReactionOrder with
    | true =>
      rw [hr, if_pos rfl] at hx
      have hsub : sortDocuments [.idDescending] ((q.rows store).filter q.likesBound.accepts) ⊆ q.rows store :=
        fun row hrow =>
        (List.mem_filter.1 ((mem_sortDocuments _).1 hrow)).1
      obtain ⟨d, hd, -, hagrees⟩ := exists_source_of_mem_fetch hids (fun d hd => hd) hsub hx
      exact ⟨d, hd, by simp, hagrees⟩
    | false =>
      rw [hr, if_neg (by decide)] at hx
      obtain ⟨d, hd, haccepts, hagrees⟩ :=
        exists_source_of_mem_fetch hids (fun d => q.accepts_of_joinFilter) (List.Subset.refl _) hx
      exact ⟨d, hd, fun _ => haccepts, hagrees⟩
  unfold gathered at hx
  cases hs : q.strategy with
  | membership named => exact hrows (by simpa only [hs] using hx)
  | taskOutput concept => exact hrows (by simpa only [hs] using hx)
  | graphFanOut follower =>
    cases follower with
    | none => simp [hs] at hx
    | some follower =>
      rw [hs] at hx
      obtain ⟨name, -, hoffered⟩ := List.mem_flatMap.1 (q.firsts_subset store follower q.share hx)
      obtain ⟨hstored, haccepts⟩ := List.mem_filter.1 hoffered
      rw [← accepts_joinFilter, Bool.and_eq_true] at haccepts
      refine ⟨x, ⟨hstored, q.accepts_of_joinFilter haccepts.1, fun liker hr => by simp [hs] at hr⟩,
        fun _ => haccepts.1, .refl _ x⟩
  | reactionFanOut liker => exact hrows (by simpa only [hs] using hx)
  | direct =>
    rw [hs] at hx
    obtain ⟨hstored, haccepts⟩ := List.mem_filter.1 hx
    exact ⟨x, ⟨hstored, q.accepts_of_joinFilter haccepts, fun liker hr => by simp [hs] at hr⟩,
      fun _ => haccepts, .refl _ x⟩

/-! ## What a plan yields -/

variable (hplain : store.HasPlainLinks)
include hplain

/-- Of what it gathers, a plan drops what an account has not liked, dresses the rest, and puts it in order after the
cursor. -/
theorem documents_eq : q.documents store others =
    results store others q.window.stages (sortDocuments q.cursorPlan.sortKeys
    ((((q.gathered store others).filter (q.passes store)).map q.dress).filter fun d =>
      !q.isScored || q.bound.accepts d)) := by
  rw [q.documents_gathered hplain, q.results_tail]
  intro x hx
  obtain ⟨d, hd, -, hagrees⟩ := exists_source_of_mem_gathered hids hx
  rw [hagrees.id?_eq (by simp)]
  exact hids.isSome d hd.stored

/-- What a plan yields was gathered, has passed the filter by likes, and comes after the cursor where the order reads a
score. -/
theorem exists_gathered_of_mem {x : Document} (hx : x ∈ q.documents store others) : ∃ y ∈ q.gathered store others,
    q.passes store y = true ∧ (q.isScored = true → q.bound.accepts x = true) ∧ x = q.dress y := by
  rw [documents_eq hids hplain] at hx
  have hsorted := (window_sublist _ _).subset hx
  rw [mem_sortDocuments, List.mem_filter] at hsorted
  obtain ⟨hdressed, hbound⟩ := hsorted
  obtain ⟨y, hy, rfl⟩ := List.mem_map.1 hdressed
  obtain ⟨hgathered, hpasses⟩ := List.mem_filter.1 hy
  exact ⟨y, hgathered, hpasses, fun hs => by simpa [hs] using hbound, rfl⟩

/-- A plan yields documents in order. -/
theorem pairwise_documents : (q.documents store others).Pairwise fun a b =>
    (compareDocuments q.cursorPlan.sortKeys a b).isLE := by
  rw [documents_eq hids hplain]
  exact (pairwise_sortDocuments _ _).sublist (window_sublist _ _)

/-- A plan yields a document no more often than there are routes to it. -/
theorem countP_documents_le {d : Document} (hd : d ∈ store.docs q.collection) :
    (q.documents store others).countP (fun x => x.id? == d.id?) ≤ q.routes store d := by
  rw [documents_eq hids hplain]
  calc (results store others q.window.stages _).countP (fun x => x.id? == d.id?)
      ≤ (sortDocuments q.cursorPlan.sortKeys _).countP fun x => x.id? == d.id? :=
        List.Sublist.countP_le (window_sublist _ _)
    _ = _ := (sortDocuments_perm _ _).countP_eq _
    _ ≤ (((q.gathered store others).filter (q.passes store)).map q.dress).countP fun x => x.id? == d.id? :=
      List.Sublist.countP_le List.filter_sublist
    _ = ((q.gathered store others).filter (q.passes store)).countP fun x => x.id? == d.id? := by
      simp [List.countP_map, Function.comp_def]
    _ ≤ (q.gathered store others).countP fun x => x.id? == d.id? := List.Sublist.countP_le List.filter_sublist
    _ ≤ q.routes store d := countP_gathered_le hids hd

end Gathered

end PlanRequest

end FeedQuery
