import FeedQuery.Proofs.Reach
import FeedQuery.Proofs.Placement

/-!
# A plan is a selection in order

However a strategy distributes its filters and its bound over joins and stages, it selects from the documents that it
can reach those that it admits, dresses them, and puts those after the bound in order: from the collection itself
(`PlanRequest.documents_direct`), from what the rows link to (`PlanRequest.documents_joined`), or from the likes, in
their order (`PlanRequest.documents_likes`).
-/

namespace FeedQuery

open Stage

namespace PlanRequest

variable {store : Store} {others : Collaborators} (q : PlanRequest)

/-- Whether a request accepts a document: the view shows it, the filters and the order ask for it, and where documents
are allowed by their identifiers, its own is one of these. -/
def accepts (d : Document) : Bool :=
  (q.visibility.predicate q.criteria q.collection).accepts d &&
    (q.criteria.documentPredicate q.collection).accepts d &&
    q.allowed.all fun scores => scores.ids.any fun id => (Predicate.eq .id (.id id)).accepts d

/-- The document filter accepts just these documents. -/
theorem accepts_documentFilter : q.documentFilter.accepts = q.accepts := by
  funext d
  unfold documentFilter accepts
  cases q.allowed with
  | none => simp
  | some scores => simp [Scores.accepts_predicate, Bool.and_assoc]

/-- Whether a document may be in the result: the document filter accepts it, and the filter by likes lets it through. -/
def admits (store : Store) (d : Document) : Bool := q.documentFilter.accepts d && q.passes store d

theorem admits_of_likedBy {q : PlanRequest} (hliked : q.criteria.likedBy? = none) (store : Store) :
    q.admits store = q.documentFilter.accepts := by
  funext d
  rw [admits, passes_of_likedBy hliked, Bool.and_true]

theorem admits_eq (store : Store) (d : Document) : q.admits store d = (q.accepts d && q.passes store d) := by
  rw [admits, accepts_documentFilter]

theorem accepts_of_admits {d : Document} (h : q.admits store d = true) : q.documentFilter.accepts d = true :=
  (Bool.and_eq_true_iff.1 h).1

/-- Where the order reads no score, documents that agree apart from what dressing writes and a like passes on are at one
place. -/
theorem alike_of_unscored (hs : q.isScored = false) (hr : q.isReactionOrder = false) {d e : Document}
    (h : Document.AgreesApart ["similarity", "_likedBy", "likedId", "likedAt"] d e) : q.cursorPlan.Alike d e := by
  refine ⟨h _ ?_, fun key hk => h _ ?_⟩
  · rw [position_cursorPlan, hr, if_neg (by decide)]
    decide
  · rcases (q.key_cursorPlan hk).2 with ⟨hs', -⟩ | ⟨-, counter, -, -, hpath⟩
    · simp [hs] at hs'
    · rw [hpath]
      exact counter_first counter

/-- There the bound takes a document as it took it before it was dressed. -/
theorem accepts_bound_congr (hs : q.isScored = false) (hr : q.isReactionOrder = false) {d e : Document}
    (h : Document.AgreesApart ["similarity", "_likedBy", "likedId", "likedAt"] d e) :
    q.bound.accepts e = q.bound.accepts d :=
  CursorPlan.Alike.accepts_bound (q.alike_of_unscored hs hr h) _

/-- There documents may be sorted before or after they are dressed. -/
theorem sortDocuments_map_dress (hs : q.isScored = false) (hr : q.isReactionOrder = false) (docs : List Document) :
    sortDocuments q.cursorPlan.sortKeys (docs.map q.dress) =
      (sortDocuments q.cursorPlan.sortKeys docs).map q.dress := by
  have halike (d : Document) : q.cursorPlan.Alike d (q.dress d) :=
    q.alike_of_unscored hs hr ((q.agreesApart_dress d).mono (by simp))
  obtain ⟨sorted, -, hdressed, hplain⟩ := sortDocuments_map_map (f := q.dress) (g := id)
    fun d (_ : d ∈ docs) e _ => (halike d).compare (halike e)
  rw [List.map_id, List.map_id] at hplain
  rw [hdressed, hplain]

/-- Directly, a plan selects from its collection. -/
theorem documents_direct (hstore : Identified (store.docs q.collection)) (h : q.strategy = .direct) :
    q.documents store others = results store others q.window.stages (sortDocuments q.cursorPlan.sortKeys
      ((((store.docs q.collection).filter (q.admits store)).map q.dress).filter q.bound.accepts)) := by
  have hr : q.isReactionOrder = false := isReactionOrder_of_strategy (by rw [h]; rfl)
  have hdocs : ∀ d ∈ (store.docs q.collection).filter q.joinFilter.accepts, d.id?.isSome = true := fun d hd =>
    hstore.isSome d (List.mem_filter.1 hd).1
  unfold documents core root
  simp only [h]
  rw [results_filter, results_tail q hdocs]
  simp only [List.filter_map, List.filter_filter]
  congr 3
  refine List.filter_congr ?_
  intro d _
  simp only [Function.comp_apply, accepts_joinFilter, admits]
  cases hs : q.isScored with
  | true => simp [Bool.and_comm]
  | false =>
    rw [q.accepts_bound_congr hs hr ((q.agreesApart_dress d).mono (by simp))]
    cases q.bound.accepts d <;> cases q.documentFilter.accepts d <;> simp

/-! ## Through links -/

/-- The stored document that a row links to. -/
def target? (store : Store) (row : Document) : Option Document :=
  ((row.get? q.link).bind Json.id?).bind (store.get? q.collection)

/-- The documents that the rows link to and that are admitted, with what the rows pass on, as they are sorted. -/
def selection (store : Store) : List Document :=
  (q.rows store).filterMap fun row => ((q.target? store row).filter (q.admits store)).map fun d =>
    q.dress (row.carryInto q.carried d)

/-- Every row holds the text of one identifier as its link. -/
def Linked (rows : List Document) : Prop := ∀ row ∈ rows, ((row.get? q.link).bind Json.id?).isSome = true

/-- A row passes on nothing but the identifier and the time of a like. -/
theorem agreesApart_carried (row d : Document) :
    Document.AgreesApart ["likedId", "likedAt"] d (row.carryInto q.carried d) := by
  unfold carried
  split
  · exact Document.agreesApart_carryInto row [(.id, "likedId"), (.createdAt, "likedAt")] d
  · exact .refl _ d

@[simp] theorem id?_carried (row d : Document) : (row.carryInto q.carried d).id? = d.id? :=
  (q.agreesApart_carried row d).id?_eq (by simp)

/-- Rows fetch the documents that they link to. -/
theorem fetch_eq (hstore : Identified (store.docs q.collection)) (filter : Predicate) {rows : List Document}
    (h : q.Linked rows) :
    q.fetch store others filter rows =
      rows.filterMap fun row => ((q.target? store row).filter filter.accepts).map (row.carryInto q.carried) := by
  refine List.filterMap_congr ?_
  intro row hrow
  obtain ⟨u, hu⟩ := Option.isSome_iff_exists.1 (h row hrow)
  have hask : (q.member q.link filter).Asks rows u := ⟨row, hrow, Lookup.valuesAt_of_id? hu⟩
  have hfound : (q.member q.link filter).found ((q.member q.link filter).matching store others rows) row =
      (q.member q.link filter).matching store others rows u.toText := by
    have hkeys : Lookup.keysAt (q.member q.link filter).localPath row = [Lookup.idKey u] := Lookup.keysAt_of_id? hu
    rw [Lookup.found, hkeys, List.flatMap_singleton]
    rfl
  have hhead : ((q.member q.link filter).matching store others rows u.toText).head? =
      (store.get? q.collection u).filter filter.accepts := Lookup.head?_matching rfl rfl hstore hask
  rw [hfound, hhead, target?, hu]
  rfl

theorem isSome_id?_of_mem_fetch (hstore : Identified (store.docs q.collection)) {filter : Predicate}
    {rows : List Document} {d : Document} (hd : d ∈ q.fetch store others filter rows) : d.id?.isSome = true := by
  obtain ⟨row, -, hrow⟩ := List.mem_filterMap.1 hd
  obtain ⟨e, he, rfl⟩ := Option.map_eq_some_iff.1 hrow
  obtain ⟨k, -, hk⟩ := List.mem_flatMap.1 (List.mem_of_head? he)
  rw [id?_carried]
  exact hstore.isSome e (Lookup.of_mem_matching hk).1

theorem isReactionOrder_of_isJoined {q : PlanRequest} (h : q.IsJoined) : q.isReactionOrder = false := by
  unfold IsJoined at h
  cases hs : q.strategy with
  | reactionFanOut liker => simpa only [hs] using h
  | _ => exact isReactionOrder_of_strategy (by rw [hs]; rfl)

/-- Through links in an order of the documents, a plan selects from what its rows link to. -/
theorem documents_joined (hstore : Identified (store.docs q.collection)) (hplain : q.HasPlainRoot store)
    (h : q.IsJoined) (hrows : q.Linked (q.rows store)) : q.documents store others = results store others q.window.stages
      (sortDocuments q.cursorPlan.sortKeys ((q.selection store).filter q.bound.accepts)) := by
  have hr := isReactionOrder_of_isJoined h
  rw [q.documents_of_isJoined hplain h, q.results_tail fun d hd => q.isSome_id?_of_mem_fetch hstore hd,
    q.fetch_eq hstore _ hrows]
  simp only [selection, List.filter_filterMap, List.map_filterMap]
  congr 3
  funext row
  cases q.target? store row with
  | none => rfl
  | some d =>
    have hpasses : q.passes store (row.carryInto q.carried d) = q.passes store d := by simp [passes, Store.isLiked]
    have hbound : q.isScored = false → q.bound.accepts (q.dress (row.carryInto q.carried d)) = q.bound.accepts d := by
      intro hs
      refine q.accepts_bound_congr hs hr
        (((q.agreesApart_carried row d).mono ?_).trans ((q.agreesApart_dress _).mono ?_))
      · simp
      · simp
    by_cases hf : q.documentFilter.accepts d = true
    · by_cases hp : q.passes store d = true
      · cases hs : q.isScored with
        | true => simp [Option.filter_some, accepts_joinFilter, admits, hs, hf, hp, hpasses]
        | false =>
          by_cases hb : q.bound.accepts d = true <;>
            simp [Option.filter_some, accepts_joinFilter, admits, hs, hf, hp, hpasses, hbound hs, hb]
      · by_cases hj : q.joinFilter.accepts d = true <;> simp [Option.filter_some, admits, hf, hp, hpasses, hj]
    · simp [Option.filter_some, accepts_joinFilter, admits, hf]

/-! ## In the order of the likes -/

section Likes

variable {q} (h : q.isReactionOrder = true)
include h

/-- In the order of the likes, documents are taken as they are. -/
theorem dress_of_isReactionOrder (d : Document) : q.dress d = d := by
  have hr : q.strategy.isReactionFanOut = true := (Bool.and_eq_true_iff.1 h).1
  simp [dress, scored, hr, q.isScored_of_isReactionOrder h]

theorem passes_of_isReactionOrder (d : Document) : q.passes store d = true := by
  have hr : q.strategy.isReactionFanOut = true := (Bool.and_eq_true_iff.1 h).1
  simp [passes, hr]

/-- A document that was reached through a like carries the identifier of the like. -/
theorem get?_likedId {row : Document} {u : Uuid} (hu : row.id? = some u) (d : Document) :
    (row.carryInto q.carried d).get? .likedId = row.get? .id := by
  have hr : q.strategy.isReactionFanOut = true := (Bool.and_eq_true_iff.1 h).1
  have hcarried : q.carried = [(.id, .likedId), (.createdAt, .likedAt)] := by
    unfold carried
    cases hs : q.strategy <;> simp [hs, Strategy.isReactionFanOut] at hr ⊢
  rw [Document.id?_eq] at hu
  obtain ⟨value, hvalue, -⟩ := Option.bind_eq_some_iff.1 hu
  have hset : (d.set .likedId value).get? .likedId = some value := Document.get?_set_self d "likedId" value
  simp only [hcarried, Document.carryInto, List.foldl_cons, List.foldl_nil, hvalue]
  cases row.get? .createdAt with
  | none => exact hset
  | some time =>
    have hkeep : ((d.set .likedId value).set .likedAt time).get? .likedId = (d.set .likedId value).get? .likedId :=
      Document.agreesApart_set (List.mem_singleton_self "likedAt") (d.set .likedId value) time .likedId (by decide)
    exact hkeep.trans hset

/-- Such a document lies at the place of its like. -/
theorem place?_likes {row : Document} {u : Uuid} (hu : row.id? = some u) (d : Document) :
    q.cursorPlan.place? (row.carryInto q.carried d) = some ⟨u, none⟩ := by
  rw [q.key_of_isReactionOrder h]
  unfold CursorPlan.place?
  rw [get?_likedId h hu, ← Document.id?_eq, hu]
  rfl

/-- Likes come before or after each other as the documents that were reached through them do. -/
theorem compare_likes {a b : Document} {u v : Uuid} (hu : a.id? = some u) (hv : b.id? = some v) (d e : Document) :
    compareDocuments q.cursorPlan.sortKeys (a.carryInto q.carried d) (b.carryInto q.carried e) =
      compareDocuments [.idDescending] a b := by
  have hread {row : Document} {w : Uuid} (hw : row.id? = some w) (d : Document) :
      SortKey.read ⟨.likedId, .descending, .id⟩ (row.carryInto q.carried d) = SortKey.idDescending.read row := by
    rw [SortKey.read, get?_likedId h hw]
    rfl
  rw [q.key_of_isReactionOrder h]
  change (SortKey.compare ⟨.likedId, .descending, .id⟩ _ _).then _ = (SortKey.compare .idDescending _ _).then _
  rw [SortKey.compare, hread hu, hread hv]
  rfl

/-- What a like leads to, if it is admitted: the document with the identifier and the time of the like. -/
def throughLike (q : PlanRequest) (store : Store) (row : Document) : Option Document :=
  ((q.target? store row).filter q.documentFilter.accepts).map (row.carryInto q.carried)

theorem selection_likes : q.selection store = (q.rows store).filterMap (q.throughLike store) := by
  have hadmits : q.admits store = q.documentFilter.accepts := by
    funext d
    simp [admits, passes_of_isReactionOrder h]
  simp only [selection, hadmits, dress_of_isReactionOrder h]
  rfl

/-- What is true of two likes in an order is true of the documents that they lead to. -/
theorem pairwise_throughLike {likes : List Document} (hlikes : ∀ like ∈ likes, like.id?.isSome = true)
    (o : Ordering → Prop) (hp : likes.Pairwise fun a b => o (compareDocuments [.idDescending] a b)) :
    (likes.filterMap (q.throughLike store)).Pairwise fun a b => o (compareDocuments q.cursorPlan.sortKeys a b) := by
  refine List.pairwise_filterMap.2 (hp.imp_of_mem ?_)
  intro a b ha hb hab d hd e he
  obtain ⟨u, hu⟩ := Option.isSome_iff_exists.1 (hlikes a ha)
  obtain ⟨v, hv⟩ := Option.isSome_iff_exists.1 (hlikes b hb)
  obtain ⟨d, -, rfl⟩ := Option.map_eq_some_iff.1 hd
  obtain ⟨e, -, rfl⟩ := Option.map_eq_some_iff.1 he
  rw [compare_likes h hu hv]
  exact hab

/-- Sorting what the likes lead to is going through the sorted likes. -/
theorem sortDocuments_likes {likes : List Document} (hlikes : Identified likes) :
    sortDocuments q.cursorPlan.sortKeys (likes.filterMap (q.throughLike store)) =
      (sortDocuments [.idDescending] likes).filterMap (q.throughLike store) := by
  refine sortDocuments_eq_of_perm ((sortDocuments_perm _ likes).symm.filterMap _)
    (pairwise_throughLike h (fun like hlike => ?_) (· = .lt) (strict_sortDocuments (CursorPlan.distinct_byId hlikes)))
  rw [mem_sortDocuments] at hlike
  exact hlikes.isSome like hlike

/-- The bound takes a document as the likes' bound takes the like that leads to it. -/
theorem accepts_bound_likes {row : Document} {u : Uuid} (hu : row.id? = some u) (d : Document) :
    q.bound.accepts (row.carryInto q.carried d) = q.likesBound.accepts row := by
  unfold bound likesBound CursorPlan.bound
  cases q.window.cursor? with
  | none => simp
  | some c =>
    rw [q.key_of_isReactionOrder h]
    simp [CursorPlan.boundAt, CursorPlan.after, Predicate.accepts, get?_likedId h hu]

/-- In the order of the likes, a plan selects from what the likes lead to. -/
theorem documents_likes (hstore : Identified (store.docs q.collection)) (hlikes : Identified (store.docs .reactions))
    (hplain : q.HasPlainRoot store) {liker : Uuid} (hs : q.strategy = .reactionFanOut (some liker))
    (hrows : q.Linked (q.rows store)) :
    q.documents store others = results store others q.window.stages
      (sortDocuments q.cursorPlan.sortKeys ((q.selection store).filter q.bound.accepts)) := by
  have hmem : ∀ row ∈ sortDocuments [.idDescending] ((q.rows store).filter q.likesBound.accepts),
      row ∈ q.rows store := by
    intro row hrow
    rw [mem_sortDocuments] at hrow
    exact (List.mem_filter.1 hrow).1
  have hids : Identified ((q.rows store).filter q.likesBound.accepts) := by
    rw [rows_likes hs]
    exact (hlikes.filter _).filter _
  have hselect : ((q.rows store).filter q.likesBound.accepts).filterMap (q.throughLike store) =
      (q.selection store).filter q.bound.accepts := by
    rw [selection_likes h, List.filterMap_filter, List.filter_filterMap]
    refine List.filterMap_congr ?_
    intro row hrow
    rw [rows_likes hs] at hrow
    obtain ⟨u, hu⟩ := hlikes.exists_id? (List.mem_filter.1 hrow).1
    unfold throughLike
    cases (q.target? store row).filter q.documentFilter.accepts with
    | none => simp
    | some d => simp [Option.filter_some, accepts_bound_likes h hu]
  have hdress : q.dress = id := funext (dress_of_isReactionOrder h)
  have hkeep (docs : List Document) : docs.filter (q.passes store) = docs :=
    List.filter_eq_self.2 fun d _ => passes_of_isReactionOrder h d
  have htwice : sortDocuments q.cursorPlan.sortKeys
      ((sortDocuments [.idDescending] ((q.rows store).filter q.likesBound.accepts)).filterMap (q.throughLike store)) =
        sortDocuments q.cursorPlan.sortKeys
          (((q.rows store).filter q.likesBound.accepts).filterMap (q.throughLike store)) := by
    rw [← sortDocuments_likes h hids, sortDocuments_sortDocuments]
  rw [documents_of_likes hs hplain h, q.results_tail fun d hd => q.isSome_id?_of_mem_fetch hstore hd, hkeep,
    filter_late_of_unscored (q.isScored_of_isReactionOrder h), hdress, List.map_id,
    q.fetch_eq hstore _ fun row hrow => hrows row (hmem row hrow), ← hselect]
  exact congrArg (results store others q.window.stages) htwice

end Likes

end PlanRequest

end FeedQuery
