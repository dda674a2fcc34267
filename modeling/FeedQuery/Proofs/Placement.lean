import FeedQuery.Proofs.Tail
import FeedQuery.Proofs.Consultation

/-!
# Documents have a place in the order of their plan

A plan sorts by a number, if by anything, before the identifier. The document filter lets only documents through that
have that number: a counter is demanded to be above zero, and a score is written for every document that collaborators
allow (`PlanRequest.isSome_place?_dress`). So a cursor can go on from every document of a page.
-/

namespace FeedQuery

namespace PlanRequest

variable (q : PlanRequest)

/-- The scores of the plan, if there are any, are numbers. -/
def HasFiniteScores : Prop := ∀ scores, q.allowed = some scores → scores.IsFinite

/-- An order by similarity counts only where there are scores. -/
theorem allowed_of_isScored (h : q.isScored = true) : ∃ scores, q.allowed = some scores := by
  cases ha : q.allowed with
  | some scores => exact ⟨scores, rfl⟩
  | none =>
    unfold isScored effectiveSort at h
    rw [ha] at h
    split at h
    · next direction heff =>
      split at heff
      · simp at heff
      · next hsort => exact absurd rfl (hsort direction heff)
    · simp at h

/-- In the order of the likes the position is the like; in any other order it is the document. -/
theorem position_cursorPlan : q.cursorPlan.position = if q.isReactionOrder then .likedId else .id := by
  unfold cursorPlan
  split
  · rfl
  · cases q.effectiveSort with
    | none => rfl
    | some sort => cases h : sort.primaryKey? <;> simp [h, CursorPlan.keyed, CursorPlan.byId]

/-- The key of an order is the score where the order reads one, and else a counter that the criteria name. -/
theorem key_cursorPlan {key : SortKey} (h : key ∈ q.cursorPlan.key) : key.kind = .number ∧
    (q.isScored = true ∧ key.path = .similarity ∨
      q.isScored = false ∧ ∃ counter direction, q.criteria.sort = some ⟨.counter counter, direction⟩ ∧
      key.path = counter.path) := by
  unfold cursorPlan at h
  split at h
  · simp at h
  · cases heff : q.effectiveSort with
    | none => simp [heff, CursorPlan.byId] at h
    | some sort =>
      obtain ⟨field, direction⟩ := sort
      have hsort : q.criteria.sort = some ⟨field, direction⟩ := by
        unfold effectiveSort at heff
        split at heff
        · simp at heff
        · exact heff
      cases field with
      | counter counter =>
        obtain rfl : _ = key := by simpa [heff, SortSpec.primaryKey?, CursorPlan.keyed] using h
        exact ⟨rfl, .inr ⟨by simp [isScored, heff], counter, direction, hsort, rfl⟩⟩
      | similarity =>
        obtain rfl : _ = key := by simpa [heff, SortSpec.primaryKey?, CursorPlan.keyed] using h
        exact ⟨rfl, .inl ⟨by simp [isScored, heff], rfl⟩⟩
      | createdAt => simp [heff, SortSpec.primaryKey?, CursorPlan.byId] at h
      | liked => simp [heff, SortSpec.primaryKey?, CursorPlan.byId] at h
      | following => simp [heff, SortSpec.primaryKey?, CursorPlan.byId] at h

theorem isNumeric_cursorPlan : q.cursorPlan.IsNumeric := fun _ h => (q.key_cursorPlan h).1

/-- The order of the likes has no key, and reads no score. -/
theorem key_of_isReactionOrder (h : q.isReactionOrder = true) : q.cursorPlan = ⟨.likedId, .descending, none⟩ := by
  unfold cursorPlan
  rw [if_pos h]

theorem isScored_of_isReactionOrder (h : q.isReactionOrder = true) : q.isScored = false := by
  unfold isReactionOrder at h
  have heff : q.effectiveSort = none := Option.isNone_iff_eq_none.1 (Bool.and_eq_true_iff.1 h).2
  simp [isScored, heff]

/-- A document that passes the filter of an order by a counter has that counter. -/
theorem exists_counter {counter : Counter} {direction : Direction}
    (hs : q.criteria.sort = some ⟨.counter counter, direction⟩) {d : Document}
    (hd : q.documentFilter.accepts d = true) : ∃ value, (d.get? counter.path).bind Json.double? = some value := by
  have hside : (Predicate.order counter.path .gt (.number .zero)).accepts d = true := by
    simp only [documentFilter, Predicate.accepts_all, List.all_cons, Bool.and_eq_true] at hd
    have hcriteria := hd.2.1
    simp only [Criteria.documentPredicate, Predicate.accepts_all, List.all_append, Bool.and_eq_true, hs,
      Option.bind_some, SortSpec.sideFilter?, Option.toList_some, List.all_cons] at hcriteria
    exact hcriteria.2.1
  simp only [Predicate.accepts] at hside
  cases hv : (d.get? counter.path).bind Json.double? with
  | some value => exact ⟨value, rfl⟩
  | none =>
    have hnone : (d.get? counter.path).bind (Scalar.number .zero).orderOf = none := by
      cases hj : d.get? counter.path with
      | none => rfl
      | some j =>
        rw [hj, Option.bind_some] at hv
        simp [Scalar.orderOf, Scalar.kind?, ValueKind.decode, hv]
    simp [hnone] at hside

/-- A document that collaborators allow has a score once it, or another with its identifier, is dressed. -/
theorem exists_score (hfinite : q.HasFiniteScores) (hs : q.isScored = true) {d e : Document} {u : Uuid}
    (hu : d.id? = some u) (he : e.id? = some u) (hd : q.documentFilter.accepts d = true) :
    ∃ value, ((q.dress e).get? .similarity).bind Json.double? = some value := by
  obtain ⟨scores, ha⟩ := q.allowed_of_isScored hs
  have hallowed : scores.predicate.accepts d = true := by
    simp only [documentFilter, Predicate.accepts_all, List.all_cons, Bool.and_eq_true, ha, Option.map_some,
      Option.getD_some] at hd
    exact hd.2.2.1
  obtain ⟨score, hscore⟩ := Scores.exists_get?_of_accepts hu hallowed
  have hscored : ((q.scored e).get? .similarity).bind Json.double? = some score := by
    have hset : q.scored e = e.set .similarity (.ofDouble score) := by
      simp [scored, hs, ha, Document.score, he, hscore, Scalar.toJson]
    rw [hset]
    have hget : (e.set .similarity (.ofDouble score)).get? .similarity = some (.ofDouble score) :=
      Document.get?_set_self e "similarity" _
    rw [hget, Option.bind_some]
    exact Json.double?_ofDouble (Scores.isFinite_of_get? (hfinite scores ha) hscore)
  refine ⟨score, ?_⟩
  unfold dress
  split
  · have herase : ((q.scored e).erase .likedByScratch).get? .similarity = (q.scored e).get? .similarity :=
      Document.agreesApart_erase (List.mem_singleton_self _) (q.scored e) .similarity (by decide)
    rw [herase]
    exact hscored
  · exact hscored

theorem counter_first (counter : Counter) : counter.path.first ∉ ["similarity", "_likedBy", "likedId", "likedAt"] := by
  cases counter <;> decide

/-- Documents that agree on the position and on every field that an order reads are at one place. -/
theorem alike_of_agreesApart {names : List String} {d e : Document} (h : Document.AgreesApart names d e)
    (hposition : q.cursorPlan.position.first ∉ names)
    (hkeys : ∀ name ∈ ["similarity", "likeCount", "popularity", "followerCount", "creationCount"], name ∉ names) :
    q.cursorPlan.Alike d e := by
  refine ⟨h _ hposition, fun key hk => h _ (hkeys _ ?_)⟩
  rcases (q.key_cursorPlan hk).2 with ⟨-, hpath⟩ | ⟨-, counter, -, -, hpath⟩
  · rw [hpath]
    decide
  · rw [hpath]
    cases counter <;> decide

/-- In an order of the documents, a document with an identifier that the filter accepts has a place, also with the
fields of a like. -/
theorem isSome_place?_dress (hfinite : q.isScored = true → q.HasFiniteScores) (hr : q.isReactionOrder = false)
    {d e : Document} {u : Uuid} (hu : d.id? = some u) (hd : q.documentFilter.accepts d = true)
    (he : Document.AgreesApart ["likedId", "likedAt"] d e) :
    (q.cursorPlan.place? (q.dress e)).isSome = true := by
  have heu : e.id? = some u := (he.id?_eq (by simp)).trans hu
  have hid : ((q.dress e).get? q.cursorPlan.position).bind Json.id? = some u := by
    rw [position_cursorPlan, hr, if_neg (by decide), ← Document.id?_eq, id?_dress, heu]
  unfold CursorPlan.place?
  rw [hid]
  cases hk : q.cursorPlan.key with
  | none => rfl
  | some key =>
    have hvalue : ∃ value, ((q.dress e).get? key.path).bind Json.double? = some value := by
      rcases (q.key_cursorPlan hk).2 with ⟨hs, hpath⟩ | ⟨hs, counter, direction, hsort, hpath⟩
      · rw [hpath]
        exact q.exists_score (hfinite hs) hs hu heu hd
      · obtain ⟨value, hv⟩ := q.exists_counter hsort hd
        refine ⟨value, ?_⟩
        have hfirst := counter_first counter
        simp only [List.mem_cons, List.not_mem_nil, or_false, not_or] at hfirst
        rw [hpath, q.agreesApart_dress e counter.path (by simp [hfirst]), he counter.path (by simp [hfirst]), hv]
    obtain ⟨value, hvalue⟩ := hvalue
    simp [hvalue]

section Dressed

variable (hr : q.isReactionOrder = false) {docs : List Document} (hdocs : Identified docs)

include hr in
/-- An order of the documents ends with their identifiers. -/
theorem idKey_mem_sortKeys : ⟨.id, q.cursorPlan.direction, .id⟩ ∈ q.cursorPlan.sortKeys := by
  have hposition : q.cursorPlan.position = .id := by
    rw [position_cursorPlan, hr]
    rfl
  rw [CursorPlan.sortKeys, hposition]
  exact List.mem_append_right _ (List.mem_singleton_self _)

include hr hdocs in
/-- In an order of the documents, documents with distinct identifiers are told apart. -/
theorem distinct_of_identified : docs.Pairwise fun a b => compareDocuments q.cursorPlan.sortKeys a b ≠ .eq :=
  hdocs.pairwise_ne (q.idKey_mem_sortKeys hr)

include hr hdocs in
/-- So they are as they are sorted. -/
theorem distinct_map_dress : (docs.map q.dress).Pairwise fun a b => compareDocuments q.cursorPlan.sortKeys a b ≠ .eq :=
  q.distinct_of_identified hr (hdocs.of_ids (by simp))

include hr hdocs in
theorem isSome_place?_of_mem_map (hfinite : q.HasFiniteScores)
    (haccepts : ∀ d ∈ docs, q.documentFilter.accepts d = true) {d : Document} (hd : d ∈ docs.map q.dress) :
    (q.cursorPlan.place? d).isSome = true := by
  obtain ⟨e, he, rfl⟩ := List.mem_map.1 hd
  obtain ⟨u, hu⟩ := hdocs.exists_id? he
  exact q.isSome_place?_dress (fun _ => hfinite) hr hu (haccepts e he) (.refl _ e)

end Dressed

end PlanRequest

end FeedQuery
