import FeedQuery.Proofs.Cursor

/-!
# The tail of a plan

Whatever way documents are reached, the last stages of a plan score them, drop those that an account has not liked,
apply the bound where that could not be done before, sort and cut. `PlanRequest.results_tail` says what these stages
amount to: a filter by `PlanRequest.passes`, the writing of a score and the removal of a scratch field by
`PlanRequest.dress`, then the bound and the order.
-/

namespace FeedQuery

open Stage

/-- Whether the store holds a like of the account for the document. -/
def Store.isLiked (s : Store) (collection : Collection) (liker : Uuid) (softDelete : SoftDelete)
    (d : Document) : Bool :=
  d.id?.any fun id => (s.docs .reactions).any fun like =>
    (Reaction.of liker .like collection softDelete).accepts like &&
    (Predicate.eq (.field "entityId") (.id id)).accepts like

namespace PlanRequest

variable {store : Store} {others : Collaborators}

/-- The semi-join keeps the documents that the account has liked. -/
theorem results_likedBySemiJoin {docs : List Document} (hdocs : ∀ d ∈ docs, d.id?.isSome = true)
    (collection : Collection) (liker : Uuid) (softDelete : SoftDelete) (rest : List Stage) :
    results store others (likedBySemiJoin collection liker softDelete ++ rest) docs = results store others rest
      ((docs.filter (store.isLiked collection liker softDelete)).map fun d => d.erase .likedByScratch) := by
  unfold likedBySemiJoin
  simp only [List.cons_append, List.nil_append, results_lookup, results_filter, results_unset]
  generalize hl : Lookup.mk .reactions .id _ _ _ _ _ _ _ = l
  have hsingle : l.single = false := by rw [← hl]
  have htarget : l.target = .field "_likedBy" := by rw [← hl]; rfl
  have hkeep : ∀ d ∈ docs, (Predicate.notEmpty .likedByScratch).accepts (l.attach (l.matching store others docs) d) =
      store.isLiked collection liker softDelete d := by
    intro d hd
    obtain ⟨u, hu⟩ := Option.isSome_iff_exists.1 (hdocs d hd)
    have hfound := l.found_ne_nil_iff store others (show l.cap = none by rw [← hl])
      (show l.localPath = .id by rw [← hl]) hd hu
    have hsome : (l.found (l.matching store others docs) d).isEmpty =
        !(store.isLiked collection liker softDelete d) := by
      rw [Bool.eq_iff_iff, List.isEmpty_iff, ← not_iff_not, ← ne_eq, hfound]
      simp only [← Scalar.holdsAt_id_iff]
      simp [← hl, Store.isLiked, hu]
    have haccepts (e : Document) (items : List Json) (he : e.get? .likedByScratch = some (.array items)) :
        (Predicate.notEmpty .likedByScratch).accepts e = !items.isEmpty := by
      cases items <;> simp [Predicate.accepts, he]
    rw [Lookup.attach_array _ d hsingle, htarget, haccepts _ _ (Document.get?_set_self d _ _), List.isEmpty_map, hsome,
      Bool.not_not]
  rw [List.filter_map, List.map_map]
  have hfilter : docs.filter ((Predicate.notEmpty .likedByScratch).accepts ∘ l.attach (l.matching store others docs)) =
      docs.filter (store.isLiked collection liker softDelete) := List.filter_congr hkeep
  rw [hfilter]
  refine congrArg (results store others rest) (List.map_congr_left ?_)
  intro d _
  rw [Function.comp_apply, Lookup.attach_array _ d hsingle, htarget]
  exact Document.erase_set_field d "_likedBy" _

variable (store others) in
/-- Whatever identifiers the documents have, the semi-join leaves documents out and takes the scratch field away. -/
theorem exists_results_likedBySemiJoin (docs : List Document) (collection : Collection) (liker : Uuid)
    (softDelete : SoftDelete) (rest : List Stage) : ∃ kept : List Document, kept.Sublist docs ∧
      results store others (likedBySemiJoin collection liker softDelete ++ rest) docs =
        results store others rest (kept.map fun d => d.erase .likedByScratch) := by
  unfold likedBySemiJoin
  simp only [List.cons_append, List.nil_append, results_lookup, results_filter, results_unset]
  generalize hl : Lookup.mk .reactions .id _ _ _ _ _ _ _ = l
  have hsingle : l.single = false := by rw [← hl]
  have htarget : l.target = .field "_likedBy" := by rw [← hl]; rfl
  rw [List.filter_map, List.map_map]
  refine ⟨_, List.filter_sublist, congrArg (results store others rest) (List.map_congr_left ?_)⟩
  intro d _
  rw [Function.comp_apply, Lookup.attach_array _ d hsingle, htarget]
  exact Document.erase_set_field d "_likedBy" _

variable (q : PlanRequest)

/-- Documents come in the order of the likes only where they are reached through likes. -/
theorem isReactionOrder_of_strategy {q : PlanRequest} (h : q.strategy.isReactionFanOut = false) :
    q.isReactionOrder = false := by
  rw [isReactionOrder, h, Bool.false_and]

/-- Whether the filter by likes lets a document through; where the strategy goes through the likes there is no such
filter. -/
def passes (store : Store) (d : Document) : Bool :=
  match q.strategy.isReactionFanOut, q.criteria.likedBy? with
  | false, some liker => store.isLiked q.collection liker q.visibility.softDelete d
  | _, _ => true

/-- Where nobody's likes are asked for, everything passes. -/
theorem passes_of_likedBy {q : PlanRequest} (hliked : q.criteria.likedBy? = none) (store : Store) (d : Document) :
    q.passes store d = true := by
  unfold passes
  rw [hliked]
  cases q.strategy.isReactionFanOut <;> rfl

theorem filter_passes_of_likedBy {q : PlanRequest} (hliked : q.criteria.likedBy? = none) (store : Store)
    (docs : List Document) :
    docs.filter (q.passes store) = docs :=
  List.filter_eq_self.2 fun d _ => passes_of_likedBy hliked store d

/-- Where the order reads no score, the bound was applied before the tail. -/
theorem filter_late_of_unscored {q : PlanRequest} (hscored : q.isScored = false) (docs : List Document) :
    (docs.filter fun d => !q.isScored || q.bound.accepts d) = docs :=
  List.filter_eq_self.2 fun d _ => by simp [hscored]

/-- The document with its score, where the order reads one. -/
def scored (d : Document) : Document :=
  match q.isScored, q.allowed with
  | true, some scores => d.score .similarity scores
  | _, _ => d

/-- The document as it is sorted: with its score, and without the scratch field of the filter by likes. -/
def dress (d : Document) : Document :=
  match q.strategy.isReactionFanOut, q.criteria.likedBy? with
  | false, some _ => (q.scored d).erase .likedByScratch
  | _, _ => q.scored d

/-- A document is dressed in the score and the scratch field alone. -/
theorem agreesApart_dress (d : Document) : Document.AgreesApart ["similarity", "_likedBy"] d (q.dress d) := by
  have hscored : Document.AgreesApart ["similarity", "_likedBy"] d (q.scored d) := by
    unfold scored
    split
    · next scores _ _ => exact (Document.agreesApart_score "similarity" scores d).mono (by simp)
    · exact .refl _ d
  unfold dress
  split
  · exact hscored.trans (Document.agreesApart_erase (by simp) _)
  · exact hscored

/-- Documents that agree apart from some fields still do when they are dressed. -/
theorem dress_congr {names : List String} {d e : Document} (h : Document.AgreesApart names d e) (hid : "_id" ∉ names) :
    Document.AgreesApart names (q.dress d) (q.dress e) := by
  have hscored : Document.AgreesApart names (q.scored d) (q.scored e) := by
    unfold scored Document.score
    rw [h.id?_eq hid]
    split
    · split
      · exact h.set "similarity" _
      · exact h
    · exact h
  unfold dress
  split
  · exact hscored.erase "_likedBy"
  · exact hscored

@[simp] theorem id?_dress (d : Document) : (q.dress d).id? = d.id? := (q.agreesApart_dress d).id?_eq (by simp)

theorem id?_scored (d : Document) : (q.scored d).id? = d.id? := by
  unfold scored
  split
  · next scores _ _ => exact (Document.agreesApart_score "similarity" scores d).id?_eq (by simp)
  · rfl

theorem results_scoring (rest : List Stage) (docs : List Document) :
    results store others (q.scoring ++ rest) docs = results store others rest (docs.map q.scored) := by
  cases hs : q.isScored with
  | false =>
    have hscored : q.scored = id := by
      funext d
      simp [scored, hs]
    simp [scoring, hs, hscored]
  | true =>
    cases ha : q.allowed with
    | none =>
      have hscored : q.scored = id := by
        funext d
        simp [scored, hs, ha]
      simp [scoring, hs, ha, hscored]
    | some scores =>
      have hscored : q.scored = Document.score .similarity scores := by
        funext d
        simp [scored, hs, ha]
      simp [scoring, hs, ha, hscored]

/-- The filter by likes keeps what passes. -/
theorem results_likedBy {docs : List Document} (hdocs : ∀ d ∈ docs, d.id?.isSome = true) (rest : List Stage) :
    results store others (q.likedBy ++ rest) (docs.map q.scored) =
      results store others rest ((docs.filter (q.passes store)).map q.dress) := by
  cases hr : q.strategy.isReactionFanOut with
  | true =>
    have hpasses : docs.filter (q.passes store) = docs := List.filter_eq_self.2 fun d _ => by simp [passes, hr]
    have hdress : q.dress = q.scored := by
      funext d
      simp [dress, hr]
    simp [likedBy, hr, hpasses, hdress]
  | false =>
    cases hb : q.criteria.likedBy? with
    | none =>
      have hpasses : docs.filter (q.passes store) = docs := List.filter_eq_self.2 fun d _ => by simp [passes, hr, hb]
      have hdress : q.dress = q.scored := by
        funext d
        simp [dress, hr, hb]
      simp [likedBy, hr, hb, hpasses, hdress]
    | some liker =>
      have hids : ∀ d ∈ docs.map q.scored, d.id?.isSome = true := by
        intro d hd
        obtain ⟨e, he, rfl⟩ := List.mem_map.1 hd
        rw [id?_scored]
        exact hdocs e he
      have hpasses : store.isLiked q.collection liker q.visibility.softDelete ∘ q.scored = q.passes store := by
        funext d
        simp [passes, hr, hb, Store.isLiked, id?_scored]
      have hdress : (fun d : Document => d.erase .likedByScratch) ∘ q.scored = q.dress := by
        funext d
        simp [dress, hr, hb]
      simp only [likedBy, hr, hb, results_likedBySemiJoin hids]
      rw [List.filter_map, List.map_map, hpasses, hdress]

theorem results_lateBound (rest : List Stage) (docs : List Document) : results store others (q.lateBound ++ rest) docs =
    results store others rest (docs.filter fun d => !q.isScored || q.bound.accepts d) := by
  unfold lateBound
  cases hs : q.isScored with
  | false => simp [List.filter_eq_self.2]
  | true =>
    cases ha : q.bound.isAlways with
    | true => simp [Predicate.accepts_of_isAlways ha, List.filter_eq_self.2]
    | false => simp

/-- The stages on documents that were reached keep those that pass, dress them, and put them in order after the
bound. -/
theorem results_tail {docs : List Document} (hdocs : ∀ d ∈ docs, d.id?.isSome = true) :
    results store others q.tail docs = results store others q.window.stages (sortDocuments q.cursorPlan.sortKeys
      (((docs.filter (q.passes store)).map q.dress).filter fun d => !q.isScored || q.bound.accepts d)) := by
  unfold tail
  rw [List.append_assoc, List.append_assoc, results_scoring, results_likedBy q hdocs, results_lateBound, results_sort]

/-- A window only leaves documents out. -/
theorem window_sublist (w : Window) (docs : List Document) : (results store others w.stages docs).Sublist docs := by
  cases w with
  | cursor place limit => exact List.take_sublist _ _
  | offset skip limit => exact (List.take_sublist _ _).trans (List.drop_sublist _ _)
  | all => exact List.Sublist.refl _

/-- Whatever identifiers the documents have, what the stages on documents yield are some of the documents, dressed. -/
theorem exists_of_mem_results_tail {docs : List Document} {x : Document} (hx : x ∈ results store others q.tail docs) :
    ∃ d ∈ docs, x = q.dress d := by
  obtain ⟨kept, hkept, hlikedBy⟩ : ∃ kept : List Document, kept.Sublist docs ∧
      results store others (q.likedBy ++ (q.lateBound ++ .sort q.cursorPlan.sortKeys :: q.window.stages))
        (docs.map q.scored) =
        results store others (q.lateBound ++ .sort q.cursorPlan.sortKeys :: q.window.stages) (kept.map q.dress) := by
    cases hr : q.strategy.isReactionFanOut with
    | true =>
      have hdress : q.dress = q.scored := funext fun d => by simp [dress, hr]
      exact ⟨docs, .refl _, by simp [likedBy, hr, hdress]⟩
    | false =>
      cases hb : q.criteria.likedBy? with
      | none =>
        have hdress : q.dress = q.scored := funext fun d => by simp [dress, hr, hb]
        exact ⟨docs, .refl _, by simp [likedBy, hr, hb, hdress]⟩
      | some liker =>
        have hdress : q.dress = (fun d : Document => d.erase .likedByScratch) ∘ q.scored :=
          funext fun d => by simp [dress, hr, hb]
        obtain ⟨scored, hscored, hresults⟩ := exists_results_likedBySemiJoin store others (docs.map q.scored)
          q.collection liker q.visibility.softDelete (q.lateBound ++ .sort q.cursorPlan.sortKeys :: q.window.stages)
        obtain ⟨kept, hkept, rfl⟩ := List.sublist_map_iff.1 hscored
        exact ⟨kept, hkept, by simp only [likedBy, hr, hb, hresults, hdress, List.map_map]⟩
  unfold tail at hx
  rw [List.append_assoc, List.append_assoc, results_scoring, hlikedBy, results_lateBound, results_sort] at hx
  have hsorted := (window_sublist _ _).subset hx
  rw [mem_sortDocuments, List.mem_filter] at hsorted
  obtain ⟨d, hd, rfl⟩ := List.mem_map.1 hsorted.1
  exact ⟨d, hkept.subset hd, rfl⟩

end PlanRequest

end FeedQuery
