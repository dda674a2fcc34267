import FeedQuery.Proofs.Paging

/-!
# Marking

For a viewer, enrichment marks every document with the viewer's likes and bookmarks, after the summaries that everybody
gets (`exists_results_enrichment`). What enrichment writes is nothing that a page is cut, ordered or continued by: a
page has the identifiers that the core of its plan yields, in that order, and ends at the same cursor
(`enrichment_keeps_page`).
-/

namespace FeedQuery

open Stage
open Document (AgreesApart)

/-! ## The mark of a reaction -/

/-- The document with the mark of a reaction, and without the field that the reactions are held in until then. -/
def Document.mark (reaction : Reaction) (reacted : Bool) (d : Document) : Document :=
  (d.erase reaction.scratch).set reaction.flag (.bool reacted)

namespace Document

variable (reaction : Reaction) (reacted : Bool) (d : Document)

theorem get?_mark (p : Path) : (d.mark reaction reacted).get? p =
    if p.first = reaction.flag.first then Path.follow p.nested (.bool reacted)
    else if p.first = reaction.scratch.first then none else d.get? p := by
  cases reaction <;> exact (get?_set_field ..).trans (congrArg _ (get?_erase_field ..))

/-- A mark touches nothing but its own two fields. -/
theorem agreesApart_mark : AgreesApart [reaction.flag.first, reaction.scratch.first] d (d.mark reaction reacted) := by
  intro p hp
  simp only [List.mem_cons, List.not_mem_nil, or_false, not_or] at hp
  rw [get?_mark, if_neg hp.1, if_neg hp.2]

@[simp] theorem id?_mark : (d.mark reaction reacted).id? = d.id? :=
  (agreesApart_mark reaction reacted d).id?_eq (by cases reaction <;> decide)

/-- A document that was marked with both reactions carries both marks. -/
theorem get?_flag_mark (liked bookmarked : Bool) :
    ((d.mark .like liked).mark .bookmark bookmarked).get? Reaction.like.flag = some (.bool liked) ∧
    ((d.mark .like liked).mark .bookmark bookmarked).get? Reaction.bookmark.flag = some (.bool bookmarked) := by
  simp [get?_mark, Reaction.scratch, Reaction.flag, Path.field, Path.follow]

/-- A document that was marked with both reactions holds neither of them any more. -/
theorem get?_scratch_mark (liked bookmarked : Bool) (other : Reaction) :
    ((d.mark .like liked).mark .bookmark bookmarked).get? other.scratch = none := by
  cases other <;> simp [get?_mark, Reaction.scratch, Reaction.flag, Path.field]

end Document

/-- The store holds a reaction of the account to what has the identifier: one that was not deleted, to a document of the
collection. -/
def Store.HasReaction (s : Store) (collection : Collection) (viewer : Uuid) (reaction : Reaction) (id : Uuid) : Prop :=
  ∃ row ∈ s.docs .reactions, (Reaction.of viewer reaction collection .exclude).accepts row = true ∧
    ∃ value ∈ Lookup.valuesAt (.field "entityId") row, value.id? = some id

/-! ## What enrichment does for a viewer -/

/-- Enrichment for a viewer is enrichment for nobody, and then the viewer's reactions. -/
theorem enrichment_some (collection : Collection) (viewer : Uuid) : enrichment collection (some viewer) =
    enrichment collection none ++
      (reactionFlag viewer collection .like ++ reactionFlag viewer collection .bookmark) := by
  simp only [enrichment, List.append_nil]

variable (store : Store) (others : Collaborators)

/-- Each document is marked, and a document with an identifier is marked with whether the store holds a reaction to
it. -/
theorem exists_results_reactionFlag (collection : Collection) (viewer : Uuid) (reaction : Reaction)
    (docs : List Document) :
    ∃ reacted : Document → Bool,
      results store others (reactionFlag viewer collection reaction) docs =
        docs.map (fun d => d.mark reaction (reacted d)) ∧
      ∀ d ∈ docs, ∀ u, d.id? = some u → (reacted d = true ↔ store.HasReaction collection viewer reaction u) := by
  unfold reactionFlag
  simp only [results_lookup, results_flag, results_nil, List.map_map]
  generalize hl : Lookup.mk .reactions .id _ _ _ _ _ _ _ = l
  refine ⟨fun d => !(l.found (l.matching store others docs) d).isEmpty, List.map_congr_left ?_, ?_⟩
  · intro d _
    have htarget : l.target = reaction.scratch := by rw [← hl]
    obtain ⟨name, hname⟩ : ∃ name, reaction.scratch = .field name := by
      cases reaction <;> exact ⟨_, rfl⟩
    have htop (value : Json) : (d.set (.field name) value).top? (.field name) = some value := by
      rw [← Document.get?_set_self d name value]
      exact (Option.bind_fun_some _).symm
    rw [Function.comp_apply, Lookup.attach_array _ d (show l.single = false by rw [← hl]), htarget, hname,
      Document.flag, htop, Document.erase_set_field, Document.isPresent, List.isEmpty_map, ← hname]
    rfl
  · intro d hd u hu
    have hfound := l.found_ne_nil_iff store others (show l.cap = none by rw [← hl])
      (show l.localPath = .id by rw [← hl]) hd hu
    rw [Bool.not_eq_true', List.isEmpty_eq_false_iff, hfound, ← hl]
    rfl

/-- For a viewer, each document is marked with both reactions once it has the summaries. -/
theorem exists_results_enrichment (collection : Collection) (viewer : Uuid) (docs : List Document) :
    ∃ liked bookmarked : Document → Bool,
      results store others (enrichment collection (some viewer)) docs =
        (results store others (enrichment collection none) docs).map (fun d =>
          (d.mark .like (liked d)).mark .bookmark (bookmarked d)) ∧
      ∀ d ∈ results store others (enrichment collection none) docs, ∀ u, d.id? = some u →
        (liked d = true ↔ store.HasReaction collection viewer .like u) ∧
        (bookmarked d = true ↔ store.HasReaction collection viewer .bookmark u) := by
  rw [enrichment_some, results_append, results_append]
  obtain ⟨liked, hlikes, hliked⟩ := exists_results_reactionFlag store others collection viewer .like
    (results store others (enrichment collection none) docs)
  rw [hlikes]
  obtain ⟨bookmarked, hbookmarks, hbookmarked⟩ := exists_results_reactionFlag store others collection viewer .bookmark
    ((results store others (enrichment collection none) docs).map fun d => d.mark .like (liked d))
  refine ⟨liked, fun d => bookmarked (d.mark .like (liked d)), by rw [hbookmarks, List.map_map]; rfl, ?_⟩
  intro d hd u hu
  exact ⟨hliked d hd u hu, hbookmarked _ (List.mem_map_of_mem hd) u (by rw [Document.id?_mark, hu])⟩

/-! ## What enrichment leaves alone -/

/-- After enrichment for a viewer no document holds the viewer's reactions any more. -/
theorem get?_scratch_enrichment {collection : Collection} {viewer : Option Uuid} (hviewer : viewer.isSome = true)
    {docs : List Document} {e : Document} (he : e ∈ results store others (enrichment collection viewer) docs)
    (reaction : Reaction) :
    e.get? reaction.scratch = none := by
  obtain ⟨viewer, rfl⟩ := Option.isSome_iff_exists.1 hviewer
  obtain ⟨liked, bookmarked, hmarks, -⟩ := exists_results_enrichment store others collection viewer docs
  rw [hmarks] at he
  obtain ⟨d, -, rfl⟩ := List.mem_map.1 he
  exact d.get?_scratch_mark _ _ reaction

/-- No field that a cursor is read from is one that enrichment names. -/
theorem PlanRequest.alike_of_decorated {q : PlanRequest} {collection : Collection} {viewer : Option Uuid}
    {d e : Document} (h : AgreesApart (decorated collection viewer) d e) : q.cursorPlan.Alike d e := by
  have hnames := h.mono (decorated_subset collection viewer)
  refine q.alike_of_agreesApart hnames ?_ (by decide)
  rw [q.position_cursorPlan]
  split <;> decide

/-- A document gives the cursor that every document gives which is at its place. -/
theorem CursorPlan.Alike.next? {p : CursorPlan} {d e : Document} (h : p.Alike d e) :
    p.next? (some e) = p.next? (some d) := by
  simp only [CursorPlan.next?, Option.bind_some, h.position]
  cases hkey : p.key with
  | none => rfl
  | some key => simp only [Option.bind_some, h.key key hkey]

/-- Enriched documents end at the cursor at which they ended before. -/
theorem PlanRequest.next?_enrichment (q : PlanRequest) (collection : Collection) (viewer : Option Uuid)
    (docs : List Document) :
    q.cursorPlan.next? (results store others (enrichment collection viewer) docs).getLast? =
      q.cursorPlan.next? docs.getLast? := by
  obtain ⟨f, hf, hagrees⟩ := enrichment_decorates collection viewer store others docs
  rw [hf, List.getLast?_map]
  cases docs.getLast? with
  | none => rfl
  | some last => exact (alike_of_decorated (hagrees last)).next?

/-- Whatever the strategy is, the stages on documents end the core, unless it finds nothing. -/
theorem PlanRequest.core_cases (q : PlanRequest) :
    q.core = [.filter .never] ∨ ∃ reaching, q.core = reaching ++ q.tail := by
  unfold core
  split
  · exact .inr ⟨[_, _, _, _], rfl⟩
  · exact .inr ⟨[_, _, _, _], rfl⟩
  · unfold graph
    split
    · exact .inl rfl
    · exact .inr ⟨[_, _, _, _], rfl⟩
  · unfold reactions
    split
    · exact .inl rfl
    · exact .inr ⟨q.likes _ ++ [_, _], (List.append_assoc _ [_, _] _).symm⟩
  · exact .inr ⟨[_], rfl⟩

/-- The core of a plan for a page yields no more documents than the page may have. -/
theorem PlanRequest.length_documents_le {q : PlanRequest} {place : Option Cursor} {limit : Nat}
    (h : q.window = .cursor place limit) :
    (q.documents store others).length ≤ limit := by
  unfold documents
  rcases q.core_cases with hcore | ⟨reaching, hcore⟩
  · simp [hcore, Predicate.accepts]
  · have hwindow : q.window.stages = [.limit limit] := by rw [h]; rfl
    rw [hcore, results_append, tail, results_append, results_sort, hwindow, results_limit, results_nil]
    exact List.length_take_le _ _

variable (collection : Collection) (viewer : Option Uuid)

/-- Enrichment changes neither the order nor the number of documents. Each document agrees with the one that it was made
of, on all fields but the summaries that its collection has and, for a viewer, the two marks and the two fields that
reactions are held in; these are then gone. So the page of any plan has at most as many documents as were asked for,
they have the identifiers of what the core yields, in the same order, and the page goes on at the cursor at which the
core would. -/
theorem enrichment_keeps_page :
    (∀ docs, List.Forall₂ (fun d e => AgreesApart (decorated collection viewer) d e ∧
      (viewer.isSome = true → ∀ reaction : Reaction, e.get? reaction.scratch = none)) docs
        (results store others (enrichment collection viewer) docs)) ∧
    ∀ (q : PlanRequest) (place : Option Cursor) (limit : Nat),
      let plan := Plan.build { q with window := .cursor place limit }
      let page := plan.pipeline.execute.run store others
      let core := plan.corePipeline.execute.run store others
      page.length ≤ limit ∧ page.map (·.get? .id) = core.map (·.get? .id) ∧
        plan.cursor.next? page.getLast? = plan.cursor.next? core.getLast? := by
  constructor
  · intro docs
    obtain ⟨f, hf, hagrees⟩ := enrichment_decorates collection viewer store others docs
    have hscratch (d : Document) (hd : d ∈ docs) (hviewer : viewer.isSome = true) :=
      get?_scratch_enrichment store others hviewer
      (show f d ∈ results store others (enrichment collection viewer) docs from hf ▸ List.mem_map_of_mem hd)
    rw [hf, List.forall₂_map_right_iff, List.forall₂_same]
    exact fun d hd => ⟨hagrees d, hscratch d hd⟩
  · intro q place limit plan page core
    have hcore : core = ({ q with window := .cursor place limit } : PlanRequest).documents store others :=
      Pipeline.run_execute store others plan.corePipeline
    have hpage : page = results store others (enrichment q.collection q.visibility.viewer) core := by
      rw [hcore]
      exact (Pipeline.run_execute store others plan.pipeline).trans (results_append ..)
    obtain ⟨f, hf, hagrees⟩ := enrichment_decorates q.collection q.visibility.viewer store others core
    have hid (d : Document) : (f d).get? .id = d.get? .id := by
      refine (hagrees d).mono (decorated_subset _ _) .id ?_
      decide
    refine ⟨?_, ?_, ?_⟩
    · rw [hpage, hf, List.length_map, hcore]
      exact PlanRequest.length_documents_le store others rfl
    · rw [hpage, hf, List.map_map]
      exact List.map_congr_left fun d _ => hid d
    · rw [hpage]
      exact PlanRequest.next?_enrichment store others _ _ _ core

end FeedQuery
