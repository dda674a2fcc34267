import FeedQuery.Service
import FeedQuery.Proofs.Join

/-!
# What collaborators allow

A request is prepared by asking whether the viewer has a share in the collection named, and then the collaborators. The
scores that they allow are replies of theirs: every entry was named by each collaborator that was asked
(`Service.mem_of_consult`), so its score is a number if their scores are. What is prepared says nothing else than the
request and these answers (`Service.prepare_eq_some`).
-/

namespace FeedQuery

namespace Scores

/-- No score is an infinity or not a number. -/
def IsFinite (s : Scores) : Prop := ∀ entry ∈ s.entries, entry.2.isFinite = true

theorem isFinite_of_get? {s : Scores} (h : s.IsFinite) {id : Uuid} {score : Double} (hs : s.get? id = some score) :
    score.isFinite = true := by
  obtain ⟨entry, he, rfl⟩ := Option.map_eq_some_iff.1 hs
  exact h entry (List.mem_of_find?_eq_some he)

theorem mem_insertEntry {id : Uuid} {score : Double} {entries : List (Uuid × Double)} {entry : Uuid × Double}
    (h : entry ∈ insertEntry id score entries) : entry = (id, score) ∨ entry ∈ entries := by
  fun_induction insertEntry id score entries with
  | case1 => exact .inl (List.mem_singleton.1 h)
  | case2 other old rest _ => exact List.mem_cons.1 h
  | case3 other old rest _ => exact (List.mem_cons.1 h).imp_right (List.mem_cons_of_mem _)
  | case4 other old rest _ ih =>
    rcases List.mem_cons.1 h with rfl | h
    · exact .inr List.mem_cons_self
    · exact (ih h).imp_right (List.mem_cons_of_mem _)

/-- Every entry of the scores of a list is in the list. -/
theorem mem_ofList {scores : List (Uuid × Double)} {entry : Uuid × Double} (h : entry ∈ (ofList scores).entries) :
    entry ∈ scores := by
  have hfold : ∀ done : Scores, entry ∈ (scores.foldl (fun s e => s.insert e.1 e.2) done).entries →
      entry ∈ done.entries ∨ entry ∈ scores := by
    clear h
    induction scores with
    | nil => exact fun done h => .inl h
    | cons first rest ih =>
      intro done h
      rcases ih _ h with h | h
      · rcases mem_insertEntry h with rfl | h
        · exact .inr List.mem_cons_self
        · exact .inl h
      · exact .inr (List.mem_cons_of_mem _ h)
  exact (hfold empty h).resolve_left (by simp [empty])

theorem accepts_predicate {s : Scores} (d : Document) :
    s.predicate.accepts d = s.ids.any fun id => (Scalar.id id).holdsAt (d.get? .id) := by
  have hids : s.isEmpty = s.ids.isEmpty := by rw [isEmpty, ids, List.isEmpty_map]
  unfold predicate
  split
  · next hempty =>
    rw [hids, List.isEmpty_iff] at hempty
    rw [hempty, Predicate.accepts_never, List.any_nil]
  · rw [Predicate.accepts_oneOf, List.any_map]
    rfl

/-- A document whose `_id` is a text is accepted where the text spells an identifier that has a score. -/
theorem accepts_predicate_iff {s : Scores} {d : Document} {text : String} (h : d.get? .id = some (.string text)) :
    s.predicate.accepts d = true ↔ ∃ id ∈ s.ids, Uuid.ofText? text = some id := by
  rw [accepts_predicate, List.any_eq_true, h]
  refine exists_congr fun id => and_congr_right fun _ => ?_
  rw [Scalar.holdsAt_single (by rintro ⟨⟩) (by rintro _ ⟨⟩), Scalar.orderOf_id_eq]
  exact Iff.rfl

/-- A document that has a score has an identifier that has it. -/
theorem exists_get?_of_accepts {s : Scores} {d : Document} {u : Uuid} (hu : d.id? = some u)
    (h : s.predicate.accepts d = true) : ∃ score, s.get? u = some score := by
  obtain ⟨text, htext, hspelled⟩ := Document.id?_eq_some.1 hu
  obtain ⟨id, hid, hother⟩ := (accepts_predicate_iff htext).1 h
  obtain rfl : id = u := Option.some.inj (hother.symm.trans hspelled)
  obtain ⟨entry, hentry, hentryid⟩ := List.mem_map.1 hid
  have hsome : (s.entries.find? fun e => e.1 == id).isSome = true :=
    List.find?_isSome.2 ⟨entry, hentry, beq_iff_eq.2 hentryid⟩
  obtain ⟨found, hfound⟩ := Option.isSome_iff_exists.1 hsome
  exact ⟨found.2, by simp [get?, hfound]⟩

end Scores

/-- Collaborators whose scores are numbers. -/
structure Collaborators.IsFinite (others : Collaborators) : Prop where
  similar : ∀ c u k neighbors, others.similar c u k = some neighbors → ∀ n ∈ neighbors, n.score.isFinite = true
  search : ∀ c text k neighbors, others.search c text k = some neighbors → ∀ n ∈ neighbors, n.score.isFinite = true

theorem Collaborators.isFinite_absent : Collaborators.absent.IsFinite := by
  constructor
  · intro c u k neighbors h
    simp [absent] at h
  · intro c text k neighbors h
    obtain rfl := Option.some.inj h
    simp

/-- Every score of a reply is that of a neighbor. -/
theorem Scores.mem_ofNeighbors {neighbors : List Neighbor} {entry : Uuid × Double}
    (h : entry ∈ (Scores.ofNeighbors neighbors).entries) : ∃ n ∈ neighbors, entry = (n.id, n.score) := by
  obtain ⟨n, hn, rfl⟩ := List.mem_map.1 (mem_ofList h)
  exact ⟨n, hn, rfl⟩

namespace Service

variable {settings : Settings} {store : Store} {others : Collaborators} {c : Collection} {hints : Hints}

/-- Where a text is searched for, what is allowed was found, and was similar if that was asked. -/
theorem mem_of_consultSearch {similar : Option Scores} {search : Option String} {scores : Scores}
    (h : (consultSearch settings c similar search).run store others = .allowed scores) :
    (∀ text, search = some text → ∃ neighbors, others.search c text settings.searchTopK = some neighbors ∧
      ∀ entry ∈ scores.entries, ∃ n ∈ neighbors, entry.1 = n.id) ∧
    (∀ allowed, similar = some allowed → ∀ entry ∈ scores.entries, entry ∈ allowed.entries) ∧
    (similar = none → ∃ text neighbors, others.search c text settings.searchTopK = some neighbors ∧
      ∀ entry ∈ scores.entries, ∃ n ∈ neighbors, entry = (n.id, n.score)) := by
  cases search with
  | none =>
    cases similar with
    | none => simp [consultSearch] at h
    | some allowed =>
      obtain rfl : allowed = scores := by simpa [consultSearch] using h
      exact ⟨by simp, fun other ho entry he => Option.some.inj ho ▸ he, by simp⟩
  | some text =>
    simp only [consultSearch, Exchange.run] at h
    cases hreply : others.search c text settings.searchTopK with
    | none => simp [hreply] at h
    | some neighbors =>
      rw [hreply] at h
      cases similar with
      | none =>
        obtain rfl : Scores.ofNeighbors neighbors = scores := by simpa using h
        refine ⟨?_, by simp, fun _ => ⟨text, neighbors, hreply, fun entry he => Scores.mem_ofNeighbors he⟩⟩
        intro text' ht
        obtain rfl := Option.some.inj ht
        refine ⟨neighbors, hreply, ?_⟩
        intro entry he
        obtain ⟨n, hn, rfl⟩ := Scores.mem_ofNeighbors he
        exact ⟨n, hn, rfl⟩
      | some allowed =>
        obtain rfl : allowed.intersect (.ofNeighbors neighbors) = scores := by simpa using h
        refine ⟨?_, fun other ho entry he => Option.some.inj ho ▸ (List.mem_filter.1 he).1, by simp⟩
        intro text' ht
        obtain rfl := Option.some.inj ht
        refine ⟨neighbors, hreply, ?_⟩
        intro entry he
        obtain ⟨other, ho, heq⟩ := List.any_eq_true.1 (List.mem_filter.1 he).2
        obtain ⟨n, hn, rfl⟩ := Scores.mem_ofNeighbors ho
        exact ⟨n, hn, (beq_iff_eq.1 heq).symm⟩

/-- What collaborators allow, each that was asked has named. -/
theorem mem_of_consult {scores : Scores} (h : (consult settings c hints).run store others = .allowed scores) :
    (∀ reference, hints.similarTo = some reference → ∃ neighbors,
      others.similar c reference settings.similarityTopK = some neighbors ∧
        ∀ entry ∈ scores.entries, ∃ n ∈ neighbors, entry.1 = n.id) ∧
    (∀ text, hints.search = some text → ∃ neighbors, others.search c text settings.searchTopK = some neighbors ∧
      ∀ entry ∈ scores.entries, ∃ n ∈ neighbors, entry.1 = n.id) ∧
    (others.IsFinite → scores.IsFinite) := by
  unfold consult at h
  cases hs : hints.similarTo with
  | none =>
    rw [hs] at h
    obtain ⟨hsearch, -, hnone⟩ := mem_of_consultSearch h
    refine ⟨by simp, hsearch, ?_⟩
    intro hothers entry he
    obtain ⟨text, neighbors, hreply, hmem⟩ := hnone rfl
    obtain ⟨n, hn, rfl⟩ := hmem entry he
    exact hothers.search c text _ neighbors hreply n hn
  | some reference =>
    rw [hs] at h
    simp only [Exchange.run] at h
    cases hreply : others.similar c reference settings.similarityTopK with
    | none => simp [hreply] at h
    | some neighbors =>
      rw [hreply] at h
      obtain ⟨hsearch, hsome, -⟩ := mem_of_consultSearch h
      have hmem : ∀ entry ∈ scores.entries, ∃ n ∈ neighbors, entry = (n.id, n.score) := fun entry he =>
        Scores.mem_ofNeighbors (hsome _ rfl entry he)
      refine ⟨?_, hsearch, ?_⟩
      · intro other ho
        obtain rfl := Option.some.inj ho
        refine ⟨neighbors, hreply, ?_⟩
        intro entry he
        obtain ⟨n, hn, rfl⟩ := hmem entry he
        exact ⟨n, hn, rfl⟩
      · intro hothers entry he
        obtain ⟨n, hn, rfl⟩ := hmem entry he
        exact hothers.similar c reference _ neighbors hreply n hn

/-- Nobody is asked where nothing similar and no text is asked for. -/
theorem hints_of_consult (h : (consult settings c hints).run store others = .unneeded) :
    hints.similarTo = none ∧ hints.search = none := by
  unfold consult consultSearch at h
  cases hs : hints.similarTo with
  | none =>
    cases ht : hints.search with
    | none => exact ⟨rfl, rfl⟩
    | some text => cases hreply : others.search c text settings.searchTopK <;> simp [hs, ht, Exchange.run, hreply] at h
  | some reference =>
    cases hsimilar : others.similar c reference settings.similarityTopK with
    | none => simp [hs, Exchange.run, hsimilar] at h
    | some neighbors =>
      cases ht : hints.search with
      | none => simp [hs, ht, Exchange.run, hsimilar] at h
      | some text =>
        cases hreply : others.search c text settings.searchTopK <;> simp [hs, ht, Exchange.run, hsimilar, hreply] at h

variable {criteria : Criteria} {viewer : Option Uuid} {softDelete : SoftDelete} {p : Prepared}

/-- What is prepared are the request, the viewer's share, and what collaborators allow. -/
theorem prepare_eq_some (h : (prepare settings c criteria viewer softDelete).run store others = some p) :
    p = ⟨c, criteria, .resolve criteria viewer ((ownsCollection criteria viewer).run store others) softDelete,
      .select criteria viewer, p.allowed⟩ ∧
    ((consult settings c criteria.hints).run store others = .unneeded ∧ p.allowed = none ∨
      ∃ scores, (consult settings c criteria.hints).run store others = .allowed scores ∧ p.allowed = some scores) := by
  unfold prepare at h
  simp only [Exchange.run_bind, Exchange.run_pure] at h
  split at h
  · next hc =>
    obtain rfl := Option.some.inj h
    exact ⟨rfl, .inl ⟨hc, rfl⟩⟩
  · next scores hc =>
    obtain rfl := Option.some.inj h
    exact ⟨rfl, .inr ⟨scores, hc, rfl⟩⟩
  · simp at h

section Prepared

variable (h : (prepare settings c criteria viewer softDelete).run store others = some p)
include h

theorem collection_of_prepare : p.collection = c := by rw [(prepare_eq_some h).1]

theorem criteria_of_prepare : p.criteria = criteria := by rw [(prepare_eq_some h).1]

theorem strategy_of_prepare : p.strategy = .select criteria viewer := by rw [(prepare_eq_some h).1]

theorem viewer_of_prepare : p.visibility.viewer = viewer := by
  rw [(prepare_eq_some h).1]
  rfl

end Prepared

/-- Without a collection in the criteria, nobody has a share in one. -/
theorem ownsCollection_of_none (h : criteria.id? .collection = none) :
    (ownsCollection criteria viewer).run store others = false := by
  unfold ownsCollection
  rw [h]
  cases viewer <;> rfl

/-- What is prepared depends on the store only by whether the viewer has a share in the collection named. -/
theorem prepare_congr (settings : Settings) (c : Collection) (softDelete : SoftDelete) {store' : Store}
    (howns : (ownsCollection criteria viewer).run store others = (ownsCollection criteria viewer).run store' others) :
    (prepare settings c criteria viewer softDelete).run store others =
      (prepare settings c criteria viewer softDelete).run store' others := by
  have hsearch (similar : Option Scores) (text : Option String) :
      (consultSearch settings c similar text).run store others =
      (consultSearch settings c similar text).run store' others := by
    cases text <;> rfl
  have hconsult : (consult settings c criteria.hints).run store others =
      (consult settings c criteria.hints).run store' others := by
    unfold consult
    split
    · exact hsearch none _
    · next reference _ =>
      simp only [Exchange.run]
      split
      · rfl
      · exact hsearch _ _
  unfold prepare
  simp only [Exchange.run_bind, howns, hconsult]
  rfl

end Service

end FeedQuery
