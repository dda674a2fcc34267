import FeedQuery.Proofs.Join

/-!
# Enrichment

Enrichment changes documents one by one, and only the fields that it names (`enrichment_decorates`): there are as many
documents after it as before, in the same order, and what places them in an order or tells them apart is as it was.
-/

namespace FeedQuery

open Document (AgreesApart)

/-- The stages change documents one by one, and only the fields named. -/
def Stage.Decorates (names : List String) (stages : List Stage) : Prop :=
  ∀ store others docs, ∃ f : Document → Document, results store others stages docs = docs.map f ∧
    ∀ d, AgreesApart names d (f d)

namespace Stage.Decorates

theorem nil : Decorates [] [] := fun _ _ docs => ⟨id, by simp, fun d => .refl _ d⟩

theorem append {names more : List String} {first second : List Stage} (h : Decorates names first)
    (h' : Decorates more second) :
    Decorates (names ++ more) (first ++ second) := by
  intro store others docs
  obtain ⟨f, hf, hfa⟩ := h store others docs
  obtain ⟨g, hg, hga⟩ := h' store others (docs.map f)
  refine ⟨g ∘ f, by rw [results_append, hf, hg, List.map_map], ?_⟩
  intro d
  exact ((hfa d).mono (List.subset_append_left names more)).trans
    ((hga (f d)).mono (List.subset_append_right names more))

theorem lookup {l : Lookup} {name : String} (h : l.target = .field name) : Decorates [name] [.lookup l] :=
  fun store others docs =>
  ⟨l.attach (l.matching store others docs), by simp, fun d => Lookup.agreesApart_attach _ d h⟩

theorem flag (name source : String) : Decorates [name, source] [.flag (.field name) (.field source)] := fun _ _ _ =>
  ⟨Document.flag (.field name) (.field source), by simp, Document.agreesApart_flag name source⟩

end Stage.Decorates

open Stage (Decorates)

/-- The fields that enrichment writes or takes away: the summaries that the collection has, and for a viewer the
reactions. -/
def decorated (collection : Collection) (viewer : Option Uuid) : List String :=
  (if collection == .creators then [] else ["user"]) ++ (if collection.hasAgent then ["agent"] else []) ++
  (if collection.hasTask then ["task"] else []) ++
  (if viewer.isSome then ["_liked", "liked", "_liked", "_bookmarked", "bookmarked", "_bookmarked"] else [])

/-- Enrichment changes documents one by one, and only the fields that it names. -/
theorem enrichment_decorates (collection : Collection) (viewer : Option Uuid) :
    Decorates (decorated collection viewer) (enrichment collection viewer) := by
  have hsummary (c : Collection) (name : String) (names : List String) :
      Decorates [name] [summary c (.field name) names] :=
    .lookup rfl
  have hreaction (v : Uuid) : Decorates ["_liked", "liked", "_liked", "_bookmarked", "bookmarked", "_bookmarked"]
      (reactionFlag v collection .like ++ reactionFlag v collection .bookmark) :=
    ((Decorates.lookup rfl).append (.flag "liked" "_liked")).append
      ((Decorates.lookup rfl).append (.flag "bookmarked" "_bookmarked"))
  refine ((Decorates.append ?_ ?_).append ?_).append ?_
  · cases collection <;> first | exact .nil | exact hsummary _ "user" _
  · cases collection <;> first | exact .nil | exact hsummary _ "agent" _
  · cases collection <;> first | exact .nil | exact hsummary _ "task" _
  · cases viewer with
    | none => exact .nil
    | some v => exact hreaction v

/-- No field outside this list is touched by enrichment. -/
theorem decorated_subset (collection : Collection) (viewer : Option Uuid) :
    decorated collection viewer ⊆ ["user", "agent", "task", "_liked", "liked", "_bookmarked", "bookmarked"] := by
  unfold decorated
  cases viewer.isSome <;> cases collection <;> decide

/-- Enrichment keeps the identifier. -/
theorem id?_of_decorated {collection : Collection} {viewer : Option Uuid} {d e : Document}
    (h : AgreesApart (decorated collection viewer) d e) : e.id? = d.id? := by
  apply h.id?_eq
  intro hmem
  have hnames := decorated_subset _ _ hmem
  simp at hnames

/-- Enriched, documents have the identifiers that they had. -/
theorem map_id?_enrichment (collection : Collection) (viewer : Option Uuid) (store : Store) (others : Collaborators)
    (docs : List Document) :
    (Stage.results store others (enrichment collection viewer) docs).map Document.id? = docs.map Document.id? := by
  obtain ⟨f, hf, hfa⟩ := enrichment_decorates collection viewer store others docs
  rw [hf, List.map_map]
  exact List.map_congr_left fun d _ => id?_of_decorated (hfa d)

end FeedQuery
