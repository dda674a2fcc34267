import FeedQuery.Execution
import FeedQuery.Proofs.Document
import FeedQuery.Proofs.Store

/-!
# What pipelines yield

`Stage.results` is what stages make of documents, one stage after the other, when every question is answered. Sending
the leading stages to the store as one query changes nothing (`Pipeline.run_execute`): whatever is said about stages in
turn holds of executed pipelines.
-/

namespace FeedQuery

namespace Exchange

variable (store : Store) (others : Collaborators)

/-- Running one conversation after another hands the result of the first to the second. -/
@[simp] theorem run_bind {α β : Type} (x : Exchange α) (f : α → Exchange β) :
    (x >>= f).run store others = (f (x.run store others)).run store others := by
  change (x.bind f).run store others = _
  induction x with
  | done result => rfl
  | find collection query next ih => exact ih _
  | count collection predicate next ih => exact ih _
  | similar collection reference topK next ih => exact ih _
  | search collection text topK next ih => exact ih _

@[simp] theorem run_pure {α : Type} (result : α) : (pure result : Exchange α).run store others = result := rfl

@[simp] theorem run_done {α : Type} (result : α) : (Exchange.done result).run store others = result := rfl

end Exchange

/-- What a join of documents finds for the text of a key. -/
def Lookup.matching (l : Lookup) (store : Store) (others : Collaborators) (docs : List Document) :
    String → List Document :=
  (l.fetch (l.keysOf docs)).run store others

namespace Stage

section Results

variable (store : Store) (others : Collaborators)

/-- What stages make of documents, stage after stage, over a store. -/
def results (stages : List Stage) (docs : List Document) : List Document := (applyAll stages docs).run store others

@[simp] theorem results_nil (docs : List Document) : results store others [] docs = docs := rfl

theorem results_cons (stage : Stage) (rest : List Stage) (docs : List Document) :
    results store others (stage :: rest) docs = results store others rest ((stage.apply docs).run store others) :=
  Exchange.run_bind store others _ _

/-- The stages of two lists one after the other. -/
theorem results_append (first second : List Stage) (docs : List Document) :
    results store others (first ++ second) docs = results store others second (results store others first docs) := by
  induction first generalizing docs with
  | nil => rfl
  | cons stage rest ih => rw [List.cons_append, results_cons, results_cons, ih]

@[simp] theorem results_filter (p : Predicate) (rest : List Stage) (docs : List Document) :
    results store others (.filter p :: rest) docs = results store others rest (docs.filter p.accepts) := results_cons ..

@[simp] theorem results_sort (keys : List SortKey) (rest : List Stage) (docs : List Document) :
    results store others (.sort keys :: rest) docs = results store others rest (sortDocuments keys docs) :=
  results_cons ..

@[simp] theorem results_skip (count : Nat) (rest : List Stage) (docs : List Document) :
    results store others (.skip count :: rest) docs = results store others rest (docs.drop count) := results_cons ..

@[simp] theorem results_limit (count : Nat) (rest : List Stage) (docs : List Document) :
    results store others (.limit count :: rest) docs = results store others rest (docs.take count) := results_cons ..

@[simp] theorem results_unwind (path : Path) (rest : List Stage) (docs : List Document) :
    results store others (.unwind path :: rest) docs =
      results store others rest (docs.flatMap (Document.unwind path)) :=
  results_cons ..

@[simp] theorem results_replaceRoot (path : Path) (carry : List (Path × Path)) (rest : List Stage)
    (docs : List Document) :
    results store others (.replaceRoot path carry :: rest) docs =
      results store others rest (docs.filterMap (Document.replaceRoot? path carry)) := results_cons ..

@[simp] theorem results_score (path : Path) (scores : Scores) (rest : List Stage) (docs : List Document) :
    results store others (.score path scores :: rest) docs =
      results store others rest (docs.map (Document.score path scores)) :=
  results_cons ..

@[simp] theorem results_flag (path source : Path) (rest : List Stage) (docs : List Document) :
    results store others (.flag path source :: rest) docs =
      results store others rest (docs.map (Document.flag path source)) :=
  results_cons ..

@[simp] theorem results_unset (paths : List Path) (rest : List Stage) (docs : List Document) :
    results store others (.unset paths :: rest) docs = results store others rest (docs.map (Document.unset paths)) :=
  results_cons ..

@[simp] theorem results_lookup (l : Lookup) (rest : List Stage) (docs : List Document) :
    results store others (.lookup l :: rest) docs =
      results store others rest (docs.map (l.attach (l.matching store others docs))) := by
  rw [results_cons]
  exact congrArg _ (Exchange.run_bind store others _ _)

/-- No stage makes documents out of nothing. -/
theorem results_empty (stages : List Stage) : results store others stages [] = [] := by
  induction stages with
  | nil => rfl
  | cons stage rest ih => cases stage <;> simp [ih, sortDocuments]

end Results

end Stage

namespace Pipeline

open Stage

variable (store : Store) (others : Collaborators)

theorem results_leadingFilters (stages : List Stage) (docs : List Document) :
    results store others stages docs =
      results store others (leadingFilters stages).2
        (docs.filter (Predicate.all (leadingFilters stages).1).accepts) := by
  fun_induction leadingFilters stages generalizing docs with
  | case1 predicate rest ih =>
    rw [results_filter, ih, List.filter_filter]
    congr 2
    funext d
    simp [Bool.and_comm]
  | case2 stages =>
    have hall : (docs.filter (Predicate.all []).accepts) = docs := List.filter_eq_self.2 fun d _ => by simp
    rw [hall]

theorem results_leadingSort (stages : List Stage) (docs : List Document) :
    results store others stages docs =
      results store others (leadingSort stages).2 (sortDocuments (leadingSort stages).1 docs) := by
  fun_cases leadingSort stages <;> simp

theorem results_leadingSkip (stages : List Stage) (docs : List Document) :
    results store others stages docs =
      results store others (leadingSkip stages).2 (docs.drop ((leadingSkip stages).1.getD 0)) := by
  fun_cases leadingSkip stages <;> simp

theorem results_leadingLimit (stages : List Stage) (docs : List Document) :
    results store others stages docs = results store others (leadingLimit stages).2
      (match (leadingLimit stages).1 with | some count => docs.take count | none => docs) := by
  fun_cases leadingLimit stages <;> simp

/-- The documents that a query finds, with the sort said plainly. -/
theorem apply_eq (q : Query) (docs : List Document) : q.apply docs =
    (match q.limit with
      | some count => ((sortDocuments q.sort (docs.filter q.predicate.accepts)).drop (q.skip.getD 0)).take count
      | none => (sortDocuments q.sort (docs.filter q.predicate.accepts)).drop (q.skip.getD 0)) := by
  have hsort : q.ordered docs = sortDocuments q.sort (docs.filter q.predicate.accepts) := by
    unfold Query.ordered
    cases q.sort <;> simp
  exact congrArg (fun found : List Document => match q.limit with
    | some count => (found.drop (q.skip.getD 0)).take count
    | none => found.drop (q.skip.getD 0)) hsort

/-- The leading stages may be sent to the store as one query. -/
theorem results_leadingQuery (stages : List Stage) (docs : List Document) :
    results store others stages docs = results store others (leadingQuery stages).2
      ((leadingQuery stages).1.apply docs) := by
  rw [results_leadingFilters, results_leadingSort, results_leadingSkip, results_leadingLimit, apply_eq]
  rfl

/-- Executing a pipeline yields what its stages make of all documents of its collection, one after the other. -/
theorem run_execute (p : Pipeline) : p.execute.run store others =
    results store others p.stages (store.docs p.collection) := by
  rw [results_leadingQuery]
  unfold execute
  dsimp only
  split
  · next hnever =>
    have hnone : (leadingQuery p.stages).1.apply (store.docs p.collection) = [] := by
      have hfilter : (store.docs p.collection).filter (leadingQuery p.stages).1.predicate.accepts = [] :=
        List.filter_eq_nil_iff.2 fun d _ => by simp [Predicate.accepts_of_isNever hnever d]
      rw [apply_eq, hfilter]
      cases (leadingQuery p.stages).1.limit <;> simp [sortDocuments]
    rw [hnone, results_empty]
    rfl
  · rfl

end Pipeline

end FeedQuery
