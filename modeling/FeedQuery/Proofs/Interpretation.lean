import FeedQuery.Proofs.Join

/-!
# Pipelines, stage by stage

`Pipeline.interpret` is the plain meaning of a pipeline: all documents of its collection, in the order of the store, go
through one stage after the other, and a lookup reads the whole of its collection. Nothing is asked, no query is formed.
Executing a pipeline sends the leading stages to the store as one query, and the filter, sort and cap of every lookup as
well; it yields the same documents, and counting yields their number, whatever the pipeline and the store
(`pushdown_interprets`).
-/

namespace FeedQuery

namespace Lookup

/-- The documents of the other collection that pass the filter and hold one of the values, in order. -/
def candidates (l : Lookup) (store : Store) (values : List Scalar) : List Document :=
  sortDocuments l.sort ((store.docs l.collection).filter fun d =>
    l.filter.accepts d && values.any fun value => value.holdsAt (d.get? l.foreignPath))

/-- What a join of documents finds for the text of a key: of the documents that hold a value of any key, those with that
text; with a cap, the first of those that hold the value of the key. -/
def partners (l : Lookup) (store : Store) (docs : List Document) (text : String) : List Document :=
  match l.cap with
  | none => l.holding (l.candidates store ((l.keysOf docs).map Key.scalar)) text
  | some cap =>
    match (l.keysOf docs).find? fun key => key.text == text with
    | some key => (l.candidates store [key.scalar]).take cap
    | none => []

variable (l : Lookup) (store : Store) (others : Collaborators) (docs : List Document)

/-- Asking for the documents of all keys finds the candidates. -/
theorem find_batchQuery (keys : List Key) :
    store.find l.collection (l.batchQuery keys) = l.candidates store (keys.map Key.scalar) := by
  have haccepts : (l.batchQuery keys).predicate.accepts = fun d =>
      l.filter.accepts d && (keys.map Key.scalar).any fun value => value.holdsAt (d.get? l.foreignPath) := by
    funext d
    simp [batchQuery]
  rw [Store.find, Pipeline.apply_eq, haccepts]
  rfl

/-- Asking for the documents of one key finds the first of its candidates. -/
theorem find_cappedQuery (cap : Nat) (key : Key) :
    store.find l.collection (l.cappedQuery cap key) = (l.candidates store [key.scalar]).take cap := by
  have haccepts : (l.cappedQuery cap key).predicate.accepts = fun d =>
      l.filter.accepts d && [key.scalar].any fun value => value.holdsAt (d.get? l.foreignPath) := by
    funext d
    simp [cappedQuery]
  rw [Store.find, Pipeline.apply_eq, haccepts]
  rfl

/-- What was found for each of several keys is read back by the text of the first that has it. -/
theorem get?_map_key {α : Type} (found : Key → α) (text : String) (keys : List Key) :
    Fields.get? text (keys.map fun key => (key.text, found key)) =
      (keys.find? fun key => key.text == text).map found := by
  induction keys with
  | nil => rfl
  | cons key rest ih =>
    by_cases h : key.text = text
    · simp [Fields.get?, h]
    · simp [Fields.get?, h, ih]

/-- What a join asks the store for is what it finds among all documents. -/
theorem matching_eq_partners : l.matching store others docs = l.partners store docs := by
  funext text
  unfold partners
  cases hcap : l.cap with
  | none =>
    rw [matching_uncapped hcap, find_batchQuery]
    split
    · next hempty =>
      -- where there is no key nothing is asked, and nothing would be found
      have hnone : l.candidates store [] = [] := by
        refine List.eq_nil_iff_forall_not_mem.2 fun d hd => ?_
        simp [candidates] at hd
      rw [List.isEmpty_iff.1 hempty, List.map_nil, hnone]
      rfl
    · rfl
  | some cap =>
    rw [matching_capped hcap, get?_map_key]
    dsimp only
    cases (l.keysOf docs).find? fun key => key.text == text with
    | none => rfl
    | some key => exact l.find_cappedQuery store cap key

/-- A join attaches to each document what its texts find. -/
theorem run_join : (l.join docs).run store others = docs.map (l.attach (l.partners store docs)) := by
  rw [← l.matching_eq_partners store others docs]
  exact Exchange.run_bind store others _ _

/-- A lookup finds the same in a collection that is the same. -/
theorem partners_congr {l : Lookup} {s s' : Store} (h : s.docs l.collection = s'.docs l.collection)
    (docs : List Document) :
    l.partners s docs = l.partners s' docs := by
  funext text
  unfold partners candidates
  rw [h]

section Capped

variable {l : Lookup} {store : Store} {others : Collaborators} {docs : List Document}

/-- For no text a join with a cap finds more documents than the cap. -/
theorem length_matching_le {cap : Nat} (hcap : l.cap = some cap) (text : String) :
    (l.matching store others docs text).length ≤ cap := by
  rw [matching_eq_partners, partners, hcap]
  dsimp only
  split
  · exact List.length_take_le _ _
  · exact Nat.zero_le cap

end Capped
end Lookup

/-- What a stage makes of documents, over the documents of a store. -/
def Stage.interpret (store : Store) (stage : Stage) (docs : List Document) : List Document :=
  match stage with
  | .filter predicate => docs.filter predicate.accepts
  | .sort keys => sortDocuments keys docs
  | .skip count => docs.drop count
  | .limit count => docs.take count
  | .unwind path => docs.flatMap (Document.unwind path)
  | .lookup l => docs.map (l.attach (l.partners store docs))
  | .replaceRoot path carry => docs.filterMap (Document.replaceRoot? path carry)
  | .score path scores => docs.map (Document.score path scores)
  | .flag path source => docs.map (Document.flag path source)
  | .unset paths => docs.map (Document.unset paths)

/-- What a pipeline makes of a store: all documents of its collection through one stage after the other. -/
def Pipeline.interpret (p : Pipeline) (store : Store) : List Document :=
  p.stages.foldl (fun docs stage => stage.interpret store docs) (store.docs p.collection)

/-- Stages make of documents what each in turn makes of them. -/
theorem Stage.results_eq_foldl (store : Store) (others : Collaborators) (stages : List Stage) (docs : List Document) :
    results store others stages docs = stages.foldl (fun docs stage => stage.interpret store docs) docs := by
  induction stages generalizing docs with
  | nil => rfl
  | cons stage rest ih =>
    have hstep : (stage.apply docs).run store others = stage.interpret store docs := by
      cases stage with
      | lookup l => exact l.run_join store others docs
      | _ => rfl
    rw [results_cons, hstep, ih, List.foldl_cons]

/-- Stages whose lookups find the same make the same of documents. -/
theorem Stage.results_congr {s s' : Store} (others : Collaborators) {stages : List Stage}
    (h : ∀ l, .lookup l ∈ stages → ∀ docs, l.partners s docs = l.partners s' docs) (docs : List Document) :
    results s others stages docs = results s' others stages docs := by
  rw [results_eq_foldl, results_eq_foldl]
  induction stages generalizing docs with
  | nil => rfl
  | cons stage rest ih =>
    have hstep : stage.interpret s docs = stage.interpret s' docs := by
      cases stage with
      | lookup l => rw [interpret, interpret, h l List.mem_cons_self docs]
      | _ => rfl
    rw [List.foldl_cons, List.foldl_cons, hstep]
    exact ih (fun l hl => h l (List.mem_cons_of_mem stage hl)) _

/-- Where nothing fails, performing a conversation ends with its result. -/
theorem Exchange.perform_none {α : Type} (store : Store) (others : Collaborators) (x : Exchange α) :
    (x.perform store others none).2 = .ok (x.run store others) := by
  induction x with
  | done result => rfl
  | find collection query next ih => exact ih _
  | count collection predicate next ih => exact ih _
  | similar collection reference topK next ih => exact ih _
  | search collection text topK next ih => exact ih _

namespace Pipeline

/-- Counting a pipeline is counting the documents that it yields, also where the store counts. -/
theorem run_count (p : Pipeline) (store : Store) (others : Collaborators) :
    p.count.run store others = (Stage.results store others p.stages (store.docs p.collection)).length := by
  have hcount (predicate : Predicate) :
      store.count p.collection predicate = ((store.docs p.collection).filter predicate.accepts).length := by
    rw [Store.count, Store.find, apply_eq]
    simp [Query.filter]
  unfold count
  split
  · next predicate hstages =>
    rw [hstages, Stage.results_filter, Stage.results_nil]
    exact hcount predicate
  · next predicate keys hstages =>
    rw [hstages, Stage.results_filter, Stage.results_sort, Stage.results_nil, (sortDocuments_perm keys _).length_eq]
    exact hcount predicate
  · rw [Exchange.run_bind, run_execute, Exchange.run_pure]

/-- Executing a pipeline yields what its stages make of all documents of its collection, one after the other, and
counting it their number, for every pipeline and every store: whatever leads the pipeline and is sent to the store as
one query, also where that query accepts nothing and is not asked, and where the store counts. -/
theorem pushdown_interprets (p : Pipeline) (store : Store) (others : Collaborators) :
    (p.execute.perform store others none).2 = .ok (p.interpret store) ∧
    (p.count.perform store others none).2 = .ok (p.interpret store).length := by
  have hmeaning : Stage.results store others p.stages (store.docs p.collection) = p.interpret store :=
    Stage.results_eq_foldl store others p.stages _
  constructor
  · rw [Exchange.perform_none, run_execute, hmeaning]
  · rw [Exchange.perform_none, run_count, hmeaning]

end Pipeline

end FeedQuery
