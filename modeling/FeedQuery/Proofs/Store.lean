import Mathlib.Data.List.Nodup
import FeedQuery.Store
import FeedQuery.Proofs.Predicate
import FeedQuery.Proofs.Order

/-!
# Stores that writes lead to

`Store.Reachable` holds of the stores that begin empty and are written to document by document. In such a store every
document has an identifier and no two documents of a collection share one (`Store.Reachable.identified`): a collection
is a map.
-/

namespace FeedQuery

/-- The store holds nothing but what was written to it. -/
inductive Store.Reachable : Store → Prop where
  | empty : Reachable .empty
  | insert {s s' : Store} {c : Collection} {d : Document} : Reachable s → s.insert c d = .ok s' → Reachable s'

/-- Documents that all have identifiers, no two the same. -/
structure Identified (docs : List Document) : Prop where
  isSome : ∀ d ∈ docs, d.id?.isSome = true
  distinct : docs.Pairwise fun a b => a.id? ≠ b.id?

namespace Identified

theorem exists_id? {docs : List Document} (h : Identified docs) {d : Document} (hd : d ∈ docs) : ∃ u, d.id? = some u :=
  Option.isSome_iff_exists.1 (h.isSome d hd)

theorem sublist {docs some : List Document} (h : Identified docs) (hs : some.Sublist docs) : Identified some :=
  ⟨fun d hd => h.isSome d (hs.subset hd), h.distinct.sublist hs⟩

theorem filter {docs : List Document} (h : Identified docs) (p : Document → Bool) : Identified (docs.filter p) :=
  h.sublist List.filter_sublist

/-- Documents with one identifier are one document. -/
theorem eq_of_id? {docs : List Document} (h : Identified docs) {a b : Document} (ha : a ∈ docs) (hb : b ∈ docs)
    (hab : a.id? = b.id?) : a = b := by
  have hd := h.distinct
  clear h
  induction docs with
  | nil => simp at ha
  | cons d rest ih =>
    rw [List.pairwise_cons] at hd
    rcases List.mem_cons.1 ha with had | har
    · rcases List.mem_cons.1 hb with hbd | hbr
      · rw [had, hbd]
      · exact absurd (had ▸ hab) (hd.1 b hbr)
    · rcases List.mem_cons.1 hb with hbd | hbr
      · exact absurd (hbd ▸ hab.symm) (hd.1 a har)
      · exact ih har hbr hd.2

/-- Lists of identified documents are told apart by their identifiers. -/
theorem map_id?_inj {docs : List Document} (h : Identified docs) {xs ys : List Document} (hxs : xs ⊆ docs)
    (hys : ys ⊆ docs) :
    xs.map Document.id? = ys.map Document.id? ↔ xs = ys := by
  refine ⟨fun hids => ?_, congrArg _⟩
  induction xs generalizing ys with
  | nil => exact (List.map_eq_nil_iff.1 hids.symm).symm
  | cons x rest ih =>
    cases ys with
    | nil => simp at hids
    | cons y others =>
      obtain ⟨hx, hrest⟩ := List.cons_subset.1 hxs
      obtain ⟨hy, hothers⟩ := List.cons_subset.1 hys
      rw [List.map_cons, List.map_cons, List.cons.injEq] at hids
      rw [h.eq_of_id? hx hy hids.1, ih hrest hothers hids.2]

/-- Documents with the identifiers of identified documents are identified. -/
theorem of_ids {docs docs' : List Document} (h : Identified docs')
    (hids : docs.map Document.id? = docs'.map Document.id?) :
    Identified docs := by
  constructor
  · intro d hd
    have hmem : d.id? ∈ docs'.map Document.id? := hids ▸ List.mem_map_of_mem hd
    obtain ⟨e, he, heq⟩ := List.mem_map.1 hmem
    rw [← heq]
    exact h.isSome e he
  · have hdistinct := List.pairwise_map.2 h.distinct
    rw [← hids] at hdistinct
    exact List.pairwise_map.1 hdistinct

theorem perm {docs docs' : List Document} (h : Identified docs) (hp : docs.Perm docs') : Identified docs' :=
  ⟨fun d hd => h.isSome d (hp.mem_iff.2 hd), hp.pairwise h.distinct fun hab hba => hab hba.symm⟩

theorem nodup {docs : List Document} (h : Identified docs) : docs.Nodup :=
  h.distinct.imp fun hab he => hab (congrArg Document.id? he)

/-- At most one document has a given identifier. -/
theorem filter_id? {docs : List Document} (h : Identified docs) (u : Uuid) :
    docs.filter (·.id? == some u) = (docs.find? (·.id? == some u)).toList := by
  have hd := h.distinct
  clear h
  induction docs with
  | nil => rfl
  | cons d rest ih =>
    rw [List.pairwise_cons] at hd
    by_cases hu : d.id? = some u
    · have hrest : rest.filter (·.id? == some u) = [] :=
        List.filter_eq_nil_iff.2 fun e he hue => hd.1 e he (hu.trans (beq_iff_eq.1 hue).symm)
      simp [hu, hrest]
    · simp [hu, ih hd.2]

/-- A document is the only one with its identifier. -/
theorem filter_id?_of_mem {docs : List Document} (h : Identified docs) {d : Document} (hd : d ∈ docs) :
    docs.filter (fun e => e.id? == d.id?) = [d] := by
  obtain ⟨u, hu⟩ := h.exists_id? hd
  have hfound : docs.find? (·.id? == some u) = some d := by
    cases hf : docs.find? (·.id? == some u) with
    | none => exact absurd (List.find?_eq_none.1 hf d hd) (by simp [hu])
    | some e =>
      have he := List.find?_some hf
      rw [h.eq_of_id? (List.mem_of_find?_eq_some hf) hd ((beq_iff_eq.1 he).trans hu.symm)]
  rw [hu, h.filter_id? u, hfound]
  rfl

/-- A document's identifier is there once. -/
theorem countP_id? {docs : List Document} (h : Identified docs) {d : Document} (hd : d ∈ docs) :
    docs.countP (fun e => e.id? == d.id?) = 1 := by
  rw [List.countP_eq_length_filter, h.filter_id?_of_mem hd]
  rfl

/-- Documents with identifiers of which none is there twice are identified. -/
theorem of_countP_le_one {docs : List Document} (hids : ∀ d ∈ docs, d.id?.isSome = true)
    (h : ∀ d ∈ docs, docs.countP (fun e => e.id? == d.id?) ≤ 1) : Identified docs := by
  refine ⟨hids, List.pairwise_map.1 (List.nodup_iff_count_le_one.2 fun id => ?_)⟩
  by_cases hid : id ∈ docs.map Document.id?
  · obtain ⟨d, hd, rfl⟩ := List.mem_map.1 hid
    rw [List.count, List.countP_map]
    exact h d hd
  · rw [List.count_eq_zero.2 hid]
    exact Nat.zero_le 1

end Identified

namespace Store

/-- The document of a collection under an identifier. -/
def get? (s : Store) (c : Collection) (u : Uuid) : Option Document := (s.docs c).find? (·.id? == some u)

theorem get?_eq_some {s : Store} {c : Collection} (h : Identified (s.docs c)) {u : Uuid} {d : Document} :
    s.get? c u = some d ↔ d ∈ s.docs c ∧ d.id? = some u := by
  constructor
  · intro hd
    unfold get? at hd
    have hu := List.find?_some hd
    exact ⟨List.mem_of_find?_eq_some hd, beq_iff_eq.1 hu⟩
  · rintro ⟨hd, hu⟩
    have hm : d ∈ (s.docs c).filter (·.id? == some u) := List.mem_filter.2 ⟨hd, beq_iff_eq.2 hu⟩
    rw [h.filter_id? u, Option.mem_toList] at hm
    exact hm

/-- Every identifier after a write is the one written, or was there. -/
theorem mem_upsert {id : Uuid} {doc d : Document} {docs : List Document} (h : d ∈ upsert id doc docs) :
    d = doc ∨ d ∈ docs := by
  induction docs with
  | nil => simpa [upsert] using h
  | cons old rest ih =>
    simp only [upsert] at h
    split at h
    · rcases List.mem_cons.1 h with h | h
      · exact .inl h
      · exact .inr (List.mem_cons_of_mem old h)
    · rcases List.mem_cons.1 h with rfl | h
      · exact .inr List.mem_cons_self
      · exact (ih h).imp_right (List.mem_cons_of_mem old)

/-- A document with a new identifier goes to the end. -/
theorem upsert_of_new {id : Uuid} {docs : List Document} (h : ∀ d ∈ docs, d.id? ≠ some id) (doc : Document) :
    upsert id doc docs = docs ++ [doc] := by
  induction docs with
  | nil => rfl
  | cons old rest ih =>
    rw [upsert, if_neg (h old List.mem_cons_self), ih fun d hd => h d (List.mem_cons_of_mem old hd), List.cons_append]

/-- Writing keeps identifiers distinct: a document goes in the place of the one with its identifier. -/
theorem identified_upsert {id : Uuid} {doc : Document} (hid : doc.id? = some id) {docs : List Document}
    (h : Identified docs) : Identified (upsert id doc docs) := by
  refine ⟨?_, ?_⟩
  · intro d hd
    rcases mem_upsert hd with rfl | hd
    · simp [hid]
    · exact h.isSome d hd
  · have hdist := h.distinct
    clear h
    induction docs with
    | nil => simp [upsert]
    | cons old rest ih =>
      rw [List.pairwise_cons] at hdist
      simp only [upsert]
      split
      · next hold =>
        refine List.pairwise_cons.2 ⟨?_, hdist.2⟩
        intro d hd
        rw [hid, ← hold]
        exact hdist.1 d hd
      · next hold =>
        refine List.pairwise_cons.2 ⟨?_, ih hdist.2⟩
        intro d hd
        rcases mem_upsert hd with rfl | hd
        · rwa [hid]
        · exact hdist.1 d hd

/-- A document with an identifier is written, whatever the store holds. -/
theorem insert_of_id? (s : Store) (c : Collection) {d : Document} {id : Uuid} (h : d.id? = some id) :
    s.insert c d = .ok ⟨fun c' => if c' = c then upsert id d (s.docs c') else s.docs c'⟩ := by
  simp only [insert, Document.storeId, h, Except.map]

/-- A document without an identifier is refused. -/
theorem insert_of_none (s : Store) (c : Collection) {d : Document} (h : d.id? = none) :
    s.insert c d = .error (.argument "Document _id must be a UUID string.") := by
  simp only [insert, Document.storeId, h, Except.map]

/-- Writing succeeds for a document with an identifier, and changes its collection alone. -/
theorem insert_eq_ok {s s' : Store} {c : Collection} {d : Document} (h : s.insert c d = .ok s') :
    ∃ id, d.id? = some id ∧ s' = ⟨fun c' => if c' = c then upsert id d (s.docs c') else s.docs c'⟩ := by
  cases hid : d.id? with
  | none =>
    rw [insert_of_none s c hid] at h
    cases h
  | some id =>
    rw [insert_of_id? s c hid] at h
    exact ⟨id, rfl, (Except.ok.inj h).symm⟩

/-- A document with an identifier can be written. -/
theorem exists_insert (s : Store) (c : Collection) {d : Document} (h : d.id?.isSome = true) :
    ∃ s', s.insert c d = .ok s' := by
  obtain ⟨id, hid⟩ := Option.isSome_iff_exists.1 h
  exact ⟨_, insert_of_id? s c hid⟩

/-- In a store that writes lead to, a collection is a map from identifiers to documents. -/
theorem Reachable.identified {s : Store} (h : s.Reachable) (c : Collection) : Identified (s.docs c) := by
  induction h with
  | empty => exact ⟨by simp [Store.empty], List.Pairwise.nil⟩
  | insert _ hs ih =>
    obtain ⟨id, hid, rfl⟩ := insert_eq_ok hs
    dsimp only
    split
    · exact identified_upsert hid ih
    · exact ih

/-- The store of some documents, written one after the other; a document without an identifier is passed over. -/
def ofList (docs : List (Collection × Document)) : Store :=
  docs.foldl (fun s e => (s.insert e.1 e.2).toOption.getD s) .empty

/-- Writes lead to the store of some documents. -/
theorem reachable_ofList (docs : List (Collection × Document)) : (ofList docs).Reachable := by
  have hfold : ∀ s : Store, s.Reachable → (docs.foldl (fun s e => (s.insert e.1 e.2).toOption.getD s) s).Reachable := by
    induction docs with
    | nil => exact fun s hs => hs
    | cons first rest ih =>
      intro s hs
      refine ih _ ?_
      dsimp only
      cases hinsert : s.insert first.1 first.2 with
      | error e => exact hs
      | ok s' => exact hs.insert hinsert
  exact hfold .empty .empty

/-! ## What queries find -/

/-- A query that neither skips nor cuts finds the documents that it accepts. -/
theorem mem_find {s : Store} {c : Collection} {predicate : Predicate} {keys : List SortKey} {d : Document} :
    d ∈ s.find c ⟨predicate, keys, none, none⟩ ↔ d ∈ s.docs c ∧ predicate.accepts d = true := by
  cases keys with
  | nil => simp [Store.find, Query.apply, Query.ordered]
  | cons key rest => simp [Store.find, Query.apply, Query.ordered]

end Store

end FeedQuery
