import FeedQuery.Proofs.Cursor
import FeedQuery.Proofs.Writes

/-!
# Answers do not depend on the order of writing

Without a sort key documents come in the order in which a store holds them. A query whose keys tell all documents apart
does not see that order: it finds the same list in every arrangement of the documents (`Query.apply_of_perm`), and
stores that hold the same documents answer alike (`Store.Reachable.find_congr`).
-/

namespace FeedQuery

namespace Query

/-- What is at a place of the answer: the documents that the query accepts, in order, from the first that is not skipped
up to the limit. -/
theorem getElem?_apply (q : Query) (docs : List Document) (place : Nat) : (q.apply docs)[place]? =
    if q.limit.all (place < ·) then (sortDocuments q.sort (docs.filter q.predicate.accepts))[q.skip.getD 0 + place]?
      else none := by
  rw [Pipeline.apply_eq]
  cases q.limit with
  | none => exact List.getElem?_drop
  | some limit =>
    simp only [Option.all_some, decide_eq_true_eq]
    rw [List.getElem?_take, List.getElem?_drop]

/-- A query that looks at identifiers finds the same in every arrangement of identified documents. -/
theorem apply_congr (q : Query) {direction : Direction} (hkey : ⟨.id, direction, .id⟩ ∈ q.sort)
    {docs docs' : List Document} (h : Identified docs) (hp : docs.Perm docs') : q.apply docs' = q.apply docs := by
  have hsorted :=
    sortDocuments_congr (hp.symm.filter q.predicate.accepts) ((h.filter q.predicate.accepts).pairwise_ne hkey)
  rw [Pipeline.apply_eq, Pipeline.apply_eq, hsorted]

/-- Documents are compared by a total preorder, whatever the keys and the documents. And a query that looks at
identifiers finds the same in every arrangement of identified documents: of all documents that it accepts, in its strict
order, those from the first that is not skipped up to the limit. -/
theorem apply_of_perm :
    (∀ keys a b, compareDocuments keys b a = (compareDocuments keys a b).swap) ∧
    (∀ keys a b c, compareDocuments keys a b = .lt → compareDocuments keys b c = .lt →
      compareDocuments keys a c = .lt) ∧
    (∀ keys a b c, compareDocuments keys a b = .eq → compareDocuments keys b c = .eq →
      compareDocuments keys a c = .eq) ∧
    (∀ keys a b c, (compareDocuments keys a b).isLE → (compareDocuments keys b c).isLE →
      (compareDocuments keys a c).isLE) ∧
    ∀ (q : Query) (direction : Direction), ⟨.id, direction, .id⟩ ∈ q.sort → ∀ docs docs' : List Document,
      Identified docs → docs.Perm docs' →
        q.apply docs' = q.apply docs ∧
        (q.apply docs).Pairwise (fun a b => compareDocuments q.sort a b = .lt) ∧
        ∃ sorted : List Document, sorted.Perm (docs.filter q.predicate.accepts) ∧
          sorted.Pairwise (fun a b => compareDocuments q.sort a b = .lt) ∧
          ∀ place, (q.apply docs)[place]? = if q.limit.all (place < ·) then sorted[q.skip.getD 0 + place]?
            else none := by
  refine ⟨fun _ _ _ => Std.OrientedCmp.eq_swap, fun _ _ _ _ => Std.TransCmp.lt_trans,
    fun _ _ _ _ => Std.TransCmp.eq_trans, fun _ _ _ _ => Std.TransCmp.isLE_trans, ?_⟩
  intro q direction hkey docs docs' h hp
  have hstrict := strict_sortDocuments ((h.filter q.predicate.accepts).pairwise_ne hkey)
  refine ⟨q.apply_congr hkey h hp, hstrict.sublist (q.apply_sublist docs), ?_⟩
  exact ⟨_, sortDocuments_perm q.sort _, hstrict, q.getElem?_apply docs⟩

end Query

namespace Sample

/-- A query for titled documents by title, the newest first among equal titles, and of these the second. -/
def titleQuery : Query where
  predicate := .not (.eq (.field "title") .null)
  sort := [⟨.field "title", .ascending, .text⟩, .idDescending]
  skip := some 1
  limit := some 1

/-- Two documents with one title. -/
def sameTitle : List Document :=
  [titled "0000000000000000000000000000000a" "same", titled "0000000000000000000000000000000b" "same"]

end Sample

/-- The theorem at two documents with one title: the older is the second, whichever comes first. -/
theorem Query.apply_of_perm_sameTitle :
    Sample.titleQuery.apply Sample.sameTitle.reverse = Sample.titleQuery.apply Sample.sameTitle ∧
      Sample.titleQuery.apply Sample.sameTitle = [Sample.titled "0000000000000000000000000000000a" "same"] := by
  have h : Identified Sample.sameTitle := ⟨by decide, by decide⟩
  have hkey : ⟨.id, .descending, .id⟩ ∈ Sample.titleQuery.sort := by decide
  refine ⟨(apply_of_perm.2.2.2.2 Sample.titleQuery .descending hkey _ _ h (List.reverse_perm _).symm).1, ?_⟩
  have hsorted : sortDocuments Sample.titleQuery.sort Sample.sameTitle = Sample.sameTitle.reverse :=
    sortDocuments_eq_of_perm (List.reverse_perm _).symm (by decide)
  have haccepted : Sample.sameTitle.filter Sample.titleQuery.predicate.accepts = Sample.sameTitle :=
    List.filter_eq_self.2 (by decide)
  rw [Pipeline.apply_eq, haccepted, hsorted]
  rfl

namespace Store

/-- Stores that hold the same documents answer alike, in whatever order these were written, where a query looks at
identifiers. -/
theorem Reachable.find_congr {s s' : Store} (hs : s.Reachable) (hs' : s'.Reachable) {c : Collection}
    (h : ∀ d, d ∈ s.docs c ↔ d ∈ s'.docs c) {q : Query} {direction : Direction}
    (hkey : ⟨.id, direction, .id⟩ ∈ q.sort) :
    s'.find c q = s.find c q := by
  have hids := hs.identified c
  have hperm := (List.perm_ext_iff_of_nodup hids.nodup (hs'.identified c).nodup).2 h
  exact q.apply_congr hkey hids hperm

end Store

end FeedQuery
