import FeedQuery.Query
import FeedQuery.Proofs.Number

/-!
# The order of documents

Comparing documents by keys is a total preorder for every list of keys and all documents, whatever fields are missing or
of another kind (`TransCmp (compareDocuments keys)`): every kind of key reads into a linear order with nothing first
(`SortKey.exists_rank`), which needs that stored numbers are finite.

Sorting is stable, so that it commutes with filtering (`sortDocuments_filter`). Where the keys tell all documents of a
list apart, the sorted list is the only one in strict order (`sortDocuments_eq_of_perm`).
-/

namespace FeedQuery

open Std

namespace SortKey

/-- Readings are ordered as their ranks are. -/
theorem order_map {α β : Type} [Ord β] {scalar : α → Scalar} {rank : α → β}
    (h : ∀ a b, (scalar a).compare? (scalar b) = some (Ord.compare (rank a) (rank b))) (x y : Option α) :
    order (x.map scalar) (y.map scalar) = Ord.compare (x.map rank) (y.map rank) := by
  cases x <;> cases y <;> simp [order, h] <;> rfl

/-- The rank of a stored number: the place of the double that it is read as. -/
def numberRank (n : Number) : Int := if n.toDouble.negative then -(n.toDouble.magnitude : Int) else n.toDouble.magnitude

theorem compare?_toDouble (a b : Number) :
    (Scalar.number a.toDouble).compare? (.number b.toDouble) = some (Ord.compare (numberRank a) (numberRank b)) := by
  simp only [Scalar.compare?, Double.compare?, Double.key?_of_isFinite a.toDouble_isFinite,
    Double.key?_of_isFinite b.toDouble_isFinite, numberRank]

/-- The stored number that a value is. -/
def storedNumber : Json → Option Number
  | .number n => some n
  | _ => none

/-- A key whose kind decodes to the scalars of a linear order reads documents into that order. -/
theorem exists_rank_of {α β : Type} [Ord β] [TransOrd β] (path : Path) {kind : ValueKind} (part : Json → Option α)
    (scalar : α → Scalar) (rank : α → β) (hd : ∀ value, kind.decode value = (part value).map scalar)
    (h : ∀ a b, (scalar a).compare? (scalar b) = some (Ord.compare (rank a) (rank b))) :
    ∃ (β : Type) (_ : Ord β) (_ : TransOrd β) (rank : Document → Option β), ∀ a b : Document,
      order ((a.get? path).bind kind.decode) ((b.get? path).bind kind.decode) = Ord.compare (rank a) (rank b) := by
  refine ⟨β, inferInstance, inferInstance, fun d => ((d.get? path).bind part).map rank, ?_⟩
  intro a b
  have hread (d : Document) : (d.get? path).bind kind.decode = ((d.get? path).bind part).map scalar := by
    rw [Option.map_bind]
    exact congrArg _ (funext hd)
  rw [hread, hread, order_map h]

/-- Every key reads documents into a linear order in which nothing comes first. -/
theorem exists_rank (k : SortKey) : ∃ (β : Type) (_ : Ord β) (_ : TransOrd β) (rank : Document → Option β),
    ∀ a b, order (k.read a) (k.read b) = Ord.compare (rank a) (rank b) := by
  obtain ⟨path, direction, kind⟩ := k
  cases kind with
  | id => exact exists_rank_of path _ _ (fun u => u.bits.toNat) (fun _ => rfl) fun _ _ => rfl
  | text => exact exists_rank_of path _ _ (fun text => text) (fun _ => rfl) fun _ _ => rfl
  | number =>
    exact exists_rank_of path storedNumber (fun n => .number n.toDouble) numberRank
      (fun value => by cases value <;> rfl) compare?_toDouble
  | bool => exact exists_rank_of path _ _ (fun value => value) (fun _ => rfl) fun _ _ => rfl
  | datetime => exact exists_rank_of path _ _ Instant.nanos (fun _ => rfl) fun _ _ => rfl

instance (k : SortKey) : TransCmp k.compare := by
  obtain ⟨β, _, _, rank, h⟩ := exists_rank k
  obtain ⟨path, direction, kind⟩ := k
  cases direction with
  | ascending =>
    have e : SortKey.compare ⟨path, .ascending, kind⟩ = compareOn rank := by
      funext a b
      exact h a b
    rw [e]
    infer_instance
  | descending =>
    have e : SortKey.compare ⟨path, .descending, kind⟩ = fun a b => compareOn rank b a := by
      funext a b
      simp only [SortKey.compare, Direction.apply, h, compareOn]
      exact (OrientedOrd.eq_swap (a := rank b)).symm
    rw [e]
    infer_instance

end SortKey

/-- Comparing by a list of keys is comparing by the first, then by the rest. -/
theorem compareDocuments_cons (key : SortKey) (rest : List SortKey) :
    compareDocuments (key :: rest) = compareLex key.compare (compareDocuments rest) := rfl

instance (keys : List SortKey) : TransCmp (compareDocuments keys) := by
  induction keys with
  | nil => exact { eq_swap := rfl, isLE_trans := fun _ _ => rfl }
  | cons key rest ih =>
    rw [compareDocuments_cons]
    infer_instance

/-- Documents that no key tells apart are alike under every one of the keys. -/
theorem compareDocuments_eq_eq {keys : List SortKey} {a b : Document} :
    compareDocuments keys a b = .eq ↔ ∀ key ∈ keys, key.compare a b = .eq := by
  induction keys with
  | nil => simp [compareDocuments]
  | cons key rest ih => simp [compareDocuments, Ordering.then_eq_eq, ih]

/-! ## Sorting -/

section Sorting

variable (keys : List SortKey)

/-- Sorting only rearranges. -/
theorem sortDocuments_perm (docs : List Document) : (sortDocuments keys docs).Perm docs := List.mergeSort_perm _ _

@[simp] theorem mem_sortDocuments {d : Document} {docs : List Document} : d ∈ sortDocuments keys docs ↔ d ∈ docs :=
  (sortDocuments_perm keys docs).mem_iff

/-- Of two documents one does not come after the other. -/
theorem isLE_total (a b : Document) :
    ((compareDocuments keys a b).isLE || (compareDocuments keys b a).isLE) = true := by
  have hswap : compareDocuments keys b a = (compareDocuments keys a b).swap := OrientedCmp.eq_swap
  rw [hswap]
  cases compareDocuments keys a b <;> rfl

theorem sortDocuments_eq (docs : List Document) :
    sortDocuments keys docs = docs.mergeSort fun a b => (compareDocuments keys a b).isLE := by
  have hle : ∀ a b, (compareDocuments keys a b != .gt) = (compareDocuments keys a b).isLE := by
    intro a b
    cases compareDocuments keys a b <;> rfl
  unfold sortDocuments
  simp only [hle]

/-- A document never comes after one that sorting puts behind it. -/
theorem pairwise_sortDocuments (docs : List Document) :
    (sortDocuments keys docs).Pairwise fun a b => (compareDocuments keys a b).isLE := by
  rw [sortDocuments_eq]
  exact List.pairwise_mergeSort (fun _ _ _ => TransCmp.isLE_trans) (isLE_total keys) docs

variable {keys} in
/-- What is the same of all documents is so of the documents in order. -/
theorem map_sortDocuments_of_replicate {α : Type} {f : Document → α} {docs : List Document} {count : Nat} {a : α}
    (h : docs.map f = List.replicate count a) : (sortDocuments keys docs).map f = List.replicate count a := by
  have hperm := (sortDocuments_perm keys docs).map f
  rw [h] at hperm
  exact List.perm_replicate.1 hperm

variable {keys} in
/-- The first document in order comes after no document. -/
theorem isLE_of_mem_take_one {docs : List Document} {d e : Document} (hd : d ∈ (sortDocuments keys docs).take 1)
    (he : e ∈ docs) :
    (compareDocuments keys d e).isLE := by
  have hsorted := pairwise_sortDocuments keys docs
  rw [← mem_sortDocuments keys] at he
  cases hlist : sortDocuments keys docs with
  | nil => simp [hlist] at he
  | cons first rest =>
    rw [hlist] at hd he hsorted
    obtain rfl : d = first := by simpa using hd
    rcases List.mem_cons.1 he with rfl | he
    · have hself : compareDocuments keys e e = .eq := ReflCmp.compare_self
      rw [hself]
      rfl
    · exact (List.pairwise_cons.1 hsorted).1 e he

variable {keys} in
/-- A list in order stays as it is. -/
theorem sortDocuments_of_pairwise {docs : List Document}
    (h : docs.Pairwise fun a b => (compareDocuments keys a b).isLE) :
    sortDocuments keys docs = docs := by
  refine List.mergeSort_of_pairwise (h.imp ?_)
  intro a b h
  cases hc : compareDocuments keys a b <;> simp_all

/-- A sorted list stays as it is. -/
theorem sortDocuments_sortDocuments (docs : List Document) :
    sortDocuments keys (sortDocuments keys docs) = sortDocuments keys docs :=
  sortDocuments_of_pairwise (pairwise_sortDocuments keys docs)

/-- Without keys, documents stay as they are. -/
@[simp] theorem sortDocuments_nil (docs : List Document) : sortDocuments [] docs = docs :=
  List.mergeSort_of_pairwise (List.pairwise_of_forall fun _ _ => rfl)

variable {keys}

/-- Documents made in two ways from the same things, so that they compare alike, are sorted alike. -/
theorem sortDocuments_map_map {α : Type} {f g : α → Document} {xs : List α}
    (h : ∀ x ∈ xs, ∀ y ∈ xs, compareDocuments keys (f x) (f y) = compareDocuments keys (g x) (g y)) :
    ∃ sorted : List α, sorted.Perm xs ∧ sortDocuments keys (xs.map f) = sorted.map f ∧
      sortDocuments keys (xs.map g) = sorted.map g := by
  refine ⟨xs.mergeSort fun x y => compareDocuments keys (f x) (f y) != .gt, List.mergeSort_perm _ _, ?_, ?_⟩
  · symm
    apply List.map_mergeSort
    exact fun x _ y _ => rfl
  · symm
    apply List.map_mergeSort
    exact fun x hx y hy => by rw [h x hx y hy]

/-- Sorting documents that the keys tell apart puts them in strict order. -/
theorem strict_sortDocuments {docs : List Document} (h : docs.Pairwise fun a b => compareDocuments keys a b ≠ .eq) :
    (sortDocuments keys docs).Pairwise fun a b => compareDocuments keys a b = .lt := by
  have hne : (sortDocuments keys docs).Pairwise fun a b => compareDocuments keys a b ≠ .eq :=
    (sortDocuments_perm keys docs).symm.pairwise h fun hab hba => hab (OrientedCmp.eq_symm hba)
  refine ((pairwise_sortDocuments keys docs).and hne).imp ?_
  intro a b hab
  exact (Ordering.isLE_iff_eq_lt_or_eq_eq.1 hab.1).resolve_right hab.2

/-- A list in strict order is sorted, however its documents were arranged before. -/
theorem sortDocuments_eq_of_perm {docs sorted : List Document} (hp : docs.Perm sorted)
    (hs : sorted.Pairwise fun a b => compareDocuments keys a b = .lt) : sortDocuments keys docs = sorted := by
  have hne : docs.Pairwise fun a b => compareDocuments keys a b ≠ .eq :=
    hp.symm.pairwise (hs.imp fun h e => by simp [h] at e) fun hab hba => hab (OrientedCmp.eq_symm hba)
  refine List.Perm.eq_of_pairwise (fun a b _ _ hab hba => ?_) (strict_sortDocuments hne) hs
    ((sortDocuments_perm keys docs).trans hp)
  exact absurd hba (OrientedCmp.not_lt_of_lt hab)

/-- Documents that the keys tell apart are sorted into one list, however they were arranged before. -/
theorem sortDocuments_congr {docs docs' : List Document} (hp : docs.Perm docs')
    (h : docs'.Pairwise fun a b => compareDocuments keys a b ≠ .eq) :
    sortDocuments keys docs = sortDocuments keys docs' :=
  sortDocuments_eq_of_perm (hp.trans (sortDocuments_perm keys docs').symm) (strict_sortDocuments h)

variable (keys) in
/-- Sorting puts a document behind the documents that it comes after, and before all others that stood behind it. -/
theorem sortDocuments_cons (d : Document) (docs : List Document) :
    ∃ before after, sortDocuments keys docs = before ++ after ∧ sortDocuments keys (d :: docs) = before ++ d :: after ∧
      (∀ b ∈ before, (compareDocuments keys d b).isLE = false) ∧
        ∀ b ∈ after, (compareDocuments keys d b).isLE = true := by
  obtain ⟨before, after, hcons, hrest, hbefore⟩ :=
    List.mergeSort_cons (fun _ _ _ => TransCmp.isLE_trans) (isLE_total keys) d docs
  rw [← sortDocuments_eq] at hcons hrest
  have hsorted := pairwise_sortDocuments keys (d :: docs)
  rw [hcons, List.pairwise_append, List.pairwise_cons] at hsorted
  exact ⟨before, after, hrest, hcons, fun b hb => by simpa using hbefore b hb, hsorted.2.1.1⟩

/-- There is one place to cut a list at so that something is false of all elements before the cut and true of all behind
it. -/
theorem append_cut {α : Type} {q : α → Bool} {front back before after : List α} (h : front ++ back = before ++ after)
    (hfront : ∀ a ∈ front, q a = false) (hback : ∀ a ∈ back, q a = true) (hbefore : ∀ a ∈ before, q a = false)
    (hafter : ∀ a ∈ after, q a = true) : front = before ∧ back = after := by
  have hcut {front back : List α} (hfront : ∀ a ∈ front, q a = false) (hback : ∀ a ∈ back, q a = true) :
      (front ++ back).filter q = back := by
    have hnone : front.filter q = [] := List.filter_eq_nil_iff.2 fun a ha => by simp [hfront a ha]
    rw [List.filter_append, hnone, List.filter_eq_self.2 hback, List.nil_append]
  have hsame : back = after := by rw [← hcut hfront hback, h, hcut hbefore hafter]
  rw [hsame, List.append_cancel_right_eq] at h
  exact ⟨h, hsame⟩

/-- Documents may be filtered before or after they are sorted: those that no key tells apart stay as they were. -/
theorem sortDocuments_filter (docs : List Document) (p : Document → Bool) :
    sortDocuments keys (docs.filter p) = (sortDocuments keys docs).filter p := by
  induction docs with
  | nil => simp [sortDocuments]
  | cons d rest ih =>
    obtain ⟨before, after, hrest, hcons, hbefore, hafter⟩ := sortDocuments_cons keys d rest
    rw [hrest, List.filter_append] at ih
    cases hp : p d with
    | false => rw [List.filter_cons_of_neg (by simp [hp]), hcons, List.filter_append,
        List.filter_cons_of_neg (by simp [hp]), ih]
    | true =>
      rw [List.filter_cons_of_pos hp, hcons, List.filter_append, List.filter_cons_of_pos hp]
      obtain ⟨front, back, hkept, hput, hfront, hback⟩ := sortDocuments_cons keys d (rest.filter p)
      have hcut : front ++ back = before.filter p ++ after.filter p := hkept.symm.trans ih
      have hbefore' : ∀ b ∈ before.filter p, (compareDocuments keys d b).isLE = false :=
        fun b hb => hbefore b (List.mem_filter.1 hb).1
      have hafter' : ∀ b ∈ after.filter p, (compareDocuments keys d b).isLE = true :=
        fun b hb => hafter b (List.mem_filter.1 hb).1
      obtain ⟨rfl, rfl⟩ := append_cut hcut hfront hback hbefore' hafter'
      exact hput

end Sorting

/-! ## The first of several lists

Where the keys tell apart all documents that differ, there is one sorted list of them, and the first documents of a
union are among the first of each part: a part that is cut where it is long enough gives the same beginning. -/

/-- Of the documents, the keys tell apart all that differ. A document may be there more than once. -/
def Separates (keys : List SortKey) (docs : List Document) : Prop :=
  ∀ a ∈ docs, ∀ b ∈ docs, compareDocuments keys a b = .eq → a = b

theorem Separates.subset {keys : List SortKey} {docs some : List Document} (h : Separates keys docs)
    (hs : some ⊆ docs) :
    Separates keys some :=
  fun a ha b hb => h a (hs ha) b (hs hb)

section Union

variable {keys : List SortKey}

/-- There is one list in order of documents that the keys separate. -/
theorem sortDocuments_unique {docs sorted : List Document} (h : Separates keys docs) (hp : docs.Perm sorted)
    (hs : sorted.Pairwise fun a b => (compareDocuments keys a b).isLE) : sortDocuments keys docs = sorted := by
  refine List.Perm.eq_of_pairwise ?_ (pairwise_sortDocuments keys docs) hs ((sortDocuments_perm keys docs).trans hp)
  intro a b ha hb hab hba
  exact h a ((mem_sortDocuments keys).1 ha) b (hp.mem_iff.2 hb) (OrientedCmp.isLE_antisymm hab hba)

/-- However documents that the keys separate are arranged, they are sorted into one list. -/
theorem sortDocuments_eq_of_separates {docs docs' : List Document} (h : Separates keys docs) (hp : docs.Perm docs') :
    sortDocuments keys docs = sortDocuments keys docs' :=
  sortDocuments_unique h (hp.trans (sortDocuments_perm keys docs').symm) (pairwise_sortDocuments keys docs')

/-- Sorting two lists together is sorting each and merging them. -/
theorem sortDocuments_append {docs docs' : List Document} (h : Separates keys (docs ++ docs')) :
    sortDocuments keys (docs ++ docs') =
      (sortDocuments keys docs).merge (sortDocuments keys docs') fun a b => (compareDocuments keys a b).isLE := by
  refine sortDocuments_unique h ?_ ?_
  · exact ((sortDocuments_perm keys docs).append (sortDocuments_perm keys docs')).symm.trans
      (List.merge_perm_append _).symm
  · exact List.pairwise_merge (fun a b c => TransCmp.isLE_trans) (isLE_total keys) _ _
      (pairwise_sortDocuments keys docs)
      (pairwise_sortDocuments keys docs')

/-- The first elements of two merged lists are among the first of each. -/
theorem take_merge_take {α : Type} (le : α → α → Bool) {count left right : Nat} (hleft : count ≤ left)
    (hright : count ≤ right) (xs ys : List α) :
    ((xs.take left).merge (ys.take right) le).take count = (xs.merge ys le).take count := by
  induction count generalizing left right xs ys with
  | zero => rfl
  | succ count ih =>
    obtain ⟨left, rfl⟩ : ∃ n, left = n + 1 := ⟨left - 1, by omega⟩
    obtain ⟨right, rfl⟩ : ∃ n, right = n + 1 := ⟨right - 1, by omega⟩
    cases xs with
    | nil => rw [List.take_nil, List.nil_merge, List.nil_merge, List.take_take, Nat.min_eq_left hright]
    | cons x xs =>
      cases ys with
      | nil => rw [List.take_nil, List.merge_right, List.merge_right, List.take_take, Nat.min_eq_left hleft]
      | cons y ys =>
        have hx := ih (by omega : count ≤ left) (by omega : count ≤ right + 1) xs (y :: ys)
        have hy := ih (by omega : count ≤ left + 1) (by omega : count ≤ right) (x :: xs) ys
        rw [List.take_succ_cons] at hx hy
        rw [List.take_succ_cons, List.take_succ_cons, List.cons_merge_cons, List.cons_merge_cons]
        split
        · rw [List.take_succ_cons, List.take_succ_cons, hx]
        · rw [List.take_succ_cons, List.take_succ_cons, hy]

/-- Lists whose parts have the same first documents have the same first documents. -/
theorem take_sortDocuments_flatMap {α : Type} {f g : α → List Document} {count : Nat} {xs : List α}
    (hf : Separates keys (xs.flatMap f)) (hg : Separates keys (xs.flatMap g))
    (h : ∀ x ∈ xs, (sortDocuments keys (f x)).take count = (sortDocuments keys (g x)).take count) :
    (sortDocuments keys (xs.flatMap f)).take count = (sortDocuments keys (xs.flatMap g)).take count := by
  induction xs with
  | nil => rfl
  | cons x rest ih =>
    rw [List.flatMap_cons] at hf hg ⊢
    have hrest := ih (hf.subset (List.subset_append_right _ _)) (hg.subset (List.subset_append_right _ _))
      fun y hy => h y (List.mem_cons_of_mem x hy)
    have hle := Nat.le_refl count
    rw [List.flatMap_cons, sortDocuments_append hf, sortDocuments_append hg, ← take_merge_take _ hle hle,
      h x List.mem_cons_self, hrest, take_merge_take _ hle hle]

/-- The first documents in order are those of a list that was cut behind them. -/
theorem take_sortDocuments_take {docs : List Document} {count cap : Nat} (h : count ≤ cap) :
    (sortDocuments keys ((sortDocuments keys docs).take cap)).take count = (sortDocuments keys docs).take count := by
  have hsorted := (pairwise_sortDocuments keys docs).sublist (List.take_sublist cap _)
  rw [sortDocuments_of_pairwise hsorted, List.take_take, Nat.min_eq_left h]

/-- Of documents that the keys tell apart, some begin as all do exactly where the first of all are among them. -/
theorem take_sortDocuments_eq_iff {docs some : List Document}
    (hdocs : docs.Pairwise fun a b => compareDocuments keys a b ≠ .eq)
    (hsome : some.Nodup) (hsub : some ⊆ docs) (count : Nat) :
    (sortDocuments keys some).take count = (sortDocuments keys docs).take count ↔
      ∀ d ∈ (sortDocuments keys docs).take count, d ∈ some := by
  classical
  constructor
  · intro h d hd
    rw [← h] at hd
    exact (mem_sortDocuments keys).1 (List.mem_of_mem_take hd)
  · intro h
    have hnodup : docs.Nodup := by
      refine hdocs.imp ?_
      rintro a b hab rfl
      exact hab ReflCmp.compare_self
    have hperm : some.Perm (docs.filter (· ∈ some)) := by
      refine (List.perm_ext_iff_of_nodup hsome (hnodup.filter _)).2 fun d => ?_
      rw [List.mem_filter, decide_eq_true_eq]
      exact ⟨fun hd => ⟨hsub hd, hd⟩, And.right⟩
    have hfirst : ((sortDocuments keys docs).take count).filter (· ∈ some) = (sortDocuments keys docs).take count :=
      List.filter_eq_self.2 fun d hd => decide_eq_true (h d hd)
    rw [sortDocuments_congr hperm (hdocs.filter _), sortDocuments_filter]
    generalize sortDocuments keys docs = sorted at hfirst
    have hsplit : sorted.filter (· ∈ some) = sorted.take count ++ (sorted.drop count).filter (· ∈ some) := by
      rw [← hfirst, ← List.filter_append, List.take_append_drop]
    rw [hsplit]
    by_cases hlength : count ≤ sorted.length
    · rw [List.take_append_of_le_length (by simp [hlength]), List.take_take, Nat.min_self]
    · rw [List.drop_of_length_le (Nat.le_of_not_le hlength), List.filter_nil, List.append_nil, List.take_take,
        Nat.min_self]

end Union

end FeedQuery
