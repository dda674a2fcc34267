import Mathlib.Algebra.Order.BigOperators.Group.List
import Mathlib.Algebra.Order.Ring.Nat
import FeedQuery.Proofs.Interpretation
import FeedQuery.Proofs.Selection

/-!
# What follows reach

The live follows of an account name those whom it follows (`PlanRequest.followees`). A plan joins every name with
documents that hold it as their owner (`PlanRequest.offered`), and with no more of them than a cap: the first in the
order of the join (`PlanRequest.firsts`). Only then does the tail of the plan filter by likes, score and sort
(`PlanRequest.documents_firsts`).
-/

namespace FeedQuery

open Stage

namespace Lookup

/-- Of the keys with one text the first is looked up. -/
theorem find?_distinct {text : String} {seen : List String} (h : text ∉ seen) (keys : List Key) :
    ((distinct seen keys).find? fun key => key.text == text) = keys.find? fun key => key.text == text := by
  fun_induction distinct seen keys with
  | case1 => rfl
  | case2 seen key rest hseen ih =>
    have hne : key.text ≠ text := fun ht => h (ht ▸ hseen)
    rw [List.find?_cons_of_neg (by simpa using hne), ih h]
  | case3 seen key rest hseen ih =>
    by_cases ht : key.text = text
    · rw [List.find?_cons_of_pos (by simpa using ht), List.find?_cons_of_pos (by simpa using ht)]
    · rw [List.find?_cons_of_neg (by simpa using ht), List.find?_cons_of_neg (by simpa using ht),
        ih (by simp [h, Ne.symm ht])]

variable (l : Lookup) (docs : List Document)

/-- The keys that a join of documents looks up, one for each that a document holds. Of keys with one text the first
stands for all. -/
def asked : List Key :=
  (docs.flatMap (keysAt l.localPath)).filterMap fun key =>
    (docs.flatMap (keysAt l.localPath)).find? fun first => first.text == key.text

/-- Where no two keys have one text, every key stands for itself. -/
theorem asked_eq {l : Lookup} {docs : List Document}
    (h : ∀ a ∈ docs.flatMap (keysAt l.localPath), ∀ b ∈ docs.flatMap (keysAt l.localPath), a.text = b.text → a = b) :
    l.asked docs = docs.flatMap (keysAt l.localPath) := by
  unfold asked
  generalize docs.flatMap (keysAt l.localPath) = keys at h
  have hself : ∀ key ∈ keys, (keys.find? fun first => first.text == key.text) = some key := by
    intro key hkey
    cases hfound : keys.find? fun first => first.text == key.text with
    | none => exact absurd (List.find?_eq_none.1 hfound key hkey) (by simp)
    | some first =>
      have htext := List.find?_some hfound
      rw [h first (List.mem_of_find?_eq_some hfound) key hkey (beq_iff_eq.1 htext)]
  rw [List.filterMap_congr hself, List.filterMap_some]

variable {l} in
/-- With a cap, a join finds the first candidates of every key that it looks up. -/
theorem flatMap_found {cap : Nat} (hcap : l.cap = some cap) (store : Store) (others : Collaborators) :
    docs.flatMap (l.found (l.matching store others docs)) =
      (l.asked docs).flatMap fun key => (l.candidates store [key.scalar]).take cap := by
  have hall : docs.flatMap (l.found (l.matching store others docs)) =
      (docs.flatMap (keysAt l.localPath)).flatMap fun key => l.matching store others docs key.text :=
        List.flatMap_assoc.symm
  rw [hall, asked, List.filterMap_eq_flatMap_toList]
  refine Eq.trans (List.flatMap_congr fun key _ => ?_) List.flatMap_assoc.symm
  rw [matching_eq_partners, partners, hcap]
  dsimp only
  rw [keysOf, find?_distinct (List.not_mem_nil (a := key.text))]
  cases (docs.flatMap (keysAt l.localPath)).find? fun first => first.text == key.text with
  | none => rfl
  | some first => simp

end Lookup

namespace PlanRequest

variable {store : Store} {others : Collaborators} (q : PlanRequest)

/-- What the live follows of an account name as followed, once for each time that one of them names it. -/
def followees (store : Store) (follower : Uuid) : List Lookup.Key := q.fanOut.asked (q.follows store follower)

/-- Whether a document holds a name as its owner. -/
def owns (name : Lookup.Key) (d : Document) : Bool := name.scalar.holdsAt (d.get? q.collection.owner)

/-- The documents of the collection with an owner that the document filter accepts and that come after the cursor; where
the order reads a score, the cursor is left to the tail. -/
def offered (store : Store) (name : Lookup.Key) : List Document :=
  (store.docs q.collection).filter fun d =>
    q.documentFilter.accepts d && (q.isScored || q.bound.accepts d) && q.owns name d

/-- How many documents of one owner a plan takes at most. -/
def share : Nat := max (q.window.limit?.getD 0) q.followingCap

/-- The first documents, in the order of the join, of each that is followed. -/
def firsts (store : Store) (follower : Uuid) (count : Nat) : List Document :=
  (q.followees store follower).flatMap fun name => (sortDocuments q.fanOut.sort (q.offered store name)).take count

theorem candidates_fanOut (store : Store) (name : Lookup.Key) :
    q.fanOut.candidates store [name.scalar] = sortDocuments q.fanOut.sort (q.offered store name) := by
  have hfilter : (store.docs q.collection).filter (fun d => q.joinFilter.accepts d &&
      [name.scalar].any fun value => value.holdsAt (d.get? q.collection.owner)) = q.offered store name := by
    simp [offered, owns, accepts_joinFilter]
  exact congrArg (sortDocuments q.fanOut.sort) hfilter

theorem firsts_subset (store : Store) (follower : Uuid) (count : Nat) :
    q.firsts store follower count ⊆ (q.followees store follower).flatMap (q.offered store) := by
  intro d hd
  obtain ⟨name, hname, hd⟩ := List.mem_flatMap.1 hd
  exact List.mem_flatMap.2 ⟨name, hname, (mem_sortDocuments _).1 (List.mem_of_mem_take hd)⟩

theorem flatMap_offered_subset (store : Store) (names : List Lookup.Key) :
    names.flatMap (q.offered store) ⊆ store.docs q.collection := by
  intro d hd
  obtain ⟨name, -, hd⟩ := List.mem_flatMap.1 hd
  exact (List.mem_filter.1 hd).1

/-- Of each that is followed there are no more documents than are counted. -/
theorem length_firsts (store : Store) (follower : Uuid) (count : Nat) : (q.firsts store follower count).length =
    ((q.followees store follower).map fun name => min count (q.offered store name).length).sum := by
  rw [firsts, List.length_flatMap]
  refine congrArg List.sum (List.map_congr_left fun name _ => ?_)
  rw [List.length_take, (sortDocuments_perm _ _).length_eq]

/-- The first documents of each are as many as all exactly where nobody has more. -/
theorem length_firsts_eq_iff (store : Store) (follower : Uuid) (count : Nat) :
    (q.firsts store follower count).length = ((q.followees store follower).flatMap (q.offered store)).length ↔
      ∀ name ∈ q.followees store follower, (q.offered store name).length ≤ count := by
  rw [length_firsts, List.length_flatMap]
  constructor
  · intro h name hname
    by_contra hlt
    refine absurd h (Nat.ne_of_lt (List.sum_lt_sum _ _ (fun other _ => Nat.min_le_right _ _) ⟨name, hname, ?_⟩))
    omega
  · intro h
    exact congrArg List.sum (List.map_congr_left fun name hname => Nat.min_eq_right (h name hname))

variable {q}

/-- Through follows, a plan yields what its tail makes of the first documents of each that is followed. -/
theorem results_firsts {follower : Uuid} (hs : q.strategy = .graphFanOut (some follower)) :
    q.documents store others = results store others q.tail (q.firsts store follower q.share) := by
  have hfound : (q.follows store follower).flatMap
      (q.fanOut.found (q.fanOut.matching store others (q.follows store follower))) =
      q.firsts store follower q.share := by
    rw [Lookup.flatMap_found _ rfl]
    simp only [candidates_fanOut]
    rfl
  rw [documents_graph hs, hfound]

/-- So it filters these by likes, scores them, puts them in order after the cursor and cuts them. -/
theorem documents_firsts (hids : Identified (store.docs q.collection)) {follower : Uuid}
    (hs : q.strategy = .graphFanOut (some follower)) : q.documents store others = results store others q.window.stages
      (sortDocuments q.cursorPlan.sortKeys
        ((((q.firsts store follower q.share).filter (q.passes store)).map q.dress).filter
        fun d => !q.isScored || q.bound.accepts d)) := by
  rw [results_firsts hs, q.results_tail]
  exact fun d hd => hids.isSome d (q.flatMap_offered_subset store _ (q.firsts_subset store follower _ hd))

section Unscored

variable (hscored : q.isScored = false)
include hscored

/-- Where the order reads no score, the join has the order of the plan. -/
theorem sort_fanOut : q.fanOut.sort = q.cursorPlan.sortKeys := by
  rw [fanOut, hscored]
  rfl

/-- There a beginning of all documents in order is found among the first of each that is followed, if these are as many,
or all. -/
theorem take_sortDocuments_firsts (hids : Identified (store.docs q.collection)) (hr : q.isReactionOrder = false)
    {follower : Uuid} {count cap : Nat}
    (h : ∀ name ∈ q.followees store follower, count ≤ cap ∨ (q.offered store name).length ≤ cap) :
    (sortDocuments q.cursorPlan.sortKeys (q.firsts store follower cap)).take count =
      (sortDocuments q.cursorPlan.sortKeys ((q.followees store follower).flatMap (q.offered store))).take count := by
  have hseparates : Separates q.cursorPlan.sortKeys (store.docs q.collection) :=
    hids.separates (q.idKey_mem_sortKeys hr)
  have hoffered := hseparates.subset (q.flatMap_offered_subset store (q.followees store follower))
  refine take_sortDocuments_flatMap (hoffered.subset (q.firsts_subset store follower cap)) hoffered fun name hname => ?_
  rw [sort_fanOut hscored]
  rcases h name hname with hcount | hall
  · exact take_sortDocuments_take hcount
  · have hcut : (sortDocuments q.cursorPlan.sortKeys (q.offered store name)).take cap =
        sortDocuments q.cursorPlan.sortKeys (q.offered store name) :=
      List.take_of_length_le (Nat.le_trans (Nat.le_of_eq (sortDocuments_perm _ _).length_eq) hall)
    rw [hcut, sortDocuments_sortDocuments]

/-- There the bound accepts what comes strictly after the document that the cursor was made of. -/
theorem accepts_bound_iff_of_unscored (hr : q.isReactionOrder = false) (hids : Identified (store.docs q.collection))
    {last d : Document} (hlast : (q.cursorPlan.place? last).isSome = true)
    (hplace : q.window.cursor? = q.cursorPlan.place? last) (hd : d ∈ store.docs q.collection)
    (haccepts : q.documentFilter.accepts d = true) :
    q.bound.accepts d = true ↔ compareDocuments q.cursorPlan.sortKeys last d = .lt := by
  obtain ⟨c, hc⟩ := Option.isSome_iff_exists.1 hlast
  obtain ⟨u, hu⟩ := hids.exists_id? hd
  have hdplace := q.isSome_place?_dress (fun h => by simp [hscored] at h) hr hu haccepts (.refl _ d)
  rw [(q.alike_of_unscored hscored hr ((q.agreesApart_dress d).mono (by simp))).place?] at hdplace
  rw [bound, hplace, hc]
  exact CursorPlan.accepts_bound_iff q.isNumeric_cursorPlan hc hdplace

end Unscored

variable (q) in
/-- What an account follows is kept apart: no two live follows name the same, and no document of the collection has two
of the names as its owners. -/
structure Apart (store : Store) (follower : Uuid) : Prop where
  distinct : (q.followees store follower).Nodup
  sole : ∀ d ∈ store.docs q.collection, ∀ name ∈ q.followees store follower, ∀ other ∈ q.followees store follower,
    q.owns name d = true → q.owns other d = true → name = other

section Apart

variable {follower : Uuid} (h : q.Apart store follower) (hids : Identified (store.docs q.collection))
include h hids

/-- There documents of different names are different. -/
theorem Apart.identified_flatMap {f : Lookup.Key → List Document} (hf : ∀ name, Identified (f name))
    (hsub : ∀ name, f name ⊆ q.offered store name) : Identified ((q.followees store follower).flatMap f) := by
  constructor
  · intro d hd
    obtain ⟨name, -, hd⟩ := List.mem_flatMap.1 hd
    exact (hf name).isSome d hd
  · refine List.pairwise_flatMap.2 ⟨fun name _ => (hf name).distinct, h.distinct.imp_of_mem ?_⟩
    intro name other hname hother hne d hd e he hde
    obtain ⟨hdmem, hdowns⟩ := List.mem_filter.1 (hsub name hd)
    obtain ⟨hemem, heowns⟩ := List.mem_filter.1 (hsub other he)
    obtain rfl := hids.eq_of_id? hdmem hemem hde
    simp only [Bool.and_eq_true] at hdowns heowns
    exact hne (h.sole d hdmem name hname other hother hdowns.2 heowns.2)

theorem Apart.identified_offered : Identified ((q.followees store follower).flatMap (q.offered store)) :=
  h.identified_flatMap hids (fun _ => hids.filter _) fun _ => List.Subset.refl _

theorem Apart.identified_firsts (count : Nat) : Identified (q.firsts store follower count) := by
  refine h.identified_flatMap hids (fun name => ?_) fun name d hd => (mem_sortDocuments _).1 (List.mem_of_mem_take hd)
  have hoffered : Identified (q.offered store name) := hids.filter _
  exact (hoffered.perm (sortDocuments_perm _ _).symm).sublist (List.take_sublist _ _)

end Apart

end PlanRequest

end FeedQuery
