import Mathlib.Algebra.Order.Floor.Div
import FeedQuery.Proofs.Interpretation
import FeedQuery.Proofs.Soundness

/-!
# Listings

A page of a listing comes from two plans: one yields the documents of the page, the other is counted and has no window.
Where documents are not reached through follows, the window does nothing but cut: what the first plan yields is the part
of what the second yields that the number of the page names (`Prepared.documents_offset`). So the pages of a listing are
the pages of one list, and the total is its length (`listing_partitions`).
-/

namespace FeedQuery

open Document (AgreesApart)
open Stage

/-! ## Numbered pages of a list -/

namespace ListPage

/-- The elements of a list that are on a numbered page; pages are counted from one. -/
def slice {α : Type} (size number : Nat) (xs : List α) : List α := (xs.drop ((number - 1) * size)).take size

variable {α : Type} (xs : List α)

/-- The first pages one after the other are the beginning of the list. -/
theorem flatMap_slice (size count : Nat) :
    ((List.range count).flatMap fun i => slice size (i + 1) xs) = xs.take (count * size) := by
  induction count with
  | zero => simp
  | succ count ih =>
    rw [List.range_succ, List.flatMap_append, ih, List.flatMap_singleton, Nat.succ_mul, List.take_add]
    rfl

theorem length_le_ceilDiv_mul {size : Nat} (hsize : 0 < size) : xs.length ≤ xs.length ⌈/⌉ size * size := by
  have := le_smul_ceilDiv (b := xs.length) hsize
  rwa [smul_eq_mul, Nat.mul_comm] at this

/-- All pages one after the other are the list. -/
theorem flatMap_slice_ceilDiv {size : Nat} (hsize : 0 < size) :
    ((List.range (xs.length ⌈/⌉ size)).flatMap fun i => slice size (i + 1) xs) = xs := by
  rw [flatMap_slice, List.take_of_length_le (length_le_ceilDiv_mul xs hsize)]

/-- Beyond the last page there is nothing. -/
theorem slice_eq_nil {size number : Nat} (hsize : 0 < size) (h : xs.length ⌈/⌉ size < number) :
    slice size number xs = [] := by
  have hlast : xs.length ⌈/⌉ size * size ≤ (number - 1) * size := Nat.mul_le_mul_right size (by omega)
  rw [slice, List.drop_of_length_le ((length_le_ceilDiv_mul xs hsize).trans hlast), List.take_nil]

end ListPage

/-! ## What a page is cut out of -/

namespace Prepared

variable (p : Prepared)

/-- Where documents are reached in another way than through follows, no stage before the tail depends on which of them a
listing shows. -/
theorem exists_core_eq (hgraph : ∀ follower, p.strategy ≠ .graphFanOut follower)
    (hlikes : p.strategy ≠ .reactionFanOut none) (followingCap : Nat) : ∃ stages,
      (p.request .all followingCap).core = stages ++ (p.request .all followingCap).tail ∧
      ∀ skip limit, (p.request (.offset skip limit) followingCap).core =
        stages ++ (p.request (.offset skip limit) followingCap).tail := by
  obtain ⟨collection, criteria, visibility, strategy, allowed⟩ := p
  cases strategy with
  | membership named => exact ⟨[_, _, _, _], rfl, fun _ _ => rfl⟩
  | taskOutput concept => exact ⟨[_, _, _, _], rfl, fun _ _ => rfl⟩
  | graphFanOut follower => exact absurd rfl (hgraph follower)
  | reactionFanOut liker =>
    cases liker with
    | none => exact absurd rfl hlikes
    | some liker =>
      exact ⟨_ ++ [_, _], (List.append_assoc _ [_, _] _).symm, fun _ _ => (List.append_assoc _ [_, _] _).symm⟩
  | direct => exact ⟨[_], rfl, fun _ _ => rfl⟩

/-- A page of a listing comes from the stages that are counted, and then the window. -/
theorem core_offset (hgraph : ∀ follower, p.strategy ≠ .graphFanOut follower)
    (hlikes : p.strategy ≠ .reactionFanOut none) (skip limit followingCap : Nat) :
    (p.request (.offset skip limit) followingCap).core =
      (p.request .all followingCap).core ++ [.skip skip, .limit limit] := by
  have htail : (p.request (.offset skip limit) followingCap).tail =
      (p.request .all followingCap).tail ++ [.skip skip, .limit limit] := (List.append_assoc _ [Stage.sort _] _).symm
  obtain ⟨stages, hall, hoffset⟩ := p.exists_core_eq hgraph hlikes followingCap
  rw [hall, hoffset, htail, List.append_assoc]

/-- What is on a page of a listing is the part of all documents that the window names. -/
theorem documents_offset (hgraph : ∀ follower, p.strategy ≠ .graphFanOut follower) (store : Store)
    (others : Collaborators) (skip limit followingCap : Nat) :
    (p.request (.offset skip limit) followingCap).documents store others =
      (((p.request .all followingCap).documents store others).drop skip).take limit := by
  by_cases hlikes : p.strategy = .reactionFanOut none
  · have hnever (window : Window) : (p.request window followingCap).documents store others = [] := by
      have hcore : (p.request window followingCap).core = [.filter .never] := by
        rw [PlanRequest.core, show (p.request window followingCap).strategy = .reactionFanOut none from hlikes]
        rfl
      rw [PlanRequest.documents_of_never _ store others hcore, results_empty]
    rw [hnever, hnever, List.drop_nil, List.take_nil]
  · have hroot : (p.request (.offset skip limit) followingCap).root = (p.request .all followingCap).root := rfl
    rw [PlanRequest.documents, p.core_offset hgraph hlikes, hroot, results_append, results_skip, results_limit]
    rfl

/-- Serving a page of a listing is enriching the documents of the page, and counting all. -/
theorem run_serveList (settings : Settings) (store : Store) (others : Collaborators) (number size : Nat) :
    (Service.serveList settings number size (some p)).run store others = .assemble
      (results store others (enrichment p.collection p.visibility.viewer)
        ((p.request (.offset ((number - 1) * size) size) settings.followingCap).documents store others))
      ((p.request .all settings.followingCap).documents store others).length number size := by
  unfold Service.serveList
  simp only [Exchange.run_bind, Exchange.run_pure, run_execute, Pipeline.run_count]
  rfl

end Prepared

section Listing

variable {settings : Settings} {store : Store} {others : Collaborators} {r : ListRequest} {size : Nat} {c : Criteria}

/-- All documents that a listing shows, on one page or another. -/
def ListRequest.result (r : ListRequest) (settings : Settings) (store : Store) (others : Collaborators) (c : Criteria) :
    List Document :=
  match (Service.prepare settings r.collection c r.viewer r.softDelete).run store others with
  | some p => (p.request .all settings.followingCap).documents store others
  | none => []

/-- The numbered page of a listing. -/
def ListRequest.pageAt (r : ListRequest) (settings : Settings) (store : Store) (others : Collaborators) (c : Criteria)
    (size number : Nat) : ListPage :=
  (Service.serveList settings number size
    ((Service.prepare settings r.collection c r.viewer r.softDelete).run store others)).run store others

/-- A request for a listing is answered with the page that it names. -/
theorem lists_iff (hfeed : r.collection.isFeed = true) (hsize : Service.pageSize settings r.pageSize = .ok size)
    (hc : Criteria.compile r.filters r.sorts = .ok c) {number : Nat} (hnumber : Service.pageNumber r.page = .ok number)
    {page : ListPage} : Lists settings store others r page ↔ page = r.pageAt settings store others c size number := by
  have hcheck : Service.checkFeed r.collection = .ok () := if_pos hfeed
  have hlist : Service.list settings r = .ok (do
      let prepared ← Service.prepare settings r.collection c r.viewer r.softDelete
      Service.serveList settings number size prepared) := by
    unfold Service.list
    simp only [hcheck, hnumber, hsize, hc]
    rfl
  unfold Lists
  simp only [hlist, Except.ok.injEq, exists_eq_left', Exchange.run_bind]
  exact eq_comm

/-- A page shows its slice of the result, with fields of their own that enrichment writes, and counts the result. -/
theorem exists_pageAt (settings : Settings) (store : Store) (others : Collaborators)
    (hgraph : ∀ follower, Strategy.select c r.viewer ≠ .graphFanOut follower) (size number : Nat) :
    ∃ docs, r.pageAt settings store others c size number =
        .assemble docs (r.result settings store others c).length number size ∧
      List.Forall₂ (AgreesApart (decorated r.collection r.viewer))
        (ListPage.slice size number (r.result settings store others c)) docs := by
  unfold ListRequest.pageAt ListRequest.result
  cases hp : (Service.prepare settings r.collection c r.viewer r.softDelete).run store others with
  | none => exact ⟨[], rfl, by simp [ListPage.slice]⟩
  | some p =>
    have hstrategy := Service.strategy_of_prepare hp
    obtain ⟨f, hf, hagrees⟩ := enrichment_decorates p.collection p.visibility.viewer store others
      (ListPage.slice size number ((p.request .all settings.followingCap).documents store others))
    refine ⟨_, p.run_serveList settings store others number size, ?_⟩
    rw [p.documents_offset (hstrategy ▸ hgraph), ← ListPage.slice, hf, ← Service.collection_of_prepare hp,
      ← Service.viewer_of_prepare hp]
    exact List.forall₂_map_right_iff.2 (List.forall₂_same.2 fun d _ => hagrees d)

/-- The ids of the documents on a page are those of its slice. -/
theorem map_id?_of_forall₂ {collection : Collection} {viewer : Option Uuid} {docs shown : List Document}
    (h : List.Forall₂ (AgreesApart (decorated collection viewer)) docs shown) :
    shown.map Document.id? = docs.map Document.id? := by
  induction h with
  | nil => rfl
  | cons hd _ ih => rw [List.map_cons, List.map_cons, id?_of_decorated hd, ih]

/-- The pages of a listing whose documents are not reached through follows are those of one list, in three parts.
1. Every request for a page is answered with the page of that number.
2. Every page gives the length of the list as the total, and shows the documents of the list that its number names, in
   their order and by their identifiers, with changes only in fields that enrichment writes.
3. Where a page may have documents, the number of pages is as many as the list fills; these pages one after the other
   show the list, and every page beyond them is empty. -/
theorem listing_partitions (hfeed : r.collection.isFeed = true)
    (hsize : Service.pageSize settings r.pageSize = .ok size) (hc : Criteria.compile r.filters r.sorts = .ok c)
    (hgraph : ∀ follower, Strategy.select c r.viewer ≠ .graphFanOut follower) :
    ∃ (result : List Document) (pages : Nat → ListPage),
      (∀ asked number, Service.pageNumber asked = .ok number → ∀ page,
        Lists settings store others { r with page := asked } page ↔ page = pages number) ∧
      (∀ number, (pages number).total = result.length ∧
        (pages number).docs.map Document.id? = (ListPage.slice size number result).map Document.id? ∧
        List.Forall₂ (AgreesApart (decorated r.collection r.viewer)) (ListPage.slice size number result)
          (pages number).docs) ∧
      (0 < size → (∀ number, (pages number).pages = result.length ⌈/⌉ size) ∧
        ((List.range (result.length ⌈/⌉ size)).flatMap fun i => (pages (i + 1)).docs).map Document.id? =
          result.map Document.id? ∧
        ∀ number, result.length ⌈/⌉ size < number → (pages number).docs = []) := by
  have hshows (number : Nat) := exists_pageAt settings store others hgraph size number
  have hslice (number : Nat) : (r.pageAt settings store others c size number).docs.map Document.id? =
      (ListPage.slice size number (r.result settings store others c)).map Document.id? := by
    obtain ⟨docs, hpage, hdocs⟩ := hshows number
    rw [hpage]
    exact map_id?_of_forall₂ hdocs
  refine ⟨r.result settings store others c, r.pageAt settings store others c size, ?_, ?_, ?_⟩
  · intro asked number hnumber page
    exact lists_iff (r := { r with page := asked }) hfeed hsize hc hnumber
  · intro number
    obtain ⟨docs, hpage, hdocs⟩ := hshows number
    refine ⟨by rw [hpage]; rfl, hslice number, ?_⟩
    rw [hpage]
    exact hdocs
  · intro hpos
    refine ⟨?_, ?_, ?_⟩
    · intro number
      obtain ⟨docs, hpage, -⟩ := hshows number
      rw [hpage, ListPage.assemble, Nat.max_eq_left hpos]
      rfl
    · rw [List.map_flatMap]
      simp only [hslice]
      rw [← List.map_flatMap, ListPage.flatMap_slice_ceilDiv _ hpos]
    · intro number hnumber
      have hids := hslice number
      rw [ListPage.slice_eq_nil _ hpos hnumber] at hids
      exact List.map_eq_nil_iff.1 hids

/-- A listing of the members of the small store's collection, one on each page. -/
def Sample.listing : ListRequest :=
  ⟨.creations, none, ["collection;00000000-0000-0000-0000-000000000005"], [], none, some 1, .exclude⟩

/-- The theorem at that listing. -/
theorem listing_partitions_sample :
    ∃ (result : List Document) (pages : Nat → ListPage),
      (∀ asked number, Service.pageNumber asked = .ok number → ∀ page,
        Lists {} Sample.store .absent { Sample.listing with page := asked } page ↔ page = pages number) ∧
      (∀ number, (pages number).total = result.length ∧
        (pages number).docs.map Document.id? = (ListPage.slice 1 number result).map Document.id? ∧
        List.Forall₂ (AgreesApart (decorated .creations none)) (ListPage.slice 1 number result) (pages number).docs) ∧
      (∀ number, (pages number).pages = result.length ⌈/⌉ (1 : Nat)) ∧
      ((List.range (result.length ⌈/⌉ (1 : Nat))).flatMap fun i => (pages (i + 1)).docs).map Document.id? =
        result.map Document.id? ∧
      ∀ number, result.length ⌈/⌉ (1 : Nat) < number → (pages number).docs = [] := by
  have hcompile : Criteria.compile Sample.listing.filters Sample.listing.sorts =
      .ok ⟨[⟨.collection, [.id (Sample.uuid 5)]⟩], none, false, false⟩ := rfl
  obtain ⟨result, pages, hanswers, hslices, hall⟩ :=
    @listing_partitions {} Sample.store .absent Sample.listing 1 _ rfl rfl hcompile fun follower h =>
      Strategy.noConfusion h
  exact ⟨result, pages, hanswers, hslices, hall Nat.one_pos⟩

end Listing

end FeedQuery
