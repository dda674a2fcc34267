import FeedQuery.Proofs.FollowedFeed
import FeedQuery.Proofs.Listing

/-!
# Listings of what one follows

The join of a follow with documents has a cap, and a listing has no page size to raise it where it is counted, nor the
number of the page where a page is cut. So a listing of what an account follows counts no more documents of each that is
followed than the cap, and its pages are those of the first documents of each (`followed_listing_counts`). What is
listed is everything exactly where nobody has more documents than the cap; the first pages are right in any case, and a
page may show more documents than there are in total (`followed_listing_overruns`).
-/

namespace FeedQuery

open Stage

/-- What is on a page depends on the list up to the end of the page. -/
theorem ListPage.slice_congr {α : Type} {size number : Nat} {xs ys : List α}
    (h : xs.take ((number - 1) * size + size) = ys.take ((number - 1) * size + size)) :
    slice size number xs = slice size number ys := by
  have hslice (zs : List α) : slice size number zs =
      (zs.take ((number - 1) * size + size)).drop ((number - 1) * size) := by
    rw [List.drop_take, Nat.add_sub_cancel_left]
    rfl
  rw [hslice, hslice, h]

section FollowedListing

variable {settings : Settings} {store : Store} {others : Collaborators} {r : ListRequest} {size : Nat} {c : Criteria}
  {p : Prepared} {follower : Uuid}

section Page

variable (hstore : store.Reachable) (hs : p.strategy = .graphFanOut (some follower))
  (hliked : p.criteria.likedBy? = none) (hscored : p.core.isScored = false)
include hstore hs hliked hscored

/-- A window of a listing is cut out of the first documents, in order, of each that is followed. -/
theorem Prepared.documents_of_followed (others : Collaborators) (window : Window) (hwindow : window.cursor? = none)
    (followingCap : Nat) : (p.request window followingCap).documents store others = results store others window.stages
      (sortDocuments p.cursorPlan.sortKeys
        (p.core.firsts store follower (max (window.limit?.getD 0) followingCap))) := by
  have hbound : (p.request window followingCap).bound = p.core.bound := by
    rw [PlanRequest.bound, PlanRequest.bound, show (p.request window followingCap).window.cursor? = none from hwindow]
    rfl
  have hfirsts : (p.request window followingCap).firsts store follower (p.request window followingCap).share =
      p.core.firsts store follower (max (window.limit?.getD 0) followingCap) := by
    unfold PlanRequest.firsts PlanRequest.offered
    rw [hbound]
    rfl
  rw [PlanRequest.documents_firsts (q := p.request window followingCap) (hstore.identified _) hs, hfirsts,
    PlanRequest.kept_of_plain (q := p.request window followingCap) hscored hliked]
  rfl

variable (hp : (Service.prepare settings r.collection c r.viewer r.softDelete).run store others = some p)
include hp

/-- A listing counts of each that is followed no more documents than the cap. -/
theorem ListRequest.total_pageAt (size number : Nat) : (r.pageAt settings store others c size number).total =
    ((p.core.followees store follower).map fun name =>
      min settings.followingCap (p.core.offered store name).length).sum := by
  rw [pageAt, hp, p.run_serveList, p.documents_of_followed hstore hs hliked hscored others .all rfl,
    ← PlanRequest.length_firsts]
  change (sortDocuments _ _).length = _
  rw [(sortDocuments_perm _ _).length_eq]
  exact congrArg (fun count => (p.core.firsts store follower count).length) (Nat.zero_max _)

/-- A page shows its slice of the first documents of each that is followed, of no more than the larger of the page size
and the cap. -/
theorem ListRequest.map_id?_pageAt (size number : Nat) :
    (r.pageAt settings store others c size number).docs.map Document.id? =
    (ListPage.slice size number (sortDocuments p.cursorPlan.sortKeys
      (p.core.firsts store follower (max size settings.followingCap)))).map Document.id? := by
  rw [pageAt, hp, p.run_serveList, p.documents_of_followed hstore hs hliked hscored others (.offset _ size) rfl]
  exact map_id?_enrichment _ _ _ _ _

/-- A page that is full before the cap, and every page where nobody has more documents than the cap, shows its slice of
all documents. -/
theorem ListRequest.map_id?_pageAt_of_le {size number : Nat}
    (h : number * size ≤ max size settings.followingCap ∨
      ∀ name ∈ p.core.followees store follower, (p.core.offered store name).length ≤ settings.followingCap) :
    (r.pageAt settings store others c size number).docs.map Document.id? = (ListPage.slice size number
      (sortDocuments p.cursorPlan.sortKeys ((p.core.followees store follower).flatMap (p.core.offered store)))).map
        Document.id? := by
  have horder : p.core.isReactionOrder = false :=
    PlanRequest.isReactionOrder_of_strategy (show p.strategy.isReactionFanOut = false by rw [hs]; rfl)
  have hend : number * size ≤ max size settings.followingCap →
      (number - 1) * size + size ≤ max size settings.followingCap := by
    intro hle
    cases number with
    | zero => simp
    | succ number => rwa [Nat.add_sub_cancel, ← Nat.succ_mul]
  rw [map_id?_pageAt hstore hs hliked hscored hp, ListPage.slice_congr]
  refine PlanRequest.take_sortDocuments_firsts hscored (hstore.identified _) horder ?_
  intro name hname
  rcases h with hle | hall
  · exact .inl (hend hle)
  · exact .inr ((hall name hname).trans (Nat.le_max_right _ _))

end Page

/-- A listing of what the accounts made that someone follows, in an order that reads no score, where nobody's likes are
asked for, in four parts.
1. Every request for a page is answered with the page of that number.
2. The total adds up, over what the live follows name, as many documents with that owner as the filter accepts, but no
   more than the cap. The page shows the documents that its number names of the first of each, in order: of as many as
   the larger of the page size and the cap.
3. On all pages the total is the number of all documents of those who are followed, and the page shows the documents of
   these that its number names, exactly where none of them has more documents than the cap.
4. The pages that end before the larger of the page size and the cap show the documents that their number names in any
   case. -/
theorem followed_listing_counts (hstore : store.Reachable) (hfeed : r.collection.isFeed = true)
    (hsize : Service.pageSize settings r.pageSize = .ok size) (hc : Criteria.compile r.filters r.sorts = .ok c)
    (hp : (Service.prepare settings r.collection c r.viewer r.softDelete).run store others = some p)
    (hs : p.strategy = .graphFanOut (some follower)) (hliked : p.criteria.likedBy? = none)
    (hscored : p.core.isScored = false) :
    ∃ pages : Nat → ListPage,
      (∀ asked number, Service.pageNumber asked = .ok number → ∀ page,
        Lists settings store others { r with page := asked } page ↔ page = pages number) ∧
      (∀ number,
        (pages number).total =
          ((p.core.followees store follower).map fun name =>
            min settings.followingCap (p.core.offered store name).length).sum ∧
        (pages number).docs.map Document.id? = (ListPage.slice size number (sortDocuments p.cursorPlan.sortKeys
          (p.core.firsts store follower (max size settings.followingCap)))).map Document.id?) ∧
      ((∀ number, (pages number).total = ((p.core.followees store follower).flatMap (p.core.offered store)).length ∧
          (pages number).docs.map Document.id? = (ListPage.slice size number (sortDocuments p.cursorPlan.sortKeys
            ((p.core.followees store follower).flatMap (p.core.offered store)))).map Document.id?) ↔
        ∀ name ∈ p.core.followees store follower, (p.core.offered store name).length ≤ settings.followingCap) ∧
      ∀ number, number * size ≤ max size settings.followingCap →
        (pages number).docs.map Document.id? = (ListPage.slice size number (sortDocuments p.cursorPlan.sortKeys
          ((p.core.followees store follower).flatMap (p.core.offered store)))).map Document.id? := by
  have htotal := ListRequest.total_pageAt hstore hs hliked hscored hp size
  refine ⟨r.pageAt settings store others c size, ?_, ?_, ⟨?_, ?_⟩, ?_⟩
  · intro asked number hnumber page
    exact lists_iff (r := { r with page := asked }) hfeed hsize hc hnumber
  · exact fun number => ⟨htotal number, ListRequest.map_id?_pageAt hstore hs hliked hscored hp size number⟩
  · intro h
    have hsum := (htotal 1).symm.trans (h 1).1
    rw [← PlanRequest.length_firsts] at hsum
    exact (PlanRequest.length_firsts_eq_iff ..).1 hsum
  · intro h number
    refine ⟨?_, ListRequest.map_id?_pageAt_of_le hstore hs hliked hscored hp (.inr h)⟩
    rw [htotal, ← PlanRequest.length_firsts]
    exact (PlanRequest.length_firsts_eq_iff ..).2 h
  · exact fun number hle => ListRequest.map_id?_pageAt_of_le hstore hs hliked hscored hp (.inl hle)

/-- A listing of what the account made that another one follows, two on each page. -/
def Sample.followedListing : ListRequest :=
  ⟨.creations, some (Sample.uuid 3), [], ["following"], none, some 2, .exclude⟩

/-- The theorem at that listing, where no more than one document of each that is followed is counted. -/
theorem followed_listing_counts_sample :
    let p := Sample.prepared ⟨[], none, true, false⟩ (some (Sample.uuid 3))
    let names := p.core.followees Sample.followed (Sample.uuid 3)
    let offered := p.core.offered Sample.followed
    ∃ pages : Nat → ListPage,
      (∀ asked number, Service.pageNumber asked = .ok number → ∀ page,
        Lists { followingCap := 1 } Sample.followed .absent { Sample.followedListing with page := asked } page ↔
          page = pages number) ∧
      (∀ number, (pages number).total = (names.map fun name => min 1 (offered name).length).sum ∧
        (pages number).docs.map Document.id? = (ListPage.slice 2 number (sortDocuments p.cursorPlan.sortKeys
          (p.core.firsts Sample.followed (Sample.uuid 3) 2))).map Document.id?) ∧
      ((∀ number, (pages number).total = (names.flatMap offered).length ∧
          (pages number).docs.map Document.id? =
            (ListPage.slice 2 number (sortDocuments p.cursorPlan.sortKeys (names.flatMap offered))).map Document.id?) ↔
        ∀ name ∈ names, (offered name).length ≤ 1) ∧
      ∀ number, number * 2 ≤ 2 → (pages number).docs.map Document.id? =
        (ListPage.slice 2 number (sortDocuments p.cursorPlan.sortKeys (names.flatMap offered))).map Document.id? := by
  have hcompile : Criteria.compile Sample.followedListing.filters Sample.followedListing.sorts =
      .ok ⟨[], none, true, false⟩ := rfl
  exact followed_listing_counts (r := Sample.followedListing) (Store.reachable_ofList _) rfl rfl hcompile
    rfl rfl rfl rfl

/-- With a cap of one, a page of two shows both documents of the followed account although the total is one, and the
second page of one shows nothing. -/
theorem followed_listing_overruns :
    let p := Sample.prepared ⟨[], none, true, false⟩ (some (Sample.uuid 3))
    ((p.core.followees Sample.followed (Sample.uuid 3)).flatMap (p.core.offered Sample.followed)).length = 2 ∧
    (∃ page, Lists { followingCap := 1 } Sample.followed .absent Sample.followedListing page ∧
      page.total = 1 ∧ page.docs.length = 2) ∧
    ∃ page, Lists { followingCap := 1 } Sample.followed .absent
      { Sample.followedListing with page := some 2, pageSize := some 1 } page ∧ page.docs = [] := by
  intro p
  have hcompile : Criteria.compile Sample.followedListing.filters Sample.followedListing.sorts =
      .ok ⟨[], none, true, false⟩ := rfl
  have hnames : p.core.followees Sample.followed (Sample.uuid 3) = [Lookup.idKey (Sample.uuid 7)] := by decide +kernel
  have hoffered : (p.core.offered Sample.followed (Lookup.idKey (Sample.uuid 7))).length = 2 := by decide +kernel
  have hlength (count : Nat) (hcount : count ≤ 2) :
      (p.core.firsts Sample.followed (Sample.uuid 3) count).length = count := by
    rw [PlanRequest.firsts, hnames, List.flatMap_singleton, List.length_take,
      (sortDocuments_perm _ _).length_eq, hoffered]
    exact Nat.min_eq_left hcount
  have hstore : Sample.followed.Reachable := Store.reachable_ofList _
  have hdocs (r : ListRequest) (size number : Nat) (hsize : max size 1 ≤ 2)
      (hp : (Service.prepare { followingCap := 1 } r.collection ⟨[], none, true, false⟩ r.viewer r.softDelete).run
        Sample.followed
        .absent = some p) :
      (r.pageAt { followingCap := 1 } Sample.followed .absent ⟨[], none, true, false⟩ size number).docs.length =
        min size (max size 1 - (number - 1) * size) := by
    have hcount := congrArg List.length (ListRequest.map_id?_pageAt hstore rfl rfl rfl hp size number)
    rw [List.length_map, List.length_map, ListPage.slice, List.length_take, List.length_drop,
      (sortDocuments_perm _ _).length_eq, hlength _ hsize] at hcount
    exact hcount
  have hanswers (r : ListRequest) (size number : Nat) (hfeed : r.collection.isFeed = true)
      (hsize : Service.pageSize { followingCap := 1 } r.pageSize = .ok size)
      (hc : Criteria.compile r.filters r.sorts = .ok ⟨[], none, true, false⟩)
      (hnumber : Service.pageNumber r.page = .ok number) :
      Lists { followingCap := 1 } Sample.followed .absent r
        (r.pageAt { followingCap := 1 } Sample.followed .absent ⟨[], none, true, false⟩ size number) :=
    (lists_iff hfeed hsize hc hnumber).2 rfl
  have hfirst := hanswers Sample.followedListing 2 1 rfl rfl hcompile rfl
  have hsecond := hanswers { Sample.followedListing with page := some 2, pageSize := some 1 } 1 2 rfl rfl hcompile rfl
  refine ⟨?_, ⟨_, hfirst, ?_, hdocs _ 2 1 (by decide) rfl⟩, _, hsecond, ?_⟩
  · rw [hnames, List.flatMap_singleton, hoffered]
  · rw [ListRequest.total_pageAt (p := p) hstore rfl rfl rfl rfl, hnames]
    change min 1 (p.core.offered Sample.followed (Lookup.idKey (Sample.uuid 7))).length + 0 = 1
    rw [hoffered]
    rfl
  · exact List.eq_nil_of_length_eq_zero (hdocs _ 1 2 (by decide) rfl)

end FollowedListing

end FeedQuery
