import FeedQuery.Proofs.FollowedFeed

/-!
# What one follows and someone liked

Where the likes of an account are asked for together with what another one follows, the plan cuts the documents of each
that is followed to the first ones before it drops those that the account has not liked (`liked_followed_page`). So a
page lacks a liked document that has as many documents of its owner before it as the cut leaves, and may even be empty
while there is one (`liked_followed_page_short`).
-/

namespace FeedQuery

namespace PlanRequest

variable (q : PlanRequest) {store : Store} {others : Collaborators} {follower liker : Uuid}

/-- The documents of the collection that have one of those whom an account follows as their owner, that the request
accepts, that come after the cursor and that another account has liked. -/
def likedOf (store : Store) (follower liker : Uuid) : List Document :=
  (store.docs q.collection).filter fun d => q.documentFilter.accepts d && q.bound.accepts d &&
    (q.followees store follower).any (fun name => q.owns name d) &&
    store.isLiked q.collection liker q.visibility.softDelete d

/-- What the account has liked of the first documents of each that is followed. -/
def likedFirsts (store : Store) (follower liker : Uuid) (count : Nat) : List Document :=
  (q.firsts store follower count).filter (store.isLiked q.collection liker q.visibility.softDelete)

section Liked

variable {q} (hids : Identified (store.docs q.collection)) (hs : q.strategy = .graphFanOut (some follower))
  (hliked : q.criteria.likedBy? = some liker) (hscored : q.isScored = false)
include hids hs hliked hscored

/-- Through follows, a plan keeps what was liked of the first documents of each that is followed, and puts it in
order. -/
theorem documents_likedBy {place : Option Cursor} {limit : Nat} (hw : q.window = .cursor place limit) :
    q.documents store others =
      ((sortDocuments q.cursorPlan.sortKeys (q.likedFirsts store follower liker q.share)).take limit).map q.dress := by
  have hr : q.isReactionOrder = false := isReactionOrder_of_strategy (by rw [hs]; rfl)
  have hpasses : q.passes store = store.isLiked q.collection liker q.visibility.softDelete := by
    funext d
    simp [passes, hs, hliked, Strategy.isReactionFanOut]
  rw [documents_firsts hids hs, hpasses, filter_late_of_unscored hscored, q.sortDocuments_map_dress hscored hr, hw,
    List.map_take]
  rfl

end Liked

variable {q} in
/-- Of what is kept apart, a page begins as all liked documents do exactly where the first of these are among the first
of their owner. -/
theorem Apart.take_likedOf_iff (h : q.Apart store follower) (hids : Identified (store.docs q.collection))
    (hscored : q.isScored = false) (hr : q.isReactionOrder = false) (limit cap : Nat) :
    (sortDocuments q.cursorPlan.sortKeys (q.likedFirsts store follower liker cap)).take limit =
      (sortDocuments q.cursorPlan.sortKeys (q.likedOf store follower liker)).take limit ↔
    ∀ d ∈ (sortDocuments q.cursorPlan.sortKeys (q.likedOf store follower liker)).take limit,
      ∃ name ∈ q.followees store follower, d ∈
        (sortDocuments q.cursorPlan.sortKeys (q.offered store name)).take cap := by
  have hlikedOf : Identified (q.likedOf store follower liker) := hids.filter _
  have hfirsts : Identified (q.likedFirsts store follower liker cap) :=
    (h.identified_firsts hids cap).filter _
  have hsub : q.likedFirsts store follower liker cap ⊆ q.likedOf store follower liker := by
    intro d hd
    obtain ⟨hd, hlike⟩ := List.mem_filter.1 hd
    obtain ⟨name, hname, hoffered⟩ := List.mem_flatMap.1 (q.firsts_subset store follower cap hd)
    obtain ⟨hmem, haccepts⟩ := List.mem_filter.1 hoffered
    simp only [hscored, Bool.false_or, Bool.and_eq_true] at haccepts
    refine List.mem_filter.2 ⟨hmem, ?_⟩
    simp only [Bool.and_eq_true, List.any_eq_true]
    exact ⟨⟨haccepts.1, name, hname, haccepts.2⟩, hlike⟩
  rw [take_sortDocuments_eq_iff (q.distinct_of_identified hr hlikedOf) hfirsts.nodup hsub]
  refine forall₂_congr fun d hd => ?_
  have hlike : store.isLiked q.collection liker q.visibility.softDelete d = true := by
    have hmem := (List.mem_filter.1 ((mem_sortDocuments _).1 (List.mem_of_mem_take hd))).2
    exact (Bool.and_eq_true_iff.1 hmem).2
  rw [likedFirsts, List.mem_filter, firsts, sort_fanOut hscored, List.mem_flatMap]
  exact and_iff_left hlike

end PlanRequest

section LikedFollowed

variable {settings : Settings} {store : Store} {others : Collaborators} {r : FeedRequest} {limit : Nat} {p : Prepared}
  {place : Option Cursor} {follower liker : Uuid}

/-- A page of a feed of what the accounts made that someone follows, in an order that reads no score, where another
account's likes are asked for, in three parts.
1. The request is answered with the first documents, in order, of those that the account has liked among the first of
   each that is followed. These are as many as the larger of the page size and the cap, of all that the request accepts
   and that come after the cursor, liked or not.
2. Where what is followed is kept apart, the page shows the first of all liked documents of those who are followed
   exactly where each of these is among that many first documents of its owner.
3. Where the cursor was made of a document, what comes after it are the documents that are strictly behind that document
   in order. -/
theorem liked_followed_page (hstore : store.Reachable) (hr : Serves settings store others r limit p)
    (hread : Cursor.read r.cursor r.nextValue = .ok place) (hs : p.strategy = .graphFanOut (some follower))
    (hliked : p.criteria.likedBy? = some liker) (hscored : p.core.isScored = false) :
    let q := p.request (.cursor place limit) settings.followingCap
    (∀ page, Answers settings store others r page ↔
      page = p.decorate store others (((sortDocuments p.cursorPlan.sortKeys
      (q.likedFirsts store follower liker (max limit settings.followingCap))).take limit).map p.core.dress)) ∧
    (q.Apart store follower → ∀ page, Answers settings store others r page →
      (page.docs.map Document.id? =
          ((sortDocuments p.cursorPlan.sortKeys (q.likedOf store follower liker)).take limit).map Document.id? ↔
        ∀ d ∈ (sortDocuments p.cursorPlan.sortKeys (q.likedOf store follower liker)).take limit,
          ∃ name ∈ q.followees store follower,
            d ∈ (sortDocuments p.cursorPlan.sortKeys (q.offered store name)).take (max limit settings.followingCap))) ∧
    ∀ last, (p.cursorPlan.place? last).isSome = true → place = p.cursorPlan.place? last → ∀ d ∈ store.docs p.collection,
      p.core.documentFilter.accepts d = true →
        ((p.cursorPlan.bound place).accepts d = true ↔ compareDocuments p.cursorPlan.sortKeys last d = .lt) := by
  intro q
  have hids : Identified (store.docs p.collection) := hstore.identified _
  have horder : q.isReactionOrder = false :=
    PlanRequest.isReactionOrder_of_strategy (show p.strategy.isReactionFanOut = false by rw [hs]; rfl)
  have hraw : p.raw settings store others place limit = ((sortDocuments p.cursorPlan.sortKeys
      (q.likedFirsts store follower liker (max limit settings.followingCap))).take limit).map p.core.dress :=
    PlanRequest.documents_likedBy (q := q) hids hs hliked hscored rfl
  have hpages : ∀ page, Answers settings store others r page ↔
      page = p.decorate store others (((sortDocuments p.cursorPlan.sortKeys
      (q.likedFirsts store follower liker (max limit settings.followingCap))).take limit).map p.core.dress) := by
    intro page
    rw [hr.answers_iff hread, hraw]
  refine ⟨hpages, ?_, ?_⟩
  · intro hapart page hpage
    obtain rfl := (hpages page).1 hpage
    have hshown : (sortDocuments p.cursorPlan.sortKeys
        (q.likedFirsts store follower liker (max limit settings.followingCap))).take limit ⊆
        store.docs p.collection := by
      intro d hd
      have hfirst := (List.mem_filter.1 ((mem_sortDocuments _).1 (List.mem_of_mem_take hd))).1
      exact q.flatMap_offered_subset store _ (q.firsts_subset store follower _ hfirst)
    have hall : (sortDocuments p.cursorPlan.sortKeys (q.likedOf store follower liker)).take limit ⊆
        store.docs p.collection :=
      fun d hd => (List.mem_filter.1 ((mem_sortDocuments _).1 (List.mem_of_mem_take hd))).1
    have hdecorated (docs : List Document) :
        (p.decorate store others (docs.map p.core.dress)).docs.map Document.id? = docs.map Document.id? := by
      rw [p.map_id?_docs_decorate]
      simp [Function.comp_def]
    rw [hdecorated]
    exact (hids.map_id?_inj hshown hall).trans (hapart.take_likedOf_iff hids hscored horder limit _)
  · intro last hlast hplace d hd haccepts
    exact PlanRequest.accepts_bound_iff_of_unscored (q := q) hscored horder hids hlast hplace hd haccepts

/-- A public document of an account. -/
def Sample.owned (n owner : Nat) : Document := (creation n).set (.field "user") (.string (uuid owner).toText)

/-- An account's follow of another one. -/
def Sample.follow (n follower following : Nat) : Document := ⟨[("_id", .string (uuid n).toText),
  ("follower", .string (uuid follower).toText), ("following", .string (uuid following).toText)]⟩

/-- Two documents of an account that another one follows, the older of which a third one has liked. -/
def Sample.likedFollowed : Store :=
  .ofList [(.creations, owned 1 7), (.creations, owned 2 7), (.follows, follow 8 3 7),
    (.reactions, like.set (.field "user") (.string (uuid 5).toText))]

/-- What is prepared for the documents that the third account has liked of what the other one follows. -/
def Sample.preparedLiked : Prepared := prepared ⟨[⟨.likedBy, [.id (uuid 5)]⟩], none, true, false⟩ (some (uuid 3))

/-- A page of one of these documents. -/
def Sample.likedRequest : FeedRequest :=
  request ["likedBy;00000000-0000-0000-0000-000000000005"] ["following"] (some (uuid 3))

theorem Sample.serves_likedRequest (followingCap : Nat) :
    Serves { followingCap := followingCap } likedFollowed .absent likedRequest 1 preparedLiked :=
  ⟨rfl, rfl, ⟨[⟨.likedBy, [.id (uuid 5)]⟩], none, true, false⟩, rfl, rfl⟩

/-- The theorem at that request, with a cap that leaves both documents. -/
theorem liked_followed_page_sample :
    let p := Sample.preparedLiked
    let q := p.request (.cursor none 1) 2
    (∀ page, Answers { followingCap := 2 } Sample.likedFollowed .absent Sample.likedRequest page ↔
      page = p.decorate Sample.likedFollowed .absent (((sortDocuments p.cursorPlan.sortKeys
        (q.likedFirsts Sample.likedFollowed (Sample.uuid 3) (Sample.uuid 5) 2)).take 1).map p.core.dress)) ∧
    (q.Apart Sample.likedFollowed (Sample.uuid 3) →
      ∀ page, Answers { followingCap := 2 } Sample.likedFollowed .absent Sample.likedRequest page →
        (page.docs.map Document.id? = ((sortDocuments p.cursorPlan.sortKeys
            (q.likedOf Sample.likedFollowed (Sample.uuid 3) (Sample.uuid 5))).take 1).map Document.id? ↔
          ∀ d ∈ (sortDocuments p.cursorPlan.sortKeys
            (q.likedOf Sample.likedFollowed (Sample.uuid 3) (Sample.uuid 5))).take 1,
            ∃ name ∈ q.followees Sample.likedFollowed (Sample.uuid 3),
              d ∈ (sortDocuments p.cursorPlan.sortKeys (q.offered Sample.likedFollowed name)).take 2)) ∧
    ∀ last, (p.cursorPlan.place? last).isSome = true → none = p.cursorPlan.place? last →
      ∀ d ∈ Sample.likedFollowed.docs .creations, p.core.documentFilter.accepts d = true →
        ((p.cursorPlan.bound none).accepts d = true ↔ compareDocuments p.cursorPlan.sortKeys last d = .lt) :=
  liked_followed_page (Store.reachable_ofList _) (Sample.serves_likedRequest 2) rfl rfl rfl rfl

/-- With a cap of one, the page is empty although the account follows the owner of a document that was liked, and nobody
else. -/
theorem liked_followed_page_short :
    let q := Sample.preparedLiked.request (.cursor none 1) 1
    q.Apart Sample.likedFollowed (Sample.uuid 3) ∧
    (q.likedOf Sample.likedFollowed (Sample.uuid 3) (Sample.uuid 5)).length = 1 ∧
    ∃ page, Answers { followingCap := 1 } Sample.likedFollowed .absent Sample.likedRequest page ∧ page.docs = [] := by
  intro q
  -- the liked document is not the first of its owner in the join
  obtain ⟨hnames, hlength, hbefore⟩ :
      q.followees Sample.likedFollowed (Sample.uuid 3) = [Lookup.idKey (Sample.uuid 7)] ∧
      (q.likedOf Sample.likedFollowed (Sample.uuid 3) (Sample.uuid 5)).length = 1 ∧
      ∀ d ∈ q.offered Sample.likedFollowed (Lookup.idKey (Sample.uuid 7)),
        Sample.likedFollowed.isLiked .creations (Sample.uuid 5) .exclude d = true →
          ∃ e ∈ q.offered Sample.likedFollowed (Lookup.idKey (Sample.uuid 7)),
            compareDocuments q.fanOut.sort d e = .gt := by decide +kernel
  refine ⟨⟨by rw [hnames]; decide, by rw [hnames]; simp⟩, hlength, _,
    ((Sample.serves_likedRequest 1).answers_iff rfl).2 rfl, ?_⟩
  rw [Prepared.decorate_eq_nil]
  have hnone : q.likedFirsts Sample.likedFollowed (Sample.uuid 3) (Sample.uuid 5) 1 = [] := by
    refine List.filter_eq_nil_iff.2 fun d hd hlike => ?_
    rw [PlanRequest.firsts, hnames, List.flatMap_singleton] at hd
    have hoffered := (mem_sortDocuments _).1 (List.mem_of_mem_take hd)
    obtain ⟨e, he, hgt⟩ := hbefore d hoffered hlike
    have hle := isLE_of_mem_take_one hd he
    rw [hgt] at hle
    exact absurd hle (by decide)
  have hstore : Sample.likedFollowed.Reachable := Store.reachable_ofList _
  refine (PlanRequest.documents_likedBy (q := q) (hstore.identified .creations) rfl rfl rfl rfl).trans ?_
  rw [show q.share = 1 from rfl, hnone, sortDocuments_of_pairwise .nil]
  rfl

end LikedFollowed

end FeedQuery
