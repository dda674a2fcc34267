import FeedQuery.Proofs.FanOut
import FeedQuery.Proofs.Paging

/-!
# Feeds of what one follows

A feed of the accounts that someone follows joins every live follow with documents of the followed account, and with no
more of them than a cap that is at least the size of a page. The join filters, puts the bound and sorts as the page
does, so what the cap cuts off would not have been on the page: the page is the beginning of all these documents in
order (`followed_feed_page`).
-/

namespace FeedQuery

open Stage

/-- The field names one document or none: it spells one identifier, or holds nothing. -/
def Document.IsReference (path : Path) (d : Document) : Prop :=
  (Lookup.valuesAt path d).isEmpty = true ∨ ((d.get? path).bind Json.id?).isSome = true

instance (path : Path) : DecidablePred (Document.IsReference path) := fun d =>
  inferInstanceAs (Decidable ((Lookup.valuesAt path d).isEmpty = true ∨ ((d.get? path).bind Json.id?).isSome = true))

/-- A field that is a reference holds the identifier that it spells and no other. -/
theorem Document.IsReference.holdsAt {path : Path} {d : Document} (h : d.IsReference path) (u : Uuid) :
    (Scalar.id u).holdsAt (d.get? path) = ((d.get? path).bind Json.id? == some u) := by
  rw [Bool.eq_iff_iff, Scalar.holdsAt_id_iff, beq_iff_eq]
  constructor
  · intro hu
    rcases h with hempty | hsome
    · simp [List.isEmpty_iff.1 hempty] at hu
    · obtain ⟨v, hv⟩ := Option.isSome_iff_exists.1 hsome
      rw [← Lookup.exists_key_iff, Lookup.keysAt_of_id? hv] at hu
      obtain ⟨key, hkey, htext⟩ := hu
      obtain rfl := List.mem_singleton.1 hkey
      rw [hv, Uuid.toText_injective htext]
  · exact Lookup.valuesAt_of_id?

/-- A field that is a reference has the key of the identifier that it spells and no other. -/
theorem Lookup.keysAt_of_isReference {path : Path} {d : Document} (h : d.IsReference path) :
    keysAt path d = (((d.get? path).bind Json.id?).toList).map idKey := by
  cases hid : (d.get? path).bind Json.id? with
  | none =>
    have hnone : (valuesAt path d).isEmpty = true := h.resolve_right (by simp [hid])
    simp [keysAt, List.isEmpty_iff.1 hnone]
  | some u => exact keysAt_of_id? hid

namespace PlanRequest

variable {store : Store} {others : Collaborators} {q : PlanRequest}

section Plain

variable (hscored : q.isScored = false) (hliked : q.criteria.likedBy? = none)
include hscored hliked

/-- Where the order reads no score and nobody's likes are asked for, documents are sorted as they are. -/
theorem dress_of_plain : q.dress = id := by
  funext d
  unfold dress scored
  rw [hliked, hscored]
  cases q.strategy.isReactionFanOut <;> rfl

/-- There the tail of a plan drops no document and changes none. -/
theorem kept_of_plain (docs : List Document) :
    (((docs.filter (q.passes store)).map q.dress).filter fun d => !q.isScored || q.bound.accepts d) = docs := by
  rw [filter_passes_of_likedBy hliked, dress_of_plain hscored hliked, List.map_id, filter_late_of_unscored hscored]

end Plain

/-- The documents of the collection that an account owns, that the request accepts and that come after the cursor. -/
def owned (q : PlanRequest) (store : Store) (account : Uuid) : List Document :=
  (store.docs q.collection).filter fun d =>
    (d.get? q.collection.owner).bind Json.id? == some account && q.documentFilter.accepts d && q.bound.accepts d

/-- The accounts that an account follows, one for each live follow. -/
def followed (q : PlanRequest) (store : Store) (follower : Uuid) : List Uuid :=
  (q.follows store follower).filterMap fun row => (row.get? (.field "following")).bind Json.id?

/-- The documents of all followed accounts, those of an account once for each live follow of it. -/
def fanned (q : PlanRequest) (store : Store) (follower : Uuid) : List Document :=
  (q.followed store follower).flatMap (q.owned store)

/-- The first documents, in order, of every followed account. -/
def capped (q : PlanRequest) (store : Store) (follower : Uuid) (cap : Nat) : List Document :=
  (q.followed store follower).flatMap fun account =>
    (sortDocuments q.cursorPlan.sortKeys (q.owned store account)).take cap

theorem fanned_subset (follower : Uuid) : q.fanned store follower ⊆ store.docs q.collection := by
  intro d hd
  obtain ⟨account, -, hd⟩ := List.mem_flatMap.1 hd
  exact (List.mem_filter.1 hd).1

theorem capped_subset (follower : Uuid) (cap : Nat) : q.capped store follower cap ⊆ store.docs q.collection := by
  intro d hd
  obtain ⟨account, -, hd⟩ := List.mem_flatMap.1 hd
  have hd := List.mem_of_mem_take hd
  rw [mem_sortDocuments] at hd
  exact (List.mem_filter.1 hd).1

section Graph

variable (hscored : q.isScored = false) (howners : ∀ d ∈ store.docs q.collection, d.IsReference q.collection.owner)
include hscored howners

/-- A follow is joined with the documents of the followed account. -/
theorem offered_idKey (account : Uuid) : q.offered store (Lookup.idKey account) = q.owned store account := by
  refine List.filter_congr ?_
  intro d hd
  rw [hscored, Bool.false_or, owns, Lookup.idKey, (howners d hd).holdsAt]
  cases q.documentFilter.accepts d <;> simp [Bool.and_comm]

variable (hliked : q.criteria.likedBy? = none) (hids : Identified (store.docs q.collection)) {follower : Uuid}
  (hs : q.strategy = .graphFanOut (some follower))
  (hfollows : ∀ row ∈ store.docs .follows, row.IsReference (.field "following"))
include hliked hids hs hfollows

/-- Through follows, a plan cuts its window out of the first documents of every followed account. -/
theorem documents_capped : q.documents store others = results store others q.window.stages
    (sortDocuments q.cursorPlan.sortKeys (q.capped store follower q.share)) := by
  have hnames : q.followees store follower = (q.followed store follower).map Lookup.idKey := by
    have hkeys : (q.follows store follower).flatMap (Lookup.keysAt q.fanOut.localPath) =
        (q.followed store follower).map Lookup.idKey := by
      rw [followed, List.filterMap_eq_flatMap_toList, List.map_flatMap]
      exact List.flatMap_congr fun row hrow => Lookup.keysAt_of_isReference (hfollows row (List.mem_filter.1 hrow).1)
    rw [followees, Lookup.asked_eq, hkeys]
    intro a ha b hb htext
    rw [hkeys] at ha hb
    obtain ⟨u, -, rfl⟩ := List.mem_map.1 ha
    obtain ⟨v, -, rfl⟩ := List.mem_map.1 hb
    rw [Uuid.toText_injective htext]
  have hfirsts : q.firsts store follower q.share = q.capped store follower q.share := by
    rw [firsts, hnames, List.flatMap_map, sort_fanOut hscored]
    simp only [offered_idKey hscored howners]
    rfl
  rw [documents_firsts hids hs, hfirsts, kept_of_plain hscored hliked]

/-- A page shows the beginning of all documents of the followed accounts, whatever the cap. -/
theorem documents_fanned {place : Option Cursor} {limit : Nat} (hw : q.window = .cursor place limit) :
    q.documents store others = (sortDocuments q.cursorPlan.sortKeys (q.fanned store follower)).take limit := by
  have hr : q.isReactionOrder = false := isReactionOrder_of_strategy (by rw [hs]; rfl)
  have hseparates : Separates q.cursorPlan.sortKeys (store.docs q.collection) :=
    hids.separates (q.idKey_mem_sortKeys hr)
  have hcap : limit ≤ q.share := by
    rw [share, hw]
    exact Nat.le_max_left _ _
  rw [documents_capped hscored howners hliked hids hs hfollows, hw]
  -- a document that is cut off is behind as many documents of its account as a page holds
  exact take_sortDocuments_flatMap (hseparates.subset (capped_subset _ _)) (hseparates.subset (fanned_subset _))
    fun account _ => take_sortDocuments_take hcap

end Graph

end PlanRequest

section FollowedFeed

variable {settings : Settings} {store : Store} {others : Collaborators} {r : FeedRequest} {limit : Nat} {p : Prepared}
  {place : Option Cursor} {follower : Uuid}

/-- A page of a feed of the accounts that someone follows, in an order that reads no score, where nobody's likes are
asked for, in three parts. It needs that owners and followed accounts are given by one identifier each, where they are
given.
1. The request is answered with the first documents, in the order of the request, of all documents that a followed
   account owns, that the request accepts and that come after the cursor, those of an account once for each live follow
   of it.
2. This is so although no lookup of the plan finds more documents for a follow than the larger of the cap and the page
   size.
3. Where the cursor was made of a document, what comes after it are the documents that are strictly behind that document
   in order. -/
theorem followed_feed_page (hstore : store.Reachable) (hr : Serves settings store others r limit p)
    (hread : Cursor.read r.cursor r.nextValue = .ok place) (hs : p.strategy = .graphFanOut (some follower))
    (hliked : p.criteria.likedBy? = none) (hscored : p.core.isScored = false)
    (howners : ∀ d ∈ store.docs p.collection, d.IsReference p.collection.owner)
    (hfollows : ∀ row ∈ store.docs .follows, row.IsReference (.field "following")) :
    (∀ page, Answers settings store others r page ↔ page = p.decorate store others ((sortDocuments p.cursorPlan.sortKeys
      ((p.request (.cursor place limit) settings.followingCap).fanned store follower)).take limit)) ∧
    (∀ l, .lookup l ∈ (p.request (.cursor place limit) settings.followingCap).core →
      ∀ rows text, (l.matching store others rows text).length ≤ max limit settings.followingCap) ∧
    ∀ last, (p.cursorPlan.place? last).isSome = true → place = p.cursorPlan.place? last → ∀ d ∈ store.docs p.collection,
      p.core.documentFilter.accepts d = true →
        ((p.cursorPlan.bound place).accepts d = true ↔ compareDocuments p.cursorPlan.sortKeys last d = .lt) := by
  have hids : Identified (store.docs p.collection) := hstore.identified _
  have horder : p.core.isReactionOrder = false :=
    PlanRequest.isReactionOrder_of_strategy (show p.strategy.isReactionFanOut = false by rw [hs]; rfl)
  refine ⟨?_, ?_, ?_⟩
  · intro page
    have hraw : p.raw settings store others place limit = (sortDocuments p.cursorPlan.sortKeys
        ((p.request (.cursor place limit) settings.followingCap).fanned store follower)).take limit :=
      PlanRequest.documents_fanned (q := p.request (.cursor place limit) settings.followingCap) hscored howners
        hliked hids hs
        hfollows rfl
    rw [hr.answers_iff hread, hraw]
  · intro l hl rows text
    obtain rfl := PlanRequest.lookup_of_mem_graph hliked hl hs
    exact Lookup.length_matching_le rfl text
  · intro last hlast hplace d hd haccepts
    exact PlanRequest.accepts_bound_iff_of_unscored (q := p.request (.cursor place limit) settings.followingCap)
      hscored horder hids
      hlast hplace hd haccepts

/-- Two documents of an account that another one follows. -/
def Sample.followed : Store :=
  let document (n : Nat) : Document := (creation n).set (.field "user") (.string (uuid 7).toText)
  let follow : Document := ⟨[("_id", .string (uuid 8).toText), ("follower", .string (uuid 3).toText),
    ("following", .string (uuid 7).toText)]⟩
  .ofList [(.creations, document 1), (.creations, document 2), (.follows, follow)]

/-- The theorem at the second page of one document, where a follow is joined with one document. -/
theorem followed_feed_page_sample :
    let p := Sample.prepared ⟨[], none, true, false⟩ (some (Sample.uuid 3))
    let r := { Sample.request [] ["following"] (some (Sample.uuid 3)) with cursor := some (Sample.uuid 2).toText }
    let q := p.request (.cursor (some ⟨Sample.uuid 2, none⟩) 1) 1
    (∀ page, Answers { followingCap := 1 } Sample.followed .absent r page ↔
      page = p.decorate Sample.followed .absent
        ((sortDocuments p.cursorPlan.sortKeys (q.fanned Sample.followed (Sample.uuid 3))).take 1)) ∧
    (∀ l, .lookup l ∈ q.core → ∀ rows text, (l.matching Sample.followed .absent rows text).length ≤ 1) ∧
    ∀ last, (p.cursorPlan.place? last).isSome = true → some ⟨Sample.uuid 2, none⟩ = p.cursorPlan.place? last →
      ∀ d ∈ Sample.followed.docs .creations, p.core.documentFilter.accepts d = true →
        ((p.cursorPlan.bound (some ⟨Sample.uuid 2, none⟩)).accepts d = true ↔
          compareDocuments p.cursorPlan.sortKeys last d = .lt) := by
  have hserves : Serves { followingCap := 1 } Sample.followed .absent
      { Sample.request [] ["following"] (some (Sample.uuid 3)) with cursor := some (Sample.uuid 2).toText } 1
      (Sample.prepared ⟨[], none, true, false⟩ (some (Sample.uuid 3))) :=
    ⟨rfl, rfl, ⟨[], none, true, false⟩, rfl, rfl⟩
  exact followed_feed_page (Store.reachable_ofList _) hserves rfl rfl rfl rfl (by decide +kernel) (by decide +kernel)

end FollowedFeed

end FeedQuery
