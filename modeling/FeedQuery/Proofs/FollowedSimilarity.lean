import FeedQuery.Proofs.FollowedLikes

/-!
# What one follows, by similarity

Scores are known only after the join, so where the order reads one the join of a follow takes the newest documents of
each that is followed, not the best. The pages then go through these in the order of the scores
(`followed_similarity_exact`): everything that the account follows is shown exactly where nobody has more documents than
are joined. Else the best document may never be shown (`followed_similarity_misses`).
-/

namespace FeedQuery

namespace Prepared

variable {p : Prepared} {settings : Settings} {store : Store} {others : Collaborators} {follower : Uuid}

section Similarity

variable (hstore : store.Reachable) (hs : p.strategy = .graphFanOut (some follower))
  (hapart : p.core.Apart store follower)
include hstore hs hapart

/-- The order of the request tells the joined documents apart. -/
theorem distinct_firsts (count : Nat) : ((p.core.firsts store follower count).map p.core.dress).Pairwise
    fun a b => compareDocuments p.cursorPlan.sortKeys a b ≠ .eq :=
  p.core.distinct_map_dress
    (PlanRequest.isReactionOrder_of_strategy (show p.strategy.isReactionFanOut = false by rw [hs]; rfl))
    (hapart.identified_firsts (hstore.identified _) count)

omit hapart in
/-- Pages of one size go through the newest documents of each that is followed, in the order of the scores. -/
theorem yieldsPages_similarity (hliked : p.criteria.likedBy? = none) (hscored : p.core.isScored = true) (limit : Nat) :
    p.YieldsPages settings store others limit (sortDocuments p.cursorPlan.sortKeys
      ((p.core.firsts store follower (max limit settings.followingCap)).map p.core.dress)) := by
  intro place
  let q := p.request (.cursor place limit) settings.followingCap
  have hoffered : q.offered store = p.core.offered store := by
    funext name
    refine List.filter_congr fun d _ => ?_
    rw [show q.isScored = true from hscored, hscored]
    rfl
  have hfirsts : q.firsts store follower q.share = p.core.firsts store follower (max limit settings.followingCap) := by
    rw [PlanRequest.firsts, hoffered]
    rfl
  have hlate (docs : List Document) : (docs.filter fun d => !q.isScored || q.bound.accepts d) =
      docs.filter (p.cursorPlan.bound place).accepts := by
    rw [show q.isScored = true from hscored]
    rfl
  change q.documents store others = _
  rw [PlanRequest.documents_firsts (q := q) (hstore.identified _) hs,
    PlanRequest.filter_passes_of_likedBy (q := q) hliked, hlate, hfirsts,
    ← sortDocuments_filter]
  rfl

/-- The joined documents, in the order of the scores, have places. -/
theorem orders_similarity (hfinite : p.core.HasFiniteScores) (count : Nat) :
    p.Orders (sortDocuments p.cursorPlan.sortKeys ((p.core.firsts store follower count).map p.core.dress)) := by
  have horder : p.core.isReactionOrder = false :=
    PlanRequest.isReactionOrder_of_strategy (show p.strategy.isReactionFanOut = false by rw [hs]; rfl)
  refine ⟨strict_sortDocuments (distinct_firsts hstore hs hapart count), fun d hd => ?_⟩
  refine p.core.isSome_place?_of_mem_map horder (hapart.identified_firsts (hstore.identified _) count) hfinite
    (fun e he => ?_)
    ((mem_sortDocuments _).1 hd)
  obtain ⟨name, -, he⟩ := List.mem_flatMap.1 (p.core.firsts_subset store follower count he)
  have haccepts := (List.mem_filter.1 he).2
  simp only [Bool.and_eq_true] at haccepts
  exact haccepts.1.1

/-- In the order of the scores the joined documents are all documents exactly where nobody has more than are joined. -/
theorem map_id?_firsts_iff (count : Nat) :
    (sortDocuments p.cursorPlan.sortKeys ((p.core.firsts store follower count).map p.core.dress)).map Document.id? =
      (sortDocuments p.cursorPlan.sortKeys
        (((p.core.followees store follower).flatMap (p.core.offered store)).map p.core.dress)).map Document.id? ↔
    ∀ name ∈ p.core.followees store follower, (p.core.offered store name).length ≤ count := by
  have horder : p.core.isReactionOrder = false :=
    PlanRequest.isReactionOrder_of_strategy (show p.strategy.isReactionFanOut = false by rw [hs]; rfl)
  have hids : Identified (store.docs p.core.collection) := hstore.identified _
  constructor
  · intro h
    have hlength := congrArg List.length h
    simp only [List.length_map, (sortDocuments_perm _ _).length_eq] at hlength
    exact (p.core.length_firsts_eq_iff store follower count).1 hlength
  · intro h
    have hperm : (p.core.firsts store follower count).Perm
        ((p.core.followees store follower).flatMap (p.core.offered store)) :=
      (List.subperm_of_subset (hapart.identified_firsts hids count).nodup
        (p.core.firsts_subset store follower count)).perm_of_length_le
        (Nat.le_of_eq ((p.core.length_firsts_eq_iff store follower count).2 h).symm)
    exact congrArg _ (sortDocuments_congr (hperm.map _)
      (p.core.distinct_map_dress horder (hapart.identified_offered hids)))

end Similarity

end Prepared

section FollowedSimilarity

variable {settings : Settings} {store : Store} {others : Collaborators} {r : FeedRequest} {limit : Nat} {p : Prepared}
  {follower : Uuid}

/-- Following the pages goes through the joined documents in the order of the scores. -/
theorem following_similarity (hstore : store.Reachable) (hothers : others.IsFinite)
    (hr : Serves settings store others r limit p) (hstart : Cursor.given? r.cursor = none) (hlimit : 0 < limit)
    (hs : p.strategy = .graphFanOut (some follower)) (hliked : p.criteria.likedBy? = none)
    (hscored : p.core.isScored = true) (hapart : p.core.Apart store follower) :
    (∃ pages, Following settings store others r pages) ∧
    ∀ pages, Following settings store others r pages →
      (pages.flatMap FeedPage.docs).map Document.id? = (sortDocuments p.cursorPlan.sortKeys
        ((p.core.firsts store follower (max limit settings.followingCap)).map p.core.dress)).map Document.id? ∧
      FullPages limit (pages.map FeedPage.docs) := by
  have hy : p.YieldsPages settings store others limit (sortDocuments p.cursorPlan.sortKeys
      ((p.core.firsts store follower (max limit settings.followingCap)).map p.core.dress)) :=
    Prepared.yieldsPages_similarity hstore hs hliked hscored limit
  have horders :=
    Prepared.orders_similarity hstore hs hapart (hr.hasFiniteScores hothers) (max limit settings.followingCap)
  have hread : Cursor.read r.cursor r.nextValue = .ok none := Cursor.read_start hstart
  have hremains := p.remains_start (sortDocuments p.cursorPlan.sortKeys
    ((p.core.firsts store follower (max limit settings.followingCap)).map p.core.dress))
  refine ⟨exists_following_of_yieldsPages hy horders hlimit hr hread hremains, fun pages hpages => ?_⟩
  obtain ⟨raws, rfl, hflat, hfull⟩ := hpages.eq_of_yieldsPages hy horders hlimit hr hread hremains
  refine ⟨?_, hfull.decorate p store others⟩
  rw [← hflat]
  exact p.map_id?_decorate store others raws

/-- A feed of what the accounts made that someone follows, by similarity, where nobody's likes are asked for, over a
store that does not change, in three parts. It needs that what is followed is kept apart.
1. A client can follow the pages to the first empty one.
2. The pages show, each once and in the strict order of the scores, the newest documents of each that is followed which
   the request accepts and collaborators allow: of as many as the larger of the page size and the cap. Every page but
   the last that has documents is full.
3. These are all documents of those who are followed exactly where none of them has more. -/
theorem followed_similarity_exact (hstore : store.Reachable) (hothers : others.IsFinite)
    (hr : Serves settings store others r limit p) (hstart : Cursor.given? r.cursor = none) (hlimit : 0 < limit)
    (hs : p.strategy = .graphFanOut (some follower)) (hliked : p.criteria.likedBy? = none)
    (hscored : p.core.isScored = true) (hapart : p.core.Apart store follower) :
    let names := p.core.followees store follower
    let count := max limit settings.followingCap
    let newest := names.flatMap fun name => (sortDocuments [.idDescending] (p.core.offered store name)).take count
    (∃ pages, Following settings store others r pages) ∧
    ∀ pages, Following settings store others r pages →
      ((pages.flatMap FeedPage.docs).map Document.id? =
          (sortDocuments p.cursorPlan.sortKeys (newest.map p.core.dress)).map Document.id? ∧
        (sortDocuments p.cursorPlan.sortKeys (newest.map p.core.dress)).Pairwise
          (fun a b => compareDocuments p.cursorPlan.sortKeys a b = .lt) ∧
        Identified (pages.flatMap FeedPage.docs) ∧ FullPages limit (pages.map FeedPage.docs)) ∧
      ((pages.flatMap FeedPage.docs).map Document.id? =
          (sortDocuments p.cursorPlan.sortKeys ((names.flatMap (p.core.offered store)).map p.core.dress)).map
            Document.id? ↔
        ∀ name ∈ names, (p.core.offered store name).length ≤ count) := by
  intro names count newest
  have hnewest : newest = p.core.firsts store follower count := by
    rw [PlanRequest.firsts, PlanRequest.fanOut, hscored]
    rfl
  rw [hnewest]
  obtain ⟨hexists, hshown⟩ := following_similarity hstore hothers hr hstart hlimit hs hliked hscored hapart
  refine ⟨hexists, fun pages hpages => ?_⟩
  obtain ⟨hids, hfull⟩ := hshown pages hpages
  have horders := Prepared.orders_similarity hstore hs hapart (hr.hasFiniteScores hothers) count
  have hidentified : Identified ((p.core.firsts store follower count).map p.core.dress) :=
    (hapart.identified_firsts (hstore.identified _) count).of_ids (by simp)
  refine ⟨⟨hids, horders.strict, (hidentified.perm (sortDocuments_perm _ _).symm).of_ids hids, hfull⟩, ?_⟩
  rw [hids]
  exact Prepared.map_id?_firsts_iff hstore hs hapart count

theorem Sample.isFinite_naming {neighbors : List Neighbor} (h : ∀ n ∈ neighbors, n.score.isFinite = true) :
    (naming neighbors).IsFinite := by
  constructor
  · rintro _ _ _ _ ⟨rfl⟩
    exact h
  · rintro _ _ _ _ ⟨rfl⟩
    exact h

/-- The older document of an account is more similar, with a score of two, than the newer one, with a score of one. A
third document is the most similar. -/
def Sample.neighbors : List Neighbor :=
  [⟨uuid 1, ⟨false, 0x4000000000000000⟩⟩, ⟨uuid 2, ⟨false, 0x3ff0000000000000⟩⟩, ⟨uuid 12, ⟨false, 0x4008000000000000⟩⟩]

/-- Two documents of an account that another one follows, and a document of two accounts that are followed by yet
another one. -/
def Sample.similarFollowed : Store :=
  .ofList [(.creations, owned 1 7), (.creations, owned 2 7),
    (.creations, (creation 12).set (.field "user") (.array [.string (uuid 9).toText, .string (uuid 10).toText])),
    (.follows, follow 8 3 7), (.follows, follow 13 11 9), (.follows, follow 14 11 10)]

/-- What is prepared for a follower who asks for what is similar. -/
def Sample.preparedSimilar (follower : Nat) : Prepared :=
  { prepared ⟨[⟨.similar, [.id (uuid 15)]⟩], some ⟨.similarity, .descending⟩, true, false⟩ (some (uuid follower)) with
    allowed := some (.ofNeighbors neighbors) }

/-- Pages of what a follower follows, by similarity. -/
def Sample.similarRequest (follower limit : Nat) : FeedRequest :=
  { request ["creation;00000000-0000-0000-0000-00000000000f"] ["following", "similarity"] (some (uuid follower)) with
    limit := some limit }

theorem Sample.serves_similarRequest (limit : Nat)
    (hlimit : Service.pageSize { followingCap := 1 } (some limit) = .ok limit)
    (follower : Nat) (hfollower : follower = 3 ∨ follower = 11) :
    Serves { followingCap := 1 } similarFollowed (naming neighbors) (similarRequest follower limit) limit
      (preparedSimilar follower) := by
  refine ⟨rfl, hlimit, ⟨[⟨.similar, [.id (uuid 15)]⟩], some ⟨.similarity, .descending⟩, true, false⟩, rfl, ?_⟩
  rcases hfollower with rfl | rfl <;> rfl

/-- What the follows of the small store name and what they are joined with: the newer document of the followed account
comes before the older one, and the document of two accounts is found for both. -/
theorem Sample.joins_similarFollowed :
    (preparedSimilar 3).core.followees similarFollowed (uuid 3) = [Lookup.idKey (uuid 7)] ∧
    (∃ d ∈ (preparedSimilar 3).core.offered similarFollowed (Lookup.idKey (uuid 7)), d.id? = some (uuid 1)) ∧
    (∀ d ∈ (preparedSimilar 3).core.offered similarFollowed (Lookup.idKey (uuid 7)), d.id? = some (uuid 1) →
      ∃ e ∈ (preparedSimilar 3).core.offered similarFollowed (Lookup.idKey (uuid 7)),
        compareDocuments (preparedSimilar 3).core.fanOut.sort d e = .gt) ∧
    (preparedSimilar 11).core.followees similarFollowed (uuid 11) = [Lookup.idKey (uuid 9), Lookup.idKey (uuid 10)] ∧
    ∀ name ∈ [Lookup.idKey (uuid 9), Lookup.idKey (uuid 10)],
      ((preparedSimilar 11).core.offered similarFollowed name).map Document.id? =
        List.replicate 1 (some (uuid 12)) := by
  decide +kernel

theorem Sample.apart_similarFollowed : (preparedSimilar 3).core.Apart similarFollowed (uuid 3) := by
  constructor
  · rw [joins_similarFollowed.1]
    decide
  · rw [joins_similarFollowed.1]
    simp

/-- The theorem at pages of one document, where one document of each that is followed is joined. -/
theorem followed_similarity_exact_sample :
    let p := Sample.preparedSimilar 3
    let names := p.core.followees Sample.similarFollowed (Sample.uuid 3)
    let offered := p.core.offered Sample.similarFollowed
    let newest := names.flatMap fun name => (sortDocuments [.idDescending] (offered name)).take 1
    (∃ pages, Following { followingCap := 1 } Sample.similarFollowed (Sample.naming Sample.neighbors)
      (Sample.similarRequest 3 1) pages) ∧
    ∀ pages,
      Following { followingCap := 1 } Sample.similarFollowed (Sample.naming Sample.neighbors)
        (Sample.similarRequest 3 1) pages →
      ((pages.flatMap FeedPage.docs).map Document.id? =
          (sortDocuments p.cursorPlan.sortKeys (newest.map p.core.dress)).map Document.id? ∧
        (sortDocuments p.cursorPlan.sortKeys (newest.map p.core.dress)).Pairwise
          (fun a b => compareDocuments p.cursorPlan.sortKeys a b = .lt) ∧
        Identified (pages.flatMap FeedPage.docs) ∧ FullPages 1 (pages.map FeedPage.docs)) ∧
      ((pages.flatMap FeedPage.docs).map Document.id? =
          (sortDocuments p.cursorPlan.sortKeys ((names.flatMap offered).map p.core.dress)).map Document.id? ↔
        ∀ name ∈ names, (offered name).length ≤ 1) := by
  have hstore : Sample.similarFollowed.Reachable := Store.reachable_ofList _
  have hothers : (Sample.naming Sample.neighbors).IsFinite := Sample.isFinite_naming (by decide)
  have hserves := Sample.serves_similarRequest 1 rfl 3 (.inl rfl)
  have hcount : max 1 ({ followingCap := 1 } : Settings).followingCap = 1 := rfl
  have hexact :=
    followed_similarity_exact hstore hothers hserves rfl (by decide) rfl rfl rfl Sample.apart_similarFollowed
  rw [hcount] at hexact
  exact hexact

/-- A page of two shows the document of two accounts that are followed twice. -/
theorem Sample.exists_page_twice : ∃ page,
    Answers { followingCap := 1 } similarFollowed (naming neighbors) (similarRequest 11 2) page ∧
      page.docs.map Document.id? = [some (uuid 12), some (uuid 12)] := by
  let q := (preparedSimilar 11).request (.cursor none 2) 1
  have hstore : similarFollowed.Reachable := Store.reachable_ofList _
  have hnames : q.followees similarFollowed (uuid 11) = [Lookup.idKey (uuid 9), Lookup.idKey (uuid 10)] :=
    joins_similarFollowed.2.2.2.1
  have hoffered : ∀ name ∈ [Lookup.idKey (uuid 9), Lookup.idKey (uuid 10)],
      (q.offered similarFollowed name).map Document.id? = List.replicate 1 (some (uuid 12)) :=
        joins_similarFollowed.2.2.2.2
  have hfirst : ∀ name ∈ [Lookup.idKey (uuid 9), Lookup.idKey (uuid 10)],
      ((sortDocuments q.fanOut.sort (q.offered similarFollowed name)).take q.share).map Document.id? =
      [some (uuid 12)] := by
    intro name hname
    rw [List.map_take, map_sortDocuments_of_replicate (hoffered name hname)]
    rfl
  have hfirsts : ((q.firsts similarFollowed (uuid 11) q.share).map q.dress).map Document.id? =
      List.replicate 2 (some (uuid 12)) := by
    rw [List.map_map]
    simp only [Function.comp_def, PlanRequest.id?_dress]
    rw [PlanRequest.firsts, hnames, List.flatMap_cons, List.flatMap_singleton, List.map_append, hfirst _ (by simp),
      hfirst _ (by simp)]
    rfl
  have hlate (docs : List Document) : (docs.filter fun d => !q.isScored || q.bound.accepts d) = docs := by
    refine List.filter_eq_self.2 fun d _ => ?_
    simp [PlanRequest.bound, CursorPlan.bound, show q.window.cursor? = none from rfl]
  have hdocuments : q.documents similarFollowed (naming neighbors) =
      Stage.results similarFollowed (naming neighbors) q.window.stages
      (sortDocuments q.cursorPlan.sortKeys ((q.firsts similarFollowed (uuid 11) q.share).map q.dress)) := by
    rw [PlanRequest.documents_firsts (q := q) (hstore.identified _) rfl,
      PlanRequest.filter_passes_of_likedBy rfl, hlate]
  refine ⟨_, ((serves_similarRequest 2 rfl 11 (.inr rfl)).answers_iff rfl).2 rfl, ?_⟩
  rw [Prepared.map_id?_docs_decorate]
  change (q.documents similarFollowed (naming neighbors)).map Document.id? = _
  rw [hdocuments]
  change ((sortDocuments _ _).take 2).map Document.id? = _
  rw [List.map_take, map_sortDocuments_of_replicate hfirsts]
  rfl

/-- With a cap of one, the older document of the followed account is on no page, although it is the more similar one;
and where no two follows name the same, a document of two accounts that are followed is on one page twice. -/
theorem followed_similarity_misses :
    ((∃ d ∈ ((Sample.preparedSimilar 3).core.followees Sample.similarFollowed (Sample.uuid 3)).flatMap
        ((Sample.preparedSimilar 3).core.offered Sample.similarFollowed), d.id? = some (Sample.uuid 1)) ∧
      ∃ pages,
        Following { followingCap := 1 } Sample.similarFollowed (Sample.naming Sample.neighbors)
          (Sample.similarRequest 3 1) pages ∧
        ∀ x ∈ pages.flatMap FeedPage.docs, x.id? ≠ some (Sample.uuid 1)) ∧
    ((Sample.preparedSimilar 11).core.followees Sample.similarFollowed (Sample.uuid 11)).Nodup ∧
    ∃ page, Answers { followingCap := 1 } Sample.similarFollowed (Sample.naming Sample.neighbors)
      (Sample.similarRequest 11 2) page ∧
      page.docs.map Document.id? = [some (Sample.uuid 12), some (Sample.uuid 12)] := by
  obtain ⟨hnames, hmost, hbefore, hnames', -⟩ := Sample.joins_similarFollowed
  refine ⟨⟨by rwa [hnames, List.flatMap_singleton], ?_⟩, by rw [hnames']; decide, Sample.exists_page_twice⟩
  have hstore : Sample.similarFollowed.Reachable := Store.reachable_ofList _
  have hothers : (Sample.naming Sample.neighbors).IsFinite := Sample.isFinite_naming (by decide)
  obtain ⟨⟨pages, hpages⟩, hshown⟩ :=
    following_similarity hstore hothers (Sample.serves_similarRequest 1 rfl 3 (.inl rfl)) rfl
    (by decide) rfl rfl rfl Sample.apart_similarFollowed
  refine ⟨pages, hpages, fun x hx hid => ?_⟩
  have hmem : x.id? ∈ (pages.flatMap FeedPage.docs).map Document.id? := List.mem_map_of_mem hx
  rw [(hshown pages hpages).1] at hmem
  obtain ⟨y, hy, hyid⟩ := List.mem_map.1 hmem
  obtain ⟨d, hd, rfl⟩ := List.mem_map.1 ((mem_sortDocuments _).1 hy)
  rw [PlanRequest.id?_dress, hid] at hyid
  rw [PlanRequest.firsts, hnames, List.flatMap_singleton] at hd
  -- the newer document comes before the older one in the join
  obtain ⟨e, he, hgt⟩ := hbefore d ((mem_sortDocuments _).1 (List.mem_of_mem_take hd)) hyid
  have hle := isLE_of_mem_take_one hd he
  rw [hgt] at hle
  exact absurd hle (by decide)

end FollowedSimilarity

end FeedQuery
