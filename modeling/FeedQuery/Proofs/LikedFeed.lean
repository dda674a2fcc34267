import FeedQuery.Proofs.Paging

/-!
# Feeds in the order of the likes

A feed of what an account liked, in the order in which it was liked, goes through the live likes of the account, newest
first. The cursor is the identifier of a like; likes that lead to nothing take no room on a page.
-/

namespace FeedQuery

/-- The document as it is reached through a like: with the identifier of the like, and with its time where it has
one. -/
def Document.throughLike (like d : Document) : Document :=
  let named := match like.get? .id with
    | some id => d.set .likedId id
    | none => d
  match like.get? .createdAt with
  | some time => named.set .likedAt time
  | none => named

/-- The stored document that a like is for, if the request accepts it. -/
def Prepared.likedDocument (p : Prepared) (store : Store) (like : Document) : Option Document :=
  (((like.get? (.field "entityId")).bind Json.id?).bind (store.get? p.collection)).filter p.core.accepts

/-- The live likes of an account for documents of the collection, newest first. -/
def Prepared.likes (p : Prepared) (store : Store) (liker : Uuid) : List Document :=
  sortDocuments [.idDescending]
    ((store.docs .reactions).filter (Reaction.of liker .like p.collection p.visibility.softDelete).accepts)

/-- A value that a client may send: none, or a finite number. -/
def Cursor.IsWellFormed (nextValue : Option String) : Prop :=
  Cursor.given? nextValue = none ∨ ∃ raw value, Cursor.given? nextValue = some raw ∧ Cursor.readValue raw = .ok value

section LikedFeed

variable {settings : Settings} {store : Store} {others : Collaborators} {r : FeedRequest} {limit : Nat} {p : Prepared}
  {liker : Uuid}

/-- What the likes lead to, in their order. -/
theorem sortDocuments_selection_likes (hstore : store.Reachable) (hs : p.strategy = .reactionFanOut (some liker))
    (ho : p.core.isReactionOrder = true) : sortDocuments p.cursorPlan.sortKeys (p.core.selection store) =
      (p.likes store liker).filterMap fun like => (p.likedDocument store like).map like.throughLike := by
  have hrows : p.core.rows store = (store.docs .reactions).filter _ := PlanRequest.rows_likes hs
  have hlikes : Identified (p.core.rows store) := by
    rw [hrows]
    exact (hstore.identified .reactions).filter _
  have hlink : p.core.link = .field "entityId" := by simp [PlanRequest.link, Prepared.core, Prepared.request, hs]
  have hcarried : p.core.carried = [(.id, .likedId), (.createdAt, .likedAt)] := by
    simp [PlanRequest.carried, Prepared.core, Prepared.request, hs]
  have hthrough : p.core.throughLike store = fun like => (p.likedDocument store like).map like.throughLike := by
    funext like
    unfold PlanRequest.throughLike PlanRequest.target?
    rw [hlink, hcarried, PlanRequest.accepts_documentFilter]
    rfl
  rw [PlanRequest.selection_likes ho, ← hthrough]
  exact (PlanRequest.sortDocuments_likes ho hlikes).trans (by rw [hrows]; rfl)

/-- The request yields what the likes lead to, in their order. -/
theorem yields_likes (settings : Settings) (others : Collaborators) (hstore : store.Reachable)
    (hplain : ∀ d ∈ store.docs .reactions, d.IsPlain)
    (hs : p.strategy = .reactionFanOut (some liker)) (ho : p.core.isReactionOrder = true)
    (hlinked : p.core.Linked (p.core.rows store)) :
    p.Yields settings store others (sortDocuments p.cursorPlan.sortKeys (p.core.selection store)) ∧
      p.Orders (sortDocuments p.cursorPlan.sortKeys (p.core.selection store)) := by
  have hrows : p.core.rows store = (store.docs .reactions).filter _ := PlanRequest.rows_likes hs
  have hlikes : Identified (p.core.rows store) := by
    rw [hrows]
    exact (hstore.identified .reactions).filter _
  have hdistinct : (p.core.selection store).Pairwise fun a b => compareDocuments p.cursorPlan.sortKeys a b ≠ .eq := by
    rw [PlanRequest.selection_likes ho]
    exact PlanRequest.pairwise_throughLike ho hlikes.isSome (· ≠ .eq) (CursorPlan.distinct_byId hlikes)
  constructor
  · refine Prepared.yields_of_documents ?_
    intro place limit
    have hroot : (p.request (.cursor place limit) settings.followingCap).HasPlainRoot store := by
      unfold PlanRequest.HasPlainRoot PlanRequest.root
      simp only [Prepared.request, hs]
      exact hplain
    exact PlanRequest.documents_likes (q := p.request (.cursor place limit) settings.followingCap) ho
      (hstore.identified _)
      (hstore.identified _) hroot hs hlinked
  · refine ⟨strict_sortDocuments hdistinct, ?_⟩
    intro d hd
    rw [mem_sortDocuments, PlanRequest.selection_likes ho] at hd
    obtain ⟨like, hlike, hd⟩ := List.mem_filterMap.1 hd
    obtain ⟨e, -, rfl⟩ := Option.map_eq_some_iff.1 hd
    obtain ⟨u, hu⟩ := hlikes.exists_id? hlike
    have hplace : p.cursorPlan.place? (like.carryInto p.core.carried e) = some ⟨u, none⟩ :=
      PlanRequest.place?_likes ho hu e
    rw [hplace]
    rfl

/-- A well-formed value next to an identifier is read. -/
theorem read_of_isWellFormed {cursor value : Option String} {raw : String} {id : Uuid}
    (hc : Cursor.given? cursor = some raw) (hid : Uuid.ofText? raw = some id) (hv : Cursor.IsWellFormed value) :
    ∃ v, Cursor.read cursor value = .ok (some ⟨id, v⟩) := by
  rcases hv with hnone | ⟨text, v, htext, hread⟩
  · exact ⟨none, by simp [Cursor.read, hc, hid, hnone]⟩
  · exact ⟨some v, by simp [Cursor.read, hc, hid, htext, hread, Except.map]⟩

/-- In the order of the likes, a value that the client sends changes nothing, as long as it is none or a finite
number. -/
theorem answers_of_isWellFormed {docs : List Document} (hr : Serves settings store others r limit p)
    (ho : p.core.isReactionOrder = true) (hy : p.Yields settings store others docs)
    {cursor value value' : Option String} (hv : Cursor.IsWellFormed value) (hv' : Cursor.IsWellFormed value')
    {page : FeedPage} (h : Answers settings store others { r with cursor := cursor, nextValue := value } page) :
    Answers settings store others { r with cursor := cursor, nextValue := value' } page := by
  have hcongr (hread : Cursor.read cursor value = Cursor.read cursor value') :
      Answers settings store others { r with cursor := cursor, nextValue := value' } page := by
    unfold Answers Service.feed at h ⊢
    simpa only [hread] using h
  cases hc : Cursor.given? cursor with
  | none => exact hcongr (by simp [Cursor.read, hc])
  | some raw =>
    cases hid : Uuid.ofText? raw with
    | none => exact hcongr (by simp [Cursor.read, hc, hid])
    | some id =>
      obtain ⟨v, hread⟩ := read_of_isWellFormed hc hid hv
      obtain ⟨v', hread'⟩ := read_of_isWellFormed hc hid hv'
      have hserves (nextValue : Option String) :
          Serves settings store others { r with cursor := cursor, nextValue := nextValue } limit p :=
        ⟨hr.isFeed, hr.pageSize, hr.prepared⟩
      have hbound : p.cursorPlan.bound (some ⟨id, v⟩) = p.cursorPlan.bound (some ⟨id, v'⟩) := by
        rw [Prepared.cursorPlan, PlanRequest.key_of_isReactionOrder _ ho]
        rfl
      rw [(hserves value).answers_iff hread, hy, hbound, ← hy] at h
      exact ((hserves value').answers_iff hread').2 h

/-- A feed of what an account liked, in the order of the likes, over a store that does not change, in three parts. It
needs that no reaction has an object under `doc`, and that the live likes of the account name documents by their
identifiers.
1. A client can follow the pages to the first empty one.
2. The pages that it sees are made of documents which together are exactly those that the live likes lead to, one for
   each like whose document is stored and accepted, with the identifier and the time of the like; the newest like comes
   first, and every page but the last that has documents is full.
3. A value that the client sends, none or a finite number, changes no page, whatever cursor it sends. -/
theorem liked_feed_exact (hstore : store.Reachable) (hplain : ∀ d ∈ store.docs .reactions, d.IsPlain)
    (hr : Serves settings store others r limit p) (hstart : Cursor.given? r.cursor = none) (hlimit : 0 < limit)
    (hs : p.strategy = .reactionFanOut (some liker)) (ho : p.core.isReactionOrder = true)
    (hlinked : ∀ like ∈ p.likes store liker, ((like.get? (.field "entityId")).bind Json.id?).isSome = true) :
    (∃ pages, Following settings store others r pages) ∧
    (∀ pages, Following settings store others r pages → ∃ raws : List (List Document),
      pages = raws.map (p.decorate store others) ∧
      raws.flatten = (p.likes store liker).filterMap (fun like => (p.likedDocument store like).map like.throughLike) ∧
      (p.likes store liker).Pairwise (fun a b => compareDocuments [.idDescending] a b = .lt) ∧
      FullPages limit raws) ∧
    ∀ cursor value value' page, Cursor.IsWellFormed value → Cursor.IsWellFormed value' →
      Answers settings store others { r with cursor := cursor, nextValue := value } page →
      Answers settings store others { r with cursor := cursor, nextValue := value' } page := by
  have hrows : p.core.rows store = (store.docs .reactions).filter _ := PlanRequest.rows_likes hs
  have hlinks : p.core.Linked (p.core.rows store) := by
    have hlink : p.core.link = .field "entityId" := by simp [PlanRequest.link, Prepared.core, Prepared.request, hs]
    intro like hlike
    rw [hlink]
    rw [hrows] at hlike
    exact hlinked like ((mem_sortDocuments _).2 hlike)
  obtain ⟨hy, horders⟩ := yields_likes settings others hstore hplain hs ho hlinks
  have hread : Cursor.read r.cursor r.nextValue = .ok none := Cursor.read_start hstart
  have hremains := p.remains_start (sortDocuments p.cursorPlan.sortKeys (p.core.selection store))
  refine ⟨exists_following hy horders hlimit hr hread hremains, ?_, ?_⟩
  · intro pages hpages
    obtain ⟨raws, hraws, hflat, hfull⟩ := hpages.eq_of_remains hy horders hlimit hr hread hremains
    refine ⟨raws, hraws, hflat.trans (sortDocuments_selection_likes hstore hs ho), ?_, hfull⟩
    exact strict_sortDocuments (CursorPlan.distinct_byId ((hstore.identified .reactions).filter _))
  · intro cursor value value' page hv hv' h
    exact answers_of_isWellFormed hr ho hy hv hv' h

/-- A like of the account. -/
def Sample.likeOf (n target : Nat) : Document := ⟨[("_id", .string (uuid n).toText), ("user", .string (uuid 3).toText),
  ("reaction", .string "like"), ("entityType", .string "creation"), ("entityId", .string (uuid target).toText)]⟩

/-- The account likes three documents, of which one is not public. -/
def Sample.likedThrice : Store := .ofList [(.creations, creation 1), (.creations, creation 2),
  (.creations, (creation 6).set .isPublic (.bool false)),
  (.reactions, likeOf 7 1), (.reactions, likeOf 8 6), (.reactions, likeOf 9 2)]

/-- The theorem at three likes, of which the second leads to a document that is not accepted. -/
theorem liked_feed_exact_sample :
    let store := Sample.likedThrice
    let p := Sample.prepared ⟨[], none, false, true⟩ (some (Sample.uuid 3))
    let r := Sample.request [] ["liked"] (some (Sample.uuid 3))
    (store.docs .reactions).map (fun like => (p.likedDocument store like).map Document.id?) =
      [some (some (Sample.uuid 1)), none, some (some (Sample.uuid 2))] ∧
    (∃ pages, Following {} store .absent r pages) ∧
    (∀ pages, Following {} store .absent r pages → ∃ raws : List (List Document),
      pages = raws.map (p.decorate store .absent) ∧
      raws.flatten =
        (p.likes store (Sample.uuid 3)).filterMap (fun like => (p.likedDocument store like).map like.throughLike) ∧
      (p.likes store (Sample.uuid 3)).Pairwise (fun a b => compareDocuments [.idDescending] a b = .lt) ∧
      FullPages 1 raws) ∧
    ∀ cursor value value' page, Cursor.IsWellFormed value → Cursor.IsWellFormed value' →
      Answers {} store .absent { r with cursor := cursor, nextValue := value } page →
      Answers {} store .absent { r with cursor := cursor, nextValue := value' } page := by
  have hplain : ∀ d ∈ Sample.likedThrice.docs .reactions, d.IsPlain := by decide +kernel
  have hserves : Serves {} Sample.likedThrice .absent (Sample.request [] ["liked"] (some (Sample.uuid 3))) 1
      (Sample.prepared ⟨[], none, false, true⟩ (some (Sample.uuid 3))) := ⟨rfl, rfl, ⟨[], none, false, true⟩, rfl, rfl⟩
  refine ⟨by decide +kernel, liked_feed_exact (Store.reachable_ofList _) hplain hserves rfl (by decide) rfl rfl ?_⟩
  intro like hlike
  rw [Prepared.likes, mem_sortDocuments] at hlike
  revert like
  decide +kernel

end LikedFeed

end FeedQuery
