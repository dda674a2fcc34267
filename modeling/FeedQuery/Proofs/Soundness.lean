import FeedQuery.Proofs.Gathering
import FeedQuery.Proofs.Paging
import FeedQuery.Proofs.Tokens

/-!
# What is served may be seen

Whatever strategy a request takes, and wherever that strategy applies the filters, every document that its plan yields
is a stored document of its collection that the document filter accepts and, where the likes of an account are asked
for, that the account has liked (`PlanRequest.exists_source`). A document is `Shown` where executing a plan for the
request yields it, in some window; pages of a feed and of a listing have that in common (`Answers.shown`,
`Lists.shown`). So every document of such a page is one that the viewer may see and that was asked for
(`served_sound`).
-/

namespace FeedQuery

open Document (AgreesApart)

namespace PlanRequest

variable {store : Store} {others : Collaborators} (q : PlanRequest)

/-- Every document that a plan yields comes from a document of the store that the filter accepts and that passes the
filter by likes. -/
theorem exists_source (hstore : Identified (store.docs q.collection)) (hplain : store.HasPlainLinks) {x : Document}
    (hx : x ∈ q.documents store others) : ∃ d, q.IsSource store d ∧ q.passes store d = true ∧
      AgreesApart ["likedId", "likedAt", "similarity", "_likedBy"] d x := by
  obtain ⟨y, hy, hpasses, -, rfl⟩ := exists_gathered_of_mem hstore hplain hx
  obtain ⟨d, hd, -, hagrees⟩ := exists_source_of_mem_gathered hstore hy
  have hpassesd : q.passes store d = q.passes store y := by simp [passes, Store.isLiked, hagrees.id?_eq]
  exact ⟨d, hd, hpassesd.trans hpasses, (hagrees.mono (by simp)).trans ((q.agreesApart_dress y).mono (by simp))⟩

end PlanRequest

theorem Strategy.liker_of_select {c : Criteria} {viewer liker : Option Uuid}
    (h : select c viewer = .reactionFanOut liker) :
    liker = c.likedBy?.or viewer := by
  unfold select at h
  split at h
  · simp at h
  · simp at h
  · split at h
    · simp at h
    · split at h
      · exact (Strategy.reactionFanOut.inj h).symm
      · simp at h

/-- Where the likes of an account are asked for, what a plan yields was liked by it, whatever strategy was selected. -/
theorem PlanRequest.IsSource.isLiked {q : PlanRequest} {store : Store} {d : Document} (h : q.IsSource store d)
    (hpasses : q.passes store d = true) {viewer : Option Uuid} (hs : q.strategy = .select q.criteria viewer)
    {liker : Uuid} (hliker : q.criteria.likedBy? = some liker) :
    store.isLiked q.collection liker q.visibility.softDelete d = true := by
  cases hr : q.strategy.isReactionFanOut with
  | false => simpa [passes, hr, hliker] using hpasses
  | true =>
    refine h.liked liker ?_
    cases hstrategy : q.strategy with
    | reactionFanOut other =>
      rw [Strategy.liker_of_select (hs.symm.trans hstrategy), hliker]
      rfl
    | _ => simp [hstrategy, Strategy.isReactionFanOut] at hr

/-! ## What a request is answered with -/

/-- The page that a request for a listing is answered with. -/
def Lists (settings : Settings) (store : Store) (others : Collaborators) (r : ListRequest) (page : ListPage) : Prop :=
  ∃ answer, Service.list settings r = .ok answer ∧ answer.run store others = page

/-- Where everything that a plan puts in order has one identifier, a page of that identifier is served. -/
theorem Serves.exists_page {settings : Settings} {store : Store} {others : Collaborators} {r : FeedRequest}
    {limit : Nat} {p : Prepared} (h : Serves settings store others r limit p) {place : Option Cursor}
    (hplace : Cursor.read r.cursor r.nextValue = .ok place) (hstore : store.Reachable) (hplain : store.HasPlainLinks)
    {q : PlanRequest} (hq : p.request (.cursor place limit) settings.followingCap = q) {count : Nat} {id : Option Uuid}
    (hsame : ((((q.gathered store others).filter (q.passes store)).map q.dress).filter fun d =>
      !q.isScored || q.bound.accepts d).map Document.id? = List.replicate count id) :
    ∃ page, Answers settings store others r page ∧
      page.docs.map Document.id? = List.replicate (min limit count) id := by
  subst hq
  refine ⟨_, (h.answers_iff hplace).2 rfl, ?_⟩
  rw [Prepared.map_id?_docs_decorate, Prepared.raw, PlanRequest.documents_eq (hstore.identified _) hplain]
  exact map_id?_page hsame

/-- Where what a plan puts in order is in strict order already, a page of the first of it is served. -/
theorem Serves.answers_of_strict {settings : Settings} {store : Store} {others : Collaborators} {r : FeedRequest}
    {limit : Nat} {p : Prepared} (h : Serves settings store others r limit p) {place : Option Cursor}
    (hplace : Cursor.read r.cursor r.nextValue = .ok place) (hstore : store.Reachable) (hplain : store.HasPlainLinks)
    {q : PlanRequest} (hq : p.request (.cursor place limit) settings.followingCap = q) {docs : List Document}
    (hdocs : (((q.gathered store others).filter (q.passes store)).map q.dress).filter
      (fun d => !q.isScored || q.bound.accepts d) = docs)
    (hstrict : docs.Pairwise fun a b => compareDocuments q.cursorPlan.sortKeys a b = .lt) :
    Answers settings store others r (p.decorate store others (docs.take limit)) := by
  subst hq hdocs
  refine (h.answers_iff hplace).2 ?_
  rw [Prepared.raw, PlanRequest.documents_eq (hstore.identified _) hplain, sortDocuments_eq_of_perm (.refl _) hstrict]
  rfl

/-- Everything that has to hold of a stored document before it may be served. -/
structure Vouched (settings : Settings) (store : Store) (others : Collaborators) (collection : Collection)
    (viewer : Option Uuid) (softDelete : SoftDelete) (c : Criteria) (d : Document) : Prop where
  stored : d ∈ store.docs collection
  /-- The viewer may see it. -/
  visible : ((Visibility.resolve c viewer ((Service.ownsCollection c viewer).run store others) softDelete).predicate c
    collection).accepts d = true
  /-- It is what the filters and the order ask for. -/
  asked : (c.documentPredicate collection).accepts d = true
  /-- It is among the neighbors of the document that is to be similar, if there is one. -/
  similar : ∀ reference, c.hints.similarTo = some reference → ∃ neighbors,
    others.similar collection reference settings.similarityTopK = some neighbors ∧ ∃ n ∈ neighbors, d.id? = some n.id
  /-- It is among what was found for the text that is searched for, if there is one. -/
  found : ∀ text, c.hints.search = some text → ∃ neighbors,
    others.search collection text settings.searchTopK = some neighbors ∧ ∃ n ∈ neighbors, d.id? = some n.id
  /-- The store holds a like for it of the account whose likes are asked for, if there is one. -/
  liked : ∀ liker, c.likedBy? = some liker → store.isLiked collection liker softDelete d = true

/-- The fields that serving a document may write or take away. -/
def served (collection : Collection) (viewer : Option Uuid) : List String :=
  ["likedId", "likedAt", "similarity", "_likedBy"] ++ decorated collection viewer

theorem Scores.exists_mem_of_accepts {s : Scores} {d : Document} {u : Uuid} (hu : d.id? = some u)
    (h : s.predicate.accepts d = true) : ∃ entry ∈ s.entries, d.id? = some entry.1 := by
  obtain ⟨score, hscore⟩ := exists_get?_of_accepts hu h
  obtain ⟨entry, hentry, -⟩ := Option.map_eq_some_iff.1 hscore
  have hfound := List.find?_some hentry
  have hid : entry.1 = u := beq_iff_eq.1 hfound
  exact ⟨entry, List.mem_of_find?_eq_some hentry, by rw [hu, hid]⟩

/-- A document that has a score was named by every collaborator that was asked. -/
theorem Service.neighbors_of_allowed {settings : Settings} {store : Store} {others : Collaborators}
    {collection : Collection} {hints : Hints} {allowed : Option Scores} {d : Document} {u : Uuid} (hu : d.id? = some u)
    (hconsult : (consult settings collection hints).run store others = .unneeded ∧ allowed = none ∨
      ∃ scores, (consult settings collection hints).run store others = .allowed scores ∧ allowed = some scores)
    (hallowed : ((allowed.map Scores.predicate).getD .always).accepts d = true) :
    (∀ reference, hints.similarTo = some reference → ∃ neighbors,
      others.similar collection reference settings.similarityTopK = some neighbors ∧
      ∃ n ∈ neighbors, d.id? = some n.id) ∧
    ∀ text, hints.search = some text → ∃ neighbors,
      others.search collection text settings.searchTopK = some neighbors ∧ ∃ n ∈ neighbors, d.id? = some n.id := by
  rcases hconsult with ⟨hrun, -⟩ | ⟨scores, hrun, rfl⟩
  · obtain ⟨hsimilar, hsearch⟩ := hints_of_consult hrun
    simp [hsimilar, hsearch]
  · obtain ⟨hsimilar, hsearch, -⟩ := mem_of_consult hrun
    obtain ⟨entry, hentry, hid⟩ := Scores.exists_mem_of_accepts hu hallowed
    constructor
    · intro reference href
      obtain ⟨neighbors, hreply, hnamed⟩ := hsimilar reference href
      obtain ⟨n, hn, heq⟩ := hnamed entry hentry
      exact ⟨neighbors, hreply, n, hn, by rw [hid, heq]⟩
    · intro text htext
      obtain ⟨neighbors, hreply, hnamed⟩ := hsearch text htext
      obtain ⟨n, hn, heq⟩ := hnamed entry hentry
      exact ⟨neighbors, hreply, n, hn, by rw [hid, heq]⟩

section Prepared

variable {settings : Settings} {store : Store} {others : Collaborators} {collection : Collection} {viewer : Option Uuid}
  {softDelete : SoftDelete} {c : Criteria} {p : Prepared}

/-- Of what is prepared, the plan yields documents that are vouched for, in every window. -/
theorem Prepared.exists_vouched (hstore : store.Reachable) (hplain : store.HasPlainLinks)
    (hp : (Service.prepare settings collection c viewer softDelete).run store others = some p) {window : Window}
    {followingCap : Nat} {x : Document} (hx : x ∈ (p.request window followingCap).documents store others) :
    ∃ d, Vouched settings store others collection viewer softDelete c d ∧
      AgreesApart ["likedId", "likedAt", "similarity", "_likedBy"] d x := by
  obtain ⟨collection', criteria', visibility, strategy, allowed⟩ := p
  obtain ⟨heq, hconsult⟩ := Service.prepare_eq_some hp
  obtain ⟨rfl, rfl, rfl, rfl, -⟩ := (Prepared.mk.injEq ..).mp heq
  obtain ⟨d, hsource, hpasses, hagrees⟩ := PlanRequest.exists_source _ (hstore.identified collection') hplain hx
  obtain ⟨u, hu⟩ := (hstore.identified collection').exists_id? hsource.stored
  have haccepted := hsource.accepted
  simp only [PlanRequest.documentFilter, Predicate.accepts_all, List.all_cons, List.all_nil, Bool.and_eq_true,
    Bool.and_true]
    at haccepted
  obtain ⟨hvisible, hasked, hallowed⟩ := haccepted
  obtain ⟨hsimilar, hfound⟩ := Service.neighbors_of_allowed hu hconsult hallowed
  exact ⟨d, ⟨hsource.stored, hvisible, hasked, hsimilar, hfound,
    fun liker hliker => hsource.isLiked hpasses rfl hliker⟩, hagrees⟩

/-- Serving leaves the identifier as it was. -/
theorem id?_of_served {d x : Document} (h : AgreesApart (served collection viewer) d x) : x.id? = d.id? := by
  apply h.id?_eq
  intro hmem
  rcases List.mem_append.1 hmem with hmem | hmem
  · simp at hmem
  · have hnames := decorated_subset _ _ hmem
    simp at hnames

end Prepared

namespace Service

theorem of_mapError_eq_ok {ε ε' α : Type} {x : Except ε α} {f : ε → ε'} {a : α} (h : x.mapError f = .ok a) :
    x = .ok a := by
  cases x with
  | error e => simp [Except.mapError] at h
  | ok b => exact congrArg _ (Except.ok.inj h)

/-- A request that is not refused is for a feed. -/
theorem isFeed_of_checkFeed {α : Type} {collection : Collection} {next : Unit → Except ServiceError α} {result : α}
    (h : (checkFeed collection >>= next) = .ok result) : collection.isFeed = true := by
  obtain ⟨_, hcheck, -⟩ := of_bind_eq_ok h
  unfold checkFeed at hcheck
  split at hcheck
  · assumption
  · simp at hcheck

/-- A request for a page that is not refused has criteria, and is answered by serving a page of what is prepared for
them. -/
theorem feed_eq_ok {settings : Settings} {r : FeedRequest} {answer : Exchange FeedPage}
    (h : feed settings r = .ok answer) :
    ∃ limit place c, Criteria.compile r.filters r.sorts = .ok c ∧
      answer = prepare settings r.collection c r.viewer r.softDelete >>= servePage settings r.viewer place limit := by
  obtain ⟨-, -, h⟩ := of_bind_eq_ok h
  obtain ⟨limit, -, h⟩ := of_bind_eq_ok h
  obtain ⟨place, -, h⟩ := of_bind_eq_ok h
  obtain ⟨c, hc, h⟩ := of_bind_eq_ok h
  exact ⟨limit, place, c, of_mapError_eq_ok hc, (Except.ok.inj h).symm⟩

/-- So it is with a request for a listing. -/
theorem list_eq_ok {settings : Settings} {r : ListRequest} {answer : Exchange ListPage}
    (h : list settings r = .ok answer) :
    ∃ page size c, Criteria.compile r.filters r.sorts = .ok c ∧
      answer = prepare settings r.collection c r.viewer r.softDelete >>= serveList settings page size := by
  obtain ⟨-, -, h⟩ := of_bind_eq_ok h
  obtain ⟨page, -, h⟩ := of_bind_eq_ok h
  obtain ⟨size, -, h⟩ := of_bind_eq_ok h
  obtain ⟨c, hc, h⟩ := of_bind_eq_ok h
  exact ⟨page, size, c, of_mapError_eq_ok hc, (Except.ok.inj h).symm⟩

end Service

/-! ## What is shown -/

/-- The document is one that executing a plan for the request yields, in some window. -/
def Shown (settings : Settings) (store : Store) (others : Collaborators) (collection : Collection)
    (viewer : Option Uuid) (softDelete : SoftDelete) (c : Criteria) (x : Document) : Prop :=
  ∃ p, (Service.prepare settings collection c viewer softDelete).run store others = some p ∧
    ∃ window followingCap, x ∈ (p.plan window followingCap).pipeline.execute.run store others

section Shown

variable {settings : Settings} {store : Store} {others : Collaborators}

/-- A document that is shown comes from a stored document that is vouched for, also when it has been enriched. -/
theorem Shown.exists_vouched {collection : Collection} {viewer : Option Uuid} {softDelete : SoftDelete} {c : Criteria}
    {x : Document} (h : Shown settings store others collection viewer softDelete c x) (hstore : store.Reachable)
    (hplain : store.HasPlainLinks) :
    ∃ d, Vouched settings store others collection viewer softDelete c d ∧ x.id? = d.id? ∧
      AgreesApart (served collection viewer) d x := by
  obtain ⟨p, hp, window, followingCap, hx⟩ := h
  rw [p.run_execute] at hx
  obtain ⟨f, hf, hfa⟩ := enrichment_decorates p.collection p.visibility.viewer store others
    ((p.request window followingCap).documents store others)
  rw [hf] at hx
  obtain ⟨y, hy, rfl⟩ := List.mem_map.1 hx
  obtain ⟨d, hd, hagrees⟩ := Prepared.exists_vouched hstore hplain hp hy
  have hdecorated := hfa y
  rw [Service.collection_of_prepare hp, Service.viewer_of_prepare hp] at hdecorated
  have hserved : AgreesApart (served collection viewer) d (f y) :=
    (hagrees.mono (List.subset_append_left _ _)).trans (hdecorated.mono (List.subset_append_right _ _))
  exact ⟨d, hd, id?_of_served hserved, hserved⟩

/-- The documents of a page of a feed are shown. -/
theorem Answers.shown {r : FeedRequest} {page : FeedPage} (h : Answers settings store others r page) :
    ∃ c, Criteria.compile r.filters r.sorts = .ok c ∧
      ∀ x ∈ page.docs, Shown settings store others r.collection r.viewer r.softDelete c x := by
  obtain ⟨answer, hanswer, rfl⟩ := h
  obtain ⟨limit, place, c, hc, rfl⟩ := Service.feed_eq_ok hanswer
  refine ⟨c, hc, ?_⟩
  intro x hx
  rw [Exchange.run_bind] at hx
  cases hp : (Service.prepare settings r.collection c r.viewer r.softDelete).run store others with
  | none => simp [hp, Service.servePage, FeedPage.empty] at hx
  | some p =>
    simp only [hp, Service.servePage, Exchange.run_bind, Exchange.run_pure, FeedPage.assemble] at hx
    exact ⟨p, hp, _, _, hx⟩

/-- So are the documents of a page of a listing. -/
theorem Lists.shown {r : ListRequest} {page : ListPage} (h : Lists settings store others r page) :
    ∃ c, Criteria.compile r.filters r.sorts = .ok c ∧
      ∀ x ∈ page.docs, Shown settings store others r.collection r.viewer r.softDelete c x := by
  obtain ⟨answer, hanswer, rfl⟩ := h
  obtain ⟨number, size, c, hc, rfl⟩ := Service.list_eq_ok hanswer
  refine ⟨c, hc, ?_⟩
  intro x hx
  rw [Exchange.run_bind] at hx
  cases hp : (Service.prepare settings r.collection c r.viewer r.softDelete).run store others with
  | none => simp [hp, Service.serveList, ListPage.assemble] at hx
  | some p =>
    simp only [hp, Service.serveList, Exchange.run_bind, Exchange.run_pure, ListPage.assemble] at hx
    exact ⟨p, hp, _, _, hx⟩

end Shown

/-- Every document that is served, as one of a page of a feed or of a listing, comes from a stored document of the
collection that is vouched for: the viewer may see it, the filters and the order ask for it, and the collaborators named
it and the account asked for liked it, where they were asked. It differs from that document only in fields that serving
writes, and never in the identifier. This needs that no document that may hold links has an object under `doc`. -/
theorem served_sound {store : Store} (hstore : store.Reachable) (hplain : store.HasPlainLinks) (settings : Settings)
    (others : Collaborators) :
    (∀ (r : FeedRequest) (page : FeedPage), Answers settings store others r page →
      ∃ c, Criteria.compile r.filters r.sorts = .ok c ∧
      ∀ x ∈ page.docs, ∃ d, Vouched settings store others r.collection r.viewer r.softDelete c d ∧ x.id? = d.id? ∧
        AgreesApart (served r.collection r.viewer) d x) ∧
    ∀ (r : ListRequest) (page : ListPage), Lists settings store others r page →
      ∃ c, Criteria.compile r.filters r.sorts = .ok c ∧
      ∀ x ∈ page.docs, ∃ d, Vouched settings store others r.collection r.viewer r.softDelete c d ∧ x.id? = d.id? ∧
        AgreesApart (served r.collection r.viewer) d x := by
  constructor
  · intro r page hpage
    obtain ⟨c, hc, hshown⟩ := hpage.shown
    exact ⟨c, hc, fun x hx => (hshown x hx).exists_vouched hstore hplain⟩
  · intro r page hpage
    obtain ⟨c, hc, hshown⟩ := hpage.shown
    exact ⟨c, hc, fun x hx => (hshown x hx).exists_vouched hstore hplain⟩

/-- A page of two members of a collection. -/
def Sample.membersRequest : FeedRequest :=
  { request ["collection;00000000-0000-0000-0000-000000000005"] [] none with limit := some 2 }

/-- What is prepared for the members of the collection. -/
def Sample.preparedMembers : Prepared := prepared ⟨[⟨.collection, [.id (uuid 5)]⟩], none, false, false⟩ none

theorem Sample.serves_membersRequest (store : Store) : Serves {} store .absent membersRequest 2 preparedMembers :=
  ⟨rfl, rfl, ⟨[⟨.collection, [.id (uuid 5)]⟩], none, false, false⟩, rfl, rfl⟩

/-- A collection of three documents, of which one is not public. -/
def Sample.partlyHidden : Store := .ofList [(.creations, creation 1), (.creations, creation 3),
  (.creations, (creation 6).set .isPublic (.bool false)),
  (.collections, ⟨[("_id", .string (uuid 5).toText),
    ("creations", .array [.string (uuid 3).toText, .string (uuid 6).toText, .string (uuid 1).toText])]⟩)]

theorem Sample.hasPlainLinks_partlyHidden : partlyHidden.HasPlainLinks := by decide +kernel

/-- A page of the members shows the two documents that are public. -/
theorem Sample.exists_page_partlyHidden : ∃ page, Answers {} partlyHidden .absent membersRequest page ∧
    page.docs.map Document.id? = [some (uuid 3), some (uuid 1)] := by
  let q := preparedMembers.request (.cursor none 2) ({} : Settings).followingCap
  let docs := (((q.gathered partlyHidden .absent).filter (q.passes partlyHidden)).map q.dress).filter fun d =>
    !q.isScored || q.bound.accepts d
  obtain ⟨hids, hstrict⟩ : docs.map Document.id? = [some (uuid 3), some (uuid 1)] ∧
      docs.Pairwise (fun a b => compareDocuments q.cursorPlan.sortKeys a b = .lt) := by decide +kernel
  refine ⟨_, (serves_membersRequest partlyHidden).answers_of_strict rfl (Store.reachable_ofList _)
    hasPlainLinks_partlyHidden rfl rfl hstrict, ?_⟩
  rw [Prepared.map_id?_docs_decorate, List.map_take, hids]
  rfl

/-- The theorem at a page of two documents. -/
theorem served_sound_sample : ∃ page, Answers {} Sample.partlyHidden .absent Sample.membersRequest page ∧
    page.docs.map Document.id? = [some (Sample.uuid 3), some (Sample.uuid 1)] ∧
    ∃ c, Criteria.compile Sample.membersRequest.filters Sample.membersRequest.sorts = .ok c ∧ ∀ x ∈ page.docs,
      ∃ d, Vouched {} Sample.partlyHidden .absent .creations none .exclude c d ∧ x.id? = d.id? ∧
        AgreesApart (served .creations none) d x := by
  obtain ⟨page, hpage, hids⟩ := Sample.exists_page_partlyHidden
  exact ⟨page, hpage, hids, (served_sound (Store.reachable_ofList _) Sample.hasPlainLinks_partlyHidden {} .absent).1
    Sample.membersRequest page hpage⟩

end FeedQuery
