import Mathlib.Data.List.Chain
import FeedQuery.Proofs.Enrichment
import FeedQuery.Proofs.Selection

/-!
# Following pages

`Answers` says what page a request is answered with, and `Following` what a client sees that goes from page to page over
a store, with the cursor and the value of each page in the next request, until a page is empty. Where a request yields
what comes after its cursor in one list in strict order (`Prepared.Yields`, `Prepared.Orders`), following the pages goes
through that list from its beginning to its end (`Following.eq_of_remains`), and there is such a following
(`exists_following`).
-/

namespace FeedQuery

/-- The page that a request is answered with. -/
def Answers (settings : Settings) (store : Store) (others : Collaborators) (r : FeedRequest) (page : FeedPage) : Prop :=
  ∃ answer, Service.feed settings r = .ok answer ∧ answer.run store others = page

/-- The request that goes on after a page, with a text for the value of the page. -/
def FeedRequest.after (r : FeedRequest) (page : FeedPage) (text : Option String) : FeedRequest :=
  { r with cursor := page.nextCursor, nextValue := text }

/-- The pages that following a request from page to page yields, up to the first empty one. -/
inductive Following (settings : Settings) (store : Store) (others : Collaborators) :
    FeedRequest → List FeedPage → Prop where
  | last {r : FeedRequest} {page : FeedPage} : Answers settings store others r page → page.docs = [] →
      Following settings store others r [page]
  | next {r : FeedRequest} {page : FeedPage} {text : Option String} {pages : List FeedPage} :
      Answers settings store others r page → page.docs ≠ [] → Cursor.Writes page.nextValue text →
      Following settings store others (r.after page text) pages → Following settings store others r (page :: pages)

/-- A request that is served: what page size it has, and what is prepared for it. -/
structure Serves (settings : Settings) (store : Store) (others : Collaborators) (r : FeedRequest) (limit : Nat)
    (p : Prepared) :
    Prop where
  isFeed : r.collection.isFeed = true
  pageSize : Service.pageSize settings r.limit = .ok limit
  prepared : ∃ c, Criteria.compile r.filters r.sorts = .ok c ∧
    (Service.prepare settings r.collection c r.viewer r.softDelete).run store others = some p

namespace Prepared

variable (p : Prepared)

/-- All that decides the plan for a window. -/
def request (window : Window) (followingCap : Nat) : PlanRequest :=
  ⟨p.collection, p.criteria, p.visibility, p.strategy, p.allowed, window, followingCap⟩

/-- All that decides the plan but the window. -/
def core : PlanRequest := p.request .all 0

/-- How a cursor lies in the result. -/
def cursorPlan : CursorPlan := p.core.cursorPlan

/-- The documents of a page before they are enriched. -/
def raw (settings : Settings) (store : Store) (others : Collaborators) (place : Option Cursor) (limit : Nat) :
    List Document :=
  (p.request (.cursor place limit) settings.followingCap).documents store others

/-- The page that some documents make. -/
def decorate (store : Store) (others : Collaborators) (docs : List Document) : FeedPage :=
  .assemble (Stage.results store others (enrichment p.collection p.visibility.viewer) docs) p.cursorPlan
    p.visibility.viewer

/-- Executing the plan for a window is running its core, then enriching what that yields. -/
theorem run_execute (store : Store) (others : Collaborators) (window : Window) (followingCap : Nat) :
    (p.plan window followingCap).pipeline.execute.run store others =
      Stage.results store others (enrichment p.collection p.visibility.viewer)
        ((p.request window followingCap).documents store others) := by
  rw [Pipeline.run_execute]
  exact Stage.results_append store others (p.request window followingCap).core _ _

/-- Serving a page is enriching the documents of the page, and assembling it. -/
theorem run_servePage (settings : Settings) (store : Store) (others : Collaborators) (place : Option Cursor)
    (limit : Nat) :
    (Service.servePage settings p.visibility.viewer place limit (some p)).run store others =
      p.decorate store others (p.raw settings store others place limit) := by
  unfold Service.servePage
  simp only [Exchange.run_bind, Exchange.run_pure, run_execute]
  rfl

end Prepared

namespace Serves

variable {settings : Settings} {store : Store} {others : Collaborators} {r : FeedRequest} {limit : Nat} {p : Prepared}

/-- What is served does not depend on the cursor. -/
theorem after (h : Serves settings store others r limit p) (page : FeedPage) (text : Option String) :
    Serves settings store others (r.after page text) limit p :=
  ⟨h.isFeed, h.pageSize, h.prepared⟩

/-- What is prepared are the criteria of the request, in the way that they hint at. -/
theorem criteria_eq (h : Serves settings store others r limit p) : Criteria.compile r.filters r.sorts = .ok p.criteria ∧
    p.strategy = .select p.criteria r.viewer ∧
    (Service.prepare settings r.collection p.criteria r.viewer r.softDelete).run store others = some p := by
  obtain ⟨c, hc, hp⟩ := h.prepared
  rw [Service.criteria_of_prepare hp]
  exact ⟨hc, Service.strategy_of_prepare hp, hp⟩

/-- What is prepared is for the viewer who asks. -/
theorem viewer_eq (h : Serves settings store others r limit p) : p.visibility.viewer = r.viewer := by
  obtain ⟨c, -, hp⟩ := h.prepared
  exact Service.viewer_of_prepare hp

/-- Collaborators whose scores are numbers give a plan scores that are. -/
theorem hasFiniteScores (h : Serves settings store others r limit p) (hothers : others.IsFinite) :
    p.core.HasFiniteScores := by
  obtain ⟨c, -, hp⟩ := h.prepared
  intro scores hscores
  rcases (Service.prepare_eq_some hp).2 with ⟨-, hnone⟩ | ⟨allowed, hconsult, hallowed⟩
  · simp [Prepared.core, Prepared.request, hnone] at hscores
  · obtain rfl : allowed = scores := Option.some.inj (hallowed.symm.trans hscores)
    exact (Service.mem_of_consult hconsult).2.2 hothers

/-- A request that is served at a place is answered with the page of the documents from there. -/
theorem answers_iff (h : Serves settings store others r limit p) {place : Option Cursor}
    (hplace : Cursor.read r.cursor r.nextValue = .ok place) {page : FeedPage} :
    Answers settings store others r page ↔ page =
      p.decorate store others (p.raw settings store others place limit) := by
  obtain ⟨c, hc, hp⟩ := h.prepared
  have hcheck : Service.checkFeed r.collection = .ok () := if_pos h.isFeed
  have hfeed : Service.feed settings r = .ok (do
      let prepared ← Service.prepare settings r.collection c r.viewer r.softDelete
      Service.servePage settings r.viewer place limit prepared) := by
    unfold Service.feed
    simp only [hcheck, h.pageSize, hplace, hc]
    rfl
  unfold Answers
  simp only [hfeed, Except.ok.injEq, exists_eq_left', Exchange.run_bind]
  rw [hp, ← h.viewer_eq, Prepared.run_servePage]
  exact eq_comm

end Serves

/-- The value of a page can be written as a text that reads back as it. -/
theorem FeedPage.exists_writes (docs : List Document) (plan : CursorPlan) (viewer : Option Uuid) :
    ∃ text, Cursor.Writes (assemble docs plan viewer).nextValue text := by
  refine Cursor.exists_writes ?_
  intro v hv
  obtain ⟨next, hnext, hvalue⟩ := Option.bind_eq_some_iff.1 hv
  obtain ⟨last, -, hlast⟩ := Option.bind_eq_some_iff.1 hnext
  obtain ⟨cursor, -, rfl⟩ := Option.map_eq_some_iff.1 hlast
  obtain ⟨value, -, hdouble⟩ := Option.bind_eq_some_iff.1 hvalue
  exact Json.isFinite_of_double? hdouble

/-! ## Pages of a list in strict order -/

namespace Prepared

variable {p : Prepared} {settings : Settings} {store : Store} {others : Collaborators} {limit : Nat}

/-- Enrichment keeps the number of documents and the place of each. -/
theorem exists_decorate (p : Prepared) (store : Store) (others : Collaborators) (docs : List Document) :
    ∃ f : Document → Document, (p.decorate store others docs).docs = docs.map f ∧
      ∀ d, Document.AgreesApart (decorated p.collection p.visibility.viewer) d (f d) :=
  enrichment_decorates p.collection p.visibility.viewer store others docs

/-- Enriching a document leaves its place as it is. -/
theorem alike_of_decorated {d e : Document}
    (h : Document.AgreesApart (decorated p.collection p.visibility.viewer) d e) :
    p.cursorPlan.Alike d e := by
  refine p.core.alike_of_agreesApart (h.mono (decorated_subset _ _)) ?_ (by decide)
  rw [PlanRequest.position_cursorPlan]
  split <;> decide

/-- Enrichment keeps the identifiers of a page. -/
theorem map_id?_docs_decorate (p : Prepared) (store : Store) (others : Collaborators) (docs : List Document) :
    (p.decorate store others docs).docs.map Document.id? = docs.map Document.id? :=
  map_id?_enrichment p.collection p.visibility.viewer store others docs

/-- So it does on several pages. -/
theorem map_id?_decorate (p : Prepared) (store : Store) (others : Collaborators) (raws : List (List Document)) :
    ((raws.map (p.decorate store others)).flatMap FeedPage.docs).map Document.id? = raws.flatten.map Document.id? := by
  rw [List.flatMap_map, List.map_flatMap, List.map_flatten, List.flatMap_def]
  exact congrArg List.flatten (List.map_congr_left fun docs _ => p.map_id?_docs_decorate store others docs)

theorem decorate_eq_nil {docs : List Document} : (p.decorate store others docs).docs = [] ↔ docs = [] := by
  obtain ⟨f, hf, -⟩ := p.exists_decorate store others docs
  rw [hf, List.map_eq_nil_iff]

/-- The request after a page goes on from the place of the last document of the page. -/
theorem read_after (p : Prepared) (store : Store) (others : Collaborators) {docs : List Document} {last : Document}
    {c : Cursor} (hlast : docs.getLast? = some last) (hc : p.cursorPlan.place? last = some c) :
    ∀ (r : FeedRequest) (text : Option String), Cursor.Writes (p.decorate store others docs).nextValue text →
      Cursor.read (r.after (p.decorate store others docs) text).cursor
        (r.after (p.decorate store others docs) text).nextValue =
        .ok (some c) := by
  obtain ⟨f, hf, hfa⟩ := p.exists_decorate store others docs
  have hplace : p.cursorPlan.place? (f last) = some c := by rw [(alike_of_decorated (hfa last)).place?, hc]
  obtain ⟨next, hnext, hread⟩ := CursorPlan.read_next? hplace
  have hresults : Stage.results store others (enrichment p.collection p.visibility.viewer) docs = docs.map f := hf
  have hpage :
      p.cursorPlan.next? (Stage.results store others (enrichment p.collection p.visibility.viewer) docs).getLast? =
      some next := by
    rw [hresults, List.getLast?_map, hlast]
    exact hnext
  have hcursor : (p.decorate store others docs).nextCursor = some next.cursor := by
    simp [decorate, FeedPage.assemble, hpage]
  have hnextValue : (p.decorate store others docs).nextValue = next.value := by
    simp [decorate, FeedPage.assemble, hpage]
  intro r text htext
  rw [hnextValue] at htext
  have hafter : (r.after (p.decorate store others docs) text).cursor = some next.cursor := hcursor
  rw [hafter]
  exact hread text htext

/-- Documents in strict order, each at a place. -/
structure Orders (p : Prepared) (docs : List Document) : Prop where
  strict : docs.Pairwise fun a b => compareDocuments p.cursorPlan.sortKeys a b = .lt
  placed : ∀ d ∈ docs, (p.cursorPlan.place? d).isSome = true

/-- Whatever the cursor and the page size, the documents of the page are the first of a list that come after the
cursor. -/
def Yields (p : Prepared) (settings : Settings) (store : Store) (others : Collaborators)
    (docs : List Document) : Prop :=
  ∀ place limit, p.raw settings store others place limit = (docs.filter (p.cursorPlan.bound place).accepts).take limit

/-- The same for pages of one size: there the list may depend on the size. -/
def YieldsPages (p : Prepared) (settings : Settings) (store : Store) (others : Collaborators) (limit : Nat)
    (docs : List Document) :
    Prop :=
  ∀ place, p.raw settings store others place limit = (docs.filter (p.cursorPlan.bound place).accepts).take limit

/-- A plan that selects documents yields the selection in order. -/
theorem yields_of_documents {selection : List Document}
    (h : ∀ place limit, p.raw settings store others place limit =
      Stage.results store others (Window.cursor place limit).stages
      (sortDocuments p.cursorPlan.sortKeys (selection.filter (p.cursorPlan.bound place).accepts))) :
    p.Yields settings store others (sortDocuments p.cursorPlan.sortKeys selection) := by
  intro place limit
  rw [h, sortDocuments_filter]
  rfl

/-- After the place of a document in the list comes what is behind the document. -/
theorem Orders.filter_bound {done rest : List Document} {last : Document} {c : Cursor}
    (h : p.Orders (done ++ last :: rest)) (hc : p.cursorPlan.place? last = some c) :
    (done ++ last :: rest).filter (p.cursorPlan.bound (some c)).accepts = rest := by
  have haccepts : ∀ d ∈ done ++ last :: rest, (p.cursorPlan.bound (some c)).accepts d = true ↔
      compareDocuments p.cursorPlan.sortKeys last d = .lt := fun d hd =>
    CursorPlan.accepts_bound_iff p.core.isNumeric_cursorPlan hc (h.placed d hd)
  obtain ⟨-, hlastrest, hdone⟩ := List.pairwise_append.1 h.strict
  have hbehind : rest.filter (p.cursorPlan.bound (some c)).accepts = rest :=
    List.filter_eq_self.2 fun d hd => (haccepts d (by simp [hd])).2 ((List.pairwise_cons.1 hlastrest).1 d hd)
  have hself : (p.cursorPlan.bound (some c)).accepts last = false := by
    have hsame : compareDocuments p.cursorPlan.sortKeys last last = .eq := Std.ReflCmp.compare_self
    rw [Bool.eq_false_iff, Ne, haccepts last (by simp), hsame]
    decide
  have hbefore : done.filter (p.cursorPlan.bound (some c)).accepts = [] := by
    refine List.filter_eq_nil_iff.2 ?_
    intro d hd
    rw [haccepts d (by simp [hd])]
    exact Std.OrientedCmp.not_lt_of_lt (hdone d hd last List.mem_cons_self)
  rw [List.filter_append, hbefore, List.nil_append, List.filter_cons, hself, hbehind]
  rfl

/-- What is still to come of a list at a place: the end of the list that the place cuts off. -/
def Remains (p : Prepared) (docs : List Document) (place : Option Cursor) (rest : List Document) : Prop :=
  (∃ done, docs = done ++ rest) ∧ docs.filter (p.cursorPlan.bound place).accepts = rest

/-- At the beginning everything is to come. -/
theorem remains_start (docs : List Document) : p.Remains docs none docs :=
  ⟨⟨[], rfl⟩, List.filter_eq_self.2 fun d _ => by simp [CursorPlan.bound]⟩

/-- A page takes its documents off what is to come, and the next request is at the place where the others begin. -/
theorem Orders.step {docs rest : List Document} {place : Option Cursor} (h : p.Orders docs)
    (hrest : p.Remains docs place rest) (hlimit : 0 < limit) (hne : rest ≠ []) :
    ∃ c, p.Remains docs (some c) (rest.drop limit) ∧
      ∀ (r : FeedRequest) (text : Option String),
        Cursor.Writes (p.decorate store others (rest.take limit)).nextValue text →
        Cursor.read (r.after (p.decorate store others (rest.take limit)) text).cursor
          (r.after (p.decorate store others (rest.take limit)) text).nextValue = .ok (some c) := by
  obtain ⟨⟨done, rfl⟩, -⟩ := hrest
  have htake : rest.take limit ≠ [] := by
    simp [hne]
    omega
  obtain ⟨before, last, hsplit⟩ : ∃ before last, rest.take limit = before ++ [last] :=
    ⟨_, _, (List.dropLast_append_getLast htake).symm⟩
  have hlast : (rest.take limit).getLast? = some last := by rw [hsplit, List.getLast?_concat]
  have hdocs : done ++ rest = (done ++ before) ++ last :: rest.drop limit := by
    calc done ++ rest = done ++ (rest.take limit ++ rest.drop limit) := by rw [List.take_append_drop]
      _ = (done ++ before) ++ last :: rest.drop limit := by simp [hsplit]
  have hmem : last ∈ done ++ rest := by simp [hdocs]
  obtain ⟨c, hc⟩ := Option.isSome_iff_exists.1 (h.placed last hmem)
  refine ⟨c, ⟨⟨done ++ rest.take limit, by simp⟩, ?_⟩, p.read_after store others hlast hc⟩
  rw [hdocs] at h ⊢
  exact h.filter_bound hc

end Prepared

/-- A request without a cursor begins at the beginning. -/
theorem Cursor.read_start {cursor nextValue : Option String} (h : Cursor.given? cursor = none) :
    Cursor.read cursor nextValue = .ok none := by
  simp [Cursor.read, h]

section Following

variable {settings : Settings} {store : Store} {others : Collaborators} {limit : Nat} {p : Prepared}
  {docs : List Document}

/-- Every page but the last that has documents is full: one is followed by a page with documents only if it has as many
as may be. -/
def FullPages (limit : Nat) (pages : List (List Document)) : Prop :=
  pages.IsChain fun page next => next ≠ [] → page.length = limit

/-- Enriched, pages are as full as they were. -/
theorem FullPages.decorate {raws : List (List Document)} (h : FullPages limit raws) (p : Prepared) (store : Store)
    (others : Collaborators) : FullPages limit ((raws.map (p.decorate store others)).map FeedPage.docs) := by
  rw [List.map_map]
  refine List.isChain_map_of_isChain _ ?_ h
  intro page next hfull hnext
  obtain ⟨f, hf, -⟩ := p.exists_decorate store others page
  rw [Function.comp_apply, hf, List.length_map]
  exact hfull fun hnil => hnext (Prepared.decorate_eq_nil.2 hnil)

/-- Following the pages goes through what is to come, from its beginning to its end. -/
theorem Following.eq_of_yieldsPages (hy : p.YieldsPages settings store others limit docs) (ho : p.Orders docs)
    (hlimit : 0 < limit) {r : FeedRequest} {pages : List FeedPage} (h : Following settings store others r pages) :
    ∀ {place rest}, Serves settings store others r limit p → Cursor.read r.cursor r.nextValue = .ok place →
      p.Remains docs place rest →
      ∃ raws : List (List Document), pages = raws.map (p.decorate store others) ∧ raws.flatten = rest ∧
        FullPages limit raws := by
  induction h with
  | @last r page hanswers hempty =>
    intro place rest hr hplace hrest
    have hpage := (hr.answers_iff hplace).1 hanswers
    rw [hy, hrest.2] at hpage
    have htake : rest.take limit = [] := by
      rw [hpage] at hempty
      exact Prepared.decorate_eq_nil.1 hempty
    have hnil : rest = [] := (List.take_eq_nil_iff.1 htake).resolve_left (by omega)
    refine ⟨[rest.take limit], by rw [hpage]; rfl, by simp [hnil], .singleton _⟩
  | @next r page text pages hanswers hne htext _ ih =>
    intro place rest hr hplace hrest
    have hpage := (hr.answers_iff hplace).1 hanswers
    rw [hy, hrest.2] at hpage
    subst hpage
    have hrestne : rest ≠ [] := by
      rintro rfl
      exact hne (Prepared.decorate_eq_nil.2 List.take_nil)
    obtain ⟨c, hremains, hread⟩ := ho.step hrest hlimit hrestne
    obtain ⟨raws, hraws, hflat, hfull⟩ := ih (hr.after _ _) (hread r text htext) hremains
    refine ⟨rest.take limit :: raws, by rw [hraws]; rfl, by rw [List.flatten_cons, hflat, List.take_append_drop], ?_⟩
    cases raws with
    | nil => exact .singleton _
    | cons second others =>
      refine .cons_cons ?_ hfull
      intro hsecond
      have hdrop : rest.drop limit ≠ [] := by
        intro hnil
        rw [hnil, List.flatten_cons, List.append_eq_nil_iff] at hflat
        exact hsecond hflat.1
      rw [List.length_take]
      have := List.length_pos_iff.2 hdrop
      rw [List.length_drop] at this
      omega

/-- A client can follow the pages to the first empty one. -/
theorem exists_following_of_yieldsPages (hy : p.YieldsPages settings store others limit docs) (ho : p.Orders docs)
    (hlimit : 0 < limit) {r : FeedRequest} {place : Option Cursor} {rest : List Document}
    (hr : Serves settings store others r limit p) (hplace : Cursor.read r.cursor r.nextValue = .ok place)
    (hrest : p.Remains docs place rest) :
    ∃ pages, Following settings store others r pages := by
  have hanswers := (hr.answers_iff hplace).2 rfl
  rw [hy, hrest.2] at hanswers
  by_cases hne : rest = []
  · refine ⟨_, .last hanswers ?_⟩
    rw [hne, List.take_nil]
    exact Prepared.decorate_eq_nil.2 rfl
  · obtain ⟨c, hremains, hread⟩ := ho.step hrest hlimit hne
    obtain ⟨text, htext⟩ := FeedPage.exists_writes
      (Stage.results store others (enrichment p.collection p.visibility.viewer) (rest.take limit)) p.cursorPlan
        p.visibility.viewer
    obtain ⟨pages, hpages⟩ :=
      exists_following_of_yieldsPages hy ho hlimit (hr.after _ text) (hread r text htext) hremains
    refine ⟨_, .next hanswers ?_ htext hpages⟩
    rw [Ne, Prepared.decorate_eq_nil, List.take_eq_nil_iff]
    rintro (h | h)
    · omega
    · exact hne h
termination_by rest.length
decreasing_by
  rw [List.length_drop]
  have := List.length_pos_iff.2 hne
  omega

section Yields

variable (hy : p.Yields settings store others docs) (ho : p.Orders docs) (hlimit : 0 < limit) {r : FeedRequest}
include hy ho hlimit

/-- So it goes through a list that does not depend on the page size. -/
theorem Following.eq_of_remains {pages : List FeedPage} (h : Following settings store others r pages)
    {place : Option Cursor} {rest : List Document} (hr : Serves settings store others r limit p)
    (hplace : Cursor.read r.cursor r.nextValue = .ok place) (hrest : p.Remains docs place rest) :
    ∃ raws : List (List Document), pages = raws.map (p.decorate store others) ∧ raws.flatten = rest ∧
      FullPages limit raws :=
  h.eq_of_yieldsPages (fun place => hy place limit) ho hlimit hr hplace hrest

theorem exists_following {place : Option Cursor} {rest : List Document} (hr : Serves settings store others r limit p)
    (hplace : Cursor.read r.cursor r.nextValue = .ok place) (hrest : p.Remains docs place rest) :
    ∃ pages, Following settings store others r pages :=
  exists_following_of_yieldsPages (fun place => hy place limit) ho hlimit hr hplace hrest

end Yields

end Following

/-- A page of documents that all have one identifier shows it as often as there are documents, if they all fit. -/
theorem map_id?_page {store : Store} {others : Collaborators} {place : Option Cursor} {limit count : Nat}
    {id : Option Uuid} {keys : List SortKey} {docs : List Document}
    (h : docs.map Document.id? = List.replicate count id) :
    (Stage.results store others (Window.cursor place limit).stages (sortDocuments keys docs)).map Document.id? =
      List.replicate (min limit count) id := by
  change ((sortDocuments keys docs).take limit).map Document.id? = _
  rw [List.map_take, map_sortDocuments_of_replicate h, List.take_replicate]

/-! ## A small store

An account that liked one of two documents, and a collection of both. -/

namespace Sample

/-- The identifiers of the store. -/
def uuid (n : Nat) : Uuid := ⟨BitVec.ofNat 128 n⟩

/-- A public document. -/
def creation (n : Nat) : Document := ⟨[("_id", .string (uuid n).toText), ("public", .bool true)]⟩

/-- The account's like of the first document. -/
def like : Document :=
  ⟨[("_id", .string (uuid 4).toText), ("user", .string (uuid 3).toText), ("reaction", .string "like"),
  ("entityType", .string "creation"), ("entityId", .string (uuid 1).toText)]⟩

/-- A collection of both documents. -/
def album : Document := ⟨[("_id", .string (uuid 5).toText),
  ("creations", .array [.string (uuid 1).toText, .string (uuid 2).toText])]⟩

def store : Store :=
  .ofList [(.creations, creation 1), (.creations, creation 2), (.reactions, like), (.collections, album)]

/-- Pages of one document each. -/
def request (filters sorts : List String) (viewer : Option Uuid) : FeedRequest :=
  ⟨.creations, viewer, filters, sorts, none, none, some 1, .exclude⟩

/-- What is prepared for criteria that nobody has to be asked about. -/
def prepared (c : Criteria) (viewer : Option Uuid) : Prepared :=
  ⟨.creations, c, .resolve c viewer false .exclude, .select c viewer, none⟩

/-- Collaborators that name documents, whatever they are asked. -/
def naming (neighbors : List Neighbor) : Collaborators := ⟨fun _ _ _ => some neighbors, fun _ _ _ => some neighbors⟩

end Sample

end FeedQuery
