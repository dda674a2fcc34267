import FeedQuery.Config
import FeedQuery.Proofs.Resumption

/-!
# Direct feeds while the store is written to

A client follows the pages of a request that its strategy reaches directly, while documents of any collection are
written between one fetch and the next. Every store serves such a request alike (`Serves.of_direct`), with the admitted
documents of the collection in order (`Prepared.listed`). A fetch moves the anchor of what was returned on, a write
leaves it where it is (`Run.resumes`), and where a page is empty nothing follows the anchor.
-/

namespace FeedQuery

namespace Prepared

variable {p : Prepared} {store : Store}

/-- The admitted documents of the collection. -/
def admitted (p : Prepared) (store : Store) : List Document := (store.docs p.collection).filter (p.core.admits store)

/-- The admitted documents of the collection as they are sorted, in order. -/
def listed (p : Prepared) (store : Store) : List Document :=
  sortDocuments p.cursorPlan.sortKeys ((p.admitted store).map p.core.dress)

theorem identified_admitted (hstore : store.Reachable) : Identified (p.admitted store) := (hstore.identified _).filter _

theorem identified_listed (hstore : store.Reachable) : Identified (p.listed store) := by
  have hadmitted : Identified (p.admitted store) := identified_admitted hstore
  have hdressed : Identified ((p.admitted store).map p.core.dress) := hadmitted.of_ids (by simp)
  exact hdressed.perm (sortDocuments_perm _ _).symm

theorem accepts_of_mem_admitted : ∀ d ∈ p.admitted store, p.core.documentFilter.accepts d = true := by
  intro d hd
  exact p.core.accepts_of_admits (List.mem_filter.1 hd).2

section Direct

variable (hdirect : p.strategy = .direct) (hstore : store.Reachable)
include hdirect

theorem isReactionOrder_of_direct : p.core.isReactionOrder = false :=
  PlanRequest.isReactionOrder_of_strategy (show p.strategy.isReactionFanOut = false by rw [hdirect]; rfl)

include hstore

/-- The order of the request tells the admitted documents apart. -/
theorem distinct_admitted : ((p.admitted store).map p.core.dress).Pairwise
    fun a b => compareDocuments p.cursorPlan.sortKeys a b ≠ .eq :=
  p.core.distinct_map_dress (isReactionOrder_of_direct hdirect) (identified_admitted hstore)

/-- A direct request yields the listed documents. -/
theorem yields_listed (settings : Settings) (others : Collaborators) :
    p.Yields settings store others (p.listed store) := by
  refine yields_of_documents ?_
  intro place limit
  exact (p.request (.cursor place limit) settings.followingCap).documents_direct (hstore.identified _) hdirect

theorem orders_listed (hfinite : p.core.HasFiniteScores) : p.Orders (p.listed store) := by
  constructor
  · exact strict_sortDocuments (distinct_admitted hdirect hstore)
  · intro d hd
    exact p.core.isSome_place?_of_mem_map (isReactionOrder_of_direct hdirect) (identified_admitted hstore) hfinite
      accepts_of_mem_admitted ((mem_sortDocuments _).1 hd)

end Direct

end Prepared

theorem Strategy.select_eq_direct {c : Criteria} {viewer : Option Uuid} (h : select c viewer = .direct) :
    c.id? .collection = none ∧ c.likedBy? = none := by
  unfold select Criteria.hints at h
  split at h
  · simp at h
  · simp at h
  · next hmembership _ =>
    refine ⟨hmembership, ?_⟩
    split at h
    · simp at h
    · split at h
      · simp at h
      · next hreaction =>
        simp only [Bool.or_eq_true, not_or] at hreaction
        exact Option.not_isSome_iff_eq_none.1 hreaction.2

namespace Serves

variable {settings : Settings} {store : Store} {others : Collaborators} {r : FeedRequest} {limit : Nat} {p : Prepared}

/-- The criteria of a direct request name no collection and nobody whose likes are asked for. -/
theorem criteria_of_direct (h : Serves settings store others r limit p) (hdirect : p.strategy = .direct) :
    p.criteria.id? .collection = none ∧ p.criteria.likedBy? = none :=
  Strategy.select_eq_direct (h.criteria_eq.2.1.symm.trans hdirect)

/-- A direct request is served alike by every store. -/
theorem of_direct (h : Serves settings store others r limit p) (hdirect : p.strategy = .direct) (store' : Store) :
    Serves settings store' others r limit p := by
  obtain ⟨hc, -, hp⟩ := h.criteria_eq
  have hnamed := (h.criteria_of_direct hdirect).1
  refine ⟨h.isFeed, h.pageSize, p.criteria, hc, ?_⟩
  rw [← Service.prepare_congr _ _ _
    ((Service.ownsCollection_of_none hnamed).trans (Service.ownsCollection_of_none hnamed).symm), hp]

/-- A direct request admits what its document filter accepts. -/
theorem admits_of_direct (h : Serves settings store others r limit p) (hdirect : p.strategy = .direct) :
    p.core.admits store = p.core.documentFilter.accepts :=
  PlanRequest.admits_of_likedBy (h.criteria_of_direct hdirect).2 store

end Serves

/-! ## Runs -/

/-- A run of writes and fetches in any order from a request on: what was fetched before a page was empty, the store as
it is now, and the request that fetches next. -/
inductive Run (settings : Settings) (others : Collaborators) (start : Store) (r : FeedRequest) :
    List Visit → Store → FeedRequest → Prop where
  | start : Run settings others start r [] start r
  | write {visits : List Visit} {store store' : Store} {next : FeedRequest} {c : Collection} {d : Document} :
      Run settings others start r visits store next → store.insert c d = .ok store' →
      Run settings others start r visits store' next
  | fetch {visits : List Visit} {store : Store} {next : FeedRequest} {page : FeedPage} {text : Option String} :
      Run settings others start r visits store next → Answers settings store others next page → page.docs ≠ [] →
      Cursor.Writes page.nextValue text → Run settings others start r (visits ++ [⟨store, page⟩]) store
        (next.after page text)

namespace Resumes

variable {settings : Settings} {store : Store} {others : Collaborators} {r : FeedRequest} {limit : Nat} {p : Prepared}
  {visits : List Visit} {anchor : Option Document} {place : Option Cursor}

/-- The documents of the collection that the filter accepts are listed. -/
theorem dress_mem_listed (hr : Serves settings store others r limit p) (hdirect : p.strategy = .direct) :
    ∀ d ∈ store.docs p.collection, p.core.documentFilter.accepts d = true → p.core.dress d ∈ p.listed store := by
  intro d hd haccepts
  refine (mem_sortDocuments _).2 (List.mem_map_of_mem (List.mem_filter.2 ⟨hd, ?_⟩))
  rw [hr.admits_of_direct hdirect]
  exact haccepts

section Fetch

variable (hothers : others.IsFinite) (hdirect : p.strategy = .direct) (hstore : store.Reachable)
  (hr : Serves settings store others r limit p) (hread : Cursor.read r.cursor r.nextValue = .ok place)
include hdirect hstore hr hread

/-- A request is answered with the page of the listed documents after its place. -/
theorem answers_iff_cut {page : FeedPage} : Answers settings store others r page ↔
    page = p.decorate store others (p.cut (p.listed store) place limit) := by
  rw [hr.answers_iff hread, Prepared.yields_listed hdirect hstore]
  rfl

variable (h : Resumes p visits anchor) (ha : p.cursorPlan.Anchors anchor place)
include hothers h ha

/-- A fetch of a page with documents moves the anchor on, and the next request is at the place of the new anchor. -/
theorem fetch {page : FeedPage} (hpage : Answers settings store others r page) (hne : page.docs ≠ [])
    {text : Option String} (htext : Cursor.Writes page.nextValue text) :
    ∃ last c, Resumes p (visits ++ [⟨store, page⟩]) (some last) ∧
      p.cursorPlan.Anchors (some last) (some c) ∧
      Cursor.read (r.after page text).cursor (r.after page text).nextValue = .ok (some c) := by
  obtain rfl := (answers_iff_cut hdirect hstore hr hread).1 hpage
  have ho := Prepared.orders_listed hdirect hstore (hr.hasFiniteScores hothers)
  have hlisted : Identified (p.listed store) := Prepared.identified_listed hstore
  have hcutne : p.cut (p.listed store) place limit ≠ [] := fun hnil => hne (Prepared.decorate_eq_nil.2 hnil)
  have hsublist : (p.cut (p.listed store) place limit).Sublist (p.listed store) :=
    (List.take_sublist _ _).trans List.filter_sublist
  obtain ⟨last, c, hlast, hc, hcut⟩ := Prepared.exists_last ho ha hcutne
  obtain ⟨f, hf, hfa⟩ := p.exists_decorate store others (p.cut (p.listed store) place limit)
  refine ⟨last, c, ?_, ?_, p.read_after store others hlast hc r text htext⟩
  · exact h.concat hf hfa hcut (fun d => Prepared.mem_of_mem_cut) (List.mem_of_getLast? hlast) hlisted
      (hlisted.sublist hsublist)
      (ho.strict.sublist hsublist) (dress_mem_listed hr hdirect)
  · exact congrArg some hc

/-- Where a page is empty, every document that was there at every fetch was returned. -/
theorem once_of_docs_eq_nil (hlimit : 0 < limit) {page : FeedPage} (hpage : Answers settings store others r page)
    (hnil : page.docs = []) {d : Document} (hd : Persists p.collection visits d) (hmem : d ∈ store.docs p.collection)
    (haccepts : p.core.documentFilter.accepts d = true) : p.ReturnsOnce visits d := by
  obtain rfl := (answers_iff_cut hdirect hstore hr hread).1 hpage
  have ho := Prepared.orders_listed hdirect hstore (hr.hasFiniteScores hothers)
  refine h.once d hd haccepts ?_
  exact Prepared.not_follows_of_cut_eq_nil ho ha hlimit (Prepared.decorate_eq_nil.1 hnil)
    (dress_mem_listed hr hdirect d hmem haccepts)

end Fetch

end Resumes

section DirectFeed

variable {settings : Settings} {start store : Store} {others : Collaborators} {r next : FeedRequest} {limit : Nat}
  {p : Prepared} {visits : List Visit}

/-- A run returns the documents up to an anchor, at whose place the next request is. -/
theorem Run.resumes (hothers : others.IsFinite) (hdirect : p.strategy = .direct) (hstart : start.Reachable)
    (hr : Serves settings start others r limit p) (hcursor : Cursor.given? r.cursor = none)
    (hrun : Run settings others start r visits store next) :
    store.Reachable ∧ Serves settings store others next limit p ∧ ∃ anchor place, Resumes p visits anchor ∧
      p.cursorPlan.Anchors anchor place ∧ Cursor.read next.cursor next.nextValue = .ok place := by
  induction hrun with
  | start => exact ⟨hstart, hr, none, none, .start, rfl, Cursor.read_start hcursor⟩
  | write _ hwrite ih =>
    obtain ⟨hstore, hserves, hresumes⟩ := ih
    exact ⟨hstore.insert hwrite, hserves.of_direct hdirect _, hresumes⟩
  | @fetch visits store next page text _ hpage hne htext ih =>
    obtain ⟨hstore, hserves, anchor, place, hresumes, ha, hread⟩ := ih
    obtain ⟨last, c, hresumes', ha', hread'⟩ := hresumes.fetch hothers hdirect hstore hserves hread ha hpage hne htext
    exact ⟨hstore, hserves.after page text, some last, some c, hresumes', ha', hread'⟩

/-- A configuration that is accepted serves no page of size zero. -/
theorem Config.pageSize_pos {config : Config} (hconfig : config.check = .ok config) {asked : Option Nat} {size : Nat}
    (h : Service.pageSize config.feed asked = .ok size) : 0 < size := by
  have hproblems : config.problems = [] := by
    unfold check at hconfig
    split at hconfig
    · next hnil => exact hnil
    · simp at hconfig
  have hfound (found : Bool) (problem : Problem) (hmem : (found, problem) ∈ [
      (config.feed.defaultLimit == 0, Problem.zero "feed.default_limit"),
      (decide (config.feed.maxLimit < config.feed.defaultLimit), .limits)]) : found = false := by
    have hnone := List.filterMap_eq_nil_iff.1 hproblems (found, problem) (by
      simp only [List.mem_cons, List.not_mem_nil, or_false] at hmem ⊢
      rcases hmem with hmem | hmem <;> simp [hmem])
    cases found with
    | true => simp at hnone
    | false => rfl
  have hdefault : config.feed.defaultLimit ≠ 0 := by
    have hzero := hfound _ _ List.mem_cons_self
    simpa using hzero
  have hmax : config.feed.defaultLimit ≤ config.feed.maxLimit := by
    have hlimits := hfound _ _ (List.mem_cons_of_mem _ List.mem_cons_self)
    simpa using hlimits
  cases asked with
  | none =>
    obtain rfl := Except.ok.inj h
    omega
  | some asked =>
    cases asked with
    | zero => simp [Service.pageSize] at h
    | succ asked =>
      obtain rfl := Except.ok.inj h
      omega

/-- A feed that its strategy reaches directly, under a configuration that is accepted, over a run of writes of any
documents and fetches of the next page in any order, in three parts.
1. No fetch is refused.
2. The returned documents strictly advance in the order of the request, as they were returned.
3. Once a page is empty, every document of the collection that was there at every fetch and that the filter accepts was
   returned exactly once, with changes only where a score and the enrichment are written. -/
theorem direct_feed_stable {config : Config} (hconfig : config.check = .ok config) (hothers : others.IsFinite)
    (hdirect : p.strategy = .direct) (hstart : start.Reachable) (hr : Serves config.feed start others r limit p)
    (hcursor : Cursor.given? r.cursor = none) (hrun : Run config.feed others start r visits store next) :
    (∃ page, Answers config.feed store others next page) ∧
    ((returned visits).Pairwise fun a b => compareDocuments p.cursorPlan.sortKeys a b = .lt) ∧
    ∀ page, Answers config.feed store others next page → page.docs = [] →
      ∀ d ∈ store.docs p.collection, Persists p.collection visits d → p.core.documentFilter.accepts d = true →
        p.ReturnsOnce visits d := by
  obtain ⟨hstore, hserves, anchor, place, hresumes, ha, hread⟩ := hrun.resumes hothers hdirect hstart hr hcursor
  refine ⟨⟨_, (hserves.answers_iff hread).2 rfl⟩, hresumes.advances, ?_⟩
  intro page hpage hnil d hmem hd haccepts
  exact hresumes.once_of_docs_eq_nil hothers hdirect hstore hserves hread ha (Config.pageSize_pos hconfig hr.pageSize)
    hpage hnil hd
    hmem haccepts

/-- A configuration for the small store. -/
def Sample.config : Config where
  listener := ⟨"127.0.0.1:8080", "info"⟩
  database := ⟨"postgres://localhost/feed", 4⟩
  vectorIndex := ⟨"http://localhost:6334", "documents", 8⟩
  embedding := ⟨"local", "http://localhost", "key", "/embeddings", "model", 8, 1000, []⟩
  feed := {}

/-- The theorem at a run over the small store that fetches a page with a document, then writes another document. -/
theorem direct_feed_stable_sample : ∃ visits store next, visits ≠ [] ∧
    Run Sample.config.feed .absent Sample.store (Sample.request [] [] none) visits store next ∧
    (∃ page, Answers Sample.config.feed store .absent next page) ∧
    ((returned visits).Pairwise fun a b =>
      compareDocuments (Sample.prepared .empty none).cursorPlan.sortKeys a b = .lt) ∧
    ∀ page, Answers Sample.config.feed store .absent next page → page.docs = [] →
      ∀ d ∈ store.docs .creations, Persists .creations visits d →
        (Sample.prepared .empty none).core.documentFilter.accepts d = true →
          (Sample.prepared .empty none).ReturnsOnce visits d := by
  have hserves : Serves Sample.config.feed Sample.store .absent (Sample.request [] [] none) 1
      (Sample.prepared .empty none) :=
    ⟨rfl, rfl, .empty, rfl, rfl⟩
  have hstart : Sample.store.Reachable := Store.reachable_ofList _
  have hproblems : Sample.config.problems = [] := by decide +kernel
  have hconfig : Sample.config.check = .ok Sample.config := by rw [Config.check, hproblems]
  obtain ⟨⟨page, hpage⟩, -, honce⟩ :=
    direct_feed_stable hconfig Collaborators.isFinite_absent rfl hstart hserves rfl .start
  have hne : page.docs ≠ [] := by
    intro hnil
    have hany : (Sample.store.docs .creations).any
        (Sample.prepared .empty none).core.documentFilter.accepts = true := by
      decide +kernel
    obtain ⟨d, hd, haccepts⟩ := List.any_eq_true.1 hany
    obtain ⟨e, he, -⟩ := honce page hpage hnil d hd (fun v hv => by simp at hv) haccepts
    simp [returned] at he
  obtain ⟨text, htext⟩ : ∃ text, Cursor.Writes page.nextValue text := by
    obtain rfl := (hserves.answers_iff rfl).1 hpage
    exact FeedPage.exists_writes _ _ _
  obtain ⟨store, hwrite⟩ := Sample.store.exists_insert .creations
    (show (Sample.creation 6).id?.isSome = true by decide +kernel)
  have hrun := (Run.start.fetch hpage hne htext).write hwrite
  exact ⟨_, _, _, by simp, hrun, direct_feed_stable hconfig Collaborators.isFinite_absent rfl hstart hserves rfl hrun⟩

end DirectFeed

end FeedQuery
