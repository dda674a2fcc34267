import FeedQuery.Proofs.Provenance
import FeedQuery.Proofs.Tokens

/-!
# A concept beside a collection

A request for what the tasks for a concept made goes through these tasks, but only where it names no collection. Where
it names one, its members are asked for, and a concept demands nothing of documents themselves
(`Criteria.sameAs_without`): the plan is the one without the concept (`Plan.build_congr`), and so is the answer
(`Answers.without`, `Lists.without`).
-/

namespace FeedQuery

/-! ## What a plan takes from the criteria -/

/-- The criteria ask for the same order and demand the same of documents. -/
structure Criteria.SameAs (c c' : Criteria) : Prop where
  sort : c'.sort = c.sort
  likedBy : c'.likedBy? = c.likedBy?
  visibility : c'.visibility? = c.visibility?
  document : ∀ collection, c'.documentPredicate collection = c.documentPredicate collection

namespace Plan

variable {q : PlanRequest} {c : Criteria}

/-- Nothing else of the criteria goes into a plan of which the strategy is given. -/
theorem build_congr (h : q.criteria.SameAs c) : build { q with criteria := c } = build q := by
  -- part by part, each from those that it is made of
  have heffective : ({ q with criteria := c } : PlanRequest).effectiveSort = q.effectiveSort := by
    unfold PlanRequest.effectiveSort
    rw [h.sort]
  have hscored : ({ q with criteria := c } : PlanRequest).isScored = q.isScored := by
    unfold PlanRequest.isScored
    rw [heffective]
  have horder : ({ q with criteria := c } : PlanRequest).isReactionOrder = q.isReactionOrder := by
    unfold PlanRequest.isReactionOrder
    rw [heffective]
  have hcursor : ({ q with criteria := c } : PlanRequest).cursorPlan = q.cursorPlan := by
    unfold PlanRequest.cursorPlan
    rw [heffective, horder]
  have hfilter : ({ q with criteria := c } : PlanRequest).documentFilter = q.documentFilter := by
    unfold PlanRequest.documentFilter Visibility.predicate Visibility.openness
    rw [h.likedBy, h.visibility, h.document]
  have hbound : ({ q with criteria := c } : PlanRequest).bound = q.bound := by
    unfold PlanRequest.bound
    rw [hcursor]
  have hjoin : ({ q with criteria := c } : PlanRequest).joinFilter = q.joinFilter := by
    unfold PlanRequest.joinFilter
    rw [hscored, hfilter, hbound]
  have htail : ({ q with criteria := c } : PlanRequest).tail = q.tail := by
    unfold PlanRequest.tail PlanRequest.scoring PlanRequest.likedBy PlanRequest.lateBound
    rw [hscored, hbound, hcursor, h.likedBy]
  have hcore : ({ q with criteria := c } : PlanRequest).core = q.core := by
    unfold PlanRequest.core PlanRequest.listed PlanRequest.graph PlanRequest.reactions PlanRequest.likes
    simp only [hscored, horder, hcursor, hfilter, hjoin, htail]
    rfl
  unfold build
  rw [hcore, hcursor]
  rfl

end Plan

namespace Criteria

variable (c : Criteria)

/-- Where a kind looks at no field, leaving it out changes nothing of what is demanded of documents, if it is neither
likes nor a visibility. -/
theorem sameAs_without {kind : FilterKind} (hpath : ∀ collection, path? collection kind = none)
    (hliked : .likedBy ≠ kind) (hvisibility : .visibility ≠ kind) : c.SameAs (c.without kind) := by
  refine ⟨rfl, ?_, ?_, fun collection => c.documentPredicate_without (hpath collection)⟩
  · rw [likedBy?, id?, values_without_of_ne hliked]
    rfl
  · rw [visibility?, values_without_of_ne hvisibility]
    rfl

end Criteria

/-! ## What is prepared and served without the concept -/

/-- What is prepared, with the terms of a kind left out. -/
def Prepared.without (p : Prepared) (kind : FilterKind) : Prepared := { p with criteria := p.criteria.without kind }

/-- Leaving out the concept changes no plan. -/
theorem Prepared.plan_without (p : Prepared) (window : Window) (followingCap : Nat) :
    (p.without .concept).plan window followingCap = p.plan window followingCap :=
  Plan.build_congr (q := p.request window followingCap)
    (p.criteria.sameAs_without (fun _ => rfl) (by decide) (by decide))

namespace Service

variable {settings : Settings} {store : Store} {others : Collaborators} {c : Criteria}

/-- Beside a collection, leaving out the concept changes nothing of what is prepared but the criteria themselves. -/
theorem prepare_without {named : Uuid} (hnamed : c.id? .collection = some named) (collection : Collection)
    (viewer : Option Uuid) (softDelete : SoftDelete) :
    (prepare settings collection (c.without .concept) viewer softDelete).run store others =
      ((prepare settings collection c viewer softDelete).run store others).map (Prepared.without · .concept) := by
  have hcollection : (c.without .concept).id? .collection = c.id? .collection := by
    rw [Criteria.id?, Criteria.values_without_of_ne (by decide), Criteria.id?]
  have howns : ownsCollection (c.without .concept) viewer = ownsCollection c viewer := by
    unfold ownsCollection
    rw [hcollection]
  have hconsult : consult settings collection (c.without .concept).hints = consult settings collection c.hints := by
    have hsimilar : (c.without .concept).hints.similarTo = c.hints.similarTo := by
      simp only [Criteria.hints, Criteria.id?,
        Criteria.values_without_of_ne (show FilterKind.similar ≠ .concept by decide)]
    have hsearch : (c.without .concept).hints.search = c.hints.search := by
      simp only [Criteria.hints, Criteria.values_without_of_ne (show FilterKind.search ≠ .concept by decide)]
    unfold consult
    rw [hsimilar, hsearch]
  have hresolve (owns : Bool) :
      Visibility.resolve (c.without .concept) viewer owns softDelete = Visibility.resolve c viewer owns softDelete := by
    simp only [Visibility.resolve, Criteria.ids, Criteria.likedBy?, Criteria.id?,
      Criteria.values_without_of_ne (show FilterKind.owner ≠ .concept by decide),
      Criteria.values_without_of_ne (show FilterKind.likedBy ≠ .concept by decide)]
  -- only here the collection matters: without it the strategy would go through the tasks
  have hselect : Strategy.select (c.without .concept) viewer = Strategy.select c viewer := by
    rw [Strategy.select_of_collection viewer hnamed, Strategy.select_of_collection viewer (hcollection.trans hnamed)]
  unfold prepare
  simp only [Exchange.run_bind, Exchange.run_pure, howns, hconsult, hresolve, hselect]
  cases (consult settings collection c.hints).run store others <;> rfl

/-- Leaving out the concept changes no page that is served. -/
theorem servePage_without (viewer : Option Uuid) (place : Option Cursor) (limit : Nat) (p? : Option Prepared) :
    servePage settings viewer place limit (p?.map (Prepared.without · .concept)) =
      servePage settings viewer place limit p? := by
  cases p? with
  | none => rfl
  | some p => simp only [Option.map_some, servePage, Prepared.plan_without]

/-- Nor does it change a numbered page. -/
theorem serveList_without (page size : Nat) (p? : Option Prepared) :
    serveList settings page size (p?.map (Prepared.without · .concept)) = serveList settings page size p? := by
  cases p? with
  | none => rfl
  | some p => simp only [Option.map_some, serveList, Prepared.plan_without]

/-- With filters that make other criteria, a request that is not refused is answered alike, but for the criteria. -/
theorem feed_refilter {r : FeedRequest} {answer : Exchange FeedPage} (h : feed settings r = .ok answer)
    (hc : Criteria.compile r.filters r.sorts = .ok c) {filters : List String} {c' : Criteria}
    (hc' : Criteria.compile filters r.sorts = .ok c') : ∃ limit place,
      answer = prepare settings r.collection c r.viewer r.softDelete >>= servePage settings r.viewer place limit ∧
      feed settings { r with filters := filters } =
        .ok (prepare settings r.collection c' r.viewer r.softDelete >>= servePage settings r.viewer place limit) := by
  obtain ⟨checked, hcheck, h⟩ := of_bind_eq_ok h
  obtain ⟨limit, hlimit, h⟩ := of_bind_eq_ok h
  obtain ⟨place, hplace, h⟩ := of_bind_eq_ok h
  rw [hc] at h
  refine ⟨limit, place, (Except.ok.inj h).symm, ?_⟩
  unfold feed
  simp only [hcheck, hlimit, hplace, hc']
  rfl

/-- So it is with a request for a listing. -/
theorem list_refilter {r : ListRequest} {answer : Exchange ListPage} (h : list settings r = .ok answer)
    (hc : Criteria.compile r.filters r.sorts = .ok c) {filters : List String} {c' : Criteria}
    (hc' : Criteria.compile filters r.sorts = .ok c') : ∃ page size,
      answer = prepare settings r.collection c r.viewer r.softDelete >>= serveList settings page size ∧
      list settings { r with filters := filters } =
        .ok (prepare settings r.collection c' r.viewer r.softDelete >>= serveList settings page size) := by
  obtain ⟨checked, hcheck, h⟩ := of_bind_eq_ok h
  obtain ⟨page, hpage, h⟩ := of_bind_eq_ok h
  obtain ⟨size, hsize, h⟩ := of_bind_eq_ok h
  rw [hc] at h
  refine ⟨page, size, (Except.ok.inj h).symm, ?_⟩
  unfold list
  simp only [hcheck, hpage, hsize, hc']
  rfl

end Service

section Without

variable {settings : Settings} {store : Store} {others : Collaborators} {c : Criteria} {named : Uuid}

/-- A request that names a collection is answered alike without its concept. -/
theorem Answers.without {r : FeedRequest} {page : FeedPage} (h : Answers settings store others r page)
    (hc : Criteria.compile r.filters r.sorts = .ok c) (hnamed : c.id? .collection = some named) :
    Answers settings store others { r with filters := FilterKind.concept.without r.filters } page := by
  obtain ⟨answer, hanswer, rfl⟩ := h
  obtain ⟨limit, place, rfl, hfeed⟩ := Service.feed_refilter hanswer hc (Criteria.compile_without hc .concept)
  refine ⟨_, hfeed, ?_⟩
  rw [Exchange.run_bind, Exchange.run_bind, Service.prepare_without hnamed, Service.servePage_without]

/-- So is one for a listing. -/
theorem Lists.without {r : ListRequest} {page : ListPage} (h : Lists settings store others r page)
    (hc : Criteria.compile r.filters r.sorts = .ok c) (hnamed : c.id? .collection = some named) :
    Lists settings store others { r with filters := FilterKind.concept.without r.filters } page := by
  obtain ⟨answer, hanswer, rfl⟩ := h
  obtain ⟨number, size, rfl, hlist⟩ := Service.list_refilter hanswer hc (Criteria.compile_without hc .concept)
  refine ⟨_, hlist, ?_⟩
  rw [Exchange.run_bind, Exchange.run_bind, Service.prepare_without hnamed, Service.serveList_without]

end Without

/-- A task for the concept, which has not been deleted unless the request says that this is not to matter, lists the
document. -/
def Store.MadeFor (store : Store) (softDelete : SoftDelete) (concept : Uuid) (d : Document) : Prop :=
  ∃ task ∈ store.docs .tasks, (Predicate.eq ⟨"args", ["concept"]⟩ (.id concept)).accepts task = true ∧
    softDelete.predicate.accepts task = true ∧ task.Lists (.field "result") d

/-- Without a collection, a concept restricts what is shown to what a task for it lists. -/
theorem Shown.madeFor {settings : Settings} {store : Store} {others : Collaborators} {collection : Collection}
    {viewer : Option Uuid} {softDelete : SoftDelete} {c : Criteria} {x : Document}
    (h : Shown settings store others collection viewer softDelete c x)
    (hstore : store.Reachable) (hplain : store.HasPlainLinks) {concept : Uuid} (hnone : c.id? .collection = none)
    (hconcept : c.id? .concept = some concept) :
    ∃ d ∈ store.docs collection, x.id? = d.id? ∧ store.MadeFor softDelete concept d := by
  obtain ⟨d, hd, hid, -⟩ := h.exists_vouched hstore hplain
  obtain ⟨task, htask, hasked, hlive, hlists⟩ := h.exists_task hstore hplain hnone hconcept
  exact ⟨d, hd.stored, hid, task, htask, hasked, hlive, hlists.of_id? hid.symm⟩

/-- What a concept does to a page of a feed or of a listing: where the request names no collection, a task for the
concept lists every document of the page; where it names one, the request without its concept is answered with the same
page. The former needs that no document that may hold links has an object under `doc`. -/
theorem concept_restricts_or_lost {store : Store} (hstore : store.Reachable) (hplain : store.HasPlainLinks)
    (settings : Settings) (others : Collaborators) :
    (∀ (r : FeedRequest) (page : FeedPage), Answers settings store others r page →
      ∃ c, Criteria.compile r.filters r.sorts = .ok c ∧
      ∀ concept, c.id? .concept = some concept →
        (c.id? .collection = none → ∀ x ∈ page.docs, ∃ d ∈ store.docs r.collection, x.id? = d.id? ∧
          store.MadeFor r.softDelete concept d) ∧
        (c.id? .collection ≠ none →
          Answers settings store others { r with filters := FilterKind.concept.without r.filters } page)) ∧
    ∀ (r : ListRequest) (page : ListPage), Lists settings store others r page →
      ∃ c, Criteria.compile r.filters r.sorts = .ok c ∧
      ∀ concept, c.id? .concept = some concept →
        (c.id? .collection = none → ∀ x ∈ page.docs, ∃ d ∈ store.docs r.collection, x.id? = d.id? ∧
          store.MadeFor r.softDelete concept d) ∧
        (c.id? .collection ≠ none →
          Lists settings store others { r with filters := FilterKind.concept.without r.filters } page) := by
  constructor
  · intro r page h
    obtain ⟨c, hc, hshown⟩ := h.shown
    refine ⟨c, hc, fun concept hconcept => ⟨?_, ?_⟩⟩
    · exact fun hnone x hx => (hshown x hx).madeFor hstore hplain hnone hconcept
    · intro hnamed
      obtain ⟨named, hnamed⟩ := Option.ne_none_iff_exists'.1 hnamed
      exact h.without hc hnamed
  · intro r page h
    obtain ⟨c, hc, hshown⟩ := h.shown
    refine ⟨c, hc, fun concept hconcept => ⟨?_, ?_⟩⟩
    · exact fun hnone x hx => (hshown x hx).madeFor hstore hplain hnone hconcept
    · intro hnamed
      obtain ⟨named, hnamed⟩ := Option.ne_none_iff_exists'.1 hnamed
      exact h.without hc hnamed

/-- A collection of one document, and no task. -/
def Sample.unmade : Store := .ofList [(.creations, creation 1),
  (.collections, ⟨[("_id", .string (uuid 5).toText), ("creations", .array [.string (uuid 1).toText])]⟩)]

theorem Sample.hasPlainLinks_unmade : unmade.HasPlainLinks := by decide +kernel

/-- A request for the members of the collection that were made for a concept. -/
def Sample.unmadeRequest : FeedRequest :=
  request ["collection;00000000-0000-0000-0000-000000000005", "concept;00000000-0000-0000-0000-000000000008"] [] none

theorem Sample.exists_page_unmade :
    ∃ page, Answers {} unmade .absent unmadeRequest page ∧ page.docs.map Document.id? = [some (uuid 1)] := by
  let c : Criteria := ⟨[⟨.collection, [.id (uuid 5)]⟩, ⟨.concept, [.id (uuid 8)]⟩], none, false, false⟩
  let q := (prepared c none).request (.cursor none 1) ({} : Settings).followingCap
  have hserves : Serves {} unmade .absent unmadeRequest 1 (prepared c none) := ⟨rfl, rfl, c, by decide +kernel, rfl⟩
  have hsame : ((((q.gathered unmade .absent).filter (q.passes unmade)).map q.dress).filter fun d =>
      !q.isScored || q.bound.accepts d).map Document.id? = List.replicate 1 (some (uuid 1)) := by decide +kernel
  exact hserves.exists_page rfl (Store.reachable_ofList _) hasPlainLinks_unmade rfl hsame

/-- The theorem at a page of the members. -/
theorem concept_restricts_or_lost_sample : ∃ page, Answers {} Sample.unmade .absent Sample.unmadeRequest page ∧
    ∃ c, Criteria.compile Sample.unmadeRequest.filters Sample.unmadeRequest.sorts = .ok c ∧
      ∀ concept, c.id? .concept = some concept →
        (c.id? .collection = none → ∀ x ∈ page.docs, ∃ d ∈ Sample.unmade.docs .creations, x.id? = d.id? ∧
          Sample.unmade.MadeFor .exclude concept d) ∧
        (c.id? .collection ≠ none → Answers {} Sample.unmade .absent
          { Sample.unmadeRequest with filters := FilterKind.concept.without Sample.unmadeRequest.filters } page) := by
  obtain ⟨page, hpage, -⟩ := Sample.exists_page_unmade
  exact ⟨page, hpage, (concept_restricts_or_lost (Store.reachable_ofList _) Sample.hasPlainLinks_unmade {} .absent).1
    Sample.unmadeRequest page hpage⟩

/-- A page of the members shows the document, though there is no task that could list it. -/
theorem concept_lost_beside_collection : Sample.unmade.docs .tasks = [] ∧
    (∀ concept d, ¬Sample.unmade.MadeFor .exclude concept d) ∧
    ∃ page, Answers {} Sample.unmade .absent Sample.unmadeRequest page ∧
      page.docs.map Document.id? = [some (Sample.uuid 1)] := by
  have htasks : Sample.unmade.docs .tasks = [] := rfl
  refine ⟨htasks, ?_, Sample.exists_page_unmade⟩
  rintro concept d ⟨task, htask, -⟩
  simp [htasks] at htask

end FeedQuery
