import Mathlib.Data.List.Perm.Subperm
import FeedQuery.Proofs.Resumption
import FeedQuery.Proofs.Soundness

/-!
# How often a document is shown

A client that goes from page to page gets ever farther in the order (`Prepared.Advances`, `Walk.exists_raws`): what is
on a page comes strictly after all that is on the pages before. So no page shows a document again, unless a page shows
it more than once or, in the order of the likes, several likes lead to it. Over all pages a document is shown no more
often than there are routes to it (`shown_once_per_route`).
-/

namespace FeedQuery

open Document (AgreesApart)

/-- Pages that a client gets to from a request, each from the page before by its cursor and its value. They need not go
to the end. -/
inductive Walk (settings : Settings) (store : Store) (others : Collaborators) : FeedRequest → List FeedPage → Prop where
  | last {r : FeedRequest} {page : FeedPage} : Answers settings store others r page →
    Walk settings store others r [page]
  | next {r : FeedRequest} {page : FeedPage} {text : Option String} {pages : List FeedPage} :
      Answers settings store others r page → page.docs ≠ [] → Cursor.Writes page.nextValue text →
      Walk settings store others (r.after page text) pages → Walk settings store others r (page :: pages)

section Walk

variable {settings : Settings} {store : Store} {others : Collaborators} {r : FeedRequest} {limit : Nat} {p : Prepared}

/-- A request that is answered with documents is served, from some place on. -/
theorem Answers.serves {page : FeedPage} (h : Answers settings store others r page) (hne : page.docs ≠ []) :
    ∃ limit p place, Serves settings store others r limit p ∧ Cursor.read r.cursor r.nextValue = .ok place := by
  obtain ⟨answer, hanswer, rfl⟩ := h
  have hfeed : r.collection.isFeed = true := Service.isFeed_of_checkFeed hanswer
  obtain ⟨-, -, hanswer⟩ := of_bind_eq_ok hanswer
  obtain ⟨limit, hlimit, hanswer⟩ := of_bind_eq_ok hanswer
  obtain ⟨place, hplace, hanswer⟩ := of_bind_eq_ok hanswer
  obtain ⟨c, hc, hanswer⟩ := of_bind_eq_ok hanswer
  obtain rfl := Except.ok.inj hanswer
  rw [Exchange.run_bind] at hne
  cases hp : (Service.prepare settings r.collection c r.viewer r.softDelete).run store others with
  | none => exact absurd (by rw [hp]; rfl) hne
  | some p =>
    exact ⟨limit, p, place, ⟨hfeed, hlimit, c, Service.of_mapError_eq_ok hc, hp⟩, Service.of_mapError_eq_ok hplace⟩

/-- Wherever a page begins, its documents come in order behind there, each at a place. -/
structure Prepared.Advances (p : Prepared) (settings : Settings) (store : Store) (others : Collaborators)
    (limit : Nat) : Prop where
  ordered : ∀ place, (p.raw settings store others place limit).Pairwise fun a b =>
    (compareDocuments p.cursorPlan.sortKeys a b).isLE
  placed : ∀ place, ∀ d ∈ p.raw settings store others place limit, (p.cursorPlan.place? d).isSome = true
  behind : ∀ place, ∀ d ∈ p.raw settings store others place limit, (p.cursorPlan.bound place).accepts d = true

namespace Prepared.Advances

variable (h : p.Advances settings store others limit)
include h

/-- A page holds what follows the anchor that its request goes on from. -/
theorem follows {anchor : Option Document} {place : Option Cursor} (ha : p.cursorPlan.Anchors anchor place)
    {d : Document} (hd : d ∈ p.raw settings store others place limit) : p.cursorPlan.Follows anchor d :=
  (CursorPlan.accepts_bound_iff_follows p.core.isNumeric_cursorPlan ha (h.placed place d hd)).1 (h.behind place d hd)

/-- The last document of a page has a place, and what follows it comes after all of the page. -/
theorem exists_last {place : Option Cursor} (hne : p.raw settings store others place limit ≠ []) : ∃ last c,
    (p.raw settings store others place limit).getLast? = some last ∧ p.cursorPlan.place? last = some c ∧
    ∀ d ∈ p.raw settings store others place limit, ∀ e, p.cursorPlan.Follows (some last) e →
      compareDocuments p.cursorPlan.sortKeys d e = .lt := by
  obtain ⟨before, last, hsplit⟩ : ∃ before last, p.raw settings store others place limit = before ++ [last] :=
    ⟨_, _, (List.dropLast_append_getLast hne).symm⟩
  obtain ⟨c, hc⟩ := Option.isSome_iff_exists.1 (h.placed place last (by simp [hsplit]))
  refine ⟨last, c, by rw [hsplit, List.getLast?_concat], hc, ?_⟩
  intro d hd e he
  have hordered := h.ordered place
  rw [hsplit] at hd hordered
  rcases List.mem_append.1 hd with hd | hd
  · have hle := (List.pairwise_append.1 hordered).2.2 d hd last (List.mem_singleton_self _)
    exact Std.TransCmp.lt_of_isLE_of_lt hle (he last rfl)
  · obtain rfl := List.mem_singleton.1 hd
    exact he d rfl

end Prepared.Advances

/-- Pages from some places on, of which each comes after all that is on the pages before. -/
structure Prepared.Climbs (p : Prepared) (settings : Settings) (store : Store) (others : Collaborators) (limit : Nat)
    (raws : List (List Document)) : Prop where
  cut : ∀ docs ∈ raws, ∃ place, docs = p.raw settings store others place limit
  separate : raws.Pairwise fun docs next => ∀ d ∈ docs, ∀ e ∈ next, compareDocuments p.cursorPlan.sortKeys d e = .lt

/-- A walk goes through such pages, after the anchor that it goes on from. -/
theorem Walk.exists_raws (ha : p.Advances settings store others limit) {pages : List FeedPage}
    (h : Walk settings store others r pages) :
    ∀ {place}, Serves settings store others r limit p → Cursor.read r.cursor r.nextValue = .ok place →
      ∃ raws : List (List Document), pages = raws.map (p.decorate store others) ∧
        p.Climbs settings store others limit raws ∧
        ∀ anchor, p.cursorPlan.Anchors anchor place → ∀ docs ∈ raws, ∀ d ∈ docs, p.cursorPlan.Follows anchor d := by
  induction h with
  | @last r page hanswers =>
    intro place hr hplace
    refine ⟨[p.raw settings store others place limit], by rw [(hr.answers_iff hplace).1 hanswers]; rfl, ⟨?_, ?_⟩, ?_⟩
    · intro docs hdocs
      exact ⟨place, List.mem_singleton.1 hdocs⟩
    · exact List.pairwise_singleton _ _
    · intro anchor hanchor docs hdocs d hd
      rw [List.mem_singleton.1 hdocs] at hd
      exact ha.follows hanchor hd
  | @next r page text pages hanswers hne htext _ ih =>
    intro place hr hplace
    obtain rfl := (hr.answers_iff hplace).1 hanswers
    obtain ⟨last, c, hlast, hc, hafter⟩ := ha.exists_last fun hnil => hne (Prepared.decorate_eq_nil.2 hnil)
    have hread := p.read_after store others hlast hc r text htext
    obtain ⟨raws, hraws, hclimbs, hfollows⟩ := ih (hr.after _ _) hread
    -- what the later pages hold follows the last document of this one, so it follows all that this one holds and its
    -- anchor
    have hbehind := hfollows (some last) (by simp [CursorPlan.Anchors, hc])
    refine ⟨p.raw settings store others place limit :: raws, by rw [hraws]; rfl, ⟨?_, ?_⟩, ?_⟩
    · intro docs hdocs
      rcases List.mem_cons.1 hdocs with rfl | hdocs
      · exact ⟨place, rfl⟩
      · exact hclimbs.cut docs hdocs
    · refine List.pairwise_cons.2 ⟨?_, hclimbs.separate⟩
      intro next hnext d hd e he
      exact hafter d hd e (hbehind next hnext e he)
    · intro anchor hanchor docs hdocs d hd
      rcases List.mem_cons.1 hdocs with rfl | hdocs
      · exact ha.follows hanchor hd
      · have hlastmem : last ∈ p.raw settings store others place limit := List.mem_of_getLast? hlast
        exact (ha.follows hanchor hlastmem).trans (hbehind docs hdocs d hd last rfl)

end Walk

namespace PlanRequest

variable {q : PlanRequest} {store : Store} {others : Collaborators} (hstore : store.Reachable)
  (hplain : store.HasPlainLinks)
include hstore hplain

section Documents

variable (hr : q.isReactionOrder = false)
include hr

/-- In an order of the documents, what a plan yields lies where a stored document with its identifier lies once it is
dressed. -/
theorem exists_alike {x : Document} (hx : x ∈ q.documents store others) :
    ∃ d ∈ store.docs q.collection, x.id? = d.id? ∧ q.cursorPlan.Alike (q.dress d) x := by
  have hids := hstore.identified q.collection
  obtain ⟨y, hy, -, -, rfl⟩ := exists_gathered_of_mem hids hplain hx
  obtain ⟨d, hd, -, hagrees⟩ := exists_source_of_mem_gathered hids hy
  have hposition : q.cursorPlan.position = .id := by
    rw [position_cursorPlan, hr]
    rfl
  refine ⟨d, hd.stored, by rw [id?_dress, hagrees.id?_eq (by simp)], ?_⟩
  exact q.alike_of_agreesApart (q.dress_congr hagrees (by simp)) (by rw [hposition]; decide) (by decide)

/-- There it has a place, and comes after the cursor. -/
theorem placed_and_behind (hfinite : q.HasFiniteScores) {x : Document} (hx : x ∈ q.documents store others) :
    (q.cursorPlan.place? x).isSome = true ∧ q.bound.accepts x = true := by
  have hids := hstore.identified q.collection
  obtain ⟨y, hy, -, hlate, rfl⟩ := exists_gathered_of_mem hids hplain hx
  obtain ⟨d, hd, hearly, hagrees⟩ := exists_source_of_mem_gathered hids hy
  obtain ⟨u, hu⟩ := hids.exists_id? hd.stored
  refine ⟨q.isSome_place?_dress (fun _ => hfinite) hr hu hd.accepted hagrees, ?_⟩
  cases hs : q.isScored with
  | true => exact hlate hs
  | false =>
    have haccepts := hearly hr
    rw [accepts_joinFilter, hs, Bool.false_or, Bool.and_eq_true] at haccepts
    have hdressed : AgreesApart ["similarity", "_likedBy", "likedId", "likedAt"] d (q.dress y) :=
      (hagrees.mono (by simp)).trans ((q.agreesApart_dress y).mono (by simp))
    rw [q.accepts_bound_congr hs hr hdressed]
    exact haccepts.2

end Documents

section Likes

variable (hr : q.isReactionOrder = true)
include hr

omit hstore hplain in
/-- In the order of the likes, a plan gathers what the likes after the cursor lead to. -/
theorem gathered_likes : q.gathered store others =
    q.fetch store others q.documentFilter
      (sortDocuments [.idDescending] ((q.rows store).filter q.likesBound.accepts)) := by
  have hs : q.strategy.isReactionFanOut = true := (Bool.and_eq_true_iff.1 hr).1
  unfold gathered
  cases hstrategy : q.strategy with
  | reactionFanOut liker => simp [hr]
  | _ => simp [hstrategy, Strategy.isReactionFanOut] at hs

omit hplain in
/-- There the rows are likes, each with an identifier of its own. -/
theorem identified_likes : Identified (q.rows store) := by
  have hs : q.strategy.isReactionFanOut = true := (Bool.and_eq_true_iff.1 hr).1
  cases hstrategy : q.strategy with
  | reactionFanOut liker =>
    cases liker with
    | none =>
      rw [rows, hstrategy]
      exact ⟨by simp, .nil⟩
    | some liker =>
      rw [rows_likes hstrategy]
      exact (hstore.identified .reactions).filter _
  | _ => simp [hstrategy, Strategy.isReactionFanOut] at hs

/-- There, what a plan yields was reached through a like after the cursor that names it. -/
theorem exists_like {x : Document} (hx : x ∈ q.documents store others) :
    ∃ row ∈ q.rows store, ∃ d ∈ store.docs q.collection,
    q.likesBound.accepts row = true ∧ q.names row d = true ∧ x = row.carryInto q.carried d := by
  have hids := hstore.identified q.collection
  obtain ⟨y, hy, -, -, rfl⟩ := exists_gathered_of_mem hids hplain hx
  rw [gathered_likes hr] at hy
  obtain ⟨row, hrow, d, hd, -, hnames, rfl⟩ := exists_of_mem_fetch hids hy
  obtain ⟨hrow, hbound⟩ := List.mem_filter.1 ((mem_sortDocuments _).1 hrow)
  exact ⟨row, hrow, d, hd, hbound, hnames, dress_of_isReactionOrder hr _⟩

/-- There it lies at the place of that like, which comes after the cursor. -/
theorem placed_and_behind_of_likes {x : Document} (hx : x ∈ q.documents store others) :
    (q.cursorPlan.place? x).isSome = true ∧ q.bound.accepts x = true := by
  obtain ⟨row, hrow, d, -, hbound, -, rfl⟩ := exists_like hstore hplain hr hx
  obtain ⟨u, hu⟩ := (identified_likes hstore hr).exists_id? hrow
  exact ⟨by rw [place?_likes hr hu]; rfl, by rw [accepts_bound_likes hr hu]; exact hbound⟩

/-- There a plan yields documents in strict order, as no two of them were reached through one like. -/
theorem strict_likes : (q.documents store others).Pairwise fun a b =>
    compareDocuments q.cursorPlan.sortKeys a b = .lt := by
  have hrows : Identified ((q.rows store).filter q.likesBound.accepts) := (identified_likes hstore hr).filter _
  have hgathered : (q.gathered store others).Pairwise fun a b => compareDocuments q.cursorPlan.sortKeys a b ≠ .eq := by
    rw [gathered_likes hr]
    refine List.pairwise_filterMap.2 ((strict_sortDocuments (CursorPlan.distinct_byId hrows)).imp_of_mem ?_)
    intro a b ha hb hab x hx y hy
    obtain ⟨u, hu⟩ := hrows.exists_id? ((mem_sortDocuments _).1 ha)
    obtain ⟨v, hv⟩ := hrows.exists_id? ((mem_sortDocuments _).1 hb)
    obtain ⟨d, -, rfl⟩ := Option.map_eq_some_iff.1 hx
    obtain ⟨e, -, rfl⟩ := Option.map_eq_some_iff.1 hy
    rw [compare_likes hr hu hv, hab]
    decide
  have hdress : q.dress = id := funext (dress_of_isReactionOrder hr)
  rw [documents_eq (hstore.identified q.collection) hplain, hdress, List.map_id]
  exact (strict_sortDocuments ((hgathered.sublist List.filter_sublist).sublist List.filter_sublist)).sublist
    (window_sublist _ _)

end Likes

end PlanRequest

/-- Documents in strict order that have places have different ones. -/
theorem CursorPlan.place?_ne_of_lt {plan : CursorPlan} (hplan : plan.IsNumeric) {d e : Document}
    (hd : (plan.place? d).isSome = true) (hlt : compareDocuments plan.sortKeys d e = .lt) :
    plan.place? d ≠ plan.place? e := by
  intro hsame
  obtain ⟨c, hc⟩ := Option.isSome_iff_exists.1 hd
  have he : plan.place? e = some c := hsame.symm.trans hc
  have hsome : (plan.place? e).isSome = true := by rw [he]; rfl
  have haccepts := (accepts_bound_iff hplan hc hsome).2 hlt
  have hself : compareDocuments plan.sortKeys e e = .eq := Std.ReflCmp.compare_self
  rw [accepts_bound_iff hplan he hsome, hself] at haccepts
  cases haccepts

/-- What no two pages have in common is on all pages no more often than on one. -/
theorem countP_flatten_le {α : Type} {p : α → Bool} {count : Nat} {pages : List (List α)}
    (hpages : ∀ page ∈ pages, page.countP p ≤ count)
    (hseparate : pages.Pairwise fun page next => ∀ a ∈ page, ∀ b ∈ next, p a = true → p b = false) :
    pages.flatten.countP p ≤ count := by
  induction pages with
  | nil => simp
  | cons page rest ih =>
    rw [List.pairwise_cons] at hseparate
    rw [List.flatten_cons, List.countP_append]
    by_cases hpage : ∃ a ∈ page, p a = true
    · obtain ⟨a, ha, hpa⟩ := hpage
      have hrest : rest.flatten.countP p = 0 := by
        refine List.countP_eq_zero.2 fun b hb => ?_
        obtain ⟨next, hnext, hb⟩ := List.mem_flatten.1 hb
        simp [hseparate.1 next hnext a ha b hb hpa]
      rw [hrest]
      exact hpages page List.mem_cons_self
    · have hnone : page.countP p = 0 := List.countP_eq_zero.2 fun a ha hpa => hpage ⟨a, ha, hpa⟩
      rw [hnone, Nat.zero_add]
      exact ih (fun next hnext => hpages next (List.mem_cons_of_mem page hnext)) hseparate.2

namespace Prepared

variable {p : Prepared} {settings : Settings} {store : Store} {others : Collaborators} {limit : Nat}
  (hstore : store.Reachable) (hplain : store.HasPlainLinks)
include hstore hplain

/-- In every order, pages get ever farther. -/
theorem advances (hfinite : p.core.HasFiniteScores) : p.Advances settings store others limit := by
  have hmem (place : Option Cursor) (x : Document) (hx : x ∈ p.raw settings store others place limit) :
      (p.cursorPlan.place? x).isSome = true ∧ (p.cursorPlan.bound place).accepts x = true := by
    cases hr : p.core.isReactionOrder with
    | false =>
      exact PlanRequest.placed_and_behind (q := p.request (.cursor place limit) settings.followingCap) hstore hplain
        hr hfinite hx
    | true =>
      exact PlanRequest.placed_and_behind_of_likes (q := p.request (.cursor place limit) settings.followingCap) hstore
        hplain hr hx
  refine ⟨fun place => ?_, fun place x hx => (hmem place x hx).1, fun place x hx => (hmem place x hx).2⟩
  exact PlanRequest.pairwise_documents (q := p.request (.cursor place limit) settings.followingCap)
    (hstore.identified p.collection) hplain

namespace Climbs

variable {raws : List (List Document)} (h : p.Climbs settings store others limit raws)
include h

/-- What is on the pages are documents of the collection. -/
theorem exists_id?_eq {x : Document} (hx : x ∈ raws.flatten) : ∃ d ∈ store.docs p.collection, x.id? = d.id? := by
  have hids := hstore.identified p.collection
  obtain ⟨docs, hdocs, hx⟩ := List.mem_flatten.1 hx
  obtain ⟨place, rfl⟩ := h.cut docs hdocs
  obtain ⟨d, hd, -, hagrees⟩ := PlanRequest.exists_source _ hids hplain hx
  exact ⟨d, hd.stored, hagrees.id?_eq (by simp)⟩

/-- In an order of the documents, no two pages have a document in common. -/
theorem separate_ids (hr : p.core.isReactionOrder = false) :
    raws.Pairwise fun docs next => ∀ x ∈ docs, ∀ y ∈ next, x.id? ≠ y.id? := by
  have halike {docs : List Document} (hdocs : docs ∈ raws) {x : Document} (hx : x ∈ docs) :
      ∃ d ∈ store.docs p.collection, x.id? = d.id? ∧ p.cursorPlan.Alike (p.core.dress d) x := by
    obtain ⟨place, rfl⟩ := h.cut docs hdocs
    exact PlanRequest.exists_alike (q := p.request (.cursor place limit) settings.followingCap) hstore hplain hr hx
  refine h.separate.imp_of_mem ?_
  intro docs next hdocs hnext hlt x hx y hy hid
  obtain ⟨d, hd, hxd, hdalike⟩ := halike hdocs hx
  obtain ⟨e, he, hye, healike⟩ := halike hnext hy
  obtain rfl := (hstore.identified p.collection).eq_of_id? hd he (hxd.symm.trans (hid.trans hye))
  -- with one identifier they lie alike, so neither comes before the other
  have hsame : compareDocuments p.cursorPlan.sortKeys x y = .eq :=
    (CursorPlan.Alike.compare hdalike healike).trans Std.ReflCmp.compare_self
  rw [hlt x hx y hy] at hsame
  cases hsame

/-- In the order of the likes, all that is on the pages is in strict order. -/
theorem strict_flatten (hr : p.core.isReactionOrder = true) :
    raws.flatten.Pairwise fun x y => compareDocuments p.cursorPlan.sortKeys x y = .lt := by
  refine List.pairwise_flatten.2 ⟨fun docs hdocs => ?_, h.separate⟩
  obtain ⟨place, rfl⟩ := h.cut docs hdocs
  exact PlanRequest.strict_likes (q := p.request (.cursor place limit) settings.followingCap) hstore hplain hr

/-- There a document is on the pages no more often than likes name it. -/
theorem countP_le_of_likes (hr : p.core.isReactionOrder = true) {d : Document} (hd : d ∈ store.docs p.collection) :
    raws.flatten.countP (fun x => x.id? == d.id?) ≤ (p.core.rows store).countP fun row => p.core.names row d := by
  have hlikes := PlanRequest.identified_likes hstore hr
  have hreached {x : Document} (hx : x ∈ raws.flatten) : ∃ row ∈ p.core.rows store, ∃ e ∈ store.docs p.collection,
      p.core.names row e = true ∧ x = row.carryInto p.core.carried e := by
    obtain ⟨docs, hdocs, hx⟩ := List.mem_flatten.1 hx
    obtain ⟨place, rfl⟩ := h.cut docs hdocs
    obtain ⟨row, hrow, e, he, -, hnames, rfl⟩ :=
      PlanRequest.exists_like (q := p.request (.cursor place limit) settings.followingCap) hstore hplain hr hx
    exact ⟨row, hrow, e, he, hnames, rfl⟩
  have hplace {row : Document} (hrow : row ∈ p.core.rows store) (e : Document) :
      p.cursorPlan.place? (row.carryInto p.core.carried e) = row.id?.map fun u => ⟨u, none⟩ := by
    obtain ⟨u, hu⟩ := hlikes.exists_id? hrow
    rw [hu]
    exact PlanRequest.place?_likes hr hu e
  -- each lies at the place of the like that it was reached through, and no two at one place
  have hnodup : ((raws.flatten.filter fun x => x.id? == d.id?).map p.cursorPlan.place?).Nodup := by
    refine List.pairwise_map.2 (((h.strict_flatten hstore hplain hr).sublist List.filter_sublist).imp_of_mem ?_)
    intro x y hx _ hlt
    obtain ⟨row, hrow, e, -, -, rfl⟩ := hreached (List.mem_filter.1 hx).1
    have hplaced : (p.cursorPlan.place? (row.carryInto p.core.carried e)).isSome = true := by
      rw [hplace hrow, Option.isSome_map]
      exact hlikes.isSome row hrow
    exact CursorPlan.place?_ne_of_lt p.core.isNumeric_cursorPlan hplaced hlt
  have hsub : (raws.flatten.filter fun x => x.id? == d.id?).map p.cursorPlan.place? ⊆
      ((p.core.rows store).filter fun row => p.core.names row d).map fun row => row.id?.map fun u => ⟨u, none⟩ := by
    intro place hmem
    obtain ⟨x, hx, rfl⟩ := List.mem_map.1 hmem
    obtain ⟨hx, hid⟩ := List.mem_filter.1 hx
    obtain ⟨row, hrow, e, he, hnames, rfl⟩ := hreached hx
    rw [beq_iff_eq, PlanRequest.id?_carried] at hid
    obtain rfl := (hstore.identified p.collection).eq_of_id? he hd hid
    rw [hplace hrow]
    exact List.mem_map_of_mem (List.mem_filter.2 ⟨hrow, hnames⟩)
  have hlength := (List.Nodup.subperm hnodup hsub).length_le
  rwa [List.length_map, List.length_map, ← List.countP_eq_length_filter, ← List.countP_eq_length_filter] at hlength

/-- In every order, a document is on the pages no more often than there are routes to it. -/
theorem countP_le {d : Document} (hd : d ∈ store.docs p.collection) :
    raws.flatten.countP (fun x => x.id? == d.id?) ≤ p.core.routes store d := by
  cases hr : p.core.isReactionOrder with
  | false =>
    refine countP_flatten_le (fun docs hdocs => ?_) ((h.separate_ids hstore hplain hr).imp ?_)
    · obtain ⟨place, rfl⟩ := h.cut docs hdocs
      exact PlanRequest.countP_documents_le (hstore.identified p.collection) hplain hd
    · intro docs next hne x hx y hy hid
      rw [beq_iff_eq] at hid
      exact beq_false_of_ne fun hyd => hne x hx y hy (hid.trans hyd.symm)
  | true =>
    have hroutes : p.core.routes store d = (p.core.rows store).countP fun row => p.core.names row d := by
      have hs : p.core.strategy.isReactionFanOut = true := (Bool.and_eq_true_iff.1 hr).1
      unfold PlanRequest.routes
      cases hstrategy : p.core.strategy with
      | reactionFanOut liker => rfl
      | _ => simp [hstrategy, Strategy.isReactionFanOut] at hs
    rw [hroutes]
    exact h.countP_le_of_likes hstore hplain hr hd

end Climbs

end Prepared

/-- A walk begins with the page that its request is answered with, and ends there if that page is empty. -/
theorem Walk.exists_cons {settings : Settings} {store : Store} {others : Collaborators} {r : FeedRequest}
    {pages : List FeedPage} (h : Walk settings store others r pages) :
    ∃ page rest, pages = page :: rest ∧ Answers settings store others r page ∧ (page.docs = [] → rest = []) := by
  cases h with
  | last hanswers => exact ⟨_, [], rfl, hanswers, fun _ => rfl⟩
  | next hanswers hne _ _ => exact ⟨_, _, rfl, hanswers, fun hnil => absurd hnil hne⟩

/-- A document is shown no more often than there are routes to it, on one page and on all pages together that a client
gets to from page to page: once for each live follow that names an owner of it, once for each place in a collection and
each result of a task that names it, and once for each live like of it. In an order of the documents no two pages have a
document in common, and where there is one route to each document at most, no document is shown twice. This needs that
no document that may hold links has an object under `doc`, and that scores are numbers. -/
theorem shown_once_per_route {store : Store} (hstore : store.Reachable) (hplain : store.HasPlainLinks)
    {others : Collaborators} (hothers : others.IsFinite) {settings : Settings} {r : FeedRequest} {pages : List FeedPage}
    (h : Walk settings store others r pages) :
    pages.flatMap FeedPage.docs = [] ∨ ∃ limit p, Serves settings store others r limit p ∧
      (∀ x ∈ pages.flatMap FeedPage.docs, ∃ d ∈ store.docs r.collection, x.id? = d.id?) ∧
      (∀ d ∈ store.docs r.collection,
        (pages.flatMap FeedPage.docs).countP (fun x => x.id? == d.id?) ≤ p.core.routes store d) ∧
      (p.core.isReactionOrder = false →
        pages.Pairwise fun page next => ∀ x ∈ page.docs, ∀ y ∈ next.docs, x.id? ≠ y.id?) ∧
      ((∀ d ∈ store.docs r.collection, p.core.routes store d ≤ 1) → Identified (pages.flatMap FeedPage.docs)) := by
  obtain ⟨page, rest, rfl, hanswers, hrest⟩ := h.exists_cons
  by_cases hne : page.docs = []
  · left
    simp [hne, hrest hne]
  right
  obtain ⟨limit, p, place, hserves, hplace⟩ := hanswers.serves hne
  have hcollection : p.collection = r.collection := by
    obtain ⟨c, -, hp⟩ := hserves.prepared
    exact Service.collection_of_prepare hp
  obtain ⟨raws, hraws, hclimbs, -⟩ :=
    h.exists_raws (Prepared.advances hstore hplain (hserves.hasFiniteScores hothers)) hserves hplace
  rw [← hcollection, hraws]
  have hids := p.map_id?_decorate store others raws
  have hshown : ∀ x ∈ (raws.map (p.decorate store others)).flatMap FeedPage.docs, ∃ d ∈ store.docs p.collection,
      x.id? = d.id? := by
    intro x hx
    have hid : x.id? ∈ raws.flatten.map Document.id? := hids ▸ List.mem_map_of_mem hx
    obtain ⟨y, hy, hyx⟩ := List.mem_map.1 hid
    obtain ⟨d, hd, hyd⟩ := hclimbs.exists_id?_eq hstore hplain hy
    exact ⟨d, hd, hyx.symm.trans hyd⟩
  have hcount : ∀ d ∈ store.docs p.collection,
      ((raws.map (p.decorate store others)).flatMap FeedPage.docs).countP (fun x => x.id? == d.id?) ≤
      p.core.routes store d := by
    intro d hd
    have hmap (xs : List Document) : xs.countP (fun x => x.id? == d.id?) =
        (xs.map Document.id?).countP (· == d.id?) := by
      rw [List.countP_map]
      rfl
    rw [hmap, hids, ← hmap]
    exact hclimbs.countP_le hstore hplain hd
  refine ⟨limit, p, hserves, hshown, hcount, fun hr => ?_, fun hroutes => ?_⟩
  · refine List.pairwise_map.2 ((hclimbs.separate_ids hstore hplain hr).imp ?_)
    intro docs next hseparate x hx y hy
    obtain ⟨f, hf, hfa⟩ := p.exists_decorate store others docs
    obtain ⟨g, hg, hga⟩ := p.exists_decorate store others next
    rw [hf] at hx
    rw [hg] at hy
    obtain ⟨d, hd, rfl⟩ := List.mem_map.1 hx
    obtain ⟨e, he, rfl⟩ := List.mem_map.1 hy
    rw [id?_of_decorated (hfa d), id?_of_decorated (hga e)]
    exact hseparate d hd e he
  · refine .of_countP_le_one (fun x hx => ?_) fun x hx => ?_
    · obtain ⟨d, hd, hid⟩ := hshown x hx
      rw [hid]
      exact (hstore.identified p.collection).isSome d hd
    · obtain ⟨d, hd, hid⟩ := hshown x hx
      rw [hid]
      exact (hcount d hd).trans (hroutes d hd)

/-- A collection that names one of two documents twice. -/
def Sample.doubled : Store := .ofList [(.creations, creation 1), (.creations, creation 3),
  (.collections, ⟨[("_id", .string (uuid 5).toText),
  ("creations", .array [.string (uuid 1).toText, .string (uuid 1).toText])]⟩)]

/-- A collection that names two documents which are not there, and has an object of its own where a joined document is
held. -/
def Sample.impostor : Store := .ofList [(.collections, ⟨[("_id", .string (uuid 5).toText),
  ("creations", .array [.string (uuid 7).toText, .string (uuid 8).toText]),
  ("doc", .object [("_id", .string (uuid 9).toText), ("public", .bool true)])]⟩)]

theorem Sample.hasPlainLinks_doubled : doubled.HasPlainLinks := by decide +kernel

/-- Two routes lead to the document that the collection names twice. The theorem at a page of the collection. -/
theorem shown_once_per_route_sample :
    Sample.preparedMembers.core.routes Sample.doubled (Sample.creation 1) = 2 ∧
    ∃ page, Walk {} Sample.doubled .absent Sample.membersRequest [page] ∧
      ([page].flatMap FeedPage.docs = [] ∨ ∃ limit p, Serves {} Sample.doubled .absent Sample.membersRequest limit p ∧
        (∀ x ∈ [page].flatMap FeedPage.docs, ∃ d ∈ Sample.doubled.docs .creations, x.id? = d.id?) ∧
        (∀ d ∈ Sample.doubled.docs .creations,
          ([page].flatMap FeedPage.docs).countP (fun x => x.id? == d.id?) ≤ p.core.routes Sample.doubled d) ∧
        (p.core.isReactionOrder = false →
          [page].Pairwise fun page next => ∀ x ∈ page.docs, ∀ y ∈ next.docs, x.id? ≠ y.id?) ∧
        ((∀ d ∈ Sample.doubled.docs .creations, p.core.routes Sample.doubled d ≤ 1) →
          Identified ([page].flatMap FeedPage.docs))) := by
  have hstore : Sample.doubled.Reachable := Store.reachable_ofList _
  have hanswers := ((Sample.serves_membersRequest Sample.doubled).answers_iff rfl).2 rfl
  exact ⟨by decide +kernel, _, .last hanswers,
    shown_once_per_route hstore Sample.hasPlainLinks_doubled Collaborators.isFinite_absent (.last hanswers)⟩

/-- A page shows the document twice that the collection names twice. -/
theorem Sample.exists_page_doubled : ∃ page, Answers {} doubled .absent membersRequest page ∧
    page.docs.map Document.id? = [some (uuid 1), some (uuid 1)] := by
  let q := preparedMembers.request (.cursor none 2) ({} : Settings).followingCap
  have hsame : ((((q.gathered doubled .absent).filter (q.passes doubled)).map q.dress).filter fun d =>
      !q.isScored || q.bound.accepts d).map Document.id? = List.replicate 2 (some (uuid 1)) := by decide +kernel
  exact (serves_membersRequest doubled).exists_page rfl (Store.reachable_ofList _) hasPlainLinks_doubled rfl hsame

/-- A page shows the collection's own object once for each document that is not there. -/
theorem Sample.exists_page_impostor : ∃ page, Answers {} impostor .absent membersRequest page ∧
    page.docs.map Document.id? = [some (uuid 9), some (uuid 9)] := by
  let q := preparedMembers.request (.cursor none 2) ({} : Settings).followingCap
  let front : List Stage :=
    [.filter (q.live .id (uuid 5)), .unwind (.field "creations"), .lookup (q.member q.link q.joinFilter),
    .replaceRoot .joined []]
  have hcore : q.core = front ++ q.tail := rfl
  obtain ⟨hids, hsame⟩ : (∀ d ∈ Stage.results impostor .absent front (impostor.docs q.root), d.id?.isSome = true) ∧
      ((((Stage.results impostor .absent front (impostor.docs q.root)).filter (q.passes impostor)).map q.dress).filter
        fun d =>
        !q.isScored || q.bound.accepts d).map Document.id? = List.replicate 2 (some (uuid 9)) := by decide +kernel
  refine ⟨_, ((serves_membersRequest impostor).answers_iff rfl).2 rfl, ?_⟩
  rw [Prepared.map_id?_docs_decorate]
  change (q.documents impostor .absent).map Document.id? = _
  rw [PlanRequest.documents, hcore, Stage.results_append, q.results_tail hids]
  exact map_id?_page hsame

/-- The scores of two documents, of which the second is not a number. -/
def Sample.unbounded : List Neighbor := [⟨uuid 1, ⟨false, 0x4014000000000000⟩⟩, ⟨uuid 3, ⟨false, 0x7ff0000000000000⟩⟩]

/-- A page of two of what is similar. -/
def Sample.unboundedRequest : FeedRequest :=
  { request ["creation;00000000-0000-0000-0000-00000000000f"] ["similarity"] none with limit := some 2 }

/-- What is prepared for what is similar. -/
def Sample.preparedUnbounded : Prepared :=
  { prepared ⟨[⟨.similar, [.id (uuid 15)]⟩], some ⟨.similarity, .descending⟩, false, false⟩ none with
    allowed := some (.ofNeighbors unbounded) }

theorem Sample.serves_unboundedRequest : Serves {} doubled (naming unbounded) unboundedRequest 2 preparedUnbounded :=
  ⟨rfl, rfl, ⟨[⟨.similar, [.id (uuid 15)]⟩], some ⟨.similarity, .descending⟩, false, false⟩, rfl, rfl⟩

/-- The document whose score is not a number comes last on the page, and the page says nothing of its score. -/
theorem Sample.exists_page_unbounded : ∃ page, Answers {} doubled (naming unbounded) unboundedRequest page ∧
    page.docs.map Document.id? = [some (uuid 1), some (uuid 3)] ∧ page.nextCursor = some (uuid 3).toText ∧
    page.nextValue = none := by
  let q := preparedUnbounded.request (.cursor none 2) ({} : Settings).followingCap
  let docs := (((q.gathered doubled (naming unbounded)).filter (q.passes doubled)).map q.dress).filter fun d =>
    !q.isScored || q.bound.accepts d
  obtain ⟨hids, hstrict, hcursor, hvalue⟩ : docs.map Document.id? = [some (uuid 1), some (uuid 3)] ∧
      docs.Pairwise (fun a b => compareDocuments q.cursorPlan.sortKeys a b = .lt) ∧
      (preparedUnbounded.decorate doubled (naming unbounded) (docs.take 2)).nextCursor = some (uuid 3).toText ∧
      (preparedUnbounded.decorate doubled (naming unbounded) (docs.take 2)).nextValue = none := by decide +kernel
  refine ⟨_, serves_unboundedRequest.answers_of_strict rfl (Store.reachable_ofList _) hasPlainLinks_doubled rfl
    rfl hstrict,
    ?_, hcursor, hvalue⟩
  rw [Prepared.map_id?_docs_decorate, List.map_take, hids]
  rfl

/-- The request after such a page goes on from the identifier alone, and the other document comes after that. -/
theorem Sample.exists_next_unbounded {page : FeedPage} (hcursor : page.nextCursor = some (uuid 3).toText) :
    ∃ next, Answers {} doubled (naming unbounded) (unboundedRequest.after page none) next ∧
      next.docs.map Document.id? = [some (uuid 1)] := by
  have hread : Cursor.read (unboundedRequest.after page none).cursor (unboundedRequest.after page none).nextValue =
      .ok (some ⟨uuid 3, none⟩) := by
    have hgiven : Cursor.given? (some (uuid 3).toText) = some (uuid 3).toText := by decide +kernel
    have hnone : Cursor.given? none = none := rfl
    change Cursor.read page.nextCursor none = _
    rw [hcursor]
    simp only [Cursor.read, hgiven, hnone, Uuid.ofText?_toText]
  let q := preparedUnbounded.request (.cursor (some ⟨uuid 3, none⟩) 2) ({} : Settings).followingCap
  have hsame : ((((q.gathered doubled (naming unbounded)).filter (q.passes doubled)).map q.dress).filter fun d =>
      !q.isScored || q.bound.accepts d).map Document.id? = List.replicate 1 (some (uuid 1)) := by decide +kernel
  exact (serves_unboundedRequest.after page none).exists_page hread (Store.reachable_ofList _)
    hasPlainLinks_doubled rfl hsame

/-- A page shows a document twice that its collection names twice; a page shows what a collection holds where a joined
document is held, once for each document that is not there; and after a score that is not a number, a page shows a
document of the page before. -/
theorem documents_shown_again :
    (∃ page, Answers {} Sample.doubled .absent Sample.membersRequest page ∧
      page.docs.map Document.id? = [some (Sample.uuid 1), some (Sample.uuid 1)]) ∧
    (∃ page, Answers {} Sample.impostor .absent Sample.membersRequest page ∧
      page.docs.map Document.id? = [some (Sample.uuid 9), some (Sample.uuid 9)]) ∧
    ∃ page next, Walk {} Sample.doubled (Sample.naming Sample.unbounded) Sample.unboundedRequest [page, next] ∧
      page.docs.map Document.id? = [some (Sample.uuid 1), some (Sample.uuid 3)] ∧
      next.docs.map Document.id? = [some (Sample.uuid 1)] := by
  refine ⟨Sample.exists_page_doubled, Sample.exists_page_impostor, ?_⟩
  obtain ⟨page, hpage, hids, hcursor, hvalue⟩ := Sample.exists_page_unbounded
  obtain ⟨next, hnext, hagain⟩ := Sample.exists_next_unbounded hcursor
  have hne : page.docs ≠ [] := by
    intro hnil
    simp [hnil] at hids
  exact ⟨page, next, .next hpage hne (hvalue ▸ .nothing) (.last hnext), hids, hagain⟩

end FeedQuery
