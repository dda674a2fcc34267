import FeedQuery.Proofs.Marking
import FeedQuery.Proofs.Soundness

/-!
# Maps of reactions

A page for a viewer has a map of the likes and a map of the bookmarks among its documents. Each has a flag for every
document, under the text of its identifier, and for nothing else; the flag says whether the store holds the viewer's
reaction (`reaction_maps_exact`).
-/

namespace FeedQuery

open Stage

namespace Fields

variable {α : Type} {name : String} {value : α} {fields : List (String × α)}

/-- A value under a name is one that was put there. -/
theorem mem_of_get?_ofList (h : get? name (ofList fields) = some value) : (name, value) ∈ fields := by
  induction fields using List.reverseRecOn with
  | nil => simp [ofList, get?] at h
  | append_singleton rest last ih =>
    rw [ofList, List.foldl_append, List.foldl_cons, List.foldl_nil, get?_set] at h
    split at h
    · next hname =>
      rw [hname, ← Option.some.inj h]
      exact List.mem_append_right _ (List.mem_singleton_self _)
    · exact List.mem_append_left _ (ih h)

/-- A name has a value once one was put under it. -/
theorem exists_get?_ofList (h : (name, value) ∈ fields) : ∃ found, get? name (ofList fields) = some found := by
  induction fields using List.reverseRecOn with
  | nil => simp at h
  | append_singleton rest last ih =>
    rw [ofList, List.foldl_append, List.foldl_cons, List.foldl_nil, get?_set]
    split
    · exact ⟨_, rfl⟩
    · next hname =>
      rcases List.mem_append.1 h with h | h
      · exact ih h
      · obtain rfl := List.mem_singleton.1 h
        exact absurd rfl hname

end Fields

/-- The map has a flag for every document, under the text of its identifier, and for no other text: whether the store
holds a reaction of the viewer to what has the identifier. -/
structure Tells (store : Store) (collection : Collection) (viewer : Uuid) (reaction : Reaction) (docs : List Document)
    (flags : Fields Bool) : Prop where
  shown : ∀ x ∈ docs, ∃ text u flag, x.get? .id = some (.string text) ∧ Uuid.ofText? text = some u ∧
    Fields.get? text flags = some flag ∧ (flag = true ↔ store.HasReaction collection viewer reaction u)
  only : ∀ text flag, Fields.get? text flags = some flag → ∃ x ∈ docs, x.get? .id = some (.string text)

/-- The flags of documents that are marked with whether there is a reaction make such a map. -/
theorem tells_flags {store : Store} {collection : Collection} {viewer : Uuid} {reaction : Reaction}
    {docs : List Document}
    (hmarked : ∀ x ∈ docs, ∃ u flag, x.id? = some u ∧ x.get? reaction.flag = some (.bool flag) ∧
      (flag = true ↔ store.HasReaction collection viewer reaction u)) :
    Tells store collection viewer reaction docs (FeedPage.flags docs reaction.flag) := by
  have hentry {text : String} {flag : Bool} :
      (text, flag) ∈ docs.filterMap (fun d => ((d.get? .id).bind Json.string?).map fun id =>
        (id, ((d.get? reaction.flag).bind Json.bool?).getD false)) ↔
      ∃ x ∈ docs, (x.get? .id).bind Json.string? = some text ∧
        ((x.get? reaction.flag).bind Json.bool?).getD false = flag := by
    simp only [List.mem_filterMap, Option.map_eq_some_iff, Prod.mk.injEq, existsAndEq, true_and]
  have hstring {x : Document} {text : String} (h : (x.get? .id).bind Json.string? = some text) :
      x.get? .id = some (.string text) := by
    obtain ⟨value, hvalue, htext⟩ := Option.bind_eq_some_iff.1 h
    cases value <;> simp_all [Json.string?]
  constructor
  · intro x hx
    obtain ⟨u, flag, hu, hflag, -⟩ := hmarked x hx
    obtain ⟨text, htext, hread⟩ := Option.bind_eq_some_iff.1 hu
    obtain ⟨found, hfound⟩ := Fields.exists_get?_ofList (hentry.2 ⟨x, hx, htext, by rw [hflag]⟩)
    -- another document under the same text has the same identifier
    obtain ⟨y, hy, hytext, hyflag⟩ := hentry.1 (Fields.mem_of_get?_ofList hfound)
    obtain ⟨v, flag', hv, hflag', hreaction⟩ := hmarked y hy
    obtain rfl : found = flag' := by
      rw [← hyflag, hflag']
      rfl
    obtain rfl : u = v := by
      rw [Document.id?, hytext, Option.bind_some, hread] at hv
      exact Option.some.inj hv
    exact ⟨text, u, found, hstring htext, hread, hfound, hreaction⟩
  · intro text flag h
    obtain ⟨x, hx, htext, -⟩ := hentry.1 (Fields.mem_of_get?_ofList h)
    exact ⟨x, hx, hstring htext⟩

/-- For a viewer, each document is marked with whether the store holds the viewer's reactions to it. -/
theorem marked_of_mem_enrichment {store : Store} {others : Collaborators} {collection : Collection} {viewer : Uuid}
    {docs : List Document} (hids : ∀ d ∈ docs, d.id?.isSome = true) {x : Document}
    (hx : x ∈ results store others (enrichment collection (some viewer)) docs) (reaction : Reaction) :
    ∃ u flag, x.id? = some u ∧ x.get? reaction.flag = some (.bool flag) ∧
      (flag = true ↔ store.HasReaction collection viewer reaction u) := by
  obtain ⟨liked, bookmarked, hmarks, hreactions⟩ := exists_results_enrichment store others collection viewer docs
  rw [hmarks] at hx
  obtain ⟨d, hd, rfl⟩ := List.mem_map.1 hx
  obtain ⟨u, hu⟩ : ∃ u, d.id? = some u := by
    have hsame := map_id?_enrichment collection none store others docs
    obtain ⟨e, he, hed⟩ := List.mem_map.1 (hsame ▸ List.mem_map_of_mem (f := Document.id?) hd)
    rw [← hed]
    exact Option.isSome_iff_exists.1 (hids e he)
  have hid : ((d.mark .like (liked d)).mark .bookmark (bookmarked d)).id? = some u := by
    rw [Document.id?_mark, Document.id?_mark, hu]
  obtain ⟨hlikes, hbookmarks⟩ := hreactions d hd u hu
  obtain ⟨hliked, hbookmarked⟩ := d.get?_flag_mark (liked d) (bookmarked d)
  cases reaction with
  | like => exact ⟨u, liked d, hid, hliked, hlikes⟩
  | bookmark => exact ⟨u, bookmarked d, hid, hbookmarked, hbookmarks⟩

/-- Without a viewer a page has no map of reactions. With a viewer a page that is served has both: each says for every
document of the page whether the store holds the viewer's reaction to it, one that was not deleted and that names a
document of the collection with this identifier, in whatever spelling, alone or among others. This needs that no
document that may hold links has an object under `doc`. -/
theorem reaction_maps_exact {settings : Settings} {store : Store} {others : Collaborators} {r : FeedRequest}
    {limit : Nat} {p : Prepared} {page : FeedPage} (hstore : store.Reachable) (hplain : store.HasPlainLinks)
    (hserves : Serves settings store others r limit p) (hpage : Answers settings store others r page) :
    (r.viewer = none → page.reactions = none ∧ page.bookmarks = none) ∧
    ∀ viewer, r.viewer = some viewer → ∃ reactions bookmarks, page.reactions = some reactions ∧
      page.bookmarks = some bookmarks ∧
      Tells store r.collection viewer .like page.docs reactions ∧
      Tells store r.collection viewer .bookmark page.docs bookmarks := by
  obtain ⟨answer, hanswer, rfl⟩ := hpage
  obtain ⟨limit, place, c, hc, rfl⟩ := Service.feed_eq_ok hanswer
  obtain ⟨hcompile, -, hp⟩ := hserves.criteria_eq
  obtain rfl : c = p.criteria := Except.ok.inj (hc.symm.trans hcompile)
  rw [Exchange.run_bind, hp, ← hserves.viewer_eq, Prepared.run_servePage, ← Service.collection_of_prepare hp]
  unfold Prepared.decorate
  generalize hdocs : p.raw settings store others place limit = docs
  constructor
  · intro hnone
    simp only [hnone, FeedPage.assemble, Option.map_none, and_self]
  · intro viewer hviewer
    have hids : ∀ d ∈ docs, d.id?.isSome = true := by
      intro d hd
      obtain ⟨source, hsource, hagrees⟩ := Prepared.exists_vouched hstore hplain hp (hdocs ▸ hd)
      rw [hagrees.id?_eq (by simp)]
      exact (hstore.identified _).isSome source hsource.stored
    rw [hviewer]
    exact ⟨_, _, rfl, rfl, tells_flags fun x hx => marked_of_mem_enrichment hids hx .like,
      tells_flags fun x hx => marked_of_mem_enrichment hids hx .bookmark⟩

/-- The theorem at the small store, for the account that liked a document and asks for what it liked. -/
theorem reaction_maps_exact_sample : ∃ page reactions bookmarks,
    Answers {} Sample.store .absent (Sample.request [] ["liked"] (some (Sample.uuid 3))) page ∧
    page.reactions = some reactions ∧ page.bookmarks = some bookmarks ∧
    Tells Sample.store .creations (Sample.uuid 3) .like page.docs reactions ∧
    Tells Sample.store .creations (Sample.uuid 3) .bookmark page.docs bookmarks := by
  have hserves : Serves {} Sample.store .absent (Sample.request [] ["liked"] (some (Sample.uuid 3))) 1
      (Sample.prepared ⟨[], none, false, true⟩ (some (Sample.uuid 3))) := ⟨rfl, rfl, ⟨[], none, false, true⟩, rfl, rfl⟩
  have hpage := (hserves.answers_iff rfl).2 rfl
  obtain ⟨-, hmaps⟩ := reaction_maps_exact (Store.reachable_ofList _) (by decide +kernel) hserves hpage
  obtain ⟨reactions, bookmarks, hreactions, hbookmarks, hlikes, hmarks⟩ := hmaps _ rfl
  exact ⟨_, reactions, bookmarks, hpage, hreactions, hbookmarks, hlikes, hmarks⟩

end FeedQuery
