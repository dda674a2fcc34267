import FeedQuery.Proofs.Provenance
import FeedQuery.Proofs.Tokens

/-!
# Who gets to see private documents

A view shows documents that are not public where it is relaxed, and each way in which it is relaxed comes with a
restriction that the request itself makes: the viewer's own profile is one where a filter demands the viewer as the
owner (`Criteria.isOwnedBy_of_ids`), and a collection that the viewer has a share in is one whose members are asked for
(`Shown.exists_collection`). So such a document is shown to its owner or to an account with a share in a collection that
lists it (`private_documents_entitled`). Where the likes of an account are asked for, the rule is about that account and
not about the viewer (`private_likes_owned`).
-/

namespace FeedQuery

namespace Document

/-- The document is public. -/
def IsPublic (d : Document) : Prop := (Predicate.eq .isPublic (.bool true)).accepts d = true

instance : DecidablePred IsPublic :=
  fun d => inferInstanceAs (Decidable ((Predicate.eq .isPublic (.bool true)).accepts d = true))

/-- The account owns the document. -/
def IsOwnedBy (collection : Collection) (account : Uuid) (d : Document) : Prop :=
  (Predicate.eq collection.owner (.id account)).accepts d = true

/-- The account has a share in the collection: it owns it or contributes to it. -/
def IsSharedWith (account : Uuid) (holder : Document) : Prop :=
  (Predicate.eq (.field "user") (.id account)).accepts holder = true ∨
    (Predicate.eq (.field "contributors") (.id account)).accepts holder = true

end Document

/-- Why an account may see a document that is not public: it owns the document, or it has a share in the collection that
is named, and the collection lists the document. -/
inductive Entitled (store : Store) (collection : Collection) (c : Criteria) (account : Uuid) (d : Document) : Prop where
  | owner : d.IsOwnedBy collection account → Entitled store collection c account d
  | member {named : Uuid} {holder : Document} : c.id? .collection = some named → holder ∈ store.docs .collections →
      holder.id? = some named → holder.IsSharedWith account → holder.Lists (.field "creations") d →
      Entitled store collection c account d

namespace Criteria

/-- Without a token that asks for likes, nobody's likes are asked for. -/
theorem likedBy?_of_tokens {filters sorts : List String} {c : Criteria} (h : compile filters sorts = .ok c)
    (htokens : ∀ token ∈ filters, FilterKind.ofToken? token ≠ some .likedBy) : c.likedBy? = none := by
  have hwithout := compile_without h .likedBy
  rw [FilterKind.without, List.filter_eq_self.2 fun token htoken => bne_iff_ne.2 (htokens token htoken), h] at hwithout
  rw [likedBy?, id?, Except.ok.inj hwithout, values_without_self]
  rfl

/-- Where one owner is asked for, the term of owners has that value alone. -/
theorem exists_term_of_ids {c : Criteria} (hread : c.IsRead) {account : Uuid} (hids : c.ids .owner = [account]) :
    ∃ term ∈ c.terms, term.kind = .owner ∧ term.values = [.id account] := by
  cases hterm : c.term? .owner with
  | none => simp [ids, values, hterm] at hids
  | some term =>
    have hmem : term ∈ c.terms := List.mem_of_find?_eq_some hterm
    have hfound := List.find?_some hterm
    have hkind : term.kind = .owner := beq_iff_eq.1 hfound
    refine ⟨term, hmem, hkind, ?_⟩
    have hvalues : term.values.filterMap Scalar.id? = [account] := by simpa [ids, values, hterm] using hids
    -- every value of the term is an identifier, so none is passed over
    have hall : ∀ value ∈ term.values, (Scalar.id? value).map Scalar.id = some value := by
      intro value hvalue
      obtain ⟨raw, hraw⟩ := hread term hmem value hvalue
      obtain ⟨id, rfl⟩ := FilterKind.exists_id_of_read (hkind ▸ hraw)
      rfl
    calc term.values = term.values.filterMap fun value => (Scalar.id? value).map Scalar.id := by
          rw [List.filterMap_congr hall, List.filterMap_some]
      _ = (term.values.filterMap Scalar.id?).map Scalar.id := List.map_filterMap.symm
      _ = [.id account] := by rw [hvalues]; rfl

/-- What the filters let through where one owner is asked for, that account owns. -/
theorem isOwnedBy_of_ids {c : Criteria} (hread : c.IsRead) {account : Uuid} (hids : c.ids .owner = [account])
    {collection : Collection} {d : Document} (hasked : (c.documentPredicate collection).accepts d = true) :
    d.IsOwnedBy collection account := by
  obtain ⟨⟨kind, values⟩, hmem, rfl, rfl⟩ := exists_term_of_ids hread hids
  rw [documentPredicate, Predicate.accepts_all, List.all_eq_true] at hasked
  exact hasked _ (List.mem_append_left _ (List.mem_filterMap.2 ⟨_, hmem, rfl⟩))

end Criteria

/-- Where a view shows a document that is not public, and nobody's likes are asked for, it is relaxed. -/
theorem Visibility.isRelaxed_of_accepts {v : Visibility} {c : Criteria} (hliked : c.likedBy? = none)
    {collection : Collection} {d : Document} (haccepts : (v.predicate c collection).accepts d = true)
    (hprivate : ¬d.IsPublic) : v.isRelaxed = true := by
  rw [← Bool.not_eq_false]
  intro hrelaxed
  have hopenness : v.openness c collection = .eq .isPublic (.bool true) := by
    unfold openness
    rw [hliked, hrelaxed, ite_self]
    rfl
  simp only [predicate, hopenness, Predicate.accepts_all, List.all_cons, Bool.and_eq_true] at haccepts
  exact hprivate haccepts.1

/-- Where the likes of an account are asked for, a view shows public documents that the account does not own, and
private ones that it owns. -/
theorem Visibility.accepts_of_likedBy {c : Criteria} {liker : Uuid} (hliked : c.likedBy? = some liker)
    {viewer : Option Uuid} {owns : Bool} {softDelete : SoftDelete} {collection : Collection} {d : Document}
    (h : ((resolve c viewer owns softDelete).predicate c collection).accepts d = true) :
    ¬d.IsOwnedBy collection liker ∧ d.IsPublic ∨ d.IsOwnedBy collection liker ∧ ¬d.IsPublic := by
  have hopenness : (resolve c viewer owns softDelete).openness c collection = likedByVisibility collection liker := by
    simp only [openness, resolve, hliked, Option.isSome_some, if_true]
  simp only [predicate, hopenness, likedByVisibility, Predicate.accepts_all, Predicate.accepts_any, List.all_cons,
    List.all_nil, List.any_cons, List.any_nil, Bool.and_true, Bool.or_false, Bool.and_eq_true, Bool.or_eq_true] at h
  simpa [Document.IsOwnedBy, Document.IsPublic] using h.1

/-- A view is relaxed for a viewer who is the one owner asked for, or who has a share in the collection named. -/
theorem Visibility.exists_viewer {c : Criteria} {viewer : Option Uuid} {owns : Bool} {softDelete : SoftDelete}
    (h : (resolve c viewer owns softDelete).isRelaxed = true) :
    ∃ account, viewer = some account ∧ (c.ids .owner = [account] ∨ owns = true) := by
  simp only [isRelaxed, resolve, Bool.or_eq_true, Bool.and_eq_true] at h
  rcases h with hprofile | ⟨hviewer, howns⟩
  · split at hprofile
    · next account owner hids => exact ⟨account, rfl, .inl (by rw [hids, beq_iff_eq.1 hprofile])⟩
    · simp at hprofile
  · obtain ⟨account, rfl⟩ := Option.isSome_iff_exists.1 hviewer
    exact ⟨account, rfl, .inr howns⟩

/-- An account that has a share in the collection named has one in a stored document with that identifier. -/
theorem Service.exists_shared {store : Store} (hstore : store.Reachable) {others : Collaborators} {c : Criteria}
    {account : Uuid} (h : (ownsCollection c (some account)).run store others = true) :
    ∃ named, c.id? .collection = some named ∧
      ∃ holder ∈ store.docs .collections, holder.id? = some named ∧ holder.IsSharedWith account := by
  cases hnamed : c.id? .collection with
  | none => simp [ownsCollection_of_none hnamed] at h
  | some named =>
    simp only [ownsCollection, hnamed] at h
    obtain ⟨holder, hfound⟩ := List.exists_mem_of_length_pos (of_decide_eq_true h)
    obtain ⟨hholder, haccepts⟩ := Store.mem_find.1 hfound
    simp only [sharePredicate, Predicate.accepts_all, List.all_cons, List.all_nil, Predicate.accepts_any, List.any_cons,
      List.any_nil, Bool.and_true, Bool.or_false, Bool.and_eq_true, Bool.or_eq_true] at haccepts
    exact ⟨named, rfl, holder, hholder,
      (Document.accepts_id_iff ((hstore.identified .collections).isSome holder hholder)).1 haccepts.1, haccepts.2⟩

section Shown

variable {settings : Settings} {store : Store} {others : Collaborators} {collection : Collection} {viewer : Option Uuid}
  {softDelete : SoftDelete} {c : Criteria} {x : Document}
  (h : Shown settings store others collection viewer softDelete c x) (hstore : store.Reachable)
  (hplain : store.HasPlainLinks)
include h hstore hplain

/-- Where nobody's likes are asked for, what is shown without being public is shown to an account that may see it. -/
theorem Shown.entitled (hread : c.IsRead) (hliked : c.likedBy? = none) : ∃ d ∈ store.docs collection, x.id? = d.id? ∧
    (¬d.IsPublic → ∃ account, viewer = some account ∧ Entitled store collection c account d) := by
  obtain ⟨d, hd, hid, -⟩ := h.exists_vouched hstore hplain
  refine ⟨d, hd.stored, hid, ?_⟩
  intro hprivate
  obtain ⟨account, rfl, hprofile | howns⟩ :=
    Visibility.exists_viewer (Visibility.isRelaxed_of_accepts hliked hd.visible hprivate)
  · exact ⟨account, rfl, .owner (Criteria.isOwnedBy_of_ids hread hprofile hd.asked)⟩
  · obtain ⟨named, hnamed, holder, hholder, hholderid, hshared⟩ := Service.exists_shared hstore howns
    obtain ⟨lister, hlister, hlisterid, -, hlists⟩ := h.exists_collection hstore hplain hnamed
    obtain rfl : lister = holder :=
      (hstore.identified .collections).eq_of_id? hlister hholder (hlisterid.trans hholderid.symm)
    exact ⟨account, rfl, .member hnamed hholder hholderid hshared (hlists.of_id? hid.symm)⟩

/-- Where the likes of an account are asked for, it liked what is shown, and owns what is shown without being public. -/
theorem Shown.liked {liker : Uuid} (hliked : c.likedBy? = some liker) : ∃ d ∈ store.docs collection, x.id? = d.id? ∧
    store.isLiked collection liker softDelete d = true ∧ (¬d.IsPublic → d.IsOwnedBy collection liker) := by
  obtain ⟨d, hd, hid, -⟩ := h.exists_vouched hstore hplain
  refine ⟨d, hd.stored, hid, hd.liked liker hliked, ?_⟩
  intro hprivate
  exact ((Visibility.accepts_of_likedBy hliked hd.visible).resolve_left fun hpublic => hprivate hpublic.2).1

end Shown

/-- Where nobody's likes are asked for, a document that is shown on a page of a feed or of a listing without being
public was asked for by a viewer who may see it: the viewer owns the document, or owns or contributes to the collection
that the request names, and that collection lists the document. This needs that no document that may hold links has an
object under `doc`. -/
theorem private_documents_entitled {store : Store} (hstore : store.Reachable) (hplain : store.HasPlainLinks)
    (settings : Settings) (others : Collaborators) :
    (∀ (r : FeedRequest) (page : FeedPage), Answers settings store others r page →
      (∀ token ∈ r.filters, FilterKind.ofToken? token ≠ some .likedBy) →
        ∃ c, Criteria.compile r.filters r.sorts = .ok c ∧
        ∀ x ∈ page.docs, ∃ d ∈ store.docs r.collection, x.id? = d.id? ∧
          (¬d.IsPublic → ∃ account, r.viewer = some account ∧ Entitled store r.collection c account d)) ∧
    ∀ (r : ListRequest) (page : ListPage), Lists settings store others r page →
      (∀ token ∈ r.filters, FilterKind.ofToken? token ≠ some .likedBy) →
        ∃ c, Criteria.compile r.filters r.sorts = .ok c ∧
        ∀ x ∈ page.docs, ∃ d ∈ store.docs r.collection, x.id? = d.id? ∧
          (¬d.IsPublic → ∃ account, r.viewer = some account ∧ Entitled store r.collection c account d) := by
  constructor
  · intro r page h htokens
    obtain ⟨c, hc, hshown⟩ := h.shown
    exact ⟨c, hc, fun x hx => (hshown x hx).entitled hstore hplain (Criteria.isRead_of_compile hc)
      (Criteria.likedBy?_of_tokens hc htokens)⟩
  · intro r page h htokens
    obtain ⟨c, hc, hshown⟩ := h.shown
    exact ⟨c, hc, fun x hx => (hshown x hx).entitled hstore hplain (Criteria.isRead_of_compile hc)
      (Criteria.likedBy?_of_tokens hc htokens)⟩

/-- An account's private document, which another account has in a collection. -/
def Sample.shared : Store := .ofList [
  (.creations, ⟨[("_id", .string (uuid 6).toText), ("user", .string (uuid 7).toText), ("public", .bool false)]⟩),
  (.collections, ⟨[("_id", .string (uuid 5).toText), ("user", .string (uuid 3).toText),
    ("creations", .array [.array [.string (uuid 6).toText]])]⟩)]

theorem Sample.hasPlainLinks_shared : shared.HasPlainLinks := by decide +kernel

/-- The other account's request for the members of the collection. -/
def Sample.sharedRequest : FeedRequest := request ["collection;00000000-0000-0000-0000-000000000005"] [] (some (uuid 3))

/-- A page of the request shows the document. -/
theorem Sample.exists_page_shared :
    ∃ page, Answers {} shared .absent sharedRequest page ∧ page.docs.map Document.id? = [some (uuid 6)] := by
  let c : Criteria := ⟨[⟨.collection, [.id (uuid 5)]⟩], none, false, false⟩
  let p : Prepared := { prepared c (some (uuid 3)) with visibility := .resolve c (some (uuid 3)) true .exclude }
  let q := p.request (.cursor none 1) ({} : Settings).followingCap
  have hserves : Serves {} shared .absent sharedRequest 1 p := ⟨rfl, rfl, c, by decide +kernel, rfl⟩
  have hsame : ((((q.gathered shared .absent).filter (q.passes shared)).map q.dress).filter fun d =>
      !q.isScored || q.bound.accepts d).map Document.id? = List.replicate 1 (some (uuid 6)) := by decide +kernel
  exact hserves.exists_page rfl (Store.reachable_ofList _) hasPlainLinks_shared rfl hsame

/-- The theorem at a page that shows the private document to an account with a share in the collection. -/
theorem private_documents_entitled_sample : ∃ page, Answers {} Sample.shared .absent Sample.sharedRequest page ∧
    page.docs.map Document.id? = [some (Sample.uuid 6)] ∧
    ∃ c, Criteria.compile Sample.sharedRequest.filters Sample.sharedRequest.sorts = .ok c ∧
      ∀ x ∈ page.docs, ∃ d ∈ Sample.shared.docs .creations, x.id? = d.id? ∧
        (¬d.IsPublic → ∃ account, Sample.sharedRequest.viewer = some account ∧
          Entitled Sample.shared .creations c account d) := by
  obtain ⟨page, hpage, hids⟩ := Sample.exists_page_shared
  exact ⟨page, hpage, hids,
    (private_documents_entitled (Store.reachable_ofList _) Sample.hasPlainLinks_shared {} .absent).1
    Sample.sharedRequest page hpage (by decide +kernel)⟩

/-- Where the likes of an account are asked for, a document that is shown on a page of a feed or of a listing is one
that the account likes, and if it is not public, one that the account owns, whoever asks. This needs that no document
that may hold links has an object under `doc`. -/
theorem private_likes_owned {store : Store} (hstore : store.Reachable) (hplain : store.HasPlainLinks)
    (settings : Settings) (others : Collaborators) :
    (∀ (r : FeedRequest) (page : FeedPage), Answers settings store others r page →
      ∃ c, Criteria.compile r.filters r.sorts = .ok c ∧
      ∀ liker, c.likedBy? = some liker → ∀ x ∈ page.docs, ∃ d ∈ store.docs r.collection, x.id? = d.id? ∧
        store.isLiked r.collection liker r.softDelete d = true ∧ (¬d.IsPublic → d.IsOwnedBy r.collection liker)) ∧
    ∀ (r : ListRequest) (page : ListPage), Lists settings store others r page →
      ∃ c, Criteria.compile r.filters r.sorts = .ok c ∧
      ∀ liker, c.likedBy? = some liker → ∀ x ∈ page.docs, ∃ d ∈ store.docs r.collection, x.id? = d.id? ∧
        store.isLiked r.collection liker r.softDelete d = true ∧ (¬d.IsPublic → d.IsOwnedBy r.collection liker) := by
  constructor
  · intro r page h
    obtain ⟨c, hc, hshown⟩ := h.shown
    exact ⟨c, hc, fun liker hliked x hx => (hshown x hx).liked hstore hplain hliked⟩
  · intro r page h
    obtain ⟨c, hc, hshown⟩ := h.shown
    exact ⟨c, hc, fun liker hliked x hx => (hshown x hx).liked hstore hplain hliked⟩

/-- A private document that its owner likes. -/
def Sample.selfLiked : Store := .ofList [
  (.creations, ⟨[("_id", .string (uuid 6).toText), ("user", .string (uuid 3).toText), ("public", .bool false)]⟩),
  (.reactions, ⟨[("_id", .string (uuid 4).toText), ("user", .string (uuid 3).toText), ("reaction", .string "like"),
    ("entityType", .string "creation"), ("entityId", .string (uuid 6).toText)]⟩)]

theorem Sample.hasPlainLinks_selfLiked : selfLiked.HasPlainLinks := by decide +kernel

/-- A request of nobody in particular for the likes of the owner. -/
def Sample.selfLikedRequest : FeedRequest := request ["likedBy;00000000-0000-0000-0000-000000000003"] ["createdAt"] none

theorem Sample.exists_page_selfLiked :
    ∃ page, Answers {} selfLiked .absent selfLikedRequest page ∧ page.docs.map Document.id? = [some (uuid 6)] := by
  let c : Criteria := ⟨[⟨.likedBy, [.id (uuid 3)]⟩], some ⟨.createdAt, .descending⟩, false, false⟩
  let q := (prepared c none).request (.cursor none 1) ({} : Settings).followingCap
  have hserves : Serves {} selfLiked .absent selfLikedRequest 1 (prepared c none) :=
    ⟨rfl, rfl, c, by decide +kernel, rfl⟩
  have hsame : ((((q.gathered selfLiked .absent).filter (q.passes selfLiked)).map q.dress).filter fun d =>
      !q.isScored || q.bound.accepts d).map Document.id? = List.replicate 1 (some (uuid 6)) := by decide +kernel
  exact hserves.exists_page rfl (Store.reachable_ofList _) hasPlainLinks_selfLiked rfl hsame

/-- The theorem at a page of the likes. -/
theorem private_likes_owned_sample : ∃ page, Answers {} Sample.selfLiked .absent Sample.selfLikedRequest page ∧
    ∃ c, Criteria.compile Sample.selfLikedRequest.filters Sample.selfLikedRequest.sorts = .ok c ∧
      ∀ liker, c.likedBy? = some liker → ∀ x ∈ page.docs, ∃ d ∈ Sample.selfLiked.docs .creations, x.id? = d.id? ∧
        Sample.selfLiked.isLiked .creations liker .exclude d = true ∧ (¬d.IsPublic → d.IsOwnedBy .creations liker) := by
  obtain ⟨page, hpage, -⟩ := Sample.exists_page_selfLiked
  exact ⟨page, hpage, (private_likes_owned (Store.reachable_ofList _) Sample.hasPlainLinks_selfLiked {} .absent).1
    Sample.selfLikedRequest page
    hpage⟩

/-- Nobody in particular is shown the private document, the only one of its identifier. -/
theorem private_like_shown : Sample.selfLikedRequest.viewer = none ∧
    (∀ d ∈ Sample.selfLiked.docs .creations, ¬d.IsPublic) ∧
    ∃ page, Answers {} Sample.selfLiked .absent Sample.selfLikedRequest page ∧
      page.docs.map Document.id? = [some (Sample.uuid 6)] :=
  ⟨rfl, by decide +kernel, Sample.exists_page_selfLiked⟩

end FeedQuery
