import FeedQuery.Proofs.Paging

/-!
# Going on from where a client is

What a client has seen of a list in strict order goes up to an anchor, the last document of the last page; the next page
holds what follows the anchor, up to a new one (`Prepared.exists_last`). Pages may come from different stores:
everything that they returned lies at or before the anchor, and of the documents that were in the collection at every
fetch exactly those at or before the anchor were returned, once (`Resumes`). A page moves the anchor on
(`Resumes.concat`).
-/

namespace FeedQuery

open Document (AgreesApart)

namespace CursorPlan

variable {p : CursorPlan} {anchor : Option Document} {place : Option Cursor}

/-- The place is that of the anchor. -/
def Anchors (p : CursorPlan) (anchor : Option Document) (place : Option Cursor) : Prop :=
  anchor.map p.place? = place.map some

/-- The document comes strictly after the anchor; without an anchor, every document does. -/
def Follows (p : CursorPlan) (anchor : Option Document) (d : Document) : Prop :=
  ∀ a ∈ anchor, compareDocuments p.sortKeys a d = .lt

/-- The bound of the place of an anchor accepts what comes after the anchor. -/
theorem accepts_bound_iff_follows (hp : p.IsNumeric) (h : p.Anchors anchor place) {d : Document}
    (hd : (p.place? d).isSome = true) : (p.bound place).accepts d = true ↔ p.Follows anchor d := by
  cases anchor with
  | none =>
    obtain rfl : place = none := by
      cases place with
      | none => rfl
      | some c => simp [Anchors] at h
    simp [Follows, bound]
  | some a =>
    obtain ⟨c, rfl, hc⟩ : ∃ c, place = some c ∧ p.place? a = some c := by
      cases place with
      | none => simp [Anchors] at h
      | some c => exact ⟨c, rfl, by simpa [Anchors] using h⟩
    rw [accepts_bound_iff hp hc hd]
    simp [Follows]

/-- What comes after something that follows the anchor follows the anchor. -/
theorem Follows.trans {a d : Document} (h : p.Follows anchor a) (hd : compareDocuments p.sortKeys a d = .lt) :
    p.Follows anchor d := by
  intro b hb
  exact Std.TransCmp.lt_trans (h b hb) hd

/-- Documents that lie alike follow the same anchors. -/
theorem Alike.follows_iff {d e : Document} (h : p.Alike d e) : p.Follows anchor e ↔ p.Follows anchor d := by
  have hcompare (a : Document) : compareDocuments p.sortKeys a e = compareDocuments p.sortKeys a d :=
    Alike.compare ⟨rfl, fun _ _ => rfl⟩ h
  simp only [Follows, hcompare]

/-- What does not follow the anchor comes before what does. -/
theorem lt_of_not_follows {d e : Document} (hd : ¬ p.Follows anchor d) (he : p.Follows anchor e) :
    compareDocuments p.sortKeys d e = .lt := by
  simp only [Follows, not_forall] at hd
  obtain ⟨a, ha, hlt⟩ := hd
  have hswap : compareDocuments p.sortKeys d a = (compareDocuments p.sortKeys a d).swap := Std.OrientedCmp.eq_swap
  have hle : (compareDocuments p.sortKeys d a).isLE := by
    rw [hswap]
    cases hc : compareDocuments p.sortKeys a d with
    | lt => exact absurd hc hlt
    | eq => rfl
    | gt => rfl
  exact Std.TransCmp.lt_of_isLE_of_lt hle (he a ha)

end CursorPlan

namespace Prepared

variable {p : Prepared} {store : Store} {docs : List Document} {anchor : Option Document} {place : Option Cursor}
  {limit : Nat}

/-- The first documents after a place. -/
def cut (p : Prepared) (docs : List Document) (place : Option Cursor) (limit : Nat) : List Document :=
  (docs.filter (p.cursorPlan.bound place).accepts).take limit

theorem mem_of_mem_cut {d : Document} (hd : d ∈ p.cut docs place limit) : d ∈ docs :=
  (List.mem_filter.1 (List.mem_of_mem_take hd)).1

section Cut

variable (ho : p.Orders docs) (ha : p.cursorPlan.Anchors anchor place)
include ho ha

theorem follows_of_mem_cut {d : Document} (hd : d ∈ p.cut docs place limit) : p.cursorPlan.Follows anchor d := by
  obtain ⟨hmem, haccepts⟩ := List.mem_filter.1 (List.mem_of_mem_take hd)
  exact (CursorPlan.accepts_bound_iff_follows p.core.isNumeric_cursorPlan ha (ho.placed d hmem)).1 haccepts

/-- A page is empty only where nothing follows the anchor. -/
theorem not_follows_of_cut_eq_nil (hlimit : 0 < limit) (hnil : p.cut docs place limit = []) {d : Document}
    (hd : d ∈ docs) :
    ¬ p.cursorPlan.Follows anchor d := by
  intro hfollows
  have hrest := (List.take_eq_nil_iff.1 hnil).resolve_left (by omega)
  have haccepts := (CursorPlan.accepts_bound_iff_follows p.core.isNumeric_cursorPlan ha (ho.placed d hd)).2 hfollows
  exact List.filter_eq_nil_iff.1 hrest d hd haccepts

/-- A page holds what follows the anchor up to its last document. -/
theorem exists_last (hne : p.cut docs place limit ≠ []) : ∃ last c, (p.cut docs place limit).getLast? = some last ∧
    p.cursorPlan.place? last = some c ∧
    ∀ d ∈ docs, d ∈ p.cut docs place limit ↔ p.cursorPlan.Follows anchor d ∧ ¬ p.cursorPlan.Follows (some last) d := by
  obtain ⟨before, last, hsplit⟩ : ∃ before last, p.cut docs place limit = before ++ [last] :=
    ⟨_, _, (List.dropLast_append_getLast hne).symm⟩
  have hmem : last ∈ p.cut docs place limit := by simp [hsplit]
  obtain ⟨c, hc⟩ := Option.isSome_iff_exists.1 (ho.placed last (mem_of_mem_cut hmem))
  have hrest : docs.filter (p.cursorPlan.bound place).accepts =
      before ++ last :: (docs.filter (p.cursorPlan.bound place).accepts).drop limit := by
    conv => lhs; rw [← List.take_append_drop limit (docs.filter _)]
    change p.cut docs place limit ++ _ = _
    rw [hsplit, List.append_assoc]
    rfl
  have hstrict := ho.strict.sublist (List.filter_sublist (p := (p.cursorPlan.bound place).accepts))
  rw [hrest] at hstrict
  obtain ⟨-, hafter, hbefore⟩ := List.pairwise_append.1 hstrict
  refine ⟨last, c, by rw [hsplit, List.getLast?_concat], hc, fun d hd => ⟨fun hcut => ?_, fun ⟨hfollows, hlast⟩ => ?_⟩⟩
  · refine ⟨follows_of_mem_cut ho ha hcut, ?_⟩
    intro hlast
    have hlt : compareDocuments p.cursorPlan.sortKeys last d = .lt := hlast last rfl
    rw [hsplit, List.mem_append, List.mem_singleton] at hcut
    rcases hcut with hcut | rfl
    · exact Std.OrientedCmp.not_lt_of_lt hlt (hbefore d hcut last List.mem_cons_self)
    · exact Std.OrientedCmp.not_lt_of_lt hlt hlt
  · have haccepts := (CursorPlan.accepts_bound_iff_follows p.core.isNumeric_cursorPlan ha (ho.placed d hd)).2 hfollows
    have hd' : d ∈ docs.filter (p.cursorPlan.bound place).accepts := List.mem_filter.2 ⟨hd, haccepts⟩
    rw [hrest] at hd'
    rw [hsplit, List.mem_append, List.mem_singleton]
    rcases List.mem_append.1 hd' with hd' | hd'
    · exact .inl hd'
    · rcases List.mem_cons.1 hd' with rfl | hd'
      · exact .inr rfl
      · exact absurd (fun a h => Option.mem_some.1 h ▸ (List.pairwise_cons.1 hafter).1 d hd') hlast

end Cut

end Prepared

/-! ## What was returned -/

/-- A page that was fetched, and the store that it was fetched from. -/
structure Visit where
  store : Store
  page : FeedPage

/-- The documents that were returned, in the order in which they were. -/
def returned (visits : List Visit) : List Document := visits.flatMap fun v => v.page.docs

/-- The document was in the collection at every fetch. -/
def Persists (c : Collection) (visits : List Visit) (d : Document) : Prop := ∀ v ∈ visits, d ∈ v.store.docs c

/-- The fields of a document that being returned may change: those of a score and of the enrichment. -/
def Prepared.altered (p : Prepared) : List String :=
  ["similarity", "_likedBy"] ++ decorated p.collection p.visibility.viewer

/-- The document was returned exactly once, with changes only where a score and the enrichment are written. -/
def Prepared.ReturnsOnce (p : Prepared) (visits : List Visit) (d : Document) : Prop :=
  ∃ e, (returned visits).filter (fun e => e.id? == d.id?) = [e] ∧ AgreesApart p.altered d e

/-- What was returned goes up to an anchor. -/
structure Resumes (p : Prepared) (visits : List Visit) (anchor : Option Document) : Prop where
  advances : (returned visits).Pairwise fun a b => compareDocuments p.cursorPlan.sortKeys a b = .lt
  upTo : ∀ e ∈ returned visits, ¬ p.cursorPlan.Follows anchor e
  once : ∀ d, Persists p.collection visits d → p.core.documentFilter.accepts d = true →
    ¬ p.cursorPlan.Follows anchor (p.core.dress d) → p.ReturnsOnce visits d
  never : ∀ d, Persists p.collection visits d → p.core.documentFilter.accepts d = true →
    p.cursorPlan.Follows anchor (p.core.dress d) → ∀ e ∈ returned visits, e.id? ≠ d.id?

namespace Resumes

variable {settings : Settings} {store : Store} {others : Collaborators} {r : FeedRequest} {limit : Nat} {p : Prepared}
  {visits : List Visit} {anchor : Option Document} {place : Option Cursor}

/-- Before the first fetch nothing was returned, and everything follows. -/
theorem start : Resumes p [] none where
  advances := List.Pairwise.nil
  upTo e he := by simp [returned] at he
  once d _ _ hd := absurd (fun a ha => by simp at ha) hd
  never d _ _ _ e he := by simp [returned] at he

/-! A fetch adds a page, made of the documents `raw` that follow the anchor up to the last of them. -/

section Page

variable {docs raw : List Document} {page : FeedPage} {last : Document} {f : Document → Document}
  (h : Resumes p visits anchor) (hpage : page.docs = raw.map f)
  (hf : ∀ d, AgreesApart (decorated p.collection p.visibility.viewer) d (f d))
  (hcut : ∀ d ∈ docs, d ∈ raw ↔ p.cursorPlan.Follows anchor d ∧ ¬ p.cursorPlan.Follows (some last) d)
  (hraw : ∀ d ∈ raw, d ∈ docs) (hlast : last ∈ raw)

include hpage in
theorem returned_concat (visits : List Visit) (store : Store) :
    returned (visits ++ [⟨store, page⟩]) = returned visits ++ raw.map f := by
  simp [returned, hpage]

include hcut hraw hlast in
/-- What was behind the new anchor was behind the old one. -/
theorem follows_of_follows_last {d : Document} (hd : p.cursorPlan.Follows (some last) d) :
    p.cursorPlan.Follows anchor d := by
  have hfollows := ((hcut last (hraw last hlast)).1 hlast).1
  exact hfollows.trans (hd last rfl)

include h hf hcut hraw in
theorem advances_concat (hstrict : raw.Pairwise fun a b => compareDocuments p.cursorPlan.sortKeys a b = .lt) :
    (returned visits ++ raw.map f).Pairwise fun a b => compareDocuments p.cursorPlan.sortKeys a b = .lt := by
  have halike (d : Document) : p.cursorPlan.Alike d (f d) := Prepared.alike_of_decorated (hf d)
  refine List.pairwise_append.2 ⟨h.advances, List.pairwise_map.2 (hstrict.imp ?_), ?_⟩
  · intro a b hab
    rw [(halike a).compare (halike b)]
    exact hab
  · intro e he e' he'
    obtain ⟨d, hd, rfl⟩ := List.mem_map.1 he'
    have hfollows := ((hcut d (hraw d hd)).1 hd).1
    exact CursorPlan.lt_of_not_follows (h.upTo e he) ((halike d).follows_iff.2 hfollows)

include h hf hcut hraw hlast in
theorem upTo_concat : ∀ e ∈ returned visits ++ raw.map f, ¬ p.cursorPlan.Follows (some last) e := by
  intro e he hfollows
  rcases List.mem_append.1 he with he | he
  · exact h.upTo e he (follows_of_follows_last hcut hraw hlast hfollows)
  · obtain ⟨d, hd, rfl⟩ := List.mem_map.1 he
    have hnot := ((hcut d (hraw d hd)).1 hd).2
    exact hnot ((Prepared.alike_of_decorated (hf d)).follows_iff.1 hfollows)

section Stable

variable {d : Document} (hdocs : Identified docs) (hd : p.core.dress d ∈ docs)

include hf hraw hdocs hd in
/-- A document that is not on the page is not returned by it under its identifier. -/
theorem ne_of_not_mem (hnot : p.core.dress d ∉ raw) : ∀ e ∈ raw.map f, e.id? ≠ d.id? := by
  intro e he hid
  obtain ⟨x, hx, rfl⟩ := List.mem_map.1 he
  have hsame : x.id? = (p.core.dress d).id? := by rw [PlanRequest.id?_dress, ← hid, id?_of_decorated (hf x)]
  rw [hdocs.eq_of_id? (hraw x hx) hd hsame] at hx
  exact hnot hx

include hf in
/-- A document that is on the page is returned by it once. -/
theorem filter_map_eq (hidentified : Identified raw) (hmem : p.core.dress d ∈ raw) :
    (raw.map f).filter (fun e => e.id? == d.id?) = [f (p.core.dress d)] := by
  have hfilter := hidentified.filter_id?_of_mem hmem
  rw [PlanRequest.id?_dress] at hfilter
  have hkeep : ((fun e : Document => e.id? == d.id?) ∘ f) = fun e => e.id? == d.id? := by
    funext e
    rw [Function.comp_apply, id?_of_decorated (hf e)]
  rw [List.filter_map, hkeep, hfilter]
  rfl

end Stable

theorem filter_id?_eq_nil {docs : List Document} {d : Document} (h : ∀ e ∈ docs, e.id? ≠ d.id?) :
    docs.filter (fun e => e.id? == d.id?) = [] :=
  List.filter_eq_nil_iff.2 fun e he heq => h e he (beq_iff_eq.1 heq)

include h hpage hf hcut hraw hlast in
/-- A page of listed documents in order moves the anchor on. -/
theorem concat (hdocs : Identified docs) (hidentified : Identified raw)
    (hstrict : raw.Pairwise fun a b => compareDocuments p.cursorPlan.sortKeys a b = .lt)
    (hlisted : ∀ d ∈ store.docs p.collection, p.core.documentFilter.accepts d = true → p.core.dress d ∈ docs) :
    Resumes p (visits ++ [⟨store, page⟩]) (some last) := by
  have hreturned := returned_concat hpage visits store
  have hpersists {d : Document} (hd : Persists p.collection (visits ++ [⟨store, page⟩]) d) :
      Persists p.collection visits d ∧ d ∈ store.docs p.collection :=
    ⟨fun v hv => hd v (List.mem_append_left _ hv), hd ⟨store, page⟩ (List.mem_append_right _ List.mem_cons_self)⟩
  refine ⟨?_, ?_, ?_, ?_⟩
  · rw [hreturned]
    exact advances_concat h hf hcut hraw hstrict
  · rw [hreturned]
    exact upTo_concat h hf hcut hraw hlast
  · intro d hd haccepts hnot
    have hdress := hlisted d (hpersists hd).2 haccepts
    unfold Prepared.ReturnsOnce
    rw [hreturned, List.filter_append]
    by_cases hfollows : p.cursorPlan.Follows anchor (p.core.dress d)
    · have hmem : p.core.dress d ∈ raw := (hcut _ hdress).2 ⟨hfollows, hnot⟩
      have hnever := filter_id?_eq_nil (h.never d (hpersists hd).1 haccepts hfollows)
      rw [hnever, filter_map_eq hf hidentified hmem]
      refine ⟨f (p.core.dress d), rfl, ?_⟩
      exact ((p.core.agreesApart_dress d).mono (List.subset_append_left _ _)).trans
        ((hf (p.core.dress d)).mono (List.subset_append_right _ _))
    · have hmem : p.core.dress d ∉ raw := fun hmem => hfollows ((hcut _ hdress).1 hmem).1
      rw [filter_id?_eq_nil (ne_of_not_mem hf hraw hdocs hdress hmem), List.append_nil]
      exact h.once d (hpersists hd).1 haccepts hfollows
  · intro d hd haccepts hfollows e he
    have hdress := hlisted d (hpersists hd).2 haccepts
    have hmem : p.core.dress d ∉ raw := fun hmem => ((hcut _ hdress).1 hmem).2 hfollows
    rw [hreturned, List.mem_append] at he
    rcases he with he | he
    · exact h.never d (hpersists hd).1 haccepts (follows_of_follows_last hcut hraw hlast hfollows) e he
    · exact ne_of_not_mem hf hraw hdocs hdress hmem e he

end Page

end Resumes

end FeedQuery
