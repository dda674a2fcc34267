import FeedQuery.Proofs.Interpretation
import FeedQuery.Proofs.Paging

/-!
# Joins by identifier are nested loops

`Lookup.nested` is the plain meaning of a join: for each identifier of a document, in order, go through the whole of the
other collection for the documents that pass the filter and hold the identifier, put them in order and cut them at the
cap. A join gathers the identifiers of all documents instead, asks for each once, in one query or in one for each, and
deals out what was found by the text of a key. It makes the same of documents, however identifiers are spelled and
whatever else is joined with them (`join_nested_loop`): a key has the text of one identifier alone
(`Lookup.keysAt_of_holdsIds`), and what was asked for beside an identifier is left out again without a change to the
order, since sorting is stable (`Lookup.partners_of_asks`).
-/

namespace FeedQuery

/-- Nothing, the text of an identifier, or an array of such texts. -/
def Json.isIds : Json → Bool
  | .null => true
  | .array items => items.all fun item => item.id?.isSome
  | value => value.id?.isSome

/-- The field is missing, or it holds nothing, an identifier or an array of identifiers. -/
def Document.holdsIds (p : Path) (d : Document) : Bool := (d.get? p).all Json.isIds

/-- The identifiers that a field spells, in order. -/
def Document.idsAt (p : Path) (d : Document) : List Uuid :=
  match d.get? p with
  | some (.array items) => items.filterMap Json.id?
  | some value => value.id?.toList
  | none => []

theorem Document.idsAt_eq (p : Path) (d : Document) : d.idsAt p = (Lookup.valuesAt p d).filterMap Json.id? := by
  unfold idsAt Lookup.valuesAt
  cases d.get? p with
  | none => rfl
  | some value =>
    cases value with
    | string raw => cases h : (Json.string raw).id? <;> simp [h]
    | array items => rfl
    | _ => rfl

/-- A field holds an identifier where it spells it. -/
theorem Scalar.holdsAt_id_eq (p : Path) (d : Document) (u : Uuid) :
    (Scalar.id u).holdsAt (d.get? p) = (d.idsAt p).contains u := by
  rw [Bool.eq_iff_iff, holdsAt_id_iff, List.contains_iff_mem, Document.idsAt_eq, List.mem_filterMap]

namespace Lookup

/-- Of some documents those for an identifier: they pass the filter and hold the identifier, in the order of the lookup,
and no more of them than the cap. -/
def holders (l : Lookup) (docs : List Document) (u : Uuid) : List Document :=
  let found := sortDocuments l.sort (docs.filter fun m => l.filter.accepts m && (m.idsAt l.foreignPath).contains u)
  match l.cap with
  | some cap => found.take cap
  | none => found

/-- For each identifier of a document, in order, the documents for it. -/
def nested (l : Lookup) (docs : List Document) (d : Document) : List Document :=
  (d.idsAt l.localPath).flatMap (l.holders docs)

/-! ## Keys of identifiers -/

/-- Where a field holds identifiers, its keys are theirs. -/
theorem keysAt_of_holdsIds {p : Path} {d : Document} (h : d.holdsIds p = true) :
    keysAt p d = (d.idsAt p).map idKey := by
  have hvalues : ∀ value ∈ valuesAt p d, value.id?.isSome = true := by
    unfold Document.holdsIds at h
    unfold valuesAt
    cases hfield : d.get? p with
    | none => simp
    | some value =>
      rw [hfield] at h
      cases value with
      | null => simp
      | array items => exact List.all_eq_true.1 h
      | _ => simpa [Json.isIds] using h
  rw [keysAt, Document.idsAt_eq, List.map_filterMap]
  refine List.filterMap_congr fun value hvalue => ?_
  obtain ⟨u, hu⟩ := Option.isSome_iff_exists.1 (hvalues value hvalue)
  rw [key?_of_id? hu, hu, Option.map_some]

/-- Documents that hold identifiers, none of them twice, are held once under the text of each. -/
theorem holding_of_holdsIds {l : Lookup} {docs : List Document} (h : ∀ m ∈ docs, m.holdsIds l.foreignPath = true)
    (hdistinct : ∀ m ∈ docs, (m.idsAt l.foreignPath).Nodup) (u : Uuid) :
    l.holding docs u.toText = docs.filter fun m => (m.idsAt l.foreignPath).contains u := by
  have honce : ∀ m ∈ docs, ((keysAt l.foreignPath m).filter fun key => key.text == u.toText).map (fun _ => m) =
      (Option.guard (fun m => (m.idsAt l.foreignPath).contains u) m).toList := by
    intro m hm
    have hsame : ((fun key => key.text == u.toText) ∘ idKey) = fun v : Uuid => v == u := by
      funext v
      rw [Function.comp_apply, Bool.eq_iff_iff, beq_iff_eq, beq_iff_eq]
      exact ⟨Uuid.toText_injective, congrArg Uuid.toText⟩
    rw [keysAt_of_holdsIds (h m hm), List.filter_map, hsame, List.filter_beq, (hdistinct m hm).count,
      List.map_replicate, List.map_replicate]
    by_cases hu : u ∈ m.idsAt l.foreignPath <;> simp [hu, Option.guard]
  rw [holding, List.flatMap_congr honce, ← List.filterMap_eq_flatMap_toList, List.filterMap_eq_filter]

section Joined

variable {l : Lookup} {store : Store} {docs : List Document}

/-- For an identifier that documents ask for, a join of them finds the documents that hold it. -/
theorem partners_of_asks (hforeign : ∀ m ∈ store.docs l.collection, m.holdsIds l.foreignPath = true)
    (hdistinct : ∀ m ∈ store.docs l.collection, (m.idsAt l.foreignPath).Nodup) {u : Uuid} (hask : l.Asks docs u) :
    l.partners store docs u.toText = l.holders (store.docs l.collection) u := by
  have hkey := hask.idKey_mem
  unfold partners holders
  cases l.cap with
  | none =>
    have hstored : ∀ m ∈ l.candidates store ((l.keysOf docs).map Key.scalar), m ∈ store.docs l.collection := by
      intro m hm
      exact (List.mem_filter.1 ((mem_sortDocuments _).1 hm)).1
    dsimp only
    rw [holding_of_holdsIds (fun m hm => hforeign m (hstored m hm)) fun m hm => hdistinct m (hstored m hm), candidates,
      ← sortDocuments_filter, List.filter_filter]
    refine congrArg _ (List.filter_congr fun m _ => ?_)
    -- whoever holds the identifier holds one of those that are asked for
    cases hheld : (m.idsAt l.foreignPath).contains u with
    | false => simp
    | true =>
      have hany : (((l.keysOf docs).map Key.scalar).any fun value => value.holdsAt (m.get? l.foreignPath)) = true :=
        List.any_eq_true.2 ⟨.id u, List.mem_map.2 ⟨idKey u, hkey, rfl⟩, (Scalar.holdsAt_id_eq _ _ _).trans hheld⟩
      rw [hany, Bool.true_and]
  | some cap =>
    have hfound : ((l.keysOf docs).find? fun key => key.text == u.toText) = some (idKey u) := by
      cases hfind : (l.keysOf docs).find? fun key => key.text == u.toText with
      | none => exact absurd (List.find?_eq_none.1 hfind _ hkey) (by simp [idKey])
      | some key =>
        obtain ⟨d, -, hd⟩ := List.mem_flatMap.1 (mem_of_mem_distinct (List.mem_of_find?_eq_some hfind))
        have htext := List.find?_some hfind
        rw [eq_idKey hd (beq_iff_eq.1 htext)]
    simp only [hfound, candidates, idKey, List.any_cons, List.any_nil, Bool.or_false, Scalar.holdsAt_id_eq]

/-- A document that is joined finds what its identifiers find one by one. -/
theorem found_of_holdsIds (hforeign : ∀ m ∈ store.docs l.collection, m.holdsIds l.foreignPath = true)
    (hdistinct : ∀ m ∈ store.docs l.collection, (m.idsAt l.foreignPath).Nodup) {d : Document} (hd : d ∈ docs)
    (hlocal : d.holdsIds l.localPath = true) :
    l.found (l.partners store docs) d = l.nested (store.docs l.collection) d := by
  unfold found nested
  rw [keysAt_of_holdsIds hlocal, List.flatMap_map]
  refine List.flatMap_congr fun u hu => partners_of_asks hforeign hdistinct ⟨d, hd, ?_⟩
  rwa [Document.idsAt_eq, List.mem_filterMap] at hu

end Joined

end Lookup

/-- A join by identifiers makes of each document, in its place, what a loop over its identifiers and the whole of the
other collection makes of it: for each identifier, in order, the documents that pass the filter and hold the identifier,
in the order of the lookup or of the store, no more of them than the cap. This needs that the documents hold nothing but
identifiers in the field that is joined, in whatever spelling, and that no stored document holds one of them twice. -/
theorem join_nested_loop (l : Lookup) (store : Store) (others : Collaborators) {docs : List Document}
    (hlocal : ∀ d ∈ docs, d.holdsIds l.localPath = true)
    (hforeign : ∀ m ∈ store.docs l.collection, m.holdsIds l.foreignPath = true)
    (hdistinct : ∀ m ∈ store.docs l.collection, (m.idsAt l.foreignPath).Nodup) :
    ∃ joined, ((l.join docs).perform store others none).2 = .ok joined ∧
      List.Forall₂ (fun d => l.Attaches (l.nested (store.docs l.collection) d) d) docs joined := by
  refine ⟨docs.map (l.attach (l.partners store docs)), ?_, ?_⟩
  · rw [Exchange.perform_none, l.run_join]
  · rw [List.forall₂_map_right_iff, List.forall₂_same]
    intro d hd
    rw [← Lookup.found_of_holdsIds hforeign hdistinct hd (hlocal d hd)]
    exact Lookup.attaches_attach _ d

namespace Sample

/-- The public works of members, the one with the most likes of each. -/
def works : Lookup where
  collection := .creations
  localPath := .field "members"
  foreignPath := .field "user"
  filter := .eq .isPublic (.bool true)
  sort := [⟨.field "likes", .descending, .number⟩]
  cap := some 1
  project := [.id]
  target := .field "works"
  single := false

/-- A document that two accounts own, one of them in upper case after `urn:uuid:`, and two that one of them owns
each. -/
def shownWorks : Store := .ofList [
  (.creations, (creation 1).set (.field "user")
    (.array [.string "URN:UUID:00000000-0000-0000-0000-00000000000A", .string (uuid 11).toText])),
  (.creations, ((creation 2).set (.field "user") (.string (uuid 11).toText)).set (.field "likes") (.ofNat 3)),
  (.creations, (creation 3).set (.field "user") (.string "0000000000000000000000000000000a"))]

/-- A group of both accounts, one of them in braces, and a group of nobody. -/
def groups : List Document := [
  ⟨[("_id", .string (uuid 5).toText),
  ("members", .array [.string "\x7b00000000-0000-0000-0000-00000000000B\x7d", .string (uuid 10).toText])]⟩,
  ⟨[("_id", .string (uuid 6).toText), ("members", .null)]⟩]

end Sample

/-- The theorem at a join with a cap, where identifiers are spelled in four ways. -/
theorem join_nested_loop_sample : (∀ d ∈ Sample.groups, d.holdsIds Sample.works.localPath = true) ∧
    (∀ m ∈ Sample.shownWorks.docs .creations, m.holdsIds Sample.works.foreignPath = true) ∧
    (∀ m ∈ Sample.shownWorks.docs .creations, (m.idsAt Sample.works.foreignPath).Nodup) ∧
    ∃ joined, ((Sample.works.join Sample.groups).perform Sample.shownWorks .absent none).2 = .ok joined ∧
      List.Forall₂ (fun d => Sample.works.Attaches (Sample.works.nested (Sample.shownWorks.docs .creations) d) d)
        Sample.groups joined := by
  have hlocal : ∀ d ∈ Sample.groups, d.holdsIds Sample.works.localPath = true := by decide +kernel
  have hforeign : ∀ m ∈ Sample.shownWorks.docs .creations, m.holdsIds Sample.works.foreignPath = true := by
    decide +kernel
  have hdistinct : ∀ m ∈ Sample.shownWorks.docs .creations, (m.idsAt Sample.works.foreignPath).Nodup := by
    decide +kernel
  exact ⟨hlocal, hforeign, hdistinct, join_nested_loop Sample.works Sample.shownWorks .absent hlocal hforeign hdistinct⟩

end FeedQuery
