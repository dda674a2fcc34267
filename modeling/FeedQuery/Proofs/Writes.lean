import FeedQuery.Proofs.FirstSeen
import FeedQuery.Proofs.Join

/-!
# What writes leave

A store that begins empty and is written to document by document holds, in each collection, one document for each
identifier that was written, in the order in which the identifiers were first accepted, and it is the last one that was
accepted under the identifier. A document without an identifier is refused and changes nothing. So a collection is a
map, whatever the writes (`Store.ofList_last_write`).
-/

namespace FeedQuery

/-! ## Spellings of identifiers are no timestamps -/

theorem Text.hexDigit?_hyphen : hexDigit? '-' = none := by decide

namespace Uuid

/-- The first eight characters of the hyphenated form are no hyphens. -/
theorem getElem?_of_ofHyphenated? {text : List Char} {u : Uuid} (h : ofHyphenated? text = some u) {n : Nat}
    (hn : n < 8) :
    text[n]? ≠ some '-' := by
  obtain ⟨digits, hu, hd⟩ := Option.bind_eq_some_iff.1 h
  unfold unhyphen? at hu
  split at hu
  · obtain rfl := Option.some.inj hu
    intro hyphen
    have hmem : '-' ∈ text.take 8 := List.mem_of_getElem? (i := n) (by rw [List.getElem?_take_of_lt hn, hyphen])
    have hdigit := isSome_of_ofDigits? hd '-' (by simp [hmem])
    rw [Text.hexDigit?_hyphen] at hdigit
    cases hdigit
  · cases hu

/-- The fifth character of an identifier, in whatever spelling, is no hyphen. -/
theorem getElem?_of_ofList? {text : List Char} {u : Uuid} (h : ofList? text = some u) : text[4]? ≠ some '-' := by
  unfold ofList? at h
  intro hyphen
  split at h
  · have hdigit := isSome_of_ofDigits? h '-' (List.mem_of_getElem? hyphen)
    rw [Text.hexDigit?_hyphen] at hdigit
    cases hdigit
  · split at h
    · refine getElem?_of_ofHyphenated? h (n := 3) (by decide) ?_
      rw [List.getElem?_take_of_lt (by decide), List.getElem?_drop, hyphen]
    · split at h
      · next hurn =>
        have hcolon := congrArg (·[4]?) hurn.2
        simp only [List.getElem?_map, List.getElem?_take_of_lt (by decide : 4 < 9), hyphen] at hcolon
        exact absurd hcolon (by decide)
      · exact getElem?_of_ofHyphenated? h (by decide) hyphen

end Uuid

namespace Instant

/-- Reading digits leaves what follows them. -/
theorem drop_of_readDigits? {count value : Nat} {text rest : List Char}
    (h : readDigits? count text = some (value, rest)) :
    rest = text.drop count := by
  simp only [readDigits?, Option.ite_none_right_eq_some, Option.some.injEq, Prod.mk.injEq] at h
  exact h.2.2.symm

theorem expect?_eq_some {c : Char} {text rest : List Char} : expect? c text = some rest ↔ text = c :: rest := by
  cases text with
  | nil => simp [expect?]
  | cons d text => simp [expect?]

/-- The fifth character of a timestamp is the hyphen after the year. -/
theorem getElem?_of_ofList? {text : List Char} {t : Instant} (h : ofList? text = some t) : text[4]? = some '-' := by
  simp only [ofList?, readDate?, Option.bind_eq_bind, Option.bind_eq_some_iff] at h
  obtain ⟨_, ⟨⟨_, rest⟩, hyear, after, hhyphen, -⟩, -⟩ := h
  have hrest : rest = '-' :: after := expect?_eq_some.1 hhyphen
  rw [drop_of_readDigits? hyear] at hrest
  rw [← Nat.add_zero 4, ← List.getElem?_drop, hrest, List.getElem?_cons_zero]

end Instant

/-! ## A value is held by the spellings of one identifier -/

/-- Documents that hold one value as their identifier have one identifier, whatever the value is. -/
theorem Scalar.id?_eq_of_holdsAt {value : Scalar} {a b : Document} {u v : Uuid} (hu : a.id? = some u)
    (hv : b.id? = some v) (ha : value.holdsAt (a.get? .id) = true)
    (hb : value.holdsAt (b.get? .id) = true) : u = v := by
  obtain ⟨s, hs, hsu⟩ := Document.id?_eq_some.1 hu
  obtain ⟨t, ht, htv⟩ := Document.id?_eq_some.1 hv
  rw [hs] at ha
  rw [ht] at hb
  cases value with
  | id w =>
    rw [holdsAt_single (by rintro ⟨⟩) (by rintro _ ⟨⟩), orderOf_id_eq] at ha hb
    exact Option.some.inj (((hsu.symm.trans ha).trans hb.symm).trans htv)
  | text w =>
    rw [holdsAt_single (by rintro ⟨⟩) (by rintro _ ⟨⟩), orderOf_text_eq, beq_iff_eq] at ha hb
    rw [← ha.symm.trans hb] at htv
    exact Option.some.inj (hsu.symm.trans htv)
  | number w => cases ha
  | bool w => cases ha
  | datetime w =>
    -- No text is both an identifier and a timestamp: they differ in the fifth character.
    cases hinstant : Instant.ofText? s with
    | none => simp [holdsAt, orderOf, kind?, ValueKind.decode, Json.string?, hinstant] at ha
    | some instant => exact absurd (Instant.getElem?_of_ofList? hinstant) (Uuid.getElem?_of_ofList? hsu)
  | null => cases ha

/-- Of identified documents at most one holds a value as its identifier. -/
theorem Identified.length_filter_eq_id_le {docs : List Document} (h : Identified docs) (value : Scalar) :
    (docs.filter (Predicate.eq .id value).accepts).length ≤ 1 := by
  have hholds : ∀ d ∈ docs.filter (Predicate.eq .id value).accepts, value.holdsAt (d.get? .id) = true := by
    intro d hd
    exact (List.mem_filter.1 hd).2
  have hids := h.filter (Predicate.eq .id value).accepts
  cases hlist : docs.filter (Predicate.eq .id value).accepts with
  | nil => exact Nat.zero_le 1
  | cons a rest =>
    cases rest with
    | nil => exact Nat.le_refl 1
    | cons b rest =>
      rw [hlist] at hids hholds
      have ha : a ∈ a :: b :: rest := List.mem_cons_self
      have hb : b ∈ a :: b :: rest := List.mem_cons_of_mem a List.mem_cons_self
      obtain ⟨u, hu⟩ := hids.exists_id? ha
      obtain ⟨v, hv⟩ := hids.exists_id? hb
      have huv := Scalar.id?_eq_of_holdsAt hu hv (hholds a ha) (hholds b hb)
      exact absurd (hu.trans (huv ▸ hv.symm)) ((List.pairwise_cons.1 hids.distinct).1 b List.mem_cons_self)

namespace Query

/-- The answer is a part of the accepted documents in order. -/
theorem apply_sublist (q : Query) (docs : List Document) :
    (q.apply docs).Sublist (sortDocuments q.sort (docs.filter q.predicate.accepts)) := by
  rw [Pipeline.apply_eq]
  cases q.limit with
  | none => exact List.drop_sublist _ _
  | some limit => exact (List.take_sublist _ _).trans (List.drop_sublist _ _)

/-- A query finds no more documents than it accepts. -/
theorem length_apply_le (q : Query) (docs : List Document) :
    (q.apply docs).length ≤ (docs.filter q.predicate.accepts).length :=
  (q.apply_sublist docs).length_le.trans_eq (sortDocuments_perm q.sort _).length_eq

end Query

/-! ## Histories -/

section History

/-- The identifiers of some documents, in the order in which they are first seen. -/
def firstIds (history : List Document) : List Uuid := (history.filterMap Document.id?).eraseDups

/-- The last document with an identifier. -/
def latest? (history : List Document) (id : Uuid) : Option Document := (history.filter (·.id? == some id)).getLast?

variable {history : List Document} {d : Document} {id : Uuid}

/-- One more document brings its identifier, if it was not seen. -/
theorem firstIds_concat (hd : d.id? = some id) :
    firstIds (history ++ [d]) = if id ∈ firstIds history then firstIds history else firstIds history ++ [id] := by
  simp only [firstIds, List.filterMap_append, List.filterMap_cons, hd, List.filterMap_nil, eraseDups_concat,
    List.mem_eraseDups]

/-- One more document is the last with its identifier. -/
theorem latest?_concat (hd : d.id? = some id) :
    latest? (history ++ [d]) = fun other => if other = id then some d else latest? history other := by
  funext other
  by_cases hother : other = id
  · simp [latest?, List.filter_append, hd, hother]
  · simp [latest?, List.filter_append, hd, hother, Ne.symm hother]

theorem id?_of_latest? (h : latest? history id = some d) : d.id? = some id :=
  beq_iff_eq.1 (List.mem_filter.1 (List.mem_of_getLast? h)).2

end History

namespace Store

/-- A document goes in the place of its identifier, and behind all others if its identifier is new. -/
theorem map_some_upsert {ids : List Uuid} {current : Uuid → Option Document} {docs : List Document}
    (hdocs : docs.map some = ids.map current) (hids : ∀ id d, current id = some d → d.id? = some id)
    (hnodup : ids.Nodup) (id : Uuid) (doc : Document) :
    (upsert id doc docs).map some =
      (if id ∈ ids then ids else ids ++ [id]).map fun other => if other = id then some doc else current other := by
  induction ids generalizing docs with
  | nil =>
    obtain rfl := List.map_eq_nil_iff.1 hdocs
    simp [upsert]
  | cons first rest ih =>
    obtain ⟨old, olds, rfl, hold, holds⟩ := List.map_eq_cons_iff.1 hdocs
    obtain ⟨hfirst, hrest⟩ := List.nodup_cons.1 hnodup
    rw [upsert, hids first old hold.symm]
    by_cases h : first = id
    · subst h
      have hothers : ∀ other ∈ rest, current other = if other = first then some doc else current other := by
        intro other hother
        rw [if_neg]
        rintro rfl
        exact hfirst hother
      rw [if_pos rfl, if_pos List.mem_cons_self, List.map_cons, List.map_cons, if_pos rfl, holds,
        List.map_congr_left hothers]
    · have hmem : id ∈ first :: rest ↔ id ∈ rest := by simp [Ne.symm h]
      have hsplit : (if id ∈ first :: rest then first :: rest else first :: rest ++ [id]) =
          first :: if id ∈ rest then rest else rest ++ [id] := by
        simp only [hmem]
        split <;> rfl
      rw [if_neg (by simpa using h), hsplit, List.map_cons, List.map_cons, if_neg h, hold, ih holds hrest]

/-! ## One write -/

theorem ofList_concat (writes : List (Collection × Document)) (c : Collection) (d : Document) :
    ofList (writes ++ [(c, d)]) = ((ofList writes).insert c d).toOption.getD (ofList writes) := by
  simp only [ofList, List.foldl_append, List.foldl_cons, List.foldl_nil]

/-- The documents that a collection accepts of some writes: those with an identifier. -/
def accepted (c : Collection) (writes : List (Collection × Document)) : List Document :=
  (writes.filter fun write => write.1 == c && write.2.id?.isSome).map Prod.snd

/-- What one write does to a collection: a document that it accepts goes in its place, and nothing else is changed. -/
theorem docs_ofList_concat (writes : List (Collection × Document)) (c c' : Collection) (d : Document) :
    (ofList (writes ++ [(c', d)])).docs c = (ofList writes).docs c ∧
    accepted c (writes ++ [(c', d)]) = accepted c writes ∨
      ∃ id, d.id? = some id ∧ (ofList (writes ++ [(c', d)])).docs c = upsert id d ((ofList writes).docs c) ∧
        accepted c (writes ++ [(c', d)]) = accepted c writes ++ [d] := by
  rw [ofList_concat]
  cases hd : d.id? with
  | none =>
    left
    rw [insert_of_none _ _ hd]
    simp [accepted, List.filter_append, hd, Except.toOption]
  | some id =>
    rw [insert_of_id? _ _ hd]
    by_cases hc : c' = c
    · right
      refine ⟨id, rfl, ?_, ?_⟩
      · simp [Except.toOption, hc]
      · simp [accepted, List.filter_append, hd, hc]
    · left
      constructor
      · simp [Except.toOption, Ne.symm hc]
      · simp [accepted, List.filter_append, hc]

/-! ## Any number of writes -/

/-- A collection holds the last document of each identifier, in the order in which the identifiers were first
accepted. -/
theorem docs_ofList (writes : List (Collection × Document)) (c : Collection) :
    ((ofList writes).docs c).map some = (firstIds (accepted c writes)).map (latest? (accepted c writes)) := by
  induction writes using List.reverseRecOn with
  | nil => rfl
  | append_singleton writes write ih =>
    obtain ⟨c', d⟩ := write
    rcases docs_ofList_concat writes c c' d with ⟨hdocs, haccepted⟩ | ⟨id, hid, hdocs, haccepted⟩
    · rw [hdocs, haccepted, ih]
    · rw [hdocs, haccepted, firstIds_concat hid, latest?_concat hid]
      exact map_some_upsert ih (fun _ _ => id?_of_latest?) (nodup_eraseDups _) id d

/-- The stores that writes lead to are those of some documents that were written one after the other. -/
theorem reachable_iff {s : Store} : s.Reachable ↔ ∃ writes, ofList writes = s := by
  constructor
  · intro h
    induction h with
    | empty => exact ⟨[], rfl⟩
    | @insert s s' c d _ hinsert ih =>
      obtain ⟨writes, rfl⟩ := ih
      refine ⟨writes ++ [(c, d)], ?_⟩
      rw [ofList_concat, hinsert]
      rfl
  · rintro ⟨writes, rfl⟩
    exact reachable_ofList writes

/-- A store that is written to is a map in each collection. Which documents are accepted depends on their `_id` alone; a
refused one changes nothing. A collection holds one document for each identifier that was accepted, whatever its
spelling, in the order of the first writes, and it is that of the last write. So identifiers are distinct, at most one
document is found for a value of `_id`, whatever else is asked for, and the size and the counts are those of what is
found. -/
theorem ofList_last_write : (∀ s : Store, s.Reachable ↔ ∃ writes, ofList writes = s) ∧
    ∀ writes : List (Collection × Document),
    (∀ c d, (∀ text id, d.get? .id = some (.string text) → Uuid.ofText? text ≠ some id) →
      (ofList writes).insert c d = .error (.argument "Document _id must be a UUID string.") ∧
        ofList (writes ++ [(c, d)]) = ofList writes) ∧
    (∀ c d text id, d.get? .id = some (.string text) → Uuid.ofText? text = some id →
      d.id? = some id ∧ (ofList writes).insert c d = .ok (ofList (writes ++ [(c, d)]))) ∧
    ∀ c,
      ((ofList writes).docs c).map some = (firstIds (accepted c writes)).map (latest? (accepted c writes)) ∧
      Identified ((ofList writes).docs c) ∧
      (∀ value keys skip limit, ((ofList writes).find c ⟨.eq .id value, keys, skip, limit⟩).length ≤ 1) ∧
      (ofList writes).size c = (firstIds (accepted c writes)).length ∧
      ∀ predicate keys, (ofList writes).count c predicate =
        ((ofList writes).find c ⟨predicate, keys, none, none⟩).length := by
  refine ⟨fun s => reachable_iff, fun writes => ⟨?_, ?_, fun c => ?_⟩⟩
  · intro c d h
    have hd : d.id? = none := by
      refine Option.eq_none_iff_forall_ne_some.2 fun id hid => ?_
      obtain ⟨text, htext, hread⟩ := Document.id?_eq_some.1 hid
      exact h text id htext hread
    have hinsert := insert_of_none (ofList writes) c hd
    refine ⟨hinsert, ?_⟩
    rw [ofList_concat, hinsert]
    rfl
  · intro c d text id htext hread
    have hd := Document.id?_eq_some.2 ⟨text, htext, hread⟩
    refine ⟨hd, ?_⟩
    rw [ofList_concat, insert_of_id? _ _ hd]
    rfl
  · have hidentified := (reachable_ofList writes).identified c
    refine ⟨docs_ofList writes c, hidentified, ?_, ?_, ?_⟩
    · intro value keys skip limit
      exact (Query.length_apply_le _ _).trans (hidentified.length_filter_eq_id_le value)
    · rw [size, ← List.length_map some, docs_ofList, List.length_map]
    · intro predicate keys
      rw [count, find, find, Pipeline.apply_eq, Pipeline.apply_eq]
      exact (sortDocuments_perm [] _).length_eq.trans (sortDocuments_perm keys _).length_eq.symm

end Store

namespace Sample

/-- A document with a spelling of an identifier and a title. -/
def titled (id title : String) : Document := ⟨[("_id", .string id), ("title", .string title)]⟩

/-- Two documents, and one whose `_id` is no identifier. -/
def titledWrites : List (Collection × Document) :=
  [(.creations, titled "0000000000000000000000000000000a" "first"), (.creations, titled "a" "unnamed"),
    (.creations, titled "0000000000000000000000000000000b" "other")]

/-- The identifier of the first document, spelled otherwise. -/
def respelled : Document := titled "urn:uuid:00000000-0000-0000-0000-00000000000A" "second"

end Sample

/-- The theorem at a few writes: a document under another spelling of an identifier takes the place of the first
document. -/
theorem Store.ofList_last_write_respelled :
    (ofList Sample.titledWrites).insert .creations (Sample.titled "a" "unnamed") =
      .error (.argument "Document _id must be a UUID string.") ∧
    (ofList Sample.titledWrites).insert .creations Sample.respelled =
      .ok (ofList (Sample.titledWrites ++ [(.creations, Sample.respelled)])) ∧
    ((ofList (Sample.titledWrites ++ [(.creations, Sample.respelled)])).docs .creations).map some =
      [some Sample.respelled, some (Sample.titled "0000000000000000000000000000000b" "other")] := by
  refine ⟨((ofList_last_write.2 Sample.titledWrites).1 .creations _ ?_).1,
    ((ofList_last_write.2 Sample.titledWrites).2.1 .creations _ _ ⟨10⟩ rfl (by decide)).2,
    ((ofList_last_write.2 _).2.2 .creations).1.trans (by rfl)⟩
  rintro _ id ⟨⟩
  have hread : Uuid.ofText? "a" = none := by decide
  simp [hread]

end FeedQuery
