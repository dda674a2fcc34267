import FeedQuery.Plan
import FeedQuery.Proofs.Execution
import FeedQuery.Proofs.Identifier
import FeedQuery.Proofs.NumberText

/-!
# Joins by identifier

The text of a key stands for the value it came from: a key with the text of an identifier comes from a spelling of that
identifier and from nothing else, not from a number, a truth value or another text (`Lookup.exists_key_iff`). What a
join finds is in the store and passes the lookup's filter (`Lookup.of_mem_matching`); for an identifier that is asked
for, it is all such documents that hold it (`Lookup.mem_matching_iff`).
-/

namespace FeedQuery

/-- The identifier that a value spells. -/
def Json.id? (value : Json) : Option Uuid := value.string?.bind Uuid.ofText?

theorem Document.id?_eq (d : Document) : d.id? = (d.get? .id).bind Json.id? := by
  unfold Document.id? Json.id?
  cases d.get? .id <;> rfl

/-- A document has an identifier where its `_id` is a text that spells it. -/
theorem Document.id?_eq_some {d : Document} {id : Uuid} :
    d.id? = some id ↔ ∃ text, d.get? .id = some (.string text) ∧ Uuid.ofText? text = some id := by
  rw [Document.id?_eq, Option.bind_eq_some_iff]
  constructor
  · rintro ⟨value, hvalue, hid⟩
    cases value with
    | string text => exact ⟨text, hvalue, hid⟩
    | _ => cases hid
  · rintro ⟨text, htext, hid⟩
    exact ⟨.string text, htext, hid⟩

/-! ## The texts of keys -/

/-- In the text of a number nothing but the sign is a hyphen. -/
theorem Double.hyphen_not_mem_tail {d : Double} (h : d.isFinite = true) : '-' ∉ d.toText.toList.tail := by
  rw [toText_eq h, String.toList_ofList]
  split
  · exact d.hyphen_not_mem_body
  · exact fun hm => d.hyphen_not_mem_body (List.mem_of_mem_tail hm)

/-- The text of an identifier has a hyphen behind its first character. -/
theorem Uuid.hyphen_mem_tail (u : Uuid) : '-' ∈ u.toText.toList.tail := by
  have hlen : (u.digits.take 8).length = 8 := by simp [Uuid.digits]
  rw [Uuid.toText, String.toList_ofList, Uuid.toList]
  generalize u.digits.take 8 = first at hlen
  cases first with
  | nil => simp at hlen
  | cons c rest => simp

namespace Lookup

/-- The key of an identifier. -/
def idKey (u : Uuid) : Key := ⟨u.toText, .id u⟩

theorem key?_of_id? {value : Json} {u : Uuid} (h : value.id? = some u) : key? value = some (idKey u) := by
  cases value with
  | string raw =>
    have hraw : Uuid.ofText? raw = some u := h
    simp [key?, hraw, idKey]
  | _ => simp [Json.id?, Json.string?] at h

/-- A key with the text of an identifier comes from a spelling of it. -/
theorem id?_of_key? {value : Json} {k : Key} {u : Uuid} (hk : key? value = some k) (ht : k.text = u.toText) :
    value.id? = some u := by
  cases value with
  | string raw =>
    simp only [key?] at hk
    split at hk
    · next v hv =>
      obtain rfl := Option.some.inj hk
      rw [← Uuid.toText_injective ht]
      exact hv
    · next hraw =>
      obtain rfl := Option.some.inj hk
      have ht' : raw = u.toText := ht
      rw [ht', Uuid.ofText?_toText] at hraw
      cases hraw
  | number n =>
    obtain rfl := Option.some.inj hk
    have ht' : n.toDouble.toText = u.toText := ht
    exact absurd (ht' ▸ u.hyphen_mem_tail) (Double.hyphen_not_mem_tail n.toDouble_isFinite)
  | bool b =>
    obtain rfl := Option.some.inj hk
    have ht' : (if b then "true" else "false") = u.toText := ht
    have := ht' ▸ u.hyphen_mem_tail
    cases b <;> exact absurd this (by decide)
  | null => cases hk
  | array items => cases hk
  | object fields => cases hk

theorem mem_keysAt {p : Path} {d : Document} {k : Key} : k ∈ keysAt p d ↔ ∃ value ∈ valuesAt p d, key? value = some k :=
  List.mem_filterMap

/-- A field has a key with the text of an identifier exactly where one of its values spells it. -/
theorem exists_key_iff {p : Path} {d : Document} {u : Uuid} :
    (∃ k ∈ keysAt p d, k.text = u.toText) ↔ ∃ value ∈ valuesAt p d, value.id? = some u := by
  constructor
  · rintro ⟨k, hk, ht⟩
    obtain ⟨value, hv, hkv⟩ := mem_keysAt.1 hk
    exact ⟨value, hv, id?_of_key? hkv ht⟩
  · rintro ⟨value, hv, hu⟩
    exact ⟨idKey u, mem_keysAt.2 ⟨value, hv, key?_of_id? hu⟩, rfl⟩

end Lookup

theorem Uuid.compare_eq_eq {u v : Uuid} : compare u v = .eq ↔ u = v := by
  obtain ⟨a⟩ := u
  obtain ⟨b⟩ := v
  change compare a.toNat b.toNat = .eq ↔ _
  rw [Nat.compare_eq_eq, BitVec.toNat_inj, Uuid.mk.injEq]

/-- A value is compared with an identifier as the identifier that it spells. -/
theorem Scalar.orderOf_id (u : Uuid) (value : Json) :
    (Scalar.id u).orderOf value = value.id?.map fun v => compare v u := by
  change ((value.id?).map Scalar.id).bind _ = _
  cases value.id? <;> rfl

theorem Scalar.orderOf_id_eq {u : Uuid} {value : Json} :
    ((Scalar.id u).orderOf value == some .eq) = true ↔ value.id? = some u := by
  rw [orderOf_id]
  cases value.id? with
  | none => simp
  | some v => simp [Uuid.compare_eq_eq]

/-- A text is equal to itself alone. -/
theorem Scalar.orderOf_text_eq (text other : String) :
    ((Scalar.text text).orderOf (.string other) == some .eq) = (text == other) := by
  have horder : (Scalar.text text).orderOf (.string other) = some (compare other text) := rfl
  rw [horder, Bool.eq_iff_iff, beq_iff_eq, beq_iff_eq, Option.some.injEq, Std.compare_eq_iff_eq]
  exact eq_comm

/-- A field lies towards an identifier as the identifier that it spells. -/
theorem Predicate.accepts_order_id (path : Path) (comparison : Comparison) (id : Uuid) (d : Document) :
    (order path comparison (.id id)).accepts d =
      ((d.get? path).bind Json.id?).any fun other => comparison.admits (compare other id) := by
  rw [accepts]
  cases d.get? path with
  | none => rfl
  | some value =>
    rw [Option.bind_some, Option.bind_some, Scalar.orderOf_id]
    cases value.id? <;> rfl

theorem Scalar.orderOf_null (s : Scalar) : s.orderOf .null = none := by
  cases s <;> rfl

section Held

variable {s : Scalar} (hs : s ≠ .null)
include hs

/-- One value that is no list is held where it is equal. -/
theorem Scalar.holdsAt_single {value : Json} (h : ∀ items, value ≠ .array items) :
    s.holdsAt (some value) = (s.orderOf value == some .eq) := by
  cases value with
  | array items => exact absurd rfl (h items)
  | _ => cases s <;> first | rfl | exact absurd rfl hs

theorem Scalar.holdsAt_array (items : List Json) :
    s.holdsAt (some (.array items)) = items.any fun item => s.orderOf item == some .eq := by
  cases s <;> first | rfl | exact absurd rfl hs

theorem Scalar.holdsAt_none : s.holdsAt none = false := by
  cases s <;> first | rfl | exact absurd rfl hs

/-- A field holds a value where one of the values that are read from it is equal. -/
theorem Scalar.holdsAt_iff_valuesAt {p : Path} {d : Document} :
    s.holdsAt (d.get? p) = true ↔ ∃ value ∈ Lookup.valuesAt p d, s.orderOf value = some .eq := by
  unfold Lookup.valuesAt
  cases d.get? p with
  | none =>
    rw [holdsAt_none hs]
    simp only [Bool.false_eq_true, List.not_mem_nil, false_and, exists_false]
  | some value =>
    cases value with
    | array items =>
      rw [holdsAt_array hs, List.any_eq_true]
      simp only [beq_iff_eq]
    | null =>
      rw [holdsAt_single hs (by rintro _ ⟨⟩), orderOf_null]
      simp only [reduceCtorEq, beq_iff_eq, List.not_mem_nil, false_and, exists_false]
    | _ =>
      rw [holdsAt_single hs (by rintro _ ⟨⟩), beq_iff_eq]
      simp only [List.mem_singleton, exists_eq_left]

end Held

/-- A field holds an identifier where one of its values spells it. -/
theorem Scalar.holdsAt_id_iff {p : Path} {d : Document} {u : Uuid} :
    (Scalar.id u).holdsAt (d.get? p) = true ↔ ∃ value ∈ Lookup.valuesAt p d, value.id? = some u := by
  rw [holdsAt_iff_valuesAt (by rintro ⟨⟩)]
  simp only [← orderOf_id_eq, beq_iff_eq]

/-! ## What a join finds -/

namespace Lookup

/-- The key with the text of an identifier is the key of the identifier. -/
theorem eq_idKey {p : Path} {d : Document} {k : Key} {u : Uuid} (hk : k ∈ keysAt p d) (ht : k.text = u.toText) :
    k = idKey u := by
  obtain ⟨value, -, hkv⟩ := mem_keysAt.1 hk
  rw [key?_of_id? (id?_of_key? hkv ht), Option.some.injEq] at hkv
  exact hkv.symm

/-- A key is among the distinct ones where its text was not seen and it is the first with its text. -/
theorem mem_distinct_iff {seen : List String} {keys : List Key} {k : Key} :
    k ∈ distinct seen keys ↔ k.text ∉ seen ∧ (keys.find? fun key => key.text == k.text) = some k := by
  fun_induction distinct seen keys with
  | case1 => simp
  | case2 seen key rest hseen ih =>
    rw [ih]
    refine and_congr_right fun hk => ?_
    rw [List.find?_cons_of_neg (by simpa using fun ht : key.text = k.text => hk (ht ▸ hseen))]
  | case3 seen key rest hseen ih =>
    rw [List.mem_cons, ih, List.mem_cons, not_or]
    by_cases ht : key.text = k.text
    · rw [List.find?_cons_of_pos (by simpa using ht), Option.some.injEq, eq_comm (a := k)]
      exact ⟨fun h => ⟨ht ▸ hseen, h.resolve_right fun h => h.1.1 ht.symm⟩, fun h => .inl h.2⟩
    · rw [List.find?_cons_of_neg (by simpa using ht)]
      have hne : k ≠ key := fun h => ht (h ▸ rfl)
      simp [hne, Ne.symm ht]

theorem mem_of_mem_distinct {seen : List String} {keys : List Key} {k : Key} (h : k ∈ distinct seen keys) : k ∈ keys :=
  List.mem_of_find?_eq_some (mem_distinct_iff.1 h).2

/-- The text of every key is asked for once it was not seen before. -/
theorem exists_mem_distinct {seen : List String} {keys : List Key} {k : Key} (h : k ∈ keys) (hs : k.text ∉ seen) :
    ∃ k' ∈ distinct seen keys, k'.text = k.text := by
  have hsome : (keys.find? fun key => key.text == k.text).isSome = true :=
    List.find?_isSome.2 ⟨k, h, beq_self_eq_true _⟩
  obtain ⟨k', hk'⟩ := Option.isSome_iff_exists.1 hsome
  have ht : k'.text = k.text := eq_of_beq (List.find?_some (p := fun key : Key => key.text == k.text) hk')
  exact ⟨k', mem_distinct_iff.2 ⟨ht ▸ hs, ht ▸ hk'⟩, ht⟩

/-- The documents ask for an identifier: one of them spells it at the local path. -/
def Asks (l : Lookup) (docs : List Document) (u : Uuid) : Prop :=
  ∃ d ∈ docs, ∃ value ∈ valuesAt l.localPath d, value.id? = some u

/-- An identifier that is asked for is among the keys. -/
theorem Asks.idKey_mem {l : Lookup} {docs : List Document} {u : Uuid} (h : l.Asks docs u) :
    idKey u ∈ l.keysOf docs := by
  obtain ⟨d, hd, hu⟩ := h
  obtain ⟨k, hk, ht⟩ := exists_key_iff.2 hu
  have hall : k ∈ docs.flatMap (keysAt l.localPath) := List.mem_flatMap.2 ⟨d, hd, hk⟩
  obtain ⟨k', hk', ht'⟩ := exists_mem_distinct hall (List.not_mem_nil (a := k.text))
  obtain ⟨d', -, hkd⟩ := List.mem_flatMap.1 (mem_of_mem_distinct hk')
  rw [eq_idKey hkd (ht'.trans ht)] at hk'
  exact hk'

section Matching

variable {l : Lookup} {store : Store} {others : Collaborators} {docs : List Document}

theorem mem_holding {found : List Document} {text : String} {d : Document} :
    d ∈ l.holding found text ↔ d ∈ found ∧ ∃ k ∈ keysAt l.foreignPath d, k.text = text := by
  simp only [holding, List.mem_flatMap, List.mem_map, List.mem_filter, beq_iff_eq]
  constructor
  · rintro ⟨d', hd', k, hk, rfl⟩
    exact ⟨hd', k, hk⟩
  · rintro ⟨hd, k, hk⟩
    exact ⟨d, hd, k, hk, rfl⟩

/-- Documents are asked for key by key where their number is bounded. -/
theorem run_fetchEach (cap : Nat) (keys : List Key) : (l.fetchEach cap keys).run store others =
    keys.map fun k => (k.text, store.find l.collection (l.cappedQuery cap k)) := by
  induction keys with
  | nil => rfl
  | cons key rest ih =>
    change ((l.fetchEach cap rest >>= fun others => pure ((key.text, _) :: others)).run store others) = _
    rw [Exchange.run_bind, ih]
    rfl

theorem matching_uncapped (hcap : l.cap = none) (text : String) : l.matching store others docs text =
    if (l.keysOf docs).isEmpty then [] else l.holding
      (store.find l.collection (l.batchQuery (l.keysOf docs))) text := by
  unfold matching fetch
  rw [hcap]
  split <;> rfl

theorem matching_capped {cap : Nat} (hcap : l.cap = some cap) (text : String) : l.matching store others docs text =
    (Fields.get? text ((l.keysOf docs).map fun k => (k.text, store.find l.collection (l.cappedQuery cap k)))).getD
      [] := by
  unfold matching fetch
  rw [hcap]
  split
  · next hempty =>
    rw [List.isEmpty_iff.1 hempty]
    rfl
  · dsimp only
    rw [Exchange.run_bind, run_fetchEach]
    rfl

/-- What a query finds is in the store and passes its predicate, however the query is sorted and cut. -/
theorem of_mem_find {c : Collection} {q : Query} {d : Document} (h : d ∈ store.find c q) :
    d ∈ store.docs c ∧ q.predicate.accepts d = true := by
  have hm : d ∈ sortDocuments q.sort ((store.docs c).filter q.predicate.accepts) := by
    rw [Store.find, Pipeline.apply_eq] at h
    split at h
    · exact List.mem_of_mem_drop (List.mem_of_mem_take h)
    · exact List.mem_of_mem_drop h
  rwa [mem_sortDocuments, List.mem_filter] at hm

/-- What a join finds is in the store and passes the lookup's filter. -/
theorem of_mem_matching {text : String} {d : Document} (h : d ∈ l.matching store others docs text) :
    d ∈ store.docs l.collection ∧ l.filter.accepts d = true := by
  cases hcap : l.cap with
  | none =>
    rw [matching_uncapped hcap] at h
    split at h
    · simp at h
    · obtain ⟨hd, hp⟩ := of_mem_find (mem_holding.1 h).1
      simp only [batchQuery, Predicate.accepts_all, List.all_cons, Bool.and_eq_true] at hp
      exact ⟨hd, hp.1⟩
  | some cap =>
    rw [matching_capped hcap] at h
    generalize l.keysOf docs = keys at h
    induction keys with
    | nil => simp [Fields.get?] at h
    | cons key rest ih =>
      simp only [List.map_cons, Fields.get?] at h
      split at h
      · obtain ⟨hd, hp⟩ := of_mem_find h
        simp only [cappedQuery, Predicate.accepts_all, List.all_cons, Bool.and_eq_true] at hp
        exact ⟨hd, hp.1⟩
      · exact ih h

/-- Without a bound, what a join finds for a text holds a key with that text. -/
theorem exists_key_of_mem_matching (hcap : l.cap = none) {text : String} {d : Document}
    (h : d ∈ l.matching store others docs text) : ∃ k ∈ keysAt l.foreignPath d, k.text = text := by
  rw [matching_uncapped hcap] at h
  split at h
  · simp at h
  · exact (mem_holding.1 h).2

/-- For an identifier that is asked for, a join without a bound finds all documents that pass its filter and hold the
identifier. -/
theorem mem_matching_iff (hcap : l.cap = none) {u : Uuid} (hask : l.Asks docs u) {d : Document} :
    d ∈ l.matching store others docs u.toText ↔
      d ∈ store.docs l.collection ∧ l.filter.accepts d = true ∧ ∃ value ∈ valuesAt l.foreignPath d, value.id? =
        some u := by
  have hkey := hask.idKey_mem
  have hne : (l.keysOf docs).isEmpty = false := by
    cases hkeys : l.keysOf docs with
    | nil => simp [hkeys] at hkey
    | cons k rest => rfl
  rw [matching_uncapped hcap, hne, if_neg (by decide), mem_holding, batchQuery, Store.mem_find, exists_key_iff]
  constructor
  · rintro ⟨⟨hd, hp⟩, hu⟩
    simp only [Predicate.accepts_all, List.all_cons, Bool.and_eq_true] at hp
    exact ⟨hd, hp.1, hu⟩
  · rintro ⟨hd, hp, hu⟩
    refine ⟨⟨hd, ?_⟩, hu⟩
    simp only [Predicate.accepts_all, List.all_cons, List.all_nil, Bool.and_true, Bool.and_eq_true,
      Predicate.accepts_oneOf, List.any_eq_true]
    exact ⟨hp, .id u, List.mem_map.2 ⟨idKey u, hkey, rfl⟩, Scalar.holdsAt_id_iff.2 hu⟩

/-- The one key of a field that spells an identifier. -/
theorem keysAt_of_id? {p : Path} {d : Document} {u : Uuid} (h : (d.get? p).bind Json.id? = some u) :
    keysAt p d = [idKey u] := by
  obtain ⟨value, hv, hu⟩ := Option.bind_eq_some_iff.1 h
  have hvalues : valuesAt p d = [value] := by
    cases value with
    | string raw => simp [valuesAt, hv]
    | _ => simp [Json.id?, Json.string?] at hu
  simp [keysAt, hvalues, key?_of_id? hu]

theorem valuesAt_of_id? {p : Path} {d : Document} {u : Uuid} (h : (d.get? p).bind Json.id? = some u) :
    ∃ value ∈ valuesAt p d, value.id? = some u := by
  rw [← exists_key_iff, keysAt_of_id? h]
  exact ⟨idKey u, List.mem_singleton_self _, rfl⟩

/-- A join by identifier finds first the document with the identifier, if there is one and it passes the filter. -/
theorem head?_matching (hcap : l.cap = none) (hforeign : l.foreignPath = .id)
    (hdocs : Identified (store.docs l.collection)) {u : Uuid} (hask : l.Asks docs u) :
    (l.matching store others docs u.toText).head? =
      (store.get? l.collection u).filter l.filter.accepts := by
  have hmem (d : Document) : d ∈ l.matching store others docs u.toText ↔
      store.get? l.collection u = some d ∧ l.filter.accepts d = true := by
    rw [mem_matching_iff hcap hask, Store.get?_eq_some hdocs, hforeign]
    constructor
    · rintro ⟨hd, hp, hu⟩
      refine ⟨⟨hd, ?_⟩, hp⟩
      obtain ⟨v, hv⟩ := hdocs.exists_id? hd
      rw [← exists_key_iff, keysAt_of_id? ((Document.id?_eq d).symm.trans hv)] at hu
      obtain ⟨k, hk, ht⟩ := hu
      obtain rfl := List.mem_singleton.1 hk
      rw [hv, Uuid.toText_injective ht]
    · rintro ⟨⟨hd, hu⟩, hp⟩
      exact ⟨hd, hp, valuesAt_of_id? ((Document.id?_eq d).symm.trans hu)⟩
  cases hfound : (store.get? l.collection u).filter l.filter.accepts with
  | none =>
    rw [List.head?_eq_none_iff, List.eq_nil_iff_forall_not_mem]
    intro d hd
    rw [hmem, ← Option.filter_eq_some_iff, hfound] at hd
    simp at hd
  | some d =>
    have hd : d ∈ l.matching store others docs u.toText := (hmem d).2 (Option.filter_eq_some_iff.1 hfound)
    cases hlist : l.matching store others docs u.toText with
    | nil => simp [hlist] at hd
    | cons first rest =>
      have hfirst := (hmem first).1 (hlist ▸ List.mem_cons_self)
      rw [← Option.filter_eq_some_iff, hfound] at hfirst
      exact hfirst.symm

end Matching

/-! ## What a join attaches -/

/-- The documents that the keys of a document find. -/
def found (l : Lookup) (matching : String → List Document) (d : Document) : List Document :=
  (keysAt l.localPath d).flatMap fun key => matching key.text

variable {l : Lookup} (matching : String → List Document) (d : Document)

/-- A lookup of one document writes the first that is found, and nothing where none is. -/
theorem attach_single (h : l.single = true) : l.attach matching d = match (l.found matching d).head? with
    | some first => d.set l.target (first.project l.project).toJson
    | none => d := by
  unfold attach found
  rw [h, if_pos rfl]
  simp only [← List.map_flatMap]
  cases (keysAt l.localPath d).flatMap fun key => matching key.text <;> rfl

/-- A lookup of all documents writes an array of what is found. -/
theorem attach_array (h : l.single = false) : l.attach matching d =
    d.set l.target (.array ((l.found matching d).map fun m => (m.project l.project).toJson)) := by
  unfold attach found
  rw [h, if_neg (by decide)]
  simp only [List.map_flatMap]

/-- A document with an identifier finds something where the other collection has a document that passes the filter and
holds the identifier. -/
theorem found_ne_nil_iff (store : Store) (others : Collaborators) {docs : List Document} (hcap : l.cap = none)
    (hlocal : l.localPath = .id) {d : Document} (hd : d ∈ docs) {u : Uuid} (hu : d.id? = some u) :
    l.found (l.matching store others docs) d ≠ [] ↔ ∃ m ∈ store.docs l.collection, l.filter.accepts m = true ∧
      ∃ value ∈ valuesAt l.foreignPath m, value.id? = some u := by
  have hid : (d.get? .id).bind Json.id? = some u := (Document.id?_eq d).symm.trans hu
  have hask : l.Asks docs u := ⟨d, hd, hlocal ▸ valuesAt_of_id? hid⟩
  have hfound : l.found (l.matching store others docs) d = l.matching store others docs u.toText := by
    rw [found, hlocal, keysAt_of_id? hid, List.flatMap_singleton]
    rfl
  rw [hfound, ne_eq, List.eq_nil_iff_forall_not_mem]
  simp only [mem_matching_iff hcap hask, not_forall, not_not]

/-- A lookup leaves every field but its target as it was. -/
theorem agreesApart_attach {name : String} (h : l.target = .field name) :
    Document.AgreesApart [name] d (l.attach matching d) := by
  cases hs : l.single with
  | true =>
    rw [attach_single matching d hs, h]
    split
    · exact Document.agreesApart_set (by simp) d _
    · exact .refl _ d
  | false =>
    rw [attach_array matching d hs, h]
    exact Document.agreesApart_set (by simp) d _

/-- What a lookup makes of a document that finds some documents. -/
structure Attaches (l : Lookup) (found : List Document) (d joined : Document) : Prop where
  /-- Every field keeps its value but the target. -/
  elsewhere : ∀ name, name ≠ l.target.toText → Fields.get? name joined.fields = Fields.get? name d.fields
  /-- The target is an array of all documents that are found. -/
  all : l.single = false → joined.top? l.target = some (.array (found.map fun m => (m.project l.project).toJson))
  /-- A lookup of one document writes the first. -/
  first : l.single = true → ∀ m rest, found = m :: rest → joined.top? l.target = some (m.project l.project).toJson
  /-- Where it finds none, the document stays as it was. -/
  untouched : l.single = true → found = [] → joined = d

theorem attaches_attach : l.Attaches (l.found matching d) d (l.attach matching d) := by
  have hset (value : Json) : (d.set l.target value).top? l.target = some value := by
    rw [Document.top?, Document.set, Fields.get?_set, if_pos rfl]
  have helse (value : Json) : ∀ name, name ≠ l.target.toText →
      Fields.get? name (d.set l.target value).fields = Fields.get? name d.fields := by
    intro name hname
    rw [Document.set, Fields.get?_set, if_neg hname]
  cases hsingle : l.single with
  | false =>
    rw [attach_array matching d hsingle]
    exact ⟨helse _, fun _ => hset _, by simp [hsingle], by simp [hsingle]⟩
  | true =>
    rw [attach_single matching d hsingle]
    cases hfound : l.found matching d with
    | nil => exact ⟨fun _ _ => rfl, by simp [hsingle], by simp, fun _ _ => rfl⟩
    | cons m rest =>
      refine ⟨helse _, by simp [hsingle], fun _ m' rest' hm => ?_, by simp⟩
      rw [List.cons.injEq] at hm
      rw [← hm.1]
      exact hset _

end Lookup

end FeedQuery
