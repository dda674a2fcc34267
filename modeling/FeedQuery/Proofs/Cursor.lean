import FeedQuery.Proofs.Decimal
import FeedQuery.Proofs.Join
import FeedQuery.Proofs.Order

/-!
# Cursors and the order they go on in

`CursorPlan.place?` is where a document lies in the order of a plan. Of documents that have a place, the bound of a
cursor accepts those that come strictly after the document that the cursor was made of (`CursorPlan.accepts_bound_iff`),
and what a page says about its last document is read back as the place of that document, if the value is written as a
text that reads back (`CursorPlan.read_next?`).
-/

namespace FeedQuery

theorem Scalar.compare?_swap (a b : Scalar) : b.compare? a = (a.compare? b).map Ordering.swap := by
  have hswap (α : Type) [Ord α] [Std.OrientedOrd α] (x y : α) :
      some (compare y x) = (some (compare x y)).map Ordering.swap :=
    congrArg some Std.OrientedOrd.eq_swap
  cases a <;> cases b <;> try rfl
  · exact hswap Nat _ _
  · exact hswap String _ _
  · next x y =>
    simp only [Scalar.compare?, Double.compare?]
    cases x.key? <;> cases y.key? <;> first | rfl | exact hswap Int _ _
  · exact hswap Bool _ _
  · exact hswap Int _ _

/-- A scalar is of the kind that it was decoded under. -/
theorem ValueKind.kind?_of_decode {kind : ValueKind} {value : Json} {s : Scalar} (h : kind.decode value = some s) :
    s.kind? = some kind := by
  cases kind <;> obtain ⟨_, -, rfl⟩ := Option.map_eq_some_iff.1 h <;> rfl

section Decoded

variable {kind : ValueKind} {value other : Json} {s t : Scalar} (hs : kind.decode value = some s)
  (ht : kind.decode other = some t)
include hs ht

/-- A value lies towards a scalar of its kind as the scalar that it is decoded to. -/
theorem ValueKind.orderOf_eq : s.orderOf other = t.compare? s := by
  rw [Scalar.orderOf, kind?_of_decode hs, Option.bind_some, ht, Option.bind_some]

/-- A value that is decoded is no list, so that a field with the value holds a scalar of its kind where the value is
equal to it. -/
theorem ValueKind.holdsAt_eq : s.holdsAt (some other) = (s.orderOf other == some .eq) := by
  refine Scalar.holdsAt_single ?_ ?_
  · rintro rfl
    cases kind?_of_decode hs
  · rintro items rfl
    cases kind <;> cases ht

end Decoded

/-- A key of identifiers reads the identifier that a field spells. -/
theorem SortKey.read_id {path : Path} {direction : Direction} {d : Document} {u : Uuid}
    (h : (d.get? path).bind Json.id? = some u) :
    SortKey.read ⟨path, direction, .id⟩ d = some (.id u) := by
  obtain ⟨value, hv, hu⟩ := Option.bind_eq_some_iff.1 h
  have hdecode : ValueKind.id.decode value = some (.id u) := congrArg (Option.map Scalar.id) hu
  rw [SortKey.read, hv]
  exact hdecode

/-! ## Orders that look at identifiers -/

/-- Documents that an order does not tell apart spell one identifier wherever it looks at identifiers. -/
theorem eq_of_compareDocuments_eq {keys : List SortKey} {path : Path} {direction : Direction}
    (hkey : ⟨path, direction, .id⟩ ∈ keys) {a b : Document} {u v : Uuid} (ha : (a.get? path).bind Json.id? = some u)
    (hb : (b.get? path).bind Json.id? = some v) (h : compareDocuments keys a b = .eq) : u = v := by
  have hcompare := compareDocuments_eq_eq.1 h _ hkey
  rw [SortKey.compare, SortKey.read_id ha, SortKey.read_id hb] at hcompare
  have horder : compare u v = .eq := by
    cases direction <;> simpa [Direction.apply, SortKey.order, Scalar.compare?] using hcompare
  exact Uuid.compare_eq_eq.1 horder

namespace Identified

variable {docs : List Document} {keys : List SortKey} {direction : Direction} (h : Identified docs)
  (hkey : ⟨.id, direction, .id⟩ ∈ keys)
include h hkey

theorem id?_eq_of_compareDocuments_eq {a b : Document} (ha : a ∈ docs) (hb : b ∈ docs)
    (hab : compareDocuments keys a b = .eq) :
    a.id? = b.id? := by
  obtain ⟨u, hu⟩ := h.exists_id? ha
  obtain ⟨v, hv⟩ := h.exists_id? hb
  rw [hu, hv, eq_of_compareDocuments_eq hkey ((Document.id?_eq a).symm.trans hu)
    ((Document.id?_eq b).symm.trans hv) hab]

/-- Documents with distinct identifiers are told apart. -/
theorem pairwise_ne : docs.Pairwise fun a b => compareDocuments keys a b ≠ .eq :=
  h.distinct.imp_of_mem fun ha hb hab he => hab (h.id?_eq_of_compareDocuments_eq hkey ha hb he)

theorem separates : Separates keys docs :=
  fun _ ha _ hb hab => h.eq_of_id? ha hb (h.id?_eq_of_compareDocuments_eq hkey ha hb hab)

end Identified

namespace CursorPlan

/-- Of documents that the key reads, those are accepted that come strictly after the document with the value. -/
theorem accepts_after_iff {key : SortKey} {last d : Document} {value : Scalar} (hl : key.read last = some value)
    (hd : (key.read d).isSome = true) :
    (after key.direction key.path value).accepts d = true ↔ key.compare last d = .lt := by
  obtain ⟨stored, hstored⟩ := Option.isSome_iff_exists.1 hd
  obtain ⟨json, hjson, hdecode⟩ := Option.bind_eq_some_iff.1 hstored
  obtain ⟨_, -, hvalue⟩ := Option.bind_eq_some_iff.1 hl
  have horder : (d.get? key.path).bind value.orderOf = (value.compare? stored).map Ordering.swap := by
    rw [hjson, ← Scalar.compare?_swap]
    exact ValueKind.orderOf_eq hvalue hdecode
  rw [SortKey.compare, hl, hstored]
  cases hdir : key.direction <;> cases hc : value.compare? stored with
  | none => simp [after, Predicate.accepts, horder, hc, SortKey.order, Direction.apply]
  | some o => cases o <;> simp [after, Predicate.accepts, horder, hc, SortKey.order, Direction.apply, Comparison.admits]

/-- Of documents with a number under a key, those are accepted as equal that the key does not tell apart. -/
theorem accepts_eq_iff {key : SortKey} (hk : key.kind = .number) {last d : Document} {x y : Double}
    (hl : (last.get? key.path).bind Json.double? = some x) (hd : (d.get? key.path).bind Json.double? = some y) :
    (Predicate.eq key.path (.number x)).accepts d = true ↔ key.compare last d = .eq := by
  obtain ⟨jx, hjx, hx⟩ := Option.bind_eq_some_iff.1 hl
  obtain ⟨jy, hjy, hy⟩ := Option.bind_eq_some_iff.1 hd
  have hxkey := Double.key?_of_isFinite (Json.isFinite_of_double? hx)
  have hykey := Double.key?_of_isFinite (Json.isFinite_of_double? hy)
  have hxdecode : ValueKind.number.decode jx = some (.number x) := congrArg (Option.map Scalar.number) hx
  have hydecode : ValueKind.number.decode jy = some (.number y) := congrArg (Option.map Scalar.number) hy
  have horder : (Scalar.number x).orderOf jy = ((Scalar.number x).compare? (.number y)).map Ordering.swap := by
    rw [← Scalar.compare?_swap]
    exact ValueKind.orderOf_eq hxdecode hydecode
  have hholds := ValueKind.holdsAt_eq hxdecode hydecode
  have hread : ∀ {e : Document} {j : Json} {v : Double}, e.get? key.path = some j → j.double? = some v →
      key.read e = some (.number v) := by
    intro e j v he hv
    simp [SortKey.read, he, hk, ValueKind.decode, hv]
  rw [Predicate.accepts_eq, hjy, hholds, horder, SortKey.compare, hread hjx hx, hread hjy hy]
  simp only [Scalar.compare?, Double.compare?, hxkey, hykey, SortKey.order, Option.map_some,
    Option.getD_some, beq_iff_eq, Option.some.injEq, Ordering.swap_eq_eq]
  cases key.direction <;> simp [Direction.apply]

/-- Where a document lies in the order: the identifier at the position and, where there is a key, the number under
it. -/
def place? (p : CursorPlan) (d : Document) : Option Cursor :=
  ((d.get? p.position).bind Json.id?).bind fun id => match p.key with
    | none => some ⟨id, none⟩
    | some key => ((d.get? key.path).bind Json.double?).map fun value => ⟨id, some value⟩

/-- The key, if there is one, is a number. -/
def IsNumeric (p : CursorPlan) : Prop := ∀ key ∈ p.key, key.kind = .number

/-- The documents agree on the position and on the key. -/
structure Alike (p : CursorPlan) (d e : Document) : Prop where
  position : e.get? p.position = d.get? p.position
  key : ∀ key ∈ p.key, e.get? key.path = d.get? key.path

section Places

variable {p : CursorPlan} {last d : Document} {c : Cursor}

/-- A place is an identifier, and a number under the key. -/
theorem place?_eq_some : p.place? d = some c ↔ (d.get? p.position).bind Json.id? = some c.lastId ∧
    match p.key with
    | none => c.lastValue = none
    | some key => ∃ value, (d.get? key.path).bind Json.double? = some value ∧ c.lastValue = some value := by
  obtain ⟨id, value⟩ := c
  unfold place?
  cases (d.get? p.position).bind Json.id? with
  | none => simp
  | some id' =>
    cases p.key with
    | none => simp [eq_comm]
    | some key =>
      simp only [Option.bind_some, Option.map_eq_some_iff, Option.some.injEq, Cursor.mk.injEq]
      grind

/-- Documents that agree on the position and the key lie at the same place. -/
theorem Alike.place? {e : Document} (h : p.Alike d e) : p.place? e = p.place? d := by
  unfold CursorPlan.place?
  rw [h.position]
  cases hkey : p.key with
  | none => rfl
  | some key => simp only [h.key key hkey]

/-- Documents that agree on the position and the key have the same order relative to others. -/
theorem Alike.compare {a b : Document} (h : p.Alike d a) (h' : p.Alike last b) :
    compareDocuments p.sortKeys a b = compareDocuments p.sortKeys d last := by
  have hkeys : ∀ key ∈ p.sortKeys, a.get? key.path = d.get? key.path ∧ b.get? key.path = last.get? key.path := by
    intro key hk
    rcases List.mem_append.1 hk with hk | hk
    · exact ⟨h.key key (Option.mem_toList.1 hk), h'.key key (Option.mem_toList.1 hk)⟩
    · obtain rfl := List.mem_singleton.1 hk
      exact ⟨h.position, h'.position⟩
  generalize p.sortKeys = keys at hkeys
  induction keys with
  | nil => rfl
  | cons key rest ih =>
    obtain ⟨ha, hb⟩ := hkeys key List.mem_cons_self
    rw [compareDocuments, compareDocuments, ih fun key hk => hkeys key (List.mem_cons_of_mem _ hk)]
    simp [SortKey.compare, SortKey.read, ha, hb]

/-- The number of a place is finite. -/
theorem isFinite_lastValue (h : p.place? d = some c) {value : Double} (hv : c.lastValue = some value) :
    value.isFinite = true := by
  have hkey := (place?_eq_some.1 h).2
  cases hk : p.key with
  | none => simp [hk, hv] at hkey
  | some key =>
    rw [hk] at hkey
    obtain ⟨x, hx, hc⟩ := hkey
    obtain ⟨_, -, hd⟩ := Option.bind_eq_some_iff.1 hx
    obtain rfl : x = value := Option.some.inj (hc.symm.trans hv)
    exact Json.isFinite_of_double? hd

/-- Of documents that have a place, the bound of a cursor accepts those strictly after its place. -/
theorem accepts_bound_iff (hn : p.IsNumeric) (hl : p.place? last = some c) (hd : (p.place? d).isSome = true) :
    (p.bound (some c)).accepts d = true ↔ compareDocuments p.sortKeys last d = .lt := by
  obtain ⟨c', hd⟩ := Option.isSome_iff_exists.1 hd
  obtain ⟨hlid, hlkey⟩ := place?_eq_some.1 hl
  obtain ⟨hdid, hdkey⟩ := place?_eq_some.1 hd
  have hlast : SortKey.read ⟨p.position, p.direction, .id⟩ last = some (.id c.lastId) := SortKey.read_id hlid
  have hid := accepts_after_iff hlast (Option.isSome_iff_exists.2 ⟨_, SortKey.read_id hdid⟩)
  have hend (key : SortKey) : compareDocuments [key] last d = key.compare last d := by
    unfold compareDocuments
    cases key.compare last d <;> rfl
  unfold bound boundAt sortKeys
  cases hkey : p.key with
  | none => rw [Option.toList_none, List.nil_append, hend, ← hid]
  | some key =>
    rw [hkey] at hlkey hdkey
    obtain ⟨x, hx, hcx⟩ := hlkey
    obtain ⟨y, hy, -⟩ := hdkey
    have hnumber := hn key hkey
    have hread {e : Document} {v : Double} (h : (e.get? key.path).bind Json.double? = some v) :
        key.read e = some (.number v) := by
      obtain ⟨j, hj, hv⟩ := Option.bind_eq_some_iff.1 h
      simp [SortKey.read, hj, hnumber, ValueKind.decode, hv]
    have hfirst := accepts_after_iff (hread hx) (Option.isSome_iff_exists.2 ⟨_, hread hy⟩)
    have htie := accepts_eq_iff hnumber hx hy
    dsimp only
    rw [hcx, Option.toList_some, List.singleton_append, compareDocuments, hend, Ordering.then_eq_lt, ← hfirst,
      ← htie, ← hid]
    simp only [Predicate.accepts_any, Predicate.accepts_all, List.any_cons, List.any_nil, List.all_cons, List.all_nil,
      Bool.or_false, Bool.and_true, Bool.or_eq_true, Bool.and_eq_true]

/-- The bound reads the position and the key alone. -/
theorem Alike.accepts_bound {e : Document} (hpe : p.Alike d e) (place : Option Cursor) :
    (p.bound place).accepts e = (p.bound place).accepts d := by
  have hafter (direction : Direction) (path : Path) (value : Scalar) (h : e.get? path = d.get? path) :
      (after direction path value).accepts e = (after direction path value).accepts d := by
    cases direction <;> simp [after, Predicate.accepts, h]
  cases place with
  | none => simp [bound]
  | some c =>
    obtain ⟨id, value⟩ := c
    unfold bound boundAt
    cases hkey : p.key with
    | none => exact hafter _ _ _ hpe.position
    | some key =>
      have hpath := hpe.key key hkey
      cases value with
      | none => exact hafter _ _ _ hpe.position
      | some value => simp [hafter _ _ _ hpe.position, hafter _ _ _ hpath, hpath]

end Places

/-- Documents with distinct identifiers are told apart by their identifiers. -/
theorem distinct_byId {docs : List Document} (hdocs : Identified docs) :
    docs.Pairwise fun a b => compareDocuments [.idDescending] a b ≠ .eq :=
  hdocs.pairwise_ne (List.mem_singleton_self _)

end CursorPlan

/-! ## What a client passes back -/

/-- The text that a client passes back for the value of a page: nothing where there is none, else a text that reads back
as it. -/
inductive Cursor.Writes : Option Double → Option String → Prop where
  | nothing : Writes none none
  | number {value : Double} {raw : String} : Double.ofText? (Text.trim raw) = some value →
    Writes (some value) (some raw)

/-- For every finite value there is a text that reads back as it. -/
theorem Cursor.exists_writes {value : Option Double} (h : ∀ v, value = some v → v.isFinite = true) :
    ∃ text, Cursor.Writes value text := by
  cases value with
  | none => exact ⟨none, .nothing⟩
  | some v => exact ⟨some v.exactText, .number (Double.ofText?_exactText (h v rfl))⟩

theorem Cursor.given?_of_ne {raw : String} (h : Text.trim raw ≠ "") : given? (some raw) = some (Text.trim raw) := by
  simp [given?, Option.filter, h]

namespace CursorPlan

/-- What a page says about its last document is read back as the place of that document. -/
theorem read_next? {p : CursorPlan} {last : Document} {c : Cursor} (h : p.place? last = some c) :
    ∃ next, p.next? (some last) = some next ∧
      ∀ raw, Cursor.Writes next.value raw → Cursor.read (some next.cursor) raw = .ok (some c) := by
  obtain ⟨hid, hkey⟩ := place?_eq_some.1 h
  obtain ⟨j, hj, hu⟩ := Option.bind_eq_some_iff.1 hid
  obtain ⟨text, htext, hread⟩ := Option.bind_eq_some_iff.1 hu
  have hvalue : (p.key.bind fun key => last.get? key.path).bind Json.double? = c.lastValue := by
    cases hk : p.key with
    | none =>
      rw [hk] at hkey
      exact hkey.symm
    | some key =>
      rw [hk] at hkey
      obtain ⟨value, hv, hc⟩ := hkey
      exact hv.trans hc.symm
  refine ⟨⟨text, c.lastValue⟩, by simp [next?, hj, htext, hvalue], ?_⟩
  intro raw hraw
  have hempty : Uuid.ofText? "" = none := by decide
  have hgiven : Cursor.given? (some text) = some text := by
    have htrim := Uuid.trim_eq_self hread
    have hne : Text.trim text ≠ "" := by
      rw [htrim]
      rintro rfl
      simp [hempty] at hread
    rw [Cursor.given?_of_ne hne, htrim]
  obtain ⟨id, lastValue⟩ := c
  dsimp only at hraw hread hvalue
  have hnone : Cursor.given? none = none := rfl
  cases hraw with
  | nothing => simp only [Cursor.read, hgiven, hread, hnone]
  | @number value raw hv =>
    have hne : Text.trim raw ≠ "" := by
      intro he
      have : Double.ofText? "" = none := by decide
      simp [he, this] at hv
    have hfinite : value.isFinite = true := isFinite_lastValue h rfl
    simp [Cursor.read, hgiven, hread, Cursor.given?_of_ne hne, Cursor.readValue, hv, hfinite, Except.map]

end CursorPlan

end FeedQuery
