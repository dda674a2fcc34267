import FeedQuery.Proofs.Paging

/-!
# Strictly after a document

The order of a plan compares what it decodes from two documents, and the bound of a cursor is a predicate on one of
them; a page hands the cursor out as texts in between. The two are one (`cursor_bound_exact`): made of a document,
written, and read back, a cursor accepts exactly the documents that the order puts strictly behind that document. Under
another field the bound means the same, as long as that field spells the identifier of the document
(`CursorPlan.accepts_boundAt`).
-/

namespace FeedQuery

namespace CursorPlan

/-- What comes after an identifier depends on the identifier that a field spells, in whatever way, and not on the
field. -/
theorem accepts_after_id {direction : Direction} {position other : Path} {d : Document} (u : Uuid)
    (h : (d.get? position).bind Json.id? = (d.get? other).bind Json.id?) :
    (after direction position (.id u)).accepts d = (after direction other (.id u)).accepts d := by
  cases direction <;> simp only [after, Predicate.accepts_order_id, h]

/-- A bound may be read from any field that spells the identifier at the position. -/
theorem accepts_boundAt {p : CursorPlan} {position : Path} {d : Document}
    (h : (d.get? position).bind Json.id? = (d.get? p.position).bind Json.id?) (c : Cursor) :
    (p.boundAt position c).accepts d = (p.bound (some c)).accepts d := by
  obtain ⟨u, value?⟩ := c
  have hid : (after p.direction position (.id u)).accepts d = (after p.direction p.position (.id u)).accepts d :=
    accepts_after_id u h
  unfold bound boundAt
  cases p.key with
  | none => exact hid
  | some key =>
    cases value? with
    | none => exact hid
    | some value => simp [hid]

/-- A document that spells an identifier at the position, and has a number under the key, has a place in the order. -/
theorem exists_place? {p : CursorPlan} {d : Document} {u : Uuid} (hid : (d.get? p.position).bind Json.id? = some u)
    (hkey : ∀ key ∈ p.key, ∃ n, d.get? key.path = some (.number n)) : ∃ c, p.place? d = some c := by
  cases hk : p.key with
  | none => exact ⟨⟨u, none⟩, place?_eq_some.2 ⟨hid, by rw [hk]⟩⟩
  | some key =>
    obtain ⟨n, hn⟩ := hkey key hk
    refine ⟨⟨u, some n.toDouble⟩, place?_eq_some.2 ⟨hid, ?_⟩⟩
    rw [hk]
    exact ⟨n.toDouble, by rw [hn]; rfl, rfl⟩

end CursorPlan

/-- For every plan, by identifier alone or by a number before it, in any direction and at any position, and any two
documents that each spell an identifier at the position and have a number under the key, if there is one:

1. the page that ends with the first document names a cursor, whose value can be written as a text that reads back as
   it;
2. however it is so written, the two texts are read as a cursor, and its bound accepts the second document exactly if
   the order puts the second strictly behind the first;
3. read from any other field that spells the identifier of the second document, the bound accepts it just the same. -/
theorem cursor_bound_exact (p : CursorPlan) (hnumeric : p.IsNumeric) {last d : Document} {u v : Uuid}
    (hlast : (last.get? p.position).bind Json.id? = some u) (hd : (d.get? p.position).bind Json.id? = some v)
    (hlastkey : ∀ key ∈ p.key, ∃ n, last.get? key.path = some (.number n))
    (hdkey : ∀ key ∈ p.key, ∃ n, d.get? key.path = some (.number n)) :
    ∃ next, p.next? (some last) = some next ∧ (∃ text, Cursor.Writes next.value text) ∧
      ∀ text, Cursor.Writes next.value text → ∃ c, Cursor.read (some next.cursor) text = .ok (some c) ∧
        ((p.bound (some c)).accepts d = true ↔ compareDocuments p.sortKeys last d = .lt) ∧
        ∀ position, (d.get? position).bind Json.id? = some v →
          (p.boundAt position c).accepts d = (p.bound (some c)).accepts d := by
  obtain ⟨c, hc⟩ := CursorPlan.exists_place? hlast hlastkey
  obtain ⟨next, hnext, hread⟩ := CursorPlan.read_next? hc
  refine ⟨next, hnext, ?_, ?_⟩
  · have hpage := FeedPage.exists_writes [last] p none
    rwa [FeedPage.assemble, List.getLast?_singleton, hnext] at hpage
  · intro text htext
    refine ⟨c, hread text htext, ?_, ?_⟩
    · exact CursorPlan.accepts_bound_iff hnumeric hc (Option.isSome_iff_exists.2 (CursorPlan.exists_place? hd hdkey))
    · intro position hposition
      exact CursorPlan.accepts_boundAt (hposition.trans hd.symm) c

namespace Sample

/-- A document with a number of likes, whose identifier is spelled as a name in upper case. -/
def named : Document := ⟨[("_id", .string "URN:UUID:00000000-0000-0000-0000-00000000000B"), ("likes", .ofNat 3)]⟩

/-- A document with as many likes, as a decimal, and its identifier also under another field, in digits alone. -/
def referenced : Document :=
  ⟨[("_id", .string "00000000-0000-0000-0000-00000000000a"), ("likes", .ofDouble ⟨false, 0x4008000000000000⟩),
  ("entity", .string "0000000000000000000000000000000A")]⟩

/-- Most likes first. -/
def byLikes : CursorPlan := .keyed ⟨.field "likes", .descending, .number⟩

end Sample

/-- The theorem at two documents that tie on the key: the one with the smaller identifier comes after the other, and the
bound accepts it under either field. -/
theorem cursor_bound_exact_sample : compareDocuments Sample.byLikes.sortKeys Sample.named Sample.referenced = .lt ∧
    ∃ next, Sample.byLikes.next? (some Sample.named) = some next ∧ ∃ text, Cursor.Writes next.value text ∧
      ∃ c, Cursor.read (some next.cursor) text = .ok (some c) ∧
        (Sample.byLikes.bound (some c)).accepts Sample.referenced = true ∧
        (Sample.byLikes.boundAt (.field "entity") c).accepts Sample.referenced = true := by
  have horder : compareDocuments Sample.byLikes.sortKeys Sample.named Sample.referenced = .lt := by decide +kernel
  have hnumeric : Sample.byLikes.IsNumeric := by
    intro key hkey
    obtain rfl := Option.some.inj hkey
    rfl
  have hlikes {d : Document} {n : Number} (h : d.get? (.field "likes") = some (.number n)) :
      ∀ key ∈ Sample.byLikes.key, ∃ n, d.get? key.path = some (.number n) := by
    intro key hkey
    obtain rfl := Option.some.inj hkey
    exact ⟨n, h⟩
  have hspelled : (Sample.referenced.get? .id).bind Json.id? = some (Sample.uuid 10) := by decide
  have hentity : (Sample.referenced.get? (.field "entity")).bind Json.id? = some (Sample.uuid 10) := by decide
  have hnamed : (Sample.named.get? .id).bind Json.id? = some (Sample.uuid 11) := by decide
  obtain ⟨next, hnext, ⟨text, htext⟩, hread⟩ :=
    cursor_bound_exact Sample.byLikes hnumeric hnamed hspelled (hlikes rfl) (hlikes rfl)
  obtain ⟨c, hc, hbound, hat⟩ := hread text htext
  have haccepts := hbound.2 horder
  exact ⟨horder, next, hnext, text, htext, c, hc, haccepts, (hat _ hentity).trans haccepts⟩

end FeedQuery
