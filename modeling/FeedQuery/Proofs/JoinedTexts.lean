import FeedQuery.Proofs.NestedLoop

/-!
# Joins by other values than identifiers

A join knows a value by its text. A number and the text that it is written as have one text, and so have a truth value
and its name, but no other values do (`Scalar.keyText_eq_iff`), not even two numbers. Of the values with one text that
all documents of a join hold, the first is looked up and stands for all. So a document finds who holds a value with one
of its texts, if that other document is found by what is looked up (`join_by_text`); it may be attached a document that
holds no value equal to its own, and it may miss one that does (`joined_by_other_type`). Where no value shares its text
with another and there is no negative zero, equality decides alone.
-/

namespace FeedQuery

namespace Scalar

/-- The text by which a join knows a value. -/
def keyText : Scalar → String
  | .id value => value.toText
  | .text value => value
  | .number value => value.toText
  | .bool value => if value then "true" else "false"
  | .datetime value => value.toText
  | .null => ""

/-- The value is one that a field may be joined by. -/
def IsJoined : Scalar → Prop
  | .id _ => True
  | .text value => Uuid.ofText? value = none
  | .number value => value.isFinite = true
  | .bool _ => True
  | .datetime _ => False
  | .null => False

/-- Two values are the same, or one of them is a number or a truth value and the other is the text that it is written
as. -/
inductive SharesText : Scalar → Scalar → Prop
  | same (s : Scalar) : SharesText s s
  | number (value : Double) : SharesText (.number value) (.text value.toText)
  | text (value : Double) : SharesText (.text value.toText) (.number value)
  | bool (value : Bool) : SharesText (.bool value) (.text (if value then "true" else "false"))
  | name (value : Bool) : SharesText (.text (if value then "true" else "false")) (.bool value)

end Scalar

/-- There is no letter in the text of a number. -/
theorem Double.toText_ne_bool {d : Double} (h : d.isFinite = true) (value : Bool) :
    d.toText ≠ if value then "true" else "false" := by
  have hletter : 'e' ∉ d.toText.toList := by
    have hbody : 'e' ∉ d.body := fun hm => absurd (of_mem_body hm) (by decide)
    rw [toText_eq h, String.toList_ofList]
    split
    · simpa using hbody
    · exact hbody
  intro he
  rw [he] at hletter
  cases value <;> exact absurd hletter (by decide)

theorem Double.toText_ne_id {d : Double} (h : d.isFinite = true) (u : Uuid) : d.toText ≠ u.toText :=
  fun he => hyphen_not_mem_tail h (he ▸ u.hyphen_mem_tail)

theorem Uuid.toText_ne_bool (u : Uuid) (value : Bool) : u.toText ≠ if value then "true" else "false" := by
  intro he
  have := he ▸ u.hyphen_mem_tail
  cases value <;> exact absurd this (by decide)

theorem Uuid.ne_toText {raw : String} (h : ofText? raw = none) (u : Uuid) : raw ≠ u.toText := by
  rintro rfl
  rw [ofText?_toText] at h
  cases h

namespace Scalar

theorem SharesText.keyText_eq {s t : Scalar} (h : s.SharesText t) : s.keyText = t.keyText := by
  cases h <;> rfl

/-- Values that a field may be joined by have one text only where one of them is written as the other. -/
theorem keyText_eq_iff {s t : Scalar} (hs : s.IsJoined) (ht : t.IsJoined) : s.keyText = t.keyText ↔ s.SharesText t := by
  refine ⟨fun h => ?_, SharesText.keyText_eq⟩
  cases s with
  | id u =>
    cases t with
    | id v => rw [Uuid.toText_injective h]; exact .same _
    | text raw => exact absurd h.symm (Uuid.ne_toText ht u)
    | number d => exact absurd h.symm (Double.toText_ne_id ht u)
    | bool value => exact absurd h (u.toText_ne_bool value)
    | datetime => cases ht
    | null => cases ht
  | text raw =>
    cases t with
    | id v => exact absurd h (Uuid.ne_toText hs v)
    | text other => obtain rfl : raw = other := h; exact .same _
    | number d => obtain rfl : raw = d.toText := h; exact .text d
    | bool value => obtain rfl : raw = _ := h; exact .name value
    | datetime => cases ht
    | null => cases ht
  | number d =>
    cases t with
    | id v => exact absurd h (Double.toText_ne_id hs v)
    | text raw => obtain rfl : d.toText = raw := h; exact .number d
    | number e => rw [Double.toText_injective hs ht h]; exact .same _
    | bool value => exact absurd h (Double.toText_ne_bool hs value)
    | datetime => cases ht
    | null => cases ht
  | bool value =>
    cases t with
    | id v => exact absurd h.symm (v.toText_ne_bool value)
    | text raw => obtain rfl : _ = raw := h; exact .bool value
    | number d => exact absurd h.symm (Double.toText_ne_bool ht value)
    | bool other =>
      have hsame : value = other := by
        revert h
        cases value <;> cases other <;> simp [keyText]
      rw [hsame]
      exact .same _
    | datetime => cases ht
    | null => cases ht
  | datetime => cases hs
  | null => cases hs

end Scalar

/-! ## The values of a field -/

/-- What a value is joined as: the identifier that it spells, or else the text, number or truth value that it is. -/
def Json.joinValue? : Json → Option Scalar
  | .string raw => some (match Uuid.ofText? raw with
    | some id => .id id
    | none => .text raw)
  | .number value => some (.number value.toDouble)
  | .bool value => some (.bool value)
  | _ => none

/-- The values that a field is joined by, in order. -/
def Document.joinValues (p : Path) (d : Document) : List Scalar := (Lookup.valuesAt p d).filterMap Json.joinValue?

theorem Json.isJoined_of_joinValue? {value : Json} {s : Scalar} (h : value.joinValue? = some s) : s.IsJoined := by
  cases value with
  | string raw =>
    obtain rfl := Option.some.inj h
    split
    · trivial
    · assumption
  | number n => obtain rfl := Option.some.inj h; exact n.toDouble_isFinite
  | bool b => obtain rfl := Option.some.inj h; trivial
  | null => cases h
  | array items => cases h
  | object fields => cases h

theorem Document.isJoined_of_mem {p : Path} {d : Document} {s : Scalar} (h : s ∈ d.joinValues p) : s.IsJoined := by
  obtain ⟨value, -, hs⟩ := List.mem_filterMap.1 h
  exact Json.isJoined_of_joinValue? hs

/-- A stored value is equal to a value that fields are joined by where what it is joined as is. -/
theorem Scalar.orderOf_eq_iff {s : Scalar} (hs : s.IsJoined) {value : Json} {t : Scalar}
    (ht : value.joinValue? = some t) :
    s.orderOf value = some .eq ↔ t.compare? s = some .eq := by
  cases value with
  | string raw =>
    obtain rfl := Option.some.inj ht
    cases hraw : Uuid.ofText? raw with
    | none =>
      cases s with
      | id u =>
        rw [orderOf_id, Json.id?, Json.string?, Option.bind_some, hraw]
        exact Iff.rfl
      | text | number | bool => exact Iff.rfl
      | datetime | null => cases hs
    | some u =>
      cases s with
      | id v =>
        rw [orderOf_id, Json.id?, Json.string?, Option.bind_some, hraw]
        exact Iff.rfl
      | text other =>
        -- the stored text spells an identifier, which the other text does not
        have hne : raw ≠ other := by
          rintro rfl
          rw [show Uuid.ofText? raw = none from hs] at hraw
          cases hraw
        refine ⟨fun h => absurd (Std.LawfulEqCmp.eq_of_compare (Option.some.inj h)) hne, fun h => ?_⟩
        cases h
      | number | bool => exact Iff.rfl
      | datetime | null => cases hs
  | number n =>
    obtain rfl := Option.some.inj ht
    cases s with
    | id | text | number | bool => exact Iff.rfl
    | datetime | null => cases hs
  | bool b =>
    obtain rfl := Option.some.inj ht
    cases s with
    | id | text | number | bool => exact Iff.rfl
    | datetime | null => cases hs
  | null | array | object => cases ht

/-- A stored value that is not joined is equal to none that is. -/
theorem Scalar.orderOf_of_joinValue? {s : Scalar} (hs : s.IsJoined) {value : Json} (ht : value.joinValue? = none) :
    s.orderOf value = none := by
  cases value with
  | string | number | bool => cases ht
  | null | array | object =>
    cases s with
    | id | text | number | bool => rfl
    | datetime | null => cases hs

theorem Scalar.IsJoined.ne_null {s : Scalar} (hs : s.IsJoined) : s ≠ .null := by
  rintro rfl
  exact hs

/-- A field holds a value where one of its values is equal to it. -/
theorem Scalar.holdsAt_iff {s : Scalar} (hs : s.IsJoined) {p : Path} {d : Document} :
    s.holdsAt (d.get? p) = true ↔ ∃ t ∈ d.joinValues p, t.compare? s = some .eq := by
  rw [holdsAt_iff_valuesAt hs.ne_null, Document.joinValues]
  simp only [List.mem_filterMap]
  constructor
  · rintro ⟨value, hv, heq⟩
    cases ht : value.joinValue? with
    | none => rw [orderOf_of_joinValue? hs ht] at heq; cases heq
    | some t => exact ⟨t, ⟨value, hv, ht⟩, (orderOf_eq_iff hs ht).1 heq⟩
  · rintro ⟨t, ⟨value, hv, ht⟩, heq⟩
    exact ⟨value, hv, (orderOf_eq_iff hs ht).2 heq⟩

theorem Scalar.compare?_self {s : Scalar} (hs : s.IsJoined) : s.compare? s = some .eq := by
  cases s with
  | number d => simp [compare?, Double.compare?, Double.key?_of_isFinite hs]
  | datetime => cases hs
  | null => cases hs
  | id u => exact congrArg some (Uuid.compare_eq_eq.2 rfl)
  | text raw => simp [compare?]
  | bool value => cases value <;> rfl

/-- Equal numbers are the same, but for the two zeros. -/
theorem Double.eq_of_compare? {a b : Double} (ha : a.isFinite = true) (hb : b.isFinite = true) (ha0 : a ≠ ⟨true, 0⟩)
    (hb0 : b ≠ ⟨true, 0⟩) (h : b.compare? a = some .eq) : a = b := by
  obtain ⟨sign, magnitude⟩ := a
  obtain ⟨sign', magnitude'⟩ := b
  rw [compare?, key?_of_isFinite ha, key?_of_isFinite hb] at h
  have hkeys := Int.compare_eq_eq.1 (Option.some.inj h)
  have hzero : ∀ m : Nat, ¬ (⟨true, m⟩ : Double) = ⟨true, 0⟩ → m ≠ 0 := fun m hne hm => hne (hm ▸ rfl)
  cases sign <;> cases sign' <;> simp only [Bool.false_eq_true, if_true, if_false] at hkeys
  · rw [show magnitude = magnitude' by omega]
  · have := hzero _ hb0
    omega
  · have := hzero _ ha0
    omega
  · rw [show magnitude = magnitude' by omega]

/-- Equal values are the same, but for the two zeros. -/
theorem Scalar.eq_of_compare? {s t : Scalar} (hs : s.IsJoined) (ht : t.IsJoined) (hs0 : s ≠ .number ⟨true, 0⟩)
    (ht0 : t ≠ .number ⟨true, 0⟩) (h : t.compare? s = some .eq) : s = t := by
  cases s <;> cases t <;> simp only [compare?, Option.some.injEq, reduceCtorEq] at h
  · rw [Uuid.compare_eq_eq.1 h]
  · rw [Std.LawfulEqCmp.eq_of_compare h]
  · next a b => rw [Double.eq_of_compare? hs ht (fun he => hs0 (he ▸ rfl)) (fun he => ht0 (he ▸ rfl)) h]
  · rw [Std.LawfulEqCmp.eq_of_compare h]
  · cases hs
  · cases hs

/-! ## What is looked up -/

namespace Lookup

/-- The key of a value. -/
def keyOf (s : Scalar) : Key := ⟨s.keyText, s⟩

theorem key?_eq (value : Json) : key? value = value.joinValue?.map keyOf := by
  cases value with
  | string raw =>
    simp only [key?, Json.joinValue?]
    cases Uuid.ofText? raw <;> rfl
  | _ => rfl

theorem keysAt_eq (p : Path) (d : Document) : keysAt p d = (d.joinValues p).map keyOf := by
  rw [keysAt, Document.joinValues, List.map_filterMap]
  exact List.filterMap_congr fun value _ => key?_eq value

variable (l : Lookup) (docs : List Document)

/-- A value is looked up for documents: they hold it, and no value before it that shares its text. -/
def LooksUp (a : Scalar) : Prop :=
  ∃ before after, docs.flatMap (Document.joinValues l.localPath) = before ++ a :: after ∧ ∀ b ∈ before, ¬ b.SharesText a

variable {l docs}

theorem LooksUp.exists_mem {a : Scalar} (h : l.LooksUp docs a) : ∃ d ∈ docs, a ∈ d.joinValues l.localPath := by
  obtain ⟨before, after, hvalues, -⟩ := h
  refine List.mem_flatMap.1 ?_
  rw [hvalues]
  exact List.mem_append_right before List.mem_cons_self

theorem LooksUp.isJoined {a : Scalar} (h : l.LooksUp docs a) : a.IsJoined := by
  obtain ⟨d, -, ha⟩ := h.exists_mem
  exact Document.isJoined_of_mem ha

/-- A value is looked up where it is the first of those with its text. -/
theorem looksUp_iff {a : Scalar} : l.LooksUp docs a ↔
    ((docs.flatMap (Document.joinValues l.localPath)).find? fun s => s.keyText == a.keyText) = some a := by
  have hjoined : ∀ s ∈ docs.flatMap (Document.joinValues l.localPath), s.IsJoined := by
    intro s hs
    obtain ⟨d, -, hd⟩ := List.mem_flatMap.1 hs
    exact Document.isJoined_of_mem hd
  rw [List.find?_eq_some_iff_append, LooksUp]
  generalize docs.flatMap (Document.joinValues l.localPath) = values at hjoined
  simp only [beq_self_eq_true, true_and]
  refine exists_congr fun before => exists_congr fun after => and_congr_right fun hvalues =>
    forall₂_congr fun b hb => ?_
  rw [hvalues] at hjoined
  have hshare :=
    Scalar.keyText_eq_iff (hjoined b (List.mem_append_left _ hb))
      (hjoined a (List.mem_append_right _ List.mem_cons_self))
  simp [← hshare]

/-- The keys of a join are those of the values that are looked up. -/
theorem mem_keysOf_iff {k : Key} : k ∈ l.keysOf docs ↔ ∃ a, l.LooksUp docs a ∧ keyOf a = k := by
  have hkeys : docs.flatMap (keysAt l.localPath) = (docs.flatMap (Document.joinValues l.localPath)).map keyOf := by
    rw [List.map_flatMap]
    exact List.flatMap_congr fun d _ => keysAt_eq _ d
  rw [keysOf, mem_distinct_iff, hkeys, List.find?_map, Option.map_eq_some_iff]
  constructor
  · rintro ⟨-, a, ha, rfl⟩
    exact ⟨a, looksUp_iff.2 ha, rfl⟩
  · rintro ⟨a, ha, rfl⟩
    exact ⟨List.not_mem_nil, a, looksUp_iff.1 ha, rfl⟩

/-- For every value that documents hold one that shares its text is looked up. -/
theorem exists_looksUp {d : Document} (hd : d ∈ docs) {s : Scalar} (hs : s ∈ d.joinValues l.localPath) :
    ∃ a, l.LooksUp docs a ∧ a.SharesText s := by
  have hmem : s ∈ docs.flatMap (Document.joinValues l.localPath) := List.mem_flatMap.2 ⟨d, hd, hs⟩
  obtain ⟨a, ha⟩ := Option.isSome_iff_exists.1
    (List.find?_isSome (p := fun t : Scalar => t.keyText == s.keyText).2 ⟨s, hmem, beq_self_eq_true _⟩)
  have htext : a.keyText = s.keyText := eq_of_beq (List.find?_some (p := fun t : Scalar => t.keyText == s.keyText) ha)
  have hlooks : l.LooksUp docs a := looksUp_iff.2 (htext ▸ ha)
  exact ⟨a, hlooks, (Scalar.keyText_eq_iff hlooks.isJoined (Document.isJoined_of_mem hs)).1 htext⟩

/-- For a text one value is looked up. -/
theorem LooksUp.eq {a b : Scalar} (ha : l.LooksUp docs a) (hb : l.LooksUp docs b)
    (h : a.keyText = b.keyText) : a = b := by
  rw [looksUp_iff, h] at ha
  exact Option.some.inj (ha.symm.trans (looksUp_iff.1 hb))

/-! ## What is found -/

variable {store : Store} {d m : Document}

theorem mem_found_iff {matching : String → List Document} :
    m ∈ l.found matching d ↔ ∃ s ∈ d.joinValues l.localPath, m ∈ matching s.keyText := by
  rw [found, keysAt_eq, List.flatMap_map, List.mem_flatMap]
  rfl

theorem mem_candidates_iff {values : List Scalar} : m ∈ l.candidates store values ↔
    m ∈ store.docs l.collection ∧ l.filter.accepts m = true ∧
    ∃ a ∈ values, a.holdsAt (m.get? l.foreignPath) = true := by
  simp [candidates, mem_sortDocuments]

/-- Without a cap, what is found for a text holds a value with the text and is found by something that is looked up. -/
theorem mem_partners_iff (hcap : l.cap = none) {text : String} : m ∈ l.partners store docs text ↔
    m ∈ store.docs l.collection ∧ l.filter.accepts m = true ∧ (∃ t ∈ m.joinValues l.foreignPath, t.keyText = text) ∧
      ∃ a, l.LooksUp docs a ∧ a.holdsAt (m.get? l.foreignPath) = true := by
  have hkeys : (∃ k ∈ keysAt l.foreignPath m, k.text = text) ↔ ∃ t ∈ m.joinValues l.foreignPath, t.keyText = text := by
    simp [keysAt_eq, keyOf]
  have hlooked : (∃ a ∈ (l.keysOf docs).map Key.scalar, a.holdsAt (m.get? l.foreignPath) = true) ↔
      ∃ a, l.LooksUp docs a ∧ a.holdsAt (m.get? l.foreignPath) = true := by
    simp only [List.mem_map, mem_keysOf_iff]
    constructor
    · rintro ⟨_, ⟨_, ⟨a, ha, rfl⟩, rfl⟩, hold⟩
      exact ⟨a, ha, hold⟩
    · rintro ⟨a, ha, hold⟩
      exact ⟨a, ⟨keyOf a, ⟨a, ha, rfl⟩, rfl⟩, hold⟩
  rw [partners, hcap]
  dsimp only
  rw [mem_holding, mem_candidates_iff, hkeys, hlooked]
  tauto

/-- With a cap, what is found for a text are the first documents that hold the value that is looked up for it. -/
theorem mem_partners_cap_iff {cap : Nat} (hcap : l.cap = some cap) {text : String} : m ∈ l.partners store docs text ↔
    ∃ a, l.LooksUp docs a ∧ a.keyText = text ∧ m ∈ (l.candidates store [a]).take cap := by
  rw [partners, hcap]
  dsimp only
  cases hfind : (l.keysOf docs).find? fun key => key.text == text with
  | none =>
    refine ⟨fun h => absurd h List.not_mem_nil, ?_⟩
    rintro ⟨a, ha, htext, -⟩
    have hkey : keyOf a ∈ l.keysOf docs := mem_keysOf_iff.2 ⟨a, ha, rfl⟩
    exact absurd (List.find?_eq_none.1 hfind _ hkey) (by simpa [keyOf] using htext)
  | some key =>
    obtain ⟨b, hb, rfl⟩ := mem_keysOf_iff.1 (List.mem_of_find?_eq_some hfind)
    have hbtext : b.keyText = text := eq_of_beq (List.find?_some (p := fun key : Key => key.text == text) hfind)
    refine ⟨fun h => ⟨b, hb, hbtext, h⟩, ?_⟩
    rintro ⟨a, ha, htext, h⟩
    rwa [ha.eq hb (htext.trans hbtext.symm)] at h

/-- Without a cap, a document finds what passes the filter, holds a value with the text of one of its own, and holds
something that is looked up. -/
theorem mem_found_all_iff (hcap : l.cap = none) : m ∈ l.found (l.partners store docs) d ↔
    m ∈ store.docs l.collection ∧ l.filter.accepts m = true ∧
      (∃ s ∈ d.joinValues l.localPath, ∃ t ∈ m.joinValues l.foreignPath, t.SharesText s) ∧
      ∃ a, l.LooksUp docs a ∧ (Predicate.eq l.foreignPath a).accepts m = true := by
  have hshares : (∃ s ∈ d.joinValues l.localPath, ∃ t ∈ m.joinValues l.foreignPath, t.keyText = s.keyText) ↔
      ∃ s ∈ d.joinValues l.localPath, ∃ t ∈ m.joinValues l.foreignPath, t.SharesText s := by
    refine exists_congr fun s => and_congr_right fun hs => exists_congr fun t => and_congr_right fun ht => ?_
    exact Scalar.keyText_eq_iff (Document.isJoined_of_mem ht) (Document.isJoined_of_mem hs)
  simp only [mem_found_iff, mem_partners_iff hcap, Predicate.accepts_eq, ← hshares]
  tauto

/-- With a cap, a document finds for each of its values the first documents that hold what is looked up for its text. -/
theorem mem_found_cap_iff {cap : Nat} (hcap : l.cap = some cap) : m ∈ l.found (l.partners store docs) d ↔
    ∃ s ∈ d.joinValues l.localPath, ∃ a, l.LooksUp docs a ∧ a.SharesText s ∧ m ∈ (l.candidates store [a]).take cap := by
  simp only [mem_found_iff, mem_partners_cap_iff hcap]
  refine exists_congr fun s => and_congr_right fun hs => exists_congr fun a => and_congr_right fun ha =>
    and_congr_left fun _ => ?_
  exact Scalar.keyText_eq_iff ha.isJoined (Document.isJoined_of_mem hs)

/-- No value of the documents or of the other collection shares its text with a different one, and none is the negative
zero. -/
def ToldApart (l : Lookup) (store : Store) (docs : List Document) : Prop :=
  let values := docs.flatMap (Document.joinValues l.localPath) ++
    (store.docs l.collection).flatMap (Document.joinValues l.foreignPath)
  (∀ s ∈ values, ∀ t ∈ values, s.SharesText t → s = t) ∧ Scalar.number ⟨true, 0⟩ ∉ values

namespace ToldApart

theorem eq_of_looksUp (h : l.ToldApart store docs) (hd : d ∈ docs) {a s : Scalar} (ha : l.LooksUp docs a)
    (hs : s ∈ d.joinValues l.localPath) (hshares : a.SharesText s) : a = s := by
  obtain ⟨e, he, hae⟩ := ha.exists_mem
  exact h.1 a (List.mem_append_left _ (List.mem_flatMap.2 ⟨e, he, hae⟩)) s
    (List.mem_append_left _ (List.mem_flatMap.2 ⟨d, hd, hs⟩)) hshares

/-- A document holds a value that another holds where it holds the very value. -/
theorem accepts_eq_iff (h : l.ToldApart store docs) (hd : d ∈ docs) (hm : m ∈ store.docs l.collection) {s : Scalar}
    (hs : s ∈ d.joinValues l.localPath) :
    (Predicate.eq l.foreignPath s).accepts m = true ↔ ∃ t ∈ m.joinValues l.foreignPath, t.SharesText s := by
  have hlocal := List.mem_append_left ((store.docs l.collection).flatMap (Document.joinValues l.foreignPath))
    (List.mem_flatMap.2 ⟨d, hd, hs⟩)
  have hforeign {t : Scalar} (ht : t ∈ m.joinValues l.foreignPath) :=
    List.mem_append_right (docs.flatMap (Document.joinValues l.localPath)) (List.mem_flatMap.2 ⟨m, hm, ht⟩)
  have hsj := Document.isJoined_of_mem hs
  rw [Predicate.accepts_eq, Scalar.holdsAt_iff hsj]
  refine exists_congr fun t => and_congr_right fun ht => ⟨fun heq => ?_, fun hshares => ?_⟩
  · have hne {v : Scalar} (hv : v ∈ docs.flatMap (Document.joinValues l.localPath) ++
        (store.docs l.collection).flatMap (Document.joinValues l.foreignPath)) : v ≠ .number ⟨true, 0⟩ :=
          fun h0 => h.2 (h0 ▸ hv)
    rw [Scalar.eq_of_compare? hsj (Document.isJoined_of_mem ht) (hne hlocal) (hne (hforeign ht)) heq]
    exact .same t
  · rw [h.1 t (hforeign ht) s hlocal hshares]
    exact Scalar.compare?_self hsj

/-- What is found is stored, passes the filter and holds one of the values of the document. -/
theorem of_mem_found (h : l.ToldApart store docs) (hd : d ∈ docs) (hm : m ∈ l.found (l.partners store docs) d) :
    m ∈ store.docs l.collection ∧ l.filter.accepts m = true ∧
      ∃ s ∈ d.joinValues l.localPath, (Predicate.eq l.foreignPath s).accepts m = true := by
  cases hcap : l.cap with
  | none =>
    obtain ⟨hstored, hfilter, ⟨s, hs, hshares⟩, -⟩ := (mem_found_all_iff hcap).1 hm
    exact ⟨hstored, hfilter, s, hs, (h.accepts_eq_iff hd hstored hs).2 hshares⟩
  | some cap =>
    obtain ⟨s, hs, a, ha, hshares, htake⟩ := (mem_found_cap_iff hcap).1 hm
    obtain rfl := h.eq_of_looksUp hd ha hs hshares
    obtain ⟨hstored, hfilter, _, hone, hholds⟩ := mem_candidates_iff.1 (List.mem_of_mem_take htake)
    rw [List.mem_singleton.1 hone] at hholds
    exact ⟨hstored, hfilter, a, hs, hholds⟩

/-- All that is stored, passes the filter and holds one of the values of the document is found. -/
theorem mem_found (h : l.ToldApart store docs) (hd : d ∈ docs) (hcap : l.cap = none) (hm : m ∈ store.docs l.collection)
    (hfilter : l.filter.accepts m = true)
    (hholds : ∃ s ∈ d.joinValues l.localPath, (Predicate.eq l.foreignPath s).accepts m = true) :
    m ∈ l.found (l.partners store docs) d := by
  obtain ⟨s, hs, heq⟩ := hholds
  obtain ⟨a, ha, hshares⟩ := exists_looksUp hd hs
  obtain rfl := h.eq_of_looksUp hd ha hs hshares
  exact (mem_found_all_iff hcap).2 ⟨hm, hfilter, ⟨a, hs, (h.accepts_eq_iff hd hm hs).1 heq⟩, a, ha, heq⟩

end ToldApart

/-- What a document finds in a join. -/
structure FindsByText (l : Lookup) (store : Store) (docs : List Document) (d : Document)
    (found : List Document) : Prop where
  /-- Without a cap: all documents that pass the filter, hold a value with the text of one of its own, and hold
  something that is looked up. -/
  all : l.cap = none → ∀ m, m ∈ found ↔ m ∈ store.docs l.collection ∧ l.filter.accepts m = true ∧
    (∃ s ∈ d.joinValues l.localPath, ∃ t ∈ m.joinValues l.foreignPath, t.SharesText s) ∧
    ∃ a, l.LooksUp docs a ∧ (Predicate.eq l.foreignPath a).accepts m = true
  /-- With a cap: for each of its values the first documents that hold what is looked up for the text of the value. -/
  bounded : ∀ cap, l.cap = some cap → ∀ m, m ∈ found ↔
    ∃ s ∈ d.joinValues l.localPath, ∃ a, l.LooksUp docs a ∧ a.SharesText s ∧ m ∈ (l.candidates store [a]).take cap
  /-- Where values are told apart, what is found is stored, passes the filter and holds one of its values. -/
  sound : l.ToldApart store docs → ∀ m ∈ found, m ∈ store.docs l.collection ∧ l.filter.accepts m = true ∧
    ∃ s ∈ d.joinValues l.localPath, (Predicate.eq l.foreignPath s).accepts m = true
  /-- Where values are told apart and there is no cap, all such documents are found. -/
  complete : l.ToldApart store docs → l.cap = none → ∀ m ∈ store.docs l.collection, l.filter.accepts m = true →
    (∃ s ∈ d.joinValues l.localPath, (Predicate.eq l.foreignPath s).accepts m = true) → m ∈ found

end Lookup

/-- A join makes of each document, in its place, what it is attached where a number and a truth value are taken for the
texts that they are written as, and the first of the values with one text, over all documents of the join, is looked up
for all of them. Where no value shares its text with another and none is the negative zero, a document is attached what
holds one of its values and nothing else. -/
theorem join_by_text (l : Lookup) (store : Store) (others : Collaborators) (docs : List Document) :
    ∃ joined, ((l.join docs).perform store others none).2 = .ok joined ∧
      List.Forall₂ (fun d joined => ∃ found, l.Attaches found d joined ∧ l.FindsByText store docs d found) docs
        joined := by
  refine ⟨docs.map (l.attach (l.partners store docs)), ?_, ?_⟩
  · rw [Exchange.perform_none, l.run_join]
  · rw [List.forall₂_map_right_iff, List.forall₂_same]
    exact fun d hd => ⟨_, Lookup.attaches_attach _ d, fun hcap _ => Lookup.mem_found_all_iff hcap,
      fun _ hcap _ => Lookup.mem_found_cap_iff hcap, fun h _ => h.of_mem_found hd, fun h hcap _ => h.mem_found hd hcap⟩

namespace Sample

/-- A document with a value in one field. -/
def tag (n : Nat) (name : String) (value : Json) : Document := ⟨[("_id", .string (uuid n).toText), (name, value)]⟩

/-- All documents with the same value, as they are. -/
def tags : Lookup where
  collection := .models
  localPath := .field "v"
  foreignPath := .field "w"
  filter := .always
  sort := []
  cap := none
  project := []
  target := .field "out"
  single := false

/-- A text and a number that is not written so. -/
def mixed : List Document := [tag 1 "v" (.string "2"), tag 2 "v" (.ofNat 1)]

/-- The same text and the same number. -/
def mixedModels : Store := .ofList [(.models, tag 6 "w" (.string "2")), (.models, tag 7 "w" (.ofNat 1))]

theorem toldApart_mixed : tags.ToldApart mixedModels mixed := by
  let values := mixed.flatMap (Document.joinValues (.field "v")) ++
    (mixedModels.docs .models).flatMap (Document.joinValues (.field "w"))
  have htexts : ∀ s ∈ values, ∀ t ∈ values, s.keyText = t.keyText → s = t := by decide +kernel
  exact ⟨fun s hs t ht hshares => htexts s hs t ht hshares.keyText_eq, by decide +kernel⟩

end Sample

/-- The theorem at values that are told apart: the document with the text and the one with the number find just who
holds an equal value. -/
theorem join_by_text_sample :
    Sample.tags.ToldApart Sample.mixedModels Sample.mixed ∧
    ∃ joined, ((Sample.tags.join Sample.mixed).perform Sample.mixedModels .absent none).2 = .ok joined ∧
      List.Forall₂ (fun d joined => ∃ found, Sample.tags.Attaches found d joined ∧
        ∀ m, m ∈ found ↔ m ∈ Sample.mixedModels.docs .models ∧
          ∃ s ∈ d.joinValues (.field "v"), (Predicate.eq (.field "w") s).accepts m = true) Sample.mixed joined := by
  have hapart := Sample.toldApart_mixed
  obtain ⟨joined, hjoined, hall⟩ := join_by_text Sample.tags Sample.mixedModels .absent Sample.mixed
  refine ⟨hapart, joined, hjoined, hall.imp ?_⟩
  rintro d _ ⟨found, hattaches, hfound⟩
  refine ⟨found, hattaches, fun m => ⟨fun hm => ?_, fun ⟨hm, hholds⟩ => ?_⟩⟩
  · obtain ⟨hstored, -, hholds⟩ := hfound.sound hapart m hm
    exact ⟨hstored, hholds⟩
  · exact hfound.complete hapart rfl m hm rfl hholds

namespace Sample

/-- A text, the number that is written so, and zero. -/
def tagging : List Document := [tag 1 "v" (.string "1"), tag 2 "v" (.ofNat 1), tag 3 "v" (.ofNat 0)]

/-- The same text and the same number, and the negative zero. -/
def tagged : Store := .ofList [(.models, tag 6 "w" (.string "1")), (.models, tag 7 "w" (.ofNat 1)),
  (.models, tag 8 "w" (.ofDouble ⟨true, 0⟩))]

/-- The text and the number are asked for as one, and the store finds the text and the negative zero. -/
theorem partners_tagged : tags.partners tagged tagging =
    tags.holding [tag 6 "w" (.string "1"), tag 8 "w" (.ofDouble ⟨true, 0⟩)] := by
  have hasked : (tags.keysOf tagging).map Lookup.Key.scalar = [.text "1", .number .zero] := by decide +kernel
  have hheld : ([.string "1", .ofNat 1, .ofDouble ⟨true, 0⟩] : List Json).map (fun value =>
      ([.text "1", .number .zero] : List Scalar).any fun s => s.holdsAt (some value)) = [true, false, true] := by
        decide +kernel
  simp only [List.map_cons, List.map_nil, List.cons.injEq, and_true] at hheld
  have hcandidates : tags.candidates tagged [.text "1", .number .zero] =
      [tag 6 "w" (.string "1"), tag 8 "w" (.ofDouble ⟨true, 0⟩)] := by
    have hdocs :
        tagged.docs .models = [tag 6 "w" (.string "1"), tag 7 "w" (.ofNat 1), tag 8 "w" (.ofDouble ⟨true, 0⟩)] := rfl
    have hget (n : Nat) (value : Json) : (tag n "w" value).get? (.field "w") = some value := rfl
    rw [Lookup.candidates, tags, sortDocuments_nil, hdocs]
    simp only [List.filter_cons, List.filter_nil, Predicate.accepts_always, Bool.true_and, hget, hheld,
      if_true, if_false, Bool.false_eq_true]
  funext text
  rw [← hcandidates, ← hasked]
  rfl

end Sample

/-- The number that is joined beside its text is attached the text instead of the number, and zero is attached nothing,
although the negative zero is equal to it. -/
theorem joined_by_other_type :
    ((Sample.tags.join Sample.tagging).perform Sample.tagged .absent none).2 = .ok [
      (Sample.tag 1 "v" (.string "1")).set (.field "out") (.array [(Sample.tag 6 "w" (.string "1")).toJson]),
      (Sample.tag 2 "v" (.ofNat 1)).set (.field "out") (.array [(Sample.tag 6 "w" (.string "1")).toJson]),
      (Sample.tag 3 "v" (.ofNat 0)).set (.field "out") (.array [])] ∧
    Sample.tagged.docs .models =
      [Sample.tag 6 "w" (.string "1"), Sample.tag 7 "w" (.ofNat 1), Sample.tag 8 "w" (.ofDouble ⟨true, 0⟩)] ∧
    (Sample.tag 2 "v" (.ofNat 1)).joinValues (.field "v") = [.number (.ofInt 1)] ∧
    (Predicate.eq (.field "w") (.number (.ofInt 1))).accepts (Sample.tag 6 "w" (.string "1")) = false ∧
    (Predicate.eq (.field "w") (.number (.ofInt 1))).accepts (Sample.tag 7 "w" (.ofNat 1)) = true ∧
    (Sample.tag 3 "v" (.ofNat 0)).joinValues (.field "v") = [.number .zero] ∧
    (Predicate.eq (.field "w") (.number .zero)).accepts (Sample.tag 8 "w" (.ofDouble ⟨true, 0⟩)) = true := by
  have hkeys : Lookup.keysAt (.field "v") (Sample.tag 1 "v" (.string "1")) = [⟨"1", .text "1"⟩] ∧
      Lookup.keysAt (.field "v") (Sample.tag 2 "v" (.ofNat 1)) = [⟨"1", .number (.ofInt 1)⟩] ∧
      Lookup.keysAt (.field "v") (Sample.tag 3 "v" (.ofNat 0)) = [⟨"0", .number .zero⟩] ∧
      Lookup.keysAt (.field "w") (Sample.tag 6 "w" (.string "1")) = [⟨"1", .text "1"⟩] ∧
      Lookup.keysAt (.field "w") (Sample.tag 8 "w" (.ofDouble ⟨true, 0⟩)) = [⟨"-0", .number ⟨true, 0⟩⟩] := by
        decide +kernel
  refine ⟨?_, rfl, ?_, ?_, ?_, ?_, ?_⟩
  · rw [Exchange.perform_none, Lookup.run_join, Sample.partners_tagged]
    simp [Sample.tagging, Lookup.attach, Lookup.holding, Sample.tags, hkeys, Document.project]
  all_goals decide +kernel

end FeedQuery
