import FeedQuery.Proofs.Cursor
import FeedQuery.Proofs.Instant

/-!
# Decoded values are normal forms

A stored value can be spelled in many ways: an identifier in braces or in upper case, a number as an integer that no
double is, a point in time under any offset. The scalar that it is decoded to stands for all of them. It is equal to the
value itself, its own stored form is decoded to it again (`ValueKind.decode_toJson`), and how two values of a kind are
ordered is a matter of their scalars (`ValueKind.decoded_normal_form`). That numbers can always be compared rests on
stored numbers being finite.
-/

namespace FeedQuery

namespace ValueKind

variable {kind : ValueKind} {value other : Json} {s t : Scalar}

/-- The stored form of a decoded scalar is decoded to the scalar. -/
theorem decode_toJson (h : kind.decode value = some s) : kind.decode s.toJson = some s := by
  cases kind with
  | id =>
    obtain ⟨id, -, rfl⟩ := Option.map_eq_some_iff.1 h
    have hread := Uuid.ofText?_toText id
    simp [Scalar.toJson, decode, Json.string?, hread]
  | text =>
    obtain ⟨text, -, rfl⟩ := Option.map_eq_some_iff.1 h
    rfl
  | number =>
    obtain ⟨number, hnumber, rfl⟩ := Option.map_eq_some_iff.1 h
    have hread := Json.double?_ofDouble (Json.isFinite_of_double? hnumber)
    simp [Scalar.toJson, decode, hread]
  | bool =>
    obtain ⟨flag, -, rfl⟩ := Option.map_eq_some_iff.1 h
    rfl
  | datetime =>
    obtain ⟨instant, hinstant, rfl⟩ := Option.map_eq_some_iff.1 h
    obtain ⟨text, -, htext⟩ := Option.bind_eq_some_iff.1 hinstant
    have hread := Instant.ofText?_toText (Instant.isShown_of_ofText? htext)
    simp [Scalar.toJson, decode, Json.string?, hread]

/-- Scalars that were decoded under one kind can be compared. -/
theorem exists_compare? (hs : kind.decode value = some s) (ht : kind.decode other = some t) :
    ∃ o, t.compare? s = some o := by
  cases kind with
  | id | text | bool | datetime =>
    obtain ⟨_, -, rfl⟩ := Option.map_eq_some_iff.1 hs
    obtain ⟨_, -, rfl⟩ := Option.map_eq_some_iff.1 ht
    exact ⟨_, rfl⟩
  | number =>
    obtain ⟨x, hx, rfl⟩ := Option.map_eq_some_iff.1 hs
    obtain ⟨y, hy, rfl⟩ := Option.map_eq_some_iff.1 ht
    have hxkey := Double.key?_of_isFinite (Json.isFinite_of_double? hx)
    have hykey := Double.key?_of_isFinite (Json.isFinite_of_double? hy)
    simp [Scalar.compare?, Double.compare?, hxkey, hykey]

/-- A decoded scalar is equal to itself. -/
theorem compare?_self (h : kind.decode value = some s) : s.compare? s = some .eq := by
  obtain ⟨o, ho⟩ := exists_compare? h h
  have hswap := Scalar.compare?_swap s s
  rw [ho, Option.map_some, Option.some.injEq] at hswap
  cases o with
  | eq => exact ho
  | lt | gt => cases hswap

/-- A decoded scalar is equal to the value that it was decoded from, and a field that has the value holds the scalar.
Its stored form is decoded to the scalar, which is equal to itself. And a value of the kind lies towards it as the two
scalars lie, which can be compared, and the other way round for their roles exchanged. -/
theorem decoded_normal_form (h : kind.decode value = some s) :
    (s.orderOf value = some .eq ∧ s.holdsAt (some value) = true) ∧
    (kind.decode s.toJson = some s ∧ s.compare? s = some .eq) ∧
    ∀ other t, kind.decode other = some t →
      ∃ o, t.compare? s = some o ∧ s.orderOf other = some o ∧ t.orderOf value = some o.swap := by
  have hself := compare?_self h
  have horder : s.orderOf value = some .eq := (orderOf_eq h h).trans hself
  refine ⟨⟨horder, ?_⟩, ⟨decode_toJson h, hself⟩, ?_⟩
  · rw [holdsAt_eq h h, horder]
    rfl
  · intro other t ht
    obtain ⟨o, ho⟩ := exists_compare? h ht
    refine ⟨o, ho, (orderOf_eq h ht).trans ho, ?_⟩
    rw [orderOf_eq ht h, Scalar.compare?_swap t s, ho]
    rfl

end ValueKind

namespace Sample

/-- A leap second, on a clock behind UTC. -/
def leapSecond : Json := .string "2016-12-31T15:59:60.25-08:00"

/-- The end of the same year, on a clock ahead of UTC, with more digits than there are nanoseconds. -/
def yearEnd : Json := .string "2017-01-01t00:59:59.9999999999+01:00"

/-- The last nanosecond of the year, on a clock with an offset in minutes. -/
def lastNanosecond (offset : Int) : Scalar := .datetime ⟨1483228799999999999, offset⟩

end Sample

/-- The theorem at a leap second: it is written as the nanosecond before it, and is the same point in time as another
text. -/
theorem ValueKind.decoded_normal_form_leapSecond :
    datetime.decode Sample.leapSecond = some (Sample.lastNanosecond (-480)) ∧
      (Sample.lastNanosecond (-480)).holdsAt (some Sample.leapSecond) = true ∧
      datetime.decode (Sample.lastNanosecond (-480)).toJson = some (Sample.lastNanosecond (-480)) ∧
      (Sample.lastNanosecond (-480)).orderOf Sample.yearEnd = some .eq := by
  have hleap : datetime.decode Sample.leapSecond = some (Sample.lastNanosecond (-480)) := by decide +kernel
  have hend : datetime.decode Sample.yearEnd = some (Sample.lastNanosecond 60) := by decide +kernel
  obtain ⟨⟨-, hholds⟩, ⟨hread, -⟩, horder⟩ := decoded_normal_form hleap
  obtain ⟨o, ho, hequal, -⟩ := horder _ _ hend
  obtain rfl : o = .eq := Option.some.inj (ho.symm.trans (by decide))
  exact ⟨hleap, hholds, hread, hequal⟩

end FeedQuery
