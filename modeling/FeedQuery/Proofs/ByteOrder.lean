import FeedQuery.Text.Utf8
import Mathlib.Data.String.Basic
import Mathlib.Data.Nat.Basic

/-!
# The order of bytes

Texts are ordered by their characters, and so they are by the bytes of their characters (`Text.Utf8.compare_encode`): a
smaller character has the smaller first byte that is not the same, and no character begins another.
-/

namespace FeedQuery.Text.Utf8

/-- The bytes of the character with a number. -/
def bytesOf (value : Nat) : List Nat :=
  if value ≤ 127 then [value]
  else if value ≤ 2047 then [value / 64 + 192, value % 64 + 128]
  else if value ≤ 65535 then [value / 4096 + 224, value / 64 % 64 + 128, value % 64 + 128]
  else [value / 262144 + 240, value / 4096 % 64 + 128, value / 64 % 64 + 128, value % 64 + 128]

theorem toNat_utf8EncodeChar (c : Char) : (String.utf8EncodeChar c).map UInt8.toNat = bytesOf c.toNat := by
  have hc : c.toNat < 1114112 := by
    have := c.valid
    simp only [UInt32.isValidChar, Nat.isValidChar, Char.toNat] at this ⊢
    omega
  unfold String.utf8EncodeChar bytesOf
  simp only [Char.toNat] at hc ⊢
  split_ifs <;> simp only [List.map_cons, List.map_nil, UInt8.toNat_ofNat', List.cons.injEq, and_true] <;> omega

theorem encode_cons (c : Char) (text : List Char) : encode (c :: text) = bytesOf c.toNat ++ encode text := by
  rw [encode, List.flatMap_cons, toNat_utf8EncodeChar]
  rfl

theorem compare_append_left (bytes xs ys : List Nat) : compare (bytes ++ xs) (bytes ++ ys) = compare xs ys := by
  induction bytes with
  | nil => rfl
  | cons byte rest ih =>
    rw [List.cons_append, List.cons_append, List.compare_cons_cons, Nat.compare_eq_eq.2 rfl, Ordering.eq_then, ih]

theorem compare_cons_eq_lt {x y : Nat} {xs ys : List Nat} :
    compare (x :: xs) (y :: ys) = .lt ↔ x < y ∨ x = y ∧ compare xs ys = .lt := by
  rw [List.compare_cons_cons, Ordering.then_eq_lt, Nat.compare_eq_lt, Nat.compare_eq_eq]

/-- A smaller character comes first, whatever follows the two. -/
theorem compare_bytesOf {a b : Nat} (h : a < b) (xs ys : List Nat) :
    compare (bytesOf a ++ xs) (bytesOf b ++ ys) = .lt := by
  unfold bytesOf
  split_ifs <;> simp only [List.cons_append, List.nil_append, compare_cons_eq_lt] <;> omega

theorem compare_encode_of_lt {a b : List Char} (h : a < b) : compare (encode a) (encode b) = .lt := by
  induction a generalizing b with
  | nil =>
    obtain ⟨d, ys, rfl⟩ : ∃ d ys, b = d :: ys :=
      List.exists_cons_of_ne_nil fun hb => absurd (hb ▸ h) (List.not_lt_nil _)
    rw [encode_cons]
    unfold bytesOf
    split_ifs <;> rfl
  | cons c xs ih =>
    cases b with
    | nil => exact absurd h (List.not_lt_nil _)
    | cons d ys =>
      rw [encode_cons, encode_cons]
      rcases List.cons_lt_cons_iff.1 h with hlt | ⟨rfl, hlt⟩
      · exact compare_bytesOf (Char.lt_def.1 hlt) _ _
      · rw [compare_append_left, ih hlt]

/-- Texts have the order of their bytes. -/
theorem compare_encode (a b : String) : compare (encode a.toList) (encode b.toList) = compare a b := by
  have hlt {a b : String} (h : compare a b = .lt) : compare (encode a.toList) (encode b.toList) = .lt :=
    compare_encode_of_lt (String.lt_iff_toList_lt.1 (compareOfLessAndEq_eq_lt.1 h))
  cases h : compare a b with
  | lt => exact hlt h
  | eq => exact Std.LawfulEqCmp.eq_of_compare h ▸ Std.ReflCmp.compare_self
  | gt => exact Std.OrientedCmp.gt_of_lt (hlt (Std.OrientedCmp.lt_of_gt h))

end FeedQuery.Text.Utf8
