import FeedQuery.Proofs.NumberText
import Mathlib.Tactic.SplitIfs

/-!
# Numbers that are doubles

Every stored number is a multiple of `2 ^ -1074` (`Number.quanta`). A decimal is a double, and so is an integer within
`2 ^ 53`: nothing is rounded when one of these is read as a double (`Number.quanta_toDouble`). Two of them are therefore
the same number exactly when they have the same place in the order of doubles (`Number.quanta_eq_iff`).
-/

namespace FeedQuery

namespace BinaryFormat

/-- An integer within `2 ^ 53` has a significand of 53 bits. -/
theorem exists_significand {n : Nat} (hpos : 0 < n) (hn : n ≤ 2 ^ 53) :
    ∃ fraction exponent, fraction < 2 ^ 52 ∧ exponent ≤ 1075 ∧
    n * 2 ^ double.scale = (2 ^ 52 + fraction) * 2 ^ exponent := by
  have hscale : double.scale = 1074 := rfl
  rcases Nat.lt_or_eq_of_le hn with hlt | rfl
  · have hlog : n.log2 ≤ 52 := by
      have := (Nat.log2_lt (by omega)).2 hlt
      omega
    have hlow : 2 ^ 52 ≤ n * 2 ^ (52 - n.log2) := by
      calc 2 ^ 52 = 2 ^ n.log2 * 2 ^ (52 - n.log2) := by rw [← Nat.pow_add, Nat.add_sub_cancel' hlog]
        _ ≤ n * 2 ^ (52 - n.log2) := Nat.mul_le_mul_right _ (Nat.log2_self_le (by omega))
    have hhigh : n * 2 ^ (52 - n.log2) < 2 ^ 53 := by
      calc n * 2 ^ (52 - n.log2) < 2 ^ (n.log2 + 1) * 2 ^ (52 - n.log2) :=
            (Nat.mul_lt_mul_right (Nat.two_pow_pos _)).2 Nat.lt_log2_self
        _ = 2 ^ 53 := by
          rw [← Nat.pow_add]
          congr 1
          omega
    refine ⟨n * 2 ^ (52 - n.log2) - 2 ^ 52, 1022 + n.log2, by omega, by omega, ?_⟩
    rw [Nat.add_sub_cancel' hlow, Nat.mul_assoc, ← Nat.pow_add]
    congr 2
    omega
  · refine ⟨0, double.scale + 1, by decide, Nat.le_refl _, ?_⟩
    rw [Nat.pow_succ 2 double.scale]
    generalize 2 ^ double.scale = unit
    omega

/-- A number with a significand of 53 bits needs no rounding. -/
theorem quanta_round {n fraction exponent : Nat} (hfraction : fraction < 2 ^ 52) (hexponent : exponent ≤ 1075)
    (h : n * 2 ^ double.scale = (2 ^ 52 + fraction) * 2 ^ exponent) :
    double.quanta (double.round n 1) = n * 2 ^ double.scale := by
  have hbits : double.fractionBits = 52 := rfl
  have hinfinity : double.infinity = 2047 * 2 ^ 52 := rfl
  have hround : double.round n 1 = (exponent + 1) * 2 ^ 52 + fraction := by
    rw [round_eq, hbits]
    simp only [h, Nat.div_one, Nat.one_mul, log2_significand hfraction, Nat.add_sub_cancel_left,
      divideToEven_mul (Nat.two_pow_pos _)]
    rw [hinfinity]
    omega
  rw [hround, quanta_eq, hbits, h]
  have hdiv : ((exponent + 1) * 2 ^ 52 + fraction) / 2 ^ 52 = exponent + 1 := by omega
  have hmod : ((exponent + 1) * 2 ^ 52 + fraction) % 2 ^ 52 = fraction := by omega
  have hlarge : ¬(exponent + 1) * 2 ^ 52 + fraction < 2 ^ 52 := by omega
  simp only [hdiv, hmod, hlarge, if_false, Nat.add_sub_cancel]

theorem quanta_round_of_le {n : Nat} (hn : n ≤ 2 ^ 53) : double.quanta (double.round n 1) = n * 2 ^ double.scale := by
  rcases Nat.eq_zero_or_pos n with rfl | hpos
  · simp [round_eq, divideToEven, quanta_eq]
  · obtain ⟨fraction, exponent, hfraction, hexponent, h⟩ := exists_significand hpos hn
    exact quanta_round hfraction hexponent h

end BinaryFormat

/-- How many multiples of `2 ^ -1074` a finite double is. -/
def Double.signedQuanta (d : Double) : Int := if d.negative then -d.quanta else d.quanta

/-- Finite doubles are ordered as the numbers that they are. -/
theorem Double.compare?_eq {a b : Double} (ha : a.isFinite = true) (hb : b.isFinite = true) :
    a.compare? b = some (compare a.signedQuanta b.signedQuanta) := by
  have hlt (x y : Double) : x.quanta < y.quanta ↔ x.magnitude < y.magnitude := Decimal.quanta_strictMono.lt_iff_lt
  have hpos (x : Double) : 0 < x.quanta ↔ 0 < x.magnitude := hlt ⟨false, 0⟩ x
  have hab := hlt a b
  have hba := hlt b a
  have ha0 := hpos a
  have hb0 := hpos b
  rw [compare?, key?_of_isFinite ha, key?_of_isFinite hb]
  refine congrArg some ?_
  -- the places and the numbers are compared alike, whatever the signs
  have hsame {x y u v : Int} (hless : x < y ↔ u < v) (hmore : y < x ↔ v < u) : compare x y = compare u v := by
    rcases Int.lt_trichotomy x y with h | h | h
    · rw [Int.compare_eq_lt.2 h, Int.compare_eq_lt.2 (hless.1 h)]
    · rw [Int.compare_eq_eq.2 h, Int.compare_eq_eq.2 (by omega)]
    · rw [Int.compare_eq_gt.2 h, Int.compare_eq_gt.2 (hmore.1 h)]
  unfold signedQuanta
  refine hsame ?_ ?_ <;> split_ifs <;> omega

/-- Finite doubles are the same number exactly when they have the same place in the order of numbers. -/
theorem Double.signedQuanta_eq_iff {a b : Double} (ha : a.isFinite = true) (hb : b.isFinite = true) :
    a.signedQuanta = b.signedQuanta ↔ a.key? = b.key? := by
  have hcompare := compare?_eq ha hb
  rw [compare?, key?_of_isFinite ha, key?_of_isFinite hb, Option.some.injEq] at hcompare
  rw [key?_of_isFinite ha, key?_of_isFinite hb, Option.some.injEq, ← Int.compare_eq_eq, ← Int.compare_eq_eq, hcompare]

namespace Number

/-- How many multiples of `2 ^ -1074` a stored number is. -/
def quanta : Number → Int
  | .integer value _ => value * Nat.pow 2 BinaryFormat.double.scale
  | .decimal value _ => value.signedQuanta

/-- Whether a stored number is a double: a decimal, or an integer within `2 ^ 53`. -/
def isExact : Number → Bool
  | .integer value _ => value.natAbs ≤ Nat.pow 2 53
  | .decimal _ _ => true

/-- A number that is a double is that double. -/
theorem quanta_toDouble {n : Number} (h : n.isExact = true) : n.toDouble.signedQuanta = n.quanta := by
  cases n with
  | decimal value finite => rfl
  | integer value bounds =>
    have hround := BinaryFormat.quanta_round_of_le (of_decide_eq_true h)
    simp only [toDouble, Double.ofInt, Double.ofRatio, Double.signedQuanta, Double.quanta, hround, quanta, Nat.pow_eq,
      Int.natCast_mul]
    generalize ((2 ^ BinaryFormat.double.scale : Nat) : Int) = unit
    split_ifs with hneg
    · rw [Int.ofNat_natAbs_of_nonpos (Int.le_of_lt (of_decide_eq_true hneg)), Int.neg_mul, Int.neg_neg]
    · rw [Int.natAbs_of_nonneg (by simpa using hneg)]

/-- Numbers that are doubles are the same exactly when they have the same place in the order of doubles. -/
theorem quanta_eq_iff {a b : Number} (ha : a.isExact = true) (hb : b.isExact = true) :
    a.quanta = b.quanta ↔ a.toDouble.key? = b.toDouble.key? := by
  rw [← quanta_toDouble ha, ← quanta_toDouble hb, Double.signedQuanta_eq_iff a.toDouble_isFinite b.toDouble_isFinite]

end Number

end FeedQuery
