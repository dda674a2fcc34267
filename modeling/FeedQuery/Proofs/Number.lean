import Mathlib.Algebra.Group.Nat.Defs
import Mathlib.Algebra.Group.Int.Defs
import FeedQuery.Json

/-!
# Stored numbers are finite

Rounding keeps fewer than `2 ^ 54` units, so the exponent alone decides how large the result is
(`BinaryFormat.round_double_le`). An integer of 64 bits is far below the largest double, and decimals are stored finite:
what is read from a document is never an infinity and never fails to be a number (`Number.toDouble_isFinite`).
-/

namespace FeedQuery

namespace BinaryFormat

/-- The magnitude nearest to a ratio, by the power of two that a unit of it is. -/
theorem round_eq (format : BinaryFormat) (numerator denominator : Nat) :
    format.round numerator denominator =
      let scaled := numerator * 2 ^ format.scale
      let shift := (scaled / denominator).log2 - format.fractionBits
      min format.infinity (shift * 2 ^ format.fractionBits + divideToEven scaled (denominator * 2 ^ shift)) := rfl

theorem divideToEven_le (numerator denominator : Nat) :
    divideToEven numerator denominator ≤ numerator / denominator + 1 := by
  simp only [divideToEven]
  split <;> omega

/-- A number below `2 ^ (shift + 53)` has at most `2 ^ 53` units of `2 ^ shift`. -/
theorem divideToEven_shift_le {n shift : Nat} (h : n.log2 ≤ shift + 52) : divideToEven n (2 ^ shift) ≤ 2 ^ 53 := by
  have hn : n < 2 ^ (shift + 53) := Nat.lt_of_lt_of_le Nat.lt_log2_self (Nat.pow_le_pow_right (by decide) (by omega))
  have hq : n / 2 ^ shift < 2 ^ 53 := by
    rw [Nat.div_lt_iff_lt_mul (Nat.two_pow_pos shift), ← Nat.pow_add]
    rwa [Nat.add_comm shift 53] at hn
  have := divideToEven_le n (2 ^ shift)
  omega

theorem log2_mul_two_pow_le {n bits : Nat} (h : n < 2 ^ bits) (shift : Nat) : (n * 2 ^ shift).log2 ≤ bits + shift := by
  by_cases h0 : n * 2 ^ shift = 0
  · rw [h0, Nat.log2_zero]
    omega
  · refine Nat.le_of_lt ((Nat.log2_lt h0).2 ?_)
    rw [Nat.pow_add]
    exact (Nat.mul_lt_mul_right (Nat.two_pow_pos shift)).2 h

/-- Rounding an integer below `2 ^ bits` gives a magnitude below that of `2 ^ (bits + 2)`. -/
theorem round_double_le {n bits : Nat} (h : n < 2 ^ bits) : double.round n 1 ≤ (bits + 1024) * 2 ^ 52 := by
  have hlog := log2_mul_two_pow_le h 1074
  rw [round_eq]
  simp only [double]
  generalize n * 2 ^ 1074 = scaled at hlog ⊢
  rw [Nat.div_one, Nat.one_mul]
  have hunits : divideToEven scaled (2 ^ (scaled.log2 - 52)) ≤ 2 ^ 53 := divideToEven_shift_le (by omega)
  refine Nat.le_trans (Nat.min_le_right _ _) ?_
  omega

end BinaryFormat

/-- A 64-bit integer is nowhere near an infinity when it is read as a double. -/
theorem Double.ofInt_isFinite {value : Int} (h : -(2 ^ 63) ≤ value ∧ value < 2 ^ 64) :
    (Double.ofInt value).isFinite = true := by
  have hn : value.natAbs < 2 ^ 64 := by omega
  have hb := BinaryFormat.round_double_le hn
  refine decide_eq_true ?_
  simp only [Double.ofInt, Double.ofRatio, Double.infinity]
  generalize BinaryFormat.double.round value.natAbs 1 = magnitude at hb ⊢
  simp only [BinaryFormat.double]
  omega

/-- What a stored number is read as is finite. -/
theorem Number.toDouble_isFinite (n : Number) : n.toDouble.isFinite = true := by
  cases n with
  | integer value bounds => exact Double.ofInt_isFinite bounds
  | decimal value finite => exact finite

theorem Double.isNaN_of_isFinite {d : Double} (h : d.isFinite = true) : d.isNaN = false := by
  refine decide_eq_false ?_
  have := of_decide_eq_true h
  omega

/-- A finite double has a place in the order of numbers. -/
theorem Double.key?_of_isFinite {d : Double} (h : d.isFinite = true) :
    d.key? = some (if d.negative then -(d.magnitude : Int) else d.magnitude) := by
  rw [Double.key?, isNaN_of_isFinite h]
  rfl

/-- A finite double is written as the number that it is. -/
theorem Json.double?_ofDouble {d : Double} (h : d.isFinite = true) : (Json.ofDouble d).double? = some d := by
  simp [Json.ofDouble, Number.ofDouble?, h, Json.double?, Number.toDouble]

/-- A number that is read from a value is finite. -/
theorem Json.isFinite_of_double? {value : Json} {d : Double} (h : value.double? = some d) : d.isFinite = true := by
  cases value with
  | number n =>
    obtain rfl : n.toDouble = d := by simpa [Json.double?] using h
    exact n.toDouble_isFinite
  | _ => simp [Json.double?] at h

end FeedQuery
