import Mathlib.Order.Monotone.Basic
import FeedQuery.Proofs.Decimal

/-!
# Texts tell numbers apart

The decimal numbers that are nearest to a double lie in an interval, and the intervals of two doubles have nothing in
common: one ends where the next begins, and the point between them belongs to one of them alone
(`Decimal.eq_of_contains`). The text of a finite double is a decimal number in its interval (`Double.contains_body`), so
no two finite doubles have one text (`Double.toText_injective`); the two zeros have two.
-/

namespace FeedQuery

namespace Decimal

/-! ## Intervals -/

/-- Whether the ratio of two numbers lies in the interval. -/
def RoundingInterval.Contains (i : RoundingInterval) (numerator denominator : Nat) : Prop :=
  if i.closed then i.low * denominator ≤ numerator ∧ numerator ≤ i.high * denominator
  else i.low * denominator < numerator ∧ numerator < i.high * denominator

theorem RoundingInterval.holds_iff {i : RoundingInterval} {count numerator denominator : Nat} :
    i.holds count numerator denominator = true ↔ i.Contains (count * numerator) denominator := by
  unfold holds Contains
  cases i.closed <;> simp

namespace RoundingInterval.Contains

variable {i : RoundingInterval} {numerator denominator : Nat}

theorem low_le (h : i.Contains numerator denominator) : i.low * denominator ≤ numerator := by
  unfold Contains at h
  split at h <;> omega

theorem le_high (h : i.Contains numerator denominator) : numerator ≤ i.high * denominator := by
  unfold Contains at h
  split at h <;> omega

/-- The ends belong to closed intervals alone. -/
theorem closed_of_low (h : i.Contains numerator denominator) (hlow : i.low * denominator = numerator) :
    i.closed = true := by
  unfold Contains at h
  split at h
  · assumption
  · omega

theorem closed_of_high (h : i.Contains numerator denominator) (hhigh : numerator = i.high * denominator) :
    i.closed = true := by
  unfold Contains at h
  split at h
  · assumption
  · omega

end RoundingInterval.Contains

/-- The distance from a magnitude to the next. -/
def gap (magnitude : Nat) : Nat := 2 ^ (magnitude / 2 ^ 52 - 1)

/-- Twice the distance from the magnitude before. -/
def gapBelow (magnitude : Nat) : Nat :=
  if magnitude % 2 ^ 52 == 0 && magnitude / 2 ^ 52 > 1 then gap magnitude else 2 * gap magnitude

theorem value_eq (d : Double) : (roundingInterval d).value = 4 * d.quanta := rfl

theorem low_eq (d : Double) : (roundingInterval d).low = 4 * d.quanta - gapBelow d.magnitude := rfl

theorem high_eq (d : Double) : (roundingInterval d).high = 4 * d.quanta + 2 * gap d.magnitude := rfl

theorem closed_eq (d : Double) : (roundingInterval d).closed = (d.magnitude % 2 == 0) := rfl

/-- The magnitude after another is in the same row of equal gaps, or it begins the next row. -/
theorem magnitude_succ (magnitude : Nat) :
    ((magnitude + 1) / 2 ^ 52 = magnitude / 2 ^ 52 ∧ (magnitude + 1) % 2 ^ 52 = magnitude % 2 ^ 52 + 1) ∨
      ((magnitude + 1) / 2 ^ 52 = magnitude / 2 ^ 52 + 1 ∧ (magnitude + 1) % 2 ^ 52 = 0 ∧
        2 ^ 52 = magnitude % 2 ^ 52 + 1) := by
  omega

theorem gapBelow_succ (magnitude : Nat) : gapBelow (magnitude + 1) = 2 * gap magnitude := by
  unfold gapBelow gap
  rcases magnitude_succ magnitude with ⟨hrow, hplace⟩ | ⟨hrow, hplace, -⟩
  · rw [hrow, hplace, if_neg (by simp)]
  · rw [hrow, hplace]
    cases magnitude / 2 ^ 52 with
    | zero => rfl
    | succ row => simp [Nat.pow_succ, Nat.mul_comm]

/-- The next magnitude is one gap larger. -/
theorem quanta_succ (magnitude : Nat) :
    BinaryFormat.double.quanta (magnitude + 1) = BinaryFormat.double.quanta magnitude + gap magnitude := by
  have hbits : BinaryFormat.double.fractionBits = 52 := rfl
  have hmod := Nat.div_add_mod magnitude (2 ^ 52)
  rw [BinaryFormat.quanta_eq, BinaryFormat.quanta_eq, hbits, gap]
  dsimp only
  rcases magnitude_succ magnitude with ⟨hrow, hplace⟩ | ⟨hrow, hplace, hlast⟩
  · rw [hrow, hplace]
    split
    · have hfirst : magnitude / 2 ^ 52 = 0 := by omega
      rw [if_pos (by omega), hfirst]
      rfl
    · rw [if_neg (by omega), ← Nat.add_assoc, Nat.succ_mul]
  · rw [hrow, hplace, if_neg (by omega)]
    split
    · have hfirst : magnitude / 2 ^ 52 = 0 := by omega
      rw [hfirst]
      omega
    · have hdouble : 2 ^ (magnitude / 2 ^ 52 + 1 - 1) = 2 * 2 ^ (magnitude / 2 ^ 52 - 1) := by
        rw [← Nat.pow_succ', Nat.succ_eq_add_one, Nat.sub_add_cancel (by omega), Nat.add_sub_cancel]
      have hsum : 2 ^ 52 + magnitude % 2 ^ 52 + 1 = 2 * 2 ^ 52 := by omega
      rw [hdouble, ← Nat.succ_mul, Nat.succ_eq_add_one, hsum, Nat.add_zero, Nat.mul_left_comm, Nat.mul_assoc]

/-- Larger magnitudes stand for larger numbers. -/
theorem quanta_strictMono : StrictMono BinaryFormat.double.quanta := by
  refine strictMono_nat_of_lt_succ fun magnitude => ?_
  rw [quanta_succ]
  exact Nat.lt_add_of_pos_right (Nat.two_pow_pos _)

/-- One interval begins where the one before it ends. -/
theorem low_succ (sign : Bool) (d : Double) :
    (roundingInterval ⟨sign, d.magnitude + 1⟩).low = (roundingInterval d).high := by
  have hnext := quanta_succ d.magnitude
  rw [low_eq, high_eq, gapBelow_succ]
  unfold Double.quanta
  dsimp only
  omega

/-- Larger magnitudes have later intervals. -/
theorem low_lt_low {a b : Double} (h : a.magnitude < b.magnitude) :
    (roundingInterval a).low < (roundingInterval b).low := by
  have hmono : StrictMono fun magnitude => (roundingInterval ⟨false, magnitude⟩).low := by
    refine strictMono_nat_of_lt_succ fun magnitude => ?_
    have hgap : 0 < gap magnitude := Nat.two_pow_pos _
    rw [low_succ false ⟨false, magnitude⟩, low_eq, high_eq]
    dsimp only
    omega
  exact hmono h

/-- A number lies in the interval of one magnitude alone: where two intervals meet, one of them leaves the point to the
other. -/
theorem eq_of_contains {a b : Double} {numerator denominator : Nat} (hpos : 0 < denominator)
    (ha : (roundingInterval a).Contains numerator denominator)
    (hb : (roundingInterval b).Contains numerator denominator) :
    a.magnitude = b.magnitude := by
  have hnot {a b : Double} (ha : (roundingInterval a).Contains numerator denominator)
      (hb : (roundingInterval b).Contains numerator denominator) : ¬ a.magnitude < b.magnitude := by
    intro hlt
    have hmeet : (roundingInterval b).low ≤ (roundingInterval a).high :=
      Nat.le_of_mul_le_mul_right (Nat.le_trans hb.low_le ha.le_high) hpos
    rw [← low_succ false] at hmeet
    have hnext : b.magnitude = a.magnitude + 1 := by
      rcases Nat.lt_or_ge (a.magnitude + 1) b.magnitude with hgt | hle
      · exact absurd (low_lt_low (a := ⟨false, a.magnitude + 1⟩) hgt) (by omega)
      · omega
    have hpoint : (roundingInterval b).low = (roundingInterval a).high := by
      rw [← low_succ b.negative, ← hnext]
    have hnumerator : numerator = (roundingInterval a).high * denominator :=
      Nat.le_antisymm ha.le_high (hpoint ▸ hb.low_le)
    have hevena := ha.closed_of_high hnumerator
    have hevenb := hb.closed_of_low ((congrArg (· * denominator) hpoint).trans hnumerator.symm)
    rw [closed_eq, beq_iff_eq] at hevena hevenb
    omega
  have hab := hnot ha hb
  have hba := hnot hb ha
  omega

/-! ## The search finds a point of the interval -/

/-- The number one, in the unit of the intervals. -/
def one : Nat := 2 ^ (BinaryFormat.double.scale + 2)

theorem one_pos : 0 < one := Nat.two_pow_pos _

/-- Powers of ten are above powers of two with three times the exponent. -/
theorem one_lt {places : Nat} (h : BinaryFormat.double.scale + 2 < 3 * places) : one < 10 ^ places := by
  calc one < 2 ^ (3 * places) := Nat.pow_lt_pow_right (by decide) h
    _ = (2 ^ 3) ^ places := Nat.pow_mul 2 3 places
    _ ≤ 10 ^ places := Nat.pow_le_pow_left (by decide) places

/-- The power of ten that measures a grid, in the unit of the intervals, is the ratio of this number ... -/
def gridNumerator (exponent : Int) : Nat := one * if exponent < 0 then 1 else Nat.pow 10 exponent.natAbs

/-- ... and this one. -/
def gridDenominator (exponent : Int) : Nat := if exponent < 0 then Nat.pow 10 exponent.natAbs else 1

theorem onGrid?_eq (i : RoundingInterval) (exponent : Int) : i.onGrid? exponent =
    let numerator := gridNumerator exponent
    let denominator := gridDenominator exponent
    let lower := i.value * denominator / numerator
    let upper := lower + 1
    if (lower != 0 && i.holds lower numerator denominator) &&
      (decide (i.value * denominator - lower * numerator < upper * numerator - i.value * denominator) ||
        !i.holds upper numerator denominator) then some lower
    else if i.holds upper numerator denominator then some upper
    else none := by
  have hexponent : 1076 = BinaryFormat.double.scale + 2 := rfl
  have hpow (exponent : Nat) : Nat.pow 2 exponent = 2 ^ exponent := rfl
  unfold RoundingInterval.onGrid? gridNumerator gridDenominator one
  rw [hexponent, hpow]

/-- What is found on a grid lies in the interval. -/
theorem contains_of_onGrid? {i : RoundingInterval} {exponent : Int} {count : Nat}
    (h : i.onGrid? exponent = some count) :
    i.Contains (count * gridNumerator exponent) (gridDenominator exponent) := by
  rw [onGrid?_eq] at h
  dsimp only at h
  split at h
  · next hlower =>
    obtain rfl := Option.some.inj h
    simp only [Bool.and_eq_true] at hlower
    exact RoundingInterval.holds_iff.1 hlower.1.2
  · split at h
    · next hupper =>
      obtain rfl := Option.some.inj h
      exact RoundingInterval.holds_iff.1 hupper
    · cases h

/-- A grid that is finer than the upper half of the interval has a point in it. -/
theorem isSome_onGrid? {i : RoundingInterval} {exponent : Int} (hlow : i.low ≤ i.value)
    (hpos : 0 < gridNumerator exponent)
    (hfine : i.value * gridDenominator exponent + gridNumerator exponent < i.high * gridDenominator exponent) :
    (i.onGrid? exponent).isSome = true := by
  have hupper : i.holds (i.value * gridDenominator exponent / gridNumerator exponent + 1) (gridNumerator exponent)
      (gridDenominator exponent) = true := by
    have hdiv := Nat.div_add_mod (i.value * gridDenominator exponent) (gridNumerator exponent)
    have hmod := Nat.mod_lt (i.value * gridDenominator exponent) hpos
    have hlow' := Nat.mul_le_mul_right (gridDenominator exponent) hlow
    rw [RoundingInterval.holds_iff, Nat.succ_mul, Nat.mul_comm _ (gridNumerator exponent)]
    unfold RoundingInterval.Contains
    split <;> omega
  rw [onGrid?_eq]
  dsimp only
  rw [hupper]
  split <;> rfl

/-- A search that reaches a grid with a point in the interval ends with a point of some grid. -/
theorem onGrid?_shortest {i : RoundingInterval} (fuel : Nat) {exponent : Int}
    (h : (i.onGrid? (exponent - fuel)).isSome = true) :
    i.onGrid? (i.shortest (fuel + 1) exponent).2 = some (i.shortest (fuel + 1) exponent).1 := by
  induction fuel generalizing exponent with
  | zero =>
    obtain ⟨count, hcount⟩ := Option.isSome_iff_exists.1 h
    rw [Int.natCast_zero, Int.sub_zero] at hcount
    simp only [RoundingInterval.shortest, hcount]
  | succ fuel ih =>
    cases hgrid : i.onGrid? exponent with
    | some count => simp only [RoundingInterval.shortest, hgrid]
    | none =>
      have hnext : exponent - 1 - (fuel : Int) = exponent - ((fuel + 1 : Nat) : Int) := by omega
      have hstep : i.shortest (fuel + 1 + 1) exponent = i.shortest (fuel + 1) (exponent - 1) := by
        rw [RoundingInterval.shortest, hgrid]
      rw [hstep]
      exact ih (hnext ▸ h)

/-- A grid with enough places has a point in every interval. -/
theorem isSome_onGrid?_places (d : Double) {places : Nat} (h : BinaryFormat.double.scale + 2 < 3 * places) :
    ((roundingInterval d).onGrid? (-places)).isSome = true := by
  have hneg : (-places : Int) < 0 := by omega
  have hnumerator : gridNumerator (-places) = one := by rw [gridNumerator, if_pos hneg, Nat.mul_one]
  have hdenominator : gridDenominator (-places) = 10 ^ places := by
    rw [gridDenominator, if_pos hneg, Int.natAbs_neg, Int.natAbs_natCast]
    rfl
  have hgap : 0 < gap d.magnitude := Nat.two_pow_pos _
  refine isSome_onGrid? (Nat.sub_le _ _) (hnumerator ▸ one_pos) ?_
  rw [hnumerator, hdenominator, high_eq, value_eq, Nat.add_mul]
  exact Nat.add_lt_add_left (Nat.lt_of_lt_of_le (one_lt h) (Nat.le_mul_of_pos_left _ (by omega))) _

/-- The shortest digits make a number in the interval. -/
theorem contains_shortestDigits (d : Double) : (roundingInterval d).Contains
    ((shortestDigits d).1 * gridNumerator (shortestDigits d).2) (gridDenominator (shortestDigits d).2) := by
  have hlast (start : Nat) : (start : Int) - ((start + 359 : Nat) : Int) = -(359 : Nat) := by omega
  unfold shortestDigits
  exact contains_of_onGrid? (onGrid?_shortest _ (hlast _ ▸ isSome_onGrid?_places d (by decide)))

/-! ## Reading the text -/

/-- Digits with or without a point, read as a whole number and the places behind the point. -/
def readPlaces (text : List Char) : Nat × Nat :=
  (ofDigits ((text.filter Char.isDigit).map digitValue), (text.dropWhile Char.isDigit).length - 1)

theorem ofDigits_append_zeros (ds : List Nat) (zeros : Nat) :
    ofDigits (ds ++ List.replicate zeros 0) = ofDigits ds * 10 ^ zeros := by
  induction zeros with
  | zero => simp
  | succ zeros ih =>
    rw [List.replicate_succ', ← List.append_assoc, Nat.pow_succ, ← Nat.mul_assoc, ← ih]
    simp [ofDigits]

theorem ofDigits_zeros_append (zeros : Nat) (ds : List Nat) :
    ofDigits (List.replicate zeros 0 ++ ds) = ofDigits ds := by
  rw [← ofDigits_dropWhile, List.dropWhile_append_of_pos (by simp [List.mem_replicate]), ofDigits_dropWhile]

/-- What stands beside the digits is zeros and a point. -/
theorem of_mem_positional {digits : List Char} {exponent : Int} {c : Char} (h : c ∈ positional digits exponent) :
    c ∈ digits ∨ c = '0' ∨ c = '.' := by
  have hzero (zeros : Nat) (hc : c ∈ List.replicate zeros '0') : c = '0' := List.eq_of_mem_replicate hc
  unfold positional at h
  split at h
  · rcases List.mem_append.1 h with h | h
    · exact .inl h
    · exact .inr (.inl (hzero _ h))
  · dsimp only at h
    split at h
    · rcases List.mem_append.1 h with h | h
      · exact .inl (List.mem_of_mem_take h)
      · rcases List.mem_cons.1 h with h | h
        · exact .inr (.inr h)
        · exact .inl (List.mem_of_mem_drop h)
    · rcases List.mem_cons.1 h with h | h
      · exact .inr (.inl h)
      · rcases List.mem_cons.1 h with h | h
        · exact .inr (.inr h)
        · rcases List.mem_append.1 h with h | h
          · exact .inr (.inl (hzero _ h))
          · exact .inl h

/-- Nothing but digits is a whole number. -/
theorem readPlaces_digits {text : List Char} (h : ∀ c ∈ text, c.isDigit = true) :
    readPlaces text = (ofDigits (text.map digitValue), 0) := by
  have hrest : text.dropWhile Char.isDigit = [] := by
    rw [← List.append_nil text, List.dropWhile_append_of_pos h, List.dropWhile_nil]
  rw [readPlaces, List.filter_eq_self.2 h, hrest]
  rfl

/-- The digits behind a point are places. -/
theorem readPlaces_point {whole fraction : List Char} (hw : ∀ c ∈ whole, c.isDigit = true)
    (hf : ∀ c ∈ fraction, c.isDigit = true) :
    readPlaces (whole ++ '.' :: fraction) = (ofDigits ((whole ++ fraction).map digitValue), fraction.length) := by
  have hpoint : Char.isDigit '.' = false := by decide
  have hfilter : (whole ++ '.' :: fraction).filter Char.isDigit = whole ++ fraction := by
    rw [List.filter_append, List.filter_cons_of_neg (by simp [hpoint]), List.filter_eq_self.2 hw,
      List.filter_eq_self.2 hf]
  rw [readPlaces, hfilter, List.dropWhile_append_of_pos hw, List.dropWhile_cons_of_neg (by simp [hpoint])]
  rfl

/-- Digits in their positions are read as what they stand for. -/
theorem readPlaces_positional (count : Nat) (exponent : Int) :
    (readPlaces (positional (digitsOf count) exponent)).1 * one = count * gridNumerator exponent ∧
      10 ^ (readPlaces (positional (digitsOf count) exponent)).2 = gridDenominator exponent := by
  have hdigits : ∀ c ∈ digitsOf count, c.isDigit = true := fun c => isDigit_of_mem_digitsOf
  have hzeros (zeros : Nat) : ∀ c ∈ List.replicate zeros '0', c.isDigit = true := by
    intro c hc
    rw [List.eq_of_mem_replicate hc]
    decide
  have hvalue : digitValue '0' = 0 := rfl
  have hcount := ofDigits_digitsOf count
  generalize digitsOf count = digits at hdigits hcount
  unfold positional gridNumerator gridDenominator
  split
  · next hexponent =>
    have hneg : ¬ exponent < 0 := by omega
    have habs : exponent.natAbs = exponent.toNat := by omega
    rw [if_neg hneg, if_neg hneg, readPlaces_digits (List.forall_mem_append.2 ⟨hdigits, hzeros _⟩), List.map_append,
      List.map_replicate, hvalue, ofDigits_append_zeros, hcount, habs, Nat.mul_right_comm, Nat.mul_assoc]
    exact ⟨rfl, rfl⟩
  · next hexponent =>
    have hneg : exponent < 0 := by omega
    rw [if_pos hneg, if_pos hneg, Nat.mul_one]
    generalize exponent.natAbs = places
    dsimp only
    split
    · next hplaces =>
      rw [readPlaces_point (fun c hc => hdigits c (List.mem_of_mem_take hc)) fun c hc =>
        hdigits c (List.mem_of_mem_drop hc),
        List.take_append_drop, hcount, List.length_drop, Nat.sub_sub_self (Nat.le_of_lt hplaces)]
      exact ⟨rfl, rfl⟩
    · next hplaces =>
      have htext : '0' :: '.' :: (List.replicate (places - digits.length) '0' ++ digits) =
          List.replicate 1 '0' ++ '.' :: (List.replicate (places - digits.length) '0' ++ digits) := rfl
      rw [htext, readPlaces_point (hzeros 1) (List.forall_mem_append.2 ⟨hzeros _, hdigits⟩), List.map_append,
        List.map_append, List.map_replicate, List.map_replicate, hvalue, ofDigits_zeros_append, ofDigits_zeros_append,
        hcount, List.length_append,
        List.length_replicate, Nat.sub_add_cancel (Nat.le_of_not_lt hplaces)]
      exact ⟨rfl, rfl⟩

end Decimal

namespace Double

/-- The text of a finite double without its sign. -/
def body (d : Double) : List Char :=
  if d.magnitude == 0 then ['0']
  else Decimal.positional (Decimal.digitsOf (Decimal.shortestDigits d).1) (Decimal.shortestDigits d).2

theorem toText_eq {d : Double} (h : d.isFinite = true) :
    d.toText = String.ofList (if d.negative then '-' :: d.body else d.body) := by
  unfold toText body
  rw [isNaN_of_isFinite h, h]
  rfl

/-- The text of a double stands for a number in its interval. -/
theorem contains_body (d : Double) : (Decimal.roundingInterval d).Contains
    ((Decimal.readPlaces d.body).1 * Decimal.one) (10 ^ (Decimal.readPlaces d.body).2) := by
  unfold body
  split
  · next hzero =>
    have hread : Decimal.readPlaces ['0'] = (0, 0) := by decide
    have hmagnitude : d.magnitude = 0 := eq_of_beq hzero
    have hlow : (Decimal.roundingInterval d).low = 0 := by
      rw [Decimal.low_eq, quanta, hmagnitude]
      rfl
    have hclosed : (Decimal.roundingInterval d).closed = true := by
      rw [Decimal.closed_eq, hmagnitude]
      rfl
    rw [hread, Decimal.RoundingInterval.Contains, hclosed, hlow, if_pos rfl, Nat.zero_mul, Nat.zero_mul]
    exact ⟨Nat.le_refl 0, Nat.zero_le _⟩
  · obtain ⟨hnumerator, hdenominator⟩ :=
      Decimal.readPlaces_positional (Decimal.shortestDigits d).1 (Decimal.shortestDigits d).2
    rw [hnumerator, hdenominator]
    exact Decimal.contains_shortestDigits d

/-- There are only digits in the text of a number, and a point. -/
theorem of_mem_body {d : Double} {c : Char} (h : c ∈ d.body) : c.isDigit = true ∨ c = '.' := by
  have hzero : Char.isDigit '0' = true := by decide
  unfold body at h
  split at h
  · rw [List.mem_singleton.1 h]
    exact .inl hzero
  · rcases Decimal.of_mem_positional h with h | h | h
    · exact .inl (Decimal.isDigit_of_mem_digitsOf h)
    · rw [h]
      exact .inl hzero
    · exact .inr h

theorem hyphen_not_mem_body (d : Double) : '-' ∉ d.body := fun h => absurd (of_mem_body h) (by decide)

/-- No two finite doubles have one text. -/
theorem toText_injective {a b : Double} (ha : a.isFinite = true) (hb : b.isFinite = true)
    (h : a.toText = b.toText) : a = b := by
  rw [toText_eq ha, toText_eq hb, String.ofList_inj] at h
  have hsame : a.negative = b.negative ∧ a.body = b.body := by
    have hsign (c d : Double) : '-' :: c.body ≠ d.body := fun he => d.hyphen_not_mem_body (he ▸ List.mem_cons_self)
    cases hna : a.negative <;> cases hnb : b.negative <;> rw [hna, hnb] at h
    · exact ⟨rfl, h⟩
    · exact absurd h.symm (hsign b a)
    · exact absurd h (hsign a b)
    · exact ⟨rfl, (List.cons.inj h).2⟩
  have hmagnitude : a.magnitude = b.magnitude :=
    Decimal.eq_of_contains (Nat.pow_pos (by decide)) a.contains_body (hsame.2 ▸ b.contains_body)
  obtain ⟨negative, magnitude⟩ := a
  exact congr (congrArg Double.mk hsame.1) hmagnitude

end Double

end FeedQuery
