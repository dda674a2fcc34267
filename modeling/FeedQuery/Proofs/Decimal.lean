import Mathlib.Algebra.Group.Nat.Defs
import FeedQuery.Number.Decimal
import FeedQuery.Text.Blank
import FeedQuery.Proofs.Identifier
import FeedQuery.Proofs.Number

/-!
# Every finite double has a text

A finite double is `q / 2 ^ 1074`, which is the decimal number `q * 5 ^ 1074 / 10 ^ 1074`. Written out with all its
digits it is read back as the double that it came from (`Double.ofText?_exactText`), since rounding leaves what needs no
rounding (`BinaryFormat.round_quanta`).
-/

namespace FeedQuery

namespace BinaryFormat

/-- Dividing a multiple of the denominator needs no rounding. -/
theorem divideToEven_mul {n d : Nat} (h : 0 < d) : divideToEven (n * d) d = n := by
  have hne : 0 ≠ d := by omega
  simp [divideToEven, Nat.mul_div_cancel n h, hne]

/-- A significand of 53 bits and an exponent. -/
theorem log2_significand {fraction : Nat} (h : fraction < 2 ^ 52) (exponent : Nat) :
    ((2 ^ 52 + fraction) * 2 ^ exponent).log2 = 52 + exponent := by
  have hpos := Nat.two_pow_pos exponent
  have hlow : 2 ^ 52 * 2 ^ exponent ≤ (2 ^ 52 + fraction) * 2 ^ exponent := Nat.mul_le_mul_right _ (by omega)
  have hhigh : (2 ^ 52 + fraction) * 2 ^ exponent < 2 ^ 53 * 2 ^ exponent := (Nat.mul_lt_mul_right hpos).2 (by omega)
  rw [← Nat.pow_add] at hlow hhigh
  have hnext : 52 + exponent + 1 = 53 + exponent := by omega
  have hne : (2 ^ 52 + fraction) * 2 ^ exponent ≠ 0 := Nat.ne_of_gt (Nat.mul_pos (by omega) hpos)
  rw [Nat.log2_eq_iff hne, hnext]
  exact ⟨hlow, hhigh⟩

/-- The multiples that a magnitude stands for, by the power of two that a fraction is. -/
theorem quanta_eq (format : BinaryFormat) (magnitude : Nat) :
    format.quanta magnitude =
      let unit := 2 ^ format.fractionBits
      if magnitude < unit then magnitude else (unit + magnitude % unit) * 2 ^ (magnitude / unit - 1) := rfl

theorem quanta_pos {magnitude : Nat} (h : magnitude ≠ 0) : 0 < double.quanta magnitude := by
  have hbits : double.fractionBits = 52 := rfl
  rw [quanta_eq, hbits]
  dsimp only
  split
  · omega
  · exact Nat.mul_pos (by omega) (Nat.two_pow_pos _)

theorem quanta_lt {magnitude : Nat} (h : magnitude < double.infinity) :
    double.quanta magnitude < 2 ^ (1024 + double.scale) := by
  have hbits : double.fractionBits = 52 := rfl
  have hinfinity : double.infinity = 2047 * 2 ^ 52 := rfl
  rw [quanta_eq, hbits]
  dsimp only
  split
  · next hsmall => exact Nat.lt_of_lt_of_le hsmall (Nat.pow_le_pow_right (by decide) (by decide))
  · have hmod := Nat.mod_lt magnitude (Nat.two_pow_pos 52)
    have hexponent : magnitude / 2 ^ 52 - 1 ≤ 2045 := by omega
    have hsum : 1024 + double.scale = 53 + 2045 := rfl
    rw [hsum]
    generalize 2045 = largest at hexponent
    rw [Nat.pow_add]
    exact Nat.mul_lt_mul_of_lt_of_le (by omega) (Nat.pow_le_pow_right (by decide) hexponent) (Nat.two_pow_pos largest)

/-- What a magnitude stands for is rounded to the magnitude. -/
theorem round_quanta {magnitude : Nat} (h : magnitude < double.infinity) :
    double.round (double.quanta magnitude * 5 ^ double.scale) (10 ^ double.scale) = magnitude := by
  have hpos : 0 < 10 ^ double.scale := Nat.pow_pos (by decide)
  have hten : 5 ^ double.scale * 2 ^ double.scale = 10 ^ double.scale := by rw [← Nat.mul_pow]
  have hbits : double.fractionBits = 52 := rfl
  rw [round_eq, quanta_eq, Nat.mul_assoc, hten, hbits]
  generalize 10 ^ double.scale = ten at hpos
  dsimp only
  split
  · next hsmall =>
    have hlog : magnitude.log2 - 52 = 0 := by
      rcases Nat.eq_zero_or_pos magnitude with rfl | hm
      · rfl
      · have := (Nat.log2_lt (by omega)).2 hsmall
        omega
    rw [Nat.mul_div_cancel _ hpos, hlog, Nat.pow_zero, Nat.mul_one, divideToEven_mul hpos]
    omega
  · next hlarge =>
    have hdiv := Nat.div_add_mod magnitude (2 ^ 52)
    have hmod := Nat.mod_lt magnitude (Nat.two_pow_pos 52)
    have hunit : 0 < magnitude / 2 ^ 52 := Nat.div_pos (by omega) (Nat.two_pow_pos 52)
    generalize magnitude / 2 ^ 52 = exponent at hdiv hunit ⊢
    generalize magnitude % 2 ^ 52 = fraction at hdiv hmod ⊢
    have hshift := Nat.mul_pos hpos (Nat.two_pow_pos (exponent - 1))
    rw [Nat.mul_div_cancel _ hpos, log2_significand hmod, Nat.add_sub_cancel_left, Nat.mul_assoc, Nat.mul_comm _ ten,
      divideToEven_mul hshift]
    omega

end BinaryFormat

namespace Decimal

/-- Digits make a number below the power of ten of their count. -/
theorem ofDigits_lt {ds : List Nat} (h : ∀ d ∈ ds, d < 10) : ofDigits ds < 10 ^ ds.length := by
  have hfold : ∀ acc, ds.foldl (fun value d => value * 10 + d) acc < (acc + 1) * 10 ^ ds.length := by
    induction ds with
    | nil => simp
    | cons d rest ih =>
      intro acc
      have hd := h d List.mem_cons_self
      have hrest := ih (fun e he => h e (List.mem_cons_of_mem d he)) (acc * 10 + d)
      have hacc : acc * 10 + d + 1 ≤ (acc + 1) * 10 := by omega
      have hpow := Nat.mul_le_mul_right (10 ^ rest.length) hacc
      rw [List.foldl_cons, List.length_cons, Nat.pow_succ, Nat.mul_comm (10 ^ rest.length) 10, ← Nat.mul_assoc]
      exact Nat.lt_of_lt_of_le hrest hpow
  simpa [ofDigits] using hfold 0

/-- Zeros at the front of digits count for nothing. -/
theorem ofDigits_dropWhile (ds : List Nat) : ofDigits (ds.dropWhile (· == 0)) = ofDigits ds := by
  induction ds with
  | nil => rfl
  | cons d rest ih =>
    by_cases hd : d = 0
    · subst hd
      rw [List.dropWhile_cons_of_pos (by simp), ih]
      rfl
    · rw [List.dropWhile_cons_of_neg (by simpa using hd)]

/-- The digits of a number are read as the number. -/
theorem ofDigits_digitsOf (n : Nat) : ofDigits ((digitsOf n).map digitValue) = n := by
  have hfold : ∀ (text : List Char) acc, (text.map digitValue).foldl (fun value d => value * 10 + d) acc =
      Nat.ofDigitChars 10 text acc := by
    intro text
    induction text with
    | nil => simp
    | cons c rest ih =>
      intro acc
      rw [List.map_cons, List.foldl_cons, ih, Nat.ofDigitChars_cons, Nat.mul_comm acc 10]
      rfl
  rw [ofDigits, hfold]
  exact Nat.ofDigitChars_ten_toDigits

theorem toNat_of_isDigit {c : Char} (h : c.isDigit = true) : 48 ≤ c.toNat ∧ c.toNat ≤ 57 := by
  simpa [Char.isDigit, UInt32.le_iff_toNat_le] using h

theorem digitValue_lt {c : Char} (h : c.isDigit = true) : digitValue c < 10 := by
  have hc := toNat_of_isDigit h
  have hzero : '0'.toNat = 48 := rfl
  rw [digitValue, hzero]
  omega

theorem isDigit_of_mem_digitsOf {n : Nat} {c : Char} (h : c ∈ digitsOf n) : c.isDigit = true :=
  Nat.isDigit_of_mem_toDigits (by decide) (by decide) h

/-- Digits that are followed by something else are read up to there. -/
theorem spanDigits_append {digits rest : List Char} (hd : ∀ c ∈ digits, c.isDigit = true)
    (hrest : ∀ c, rest.head? = some c → c.isDigit = false) :
    spanDigits (digits ++ rest) = (digits.map digitValue, rest) := by
  rw [spanDigits, List.takeWhile_append_of_pos hd, List.dropWhile_append_of_pos hd]
  cases rest with
  | nil => simp
  | cons c rest =>
    have hc := hrest c rfl
    rw [List.takeWhile_cons_of_neg (by simp [hc]), List.dropWhile_cons_of_neg (by simp [hc]), List.append_nil]

/-- The digits of a number of a known size, zeros at the front apart. -/
theorem length_dropWhile_digitsOf {n low high : Nat} (hlow : 10 ^ low ≤ n) (hhigh : n < 10 ^ high) (hpos : 0 < high) :
    low < (((digitsOf n).map digitValue).dropWhile (· == 0)).length ∧
      (((digitsOf n).map digitValue).dropWhile (· == 0)).length ≤ high := by
  have hsub : (((digitsOf n).map digitValue).dropWhile (· == 0)).Sublist ((digitsOf n).map digitValue) :=
    List.dropWhile_sublist _
  constructor
  · have hlt : ∀ d ∈ ((digitsOf n).map digitValue).dropWhile (· == 0), d < 10 := by
      intro d hd
      obtain ⟨c, hc, rfl⟩ := List.mem_map.1 (hsub.subset hd)
      exact digitValue_lt (isDigit_of_mem_digitsOf hc)
    have hn := ofDigits_lt hlt
    rw [ofDigits_dropWhile, ofDigits_digitsOf] at hn
    exact (Nat.pow_lt_pow_iff_right (by decide)).1 (Nat.lt_of_le_of_lt hlow hn)
  · have hlen : ((digitsOf n).map digitValue).length ≤ high := by
      rw [List.length_map]
      exact (Nat.length_toDigits_le_iff (by decide) hpos).2 hhigh
    exact Nat.le_trans hsub.length_le hlen

/-- A number too large or too small to be one was left out: the rest is read as a ratio. -/
theorem toDouble_of_lt {negative : Bool} {n : Nat} {scale low high : Nat} (hlow : 10 ^ low ≤ n) (hhigh : n < 10 ^ high)
    (hs : 0 < scale) (hl : scale ≤ low + 400) (hh : high ≤ scale + 400) :
    toDouble negative ((digitsOf n).map digitValue) (-scale) = .ofRatio negative n (10 ^ scale) := by
  have hne : n ≠ 0 := Nat.ne_of_gt (Nat.lt_of_lt_of_le (Nat.pow_pos (by decide)) hlow)
  have hpos : 0 < high := by
    rcases Nat.eq_zero_or_pos high with rfl | h
    · omega
    · exact h
  obtain ⟨hmin, hmax⟩ := length_dropWhile_digitsOf hlow hhigh hpos
  unfold toDouble
  rw [ofDigits_digitsOf]
  generalize (((digitsOf n).map digitValue).dropWhile (· == 0)).length = length at hmin hmax
  have hsmall : ¬ ((length : Int) + -scale < -400) := by omega
  have hlarge : ¬ ((length : Int) + -scale > 400) := by omega
  have hscale : scale ≠ 0 := by omega
  simp [hne, hsmall, hlarge, hscale]

/-- Digits and the exponent `-1074` are read together. -/
theorem readUnsigned?_digits {text : List Char} (hd : ∀ c ∈ text, c.isDigit = true) (hne : text ≠ [])
    (negative : Bool) :
    readUnsigned? negative (text ++ ['e', '-', '1', '0', '7', '4']) =
      some (toDouble negative (text.map digitValue) (-1074)) := by
  have hspan : spanDigits (text ++ ['e', '-', '1', '0', '7', '4']) =
      (text.map digitValue, ['e', '-', '1', '0', '7', '4']) := by
    refine spanDigits_append hd fun c hc => ?_
    obtain rfl := Option.some.inj hc
    decide
  have hexponent : readExponent? ['e', '-', '1', '0', '7', '4'] = some (-1074) := by decide
  unfold readUnsigned?
  simp [hspan, hne, hexponent]

/-- Powers of ten are below somewhat higher powers of five. -/
theorem ten_pow_le {a b : Nat} (h : a ≤ 2 * b) : 10 ^ a ≤ 5 ^ (b + a) := by
  calc 10 ^ a = 2 ^ a * 5 ^ a := by rw [← Nat.mul_pow]
    _ ≤ (2 ^ 2) ^ b * 5 ^ a := by
      rw [← Nat.pow_mul]
      exact Nat.mul_le_mul_right _ (Nat.pow_le_pow_right (by decide) h)
    _ ≤ 5 ^ b * 5 ^ a := Nat.mul_le_mul_right _ (Nat.pow_le_pow_left (by decide) b)
    _ = 5 ^ (b + a) := (Nat.pow_add 5 b a).symm

/-- A number below a power of two is below a power of ten once it is multiplied by a power of five. -/
theorem mul_five_pow_lt {n a b scale : Nat} (h : n < 2 ^ (a + scale)) (hab : a ≤ 3 * b) :
    n * 5 ^ scale < 10 ^ (b + scale) := by
  have htwo : 2 ^ a ≤ 10 ^ b := by
    calc 2 ^ a ≤ 2 ^ (3 * b) := Nat.pow_le_pow_right (by decide) hab
      _ = (2 ^ 3) ^ b := Nat.pow_mul 2 3 b
      _ ≤ 10 ^ b := Nat.pow_le_pow_left (by decide) b
  calc n * 5 ^ scale < 2 ^ (a + scale) * 5 ^ scale := (Nat.mul_lt_mul_right (Nat.pow_pos (by decide))).2 h
    _ = 2 ^ a * 10 ^ scale := by rw [Nat.pow_add, Nat.mul_assoc, ← Nat.mul_pow]
    _ ≤ 10 ^ b * 10 ^ scale := Nat.mul_le_mul_right _ htwo
    _ = 10 ^ (b + scale) := (Nat.pow_add 10 b scale).symm

end Decimal

namespace Double

open BinaryFormat (double)

/-- The decimal digits of a finite double, times ten to the scale of the format. -/
def exactDigits (v : Double) : List Char := Decimal.digitsOf (v.quanta * 5 ^ double.scale)

/-- A finite double without its sign, with all its digits. -/
def exactBody (v : Double) : List Char := v.exactDigits ++ ['e', '-', '1', '0', '7', '4']

/-- A finite double with all its digits. -/
def exactText (v : Double) : String := String.ofList (if v.negative then '-' :: v.exactBody else v.exactBody)

/-- The digits of a finite double that is not zero are many, but not too many. -/
theorem exactDigits_bounds {v : Double} (h : v.isFinite = true) (hne : v.magnitude ≠ 0) {low : Nat}
    (hlow : double.scale = 400 + low) (hsmall : low ≤ 2 * 400) :
    10 ^ low ≤ v.quanta * 5 ^ double.scale ∧ v.quanta * 5 ^ double.scale < 10 ^ (400 + double.scale) := by
  have hquanta : v.quanta < 2 ^ (1024 + double.scale) := BinaryFormat.quanta_lt (of_decide_eq_true h)
  have hten := Decimal.ten_pow_le hsmall
  rw [← hlow] at hten
  exact ⟨Nat.le_trans hten (Nat.le_mul_of_pos_left _ (BinaryFormat.quanta_pos hne)),
    Decimal.mul_five_pow_lt hquanta (by decide)⟩

/-- The digits of a finite double are read back. -/
theorem toDouble_exactDigits {v : Double} (h : v.isFinite = true) (negative : Bool) :
    Decimal.toDouble negative (v.exactDigits.map Decimal.digitValue) (-double.scale) = ⟨negative, v.magnitude⟩ := by
  by_cases hne : v.magnitude = 0
  · have hzero : v.quanta * 5 ^ double.scale = 0 := by
      have hquanta : v.quanta = 0 := by
        rw [quanta, hne]
        rfl
      rw [hquanta, Nat.zero_mul]
    rw [exactDigits, hzero, hne]
    rfl
  · have hscale : double.scale = 400 + 674 := rfl
    obtain ⟨hlow, hhigh⟩ := exactDigits_bounds h hne hscale (by decide)
    rw [exactDigits, Decimal.toDouble_of_lt hlow hhigh (by decide) (by decide) (by decide), ofRatio]
    exact congrArg (Double.mk negative) (BinaryFormat.round_quanta (of_decide_eq_true h))

theorem readUnsigned?_exactBody {v : Double} (h : v.isFinite = true) (negative : Bool) :
    Decimal.readUnsigned? negative v.exactBody = some ⟨negative, v.magnitude⟩ := by
  have hdigits : ∀ c ∈ v.exactDigits, c.isDigit = true := fun c => Decimal.isDigit_of_mem_digitsOf
  have hne : v.exactDigits ≠ [] := Nat.toDigits_ne_nil
  rw [exactBody, Decimal.readUnsigned?_digits hdigits hne, ← toDouble_exactDigits h negative]
  rfl

/-- A finite double without its sign begins with a digit. -/
theorem exists_exactBody (v : Double) : ∃ c rest, v.exactBody = c :: rest ∧ c.isDigit = true := by
  have hdigits : ∀ c ∈ v.exactDigits, c.isDigit = true := fun c => Decimal.isDigit_of_mem_digitsOf
  have hne : v.exactDigits ≠ [] := Nat.toDigits_ne_nil
  unfold exactBody
  generalize v.exactDigits = text at hdigits hne
  cases text with
  | nil => exact absurd rfl hne
  | cons c rest => exact ⟨c, _, rfl, hdigits c List.mem_cons_self⟩

/-- A text whose first character is a digit is no name of a value. -/
theorem readDouble?_of_isDigit {negative : Bool} {text rest : List Char} {c : Char} (hc : c.isDigit = true)
    (h : Decimal.readSign text = (negative, c :: rest)) :
    Decimal.readDouble? text = Decimal.readUnsigned? negative (c :: rest) := by
  have hlower : Decimal.lower c = c := by
    have hn := Decimal.toNat_of_isDigit hc
    unfold Decimal.lower Char.toLower
    split
    · next hupper =>
      have : 65 ≤ c.toNat := hupper.1
      omega
    · rfl
  have hne (first : Char) (name : List Char) (hfirst : first.isDigit = false) :
      String.ofList ((c :: rest).map Decimal.lower) ≠ String.ofList (first :: name) := by
    intro he
    have hlist := congrArg String.toList he
    rw [String.toList_ofList, String.toList_ofList, List.map_cons, hlower, List.cons.injEq] at hlist
    rw [hlist.1, hfirst] at hc
    simp at hc
  unfold Decimal.readDouble?
  rw [h]
  dsimp only
  split
  · next he => exact absurd he (hne 'i' ['n', 'f'] (by decide))
  · next he => exact absurd he (hne 'i' ['n', 'f', 'i', 'n', 'i', 't', 'y'] (by decide))
  · next he => exact absurd he (hne 'n' ['a', 'n'] (by decide))
  · rfl

/-- A finite double is read back from the text with all its digits. -/
theorem ofText?_exactText {v : Double} (h : v.isFinite = true) : ofText? (Text.trim v.exactText) = some v := by
  obtain ⟨c, rest, hbody, hc⟩ := v.exists_exactBody
  have hblank : Text.isBlank c = false := by
    have hn := Decimal.toNat_of_isDigit hc
    simp only [Text.isBlank]
    generalize c.toNat = n at hn
    simp only [Bool.or_eq_false_iff, Bool.and_eq_false_iff, decide_eq_false_iff_not, beq_eq_false_iff_ne]
    omega
  have hlast : v.exactBody.getLast? = some '4' := by simp [exactBody, List.getLast?_append]
  have hsigned : ∃ text, v.exactText = String.ofList text ∧ Decimal.readSign text = (v.negative, c :: rest) ∧
      (∀ d, text.head? = some d → Text.isBlank d = false) ∧ ∀ d, text.getLast? = some d → Text.isBlank d = false := by
    unfold exactText
    rw [hbody] at hlast ⊢
    cases v.negative with
    | true =>
      refine ⟨'-' :: c :: rest, rfl, rfl, ?_, ?_⟩
      · intro d hd
        obtain rfl := Option.some.inj hd
        decide
      · intro d hd
        rw [List.getLast?_cons_cons, hlast] at hd
        obtain rfl := Option.some.inj hd
        decide
    | false =>
      refine ⟨c :: rest, rfl, ?_, ?_, ?_⟩
      · unfold Decimal.readSign
        split
        · next he => simp_all
        · next he => simp_all
        · rfl
      · intro d hd
        obtain rfl := Option.some.inj hd
        exact hblank
      · intro d hd
        rw [hlast] at hd
        obtain rfl := Option.some.inj hd
        decide
  obtain ⟨text, htext, hsign, hfirst, hend⟩ := hsigned
  rw [ofText?, htext, Text.trim, String.toList_ofList, String.toList_ofList, Text.trimList_eq_self hfirst hend,
    readDouble?_of_isDigit hc hsign, ← hbody, readUnsigned?_exactBody h]

end Double

end FeedQuery
