import Mathlib.Data.List.DropRight
import FeedQuery.Instant
import FeedQuery.Proofs.Calendar
import FeedQuery.Proofs.NumberText

/-!
# Instants as text

A clock shows at an instant the reading that the instant was made from (`Instant.reading_ofReading`). Whatever text is
read as an instant gives a valid reading of a year of four digits and an offset of less than a day
(`Instant.isShown_of_ofText?`): a leap second too, which is read as the nanosecond before it. Such an instant is written
as a text that is read back as the same instant, its offset included (`Instant.ofText?_toText`).
-/

namespace FeedQuery

namespace Instant

/-! ## Digits of a width -/

section Padded

variable {width value : Nat}

theorem isDigit_of_mem_padded {c : Char} (h : c ∈ padded width value) : c.isDigit = true := by
  rcases List.mem_append.1 h with h | h
  · rw [List.eq_of_mem_replicate h]
    decide
  · exact Decimal.isDigit_of_mem_digitsOf h

theorem length_padded (hpos : 0 < width) (h : value < 10 ^ width) : (padded width value).length = width := by
  have hlength : (Decimal.digitsOf value).length ≤ width := (Nat.length_toDigits_le_iff (by decide) hpos).2 h
  rw [padded, List.length_append, List.length_replicate]
  omega

variable (width value) in
/-- Zeros at the front do not change the number. -/
theorem ofDigits_padded : Decimal.ofDigits ((padded width value).map Decimal.digitValue) = value := by
  have hzero : Decimal.digitValue '0' = 0 := rfl
  rw [padded, List.map_append, List.map_replicate, hzero, Decimal.ofDigits_zeros_append, Decimal.ofDigits_digitsOf]

/-- A number that was written with a width is read with that width, and what follows it is left. -/
theorem readDigits?_padded (hpos : 0 < width) (h : value < 10 ^ width) (rest : List Char) :
    readDigits? width (padded width value ++ rest) = some (value, rest) := by
  have hlength := length_padded hpos h
  have htake : (padded width value ++ rest).take width = padded width value := List.take_left' hlength
  have hdrop : (padded width value ++ rest).drop width = rest := List.drop_left' hlength
  have hdigits : (padded width value).all Char.isDigit = true := List.all_eq_true.2 fun c => isDigit_of_mem_padded
  unfold readDigits?
  simp only [htake, hdrop, hlength, hdigits, and_self, if_true, ofDigits_padded]

/-- So many digits make a number of that width. -/
theorem lt_of_readDigits? {text rest : List Char} (h : readDigits? width text = some (value, rest)) :
    value < 10 ^ width := by
  simp only [readDigits?, Option.ite_none_right_eq_some, Option.some.injEq, Prod.mk.injEq, List.all_eq_true] at h
  obtain ⟨⟨hlength, hdigits⟩, rfl, -⟩ := h
  have hlt : ∀ d ∈ (text.take width).map Decimal.digitValue, d < 10 := by
    intro d hd
    obtain ⟨c, hc, rfl⟩ := List.mem_map.1 hd
    exact Decimal.digitValue_lt (hdigits c hc)
  have hvalue := Decimal.ofDigits_lt hlt
  rwa [List.length_map, hlength] at hvalue

end Padded

/-! ## Fractions -/

/-- Characters without the zeros at their end, and the zeros. -/
theorem exists_zeros (text : List Char) : ∃ zeros, text = text.rdropWhile (· == '0') ++ List.replicate zeros '0' := by
  induction text using List.reverseRecOn with
  | nil => exact ⟨0, rfl⟩
  | append_singleton text c ih =>
    rw [List.rdropWhile_concat]
    split
    · next hc =>
      obtain ⟨zeros, htext⟩ := ih
      refine ⟨zeros + 1, ?_⟩
      rw [List.replicate_succ', ← List.append_assoc, ← htext, eq_of_beq hc]
    · exact ⟨0, (List.append_nil _).symm⟩

/-- What may follow the seconds of a text: neither a digit nor a point. -/
def EndsSeconds (rest : List Char) : Prop := ∀ c, rest.head? = some c → c.isDigit = false ∧ c ≠ '.'

/-- At most nine digits behind a point count nanoseconds from the highest place down. -/
theorem readFraction?_point {kept rest : List Char} (hdigits : ∀ c ∈ kept, c.isDigit = true) (hne : kept ≠ [])
    (hlength : kept.length ≤ 9) (hrest : EndsSeconds rest) : readFraction? ('.' :: (kept ++ rest)) =
      some (Decimal.ofDigits (kept.map Decimal.digitValue) * 10 ^ (9 - kept.length), rest) := by
  have hspan := Decimal.spanDigits_append hdigits fun c hc => (hrest c hc).1
  have htake : (kept.map Decimal.digitValue).take 9 = kept.map Decimal.digitValue :=
    List.take_of_length_le (by rwa [List.length_map])
  rw [readFraction?, hspan]
  cases kept with
  | nil => exact absurd rfl hne
  | cons c kept =>
    rw [List.map_cons] at htake ⊢
    dsimp only
    rw [htake, List.length_cons, List.length_map]
    rfl

/-- A fraction is written with a point and the nine digits of its nanoseconds, less the zeros at their end. -/
theorem exists_fractionText {nano : Nat} (hne : nano ≠ 0) (h : nano < 10 ^ 9) :
    ∃ kept, fractionText nano = '.' :: kept ∧
    (∀ c ∈ kept, c.isDigit = true) ∧ kept.length ≤ 9 ∧
      Decimal.ofDigits (kept.map Decimal.digitValue) * 10 ^ (9 - kept.length) = nano := by
  obtain ⟨zeros, hzeros⟩ := exists_zeros (padded 9 nano)
  have htext : fractionText nano = '.' :: (padded 9 nano).rdropWhile (· == '0') := if_neg hne
  have hdigits : ∀ c ∈ padded 9 nano, c.isDigit = true := fun c => isDigit_of_mem_padded
  have hlength := length_padded (by decide) h
  have hvalue := ofDigits_padded 9 nano
  have hzero : Decimal.digitValue '0' = 0 := rfl
  rw [htext]
  generalize (padded 9 nano).rdropWhile (· == '0') = kept at hzeros
  rw [hzeros] at hdigits hlength hvalue
  rw [List.map_append, List.map_replicate, hzero, Decimal.ofDigits_append_zeros] at hvalue
  rw [List.length_append, List.length_replicate] at hlength
  have hplaces : 9 - kept.length = zeros := by omega
  refine ⟨kept, rfl, fun c hc => hdigits c (List.mem_append_left _ hc), by omega, ?_⟩
  rw [hplaces, hvalue]

/-- A fraction of a second is read back with all its nanoseconds. -/
theorem readFraction?_fractionText {nano : Nat} (h : nano < 10 ^ 9) {rest : List Char} (hrest : EndsSeconds rest) :
    readFraction? (fractionText nano ++ rest) = some (nano, rest) := by
  by_cases hne : nano = 0
  · have htext : fractionText nano = [] := if_pos hne
    rw [htext, List.nil_append, hne]
    cases rest with
    | nil => rfl
    | cons c rest =>
      have hpoint := (hrest c rfl).2
      simp [readFraction?, hpoint]
  · obtain ⟨kept, htext, hdigits, hlength, hvalue⟩ := exists_fractionText hne h
    have hkept : kept ≠ [] := by
      intro hnil
      rw [hnil] at hvalue
      exact hne hvalue.symm
    rw [htext, List.cons_append, readFraction?_point hdigits hkept hlength hrest, hvalue]

/-- A fraction is less than a second, however many digits it has. -/
theorem lt_of_readFraction? {text rest : List Char} {nano : Nat} (h : readFraction? text = some (nano, rest)) :
    nano < 10 ^ 9 := by
  unfold readFraction? at h
  split at h
  · next text =>
    dsimp only at h
    split at h
    · next d ds after hspan =>
      obtain ⟨hdigits, -⟩ := Prod.mk.inj hspan
      obtain ⟨rfl, -⟩ := Prod.mk.inj (Option.some.inj h)
      have hlt : Decimal.ofDigits ((d :: ds).take 9) < 10 ^ ((d :: ds).take 9).length := by
        refine Decimal.ofDigits_lt fun digit hmem => ?_
        have hdigit := List.mem_of_mem_take hmem
        rw [← hdigits] at hdigit
        obtain ⟨c, hc, rfl⟩ := List.mem_map.1 hdigit
        exact Decimal.digitValue_lt (List.mem_takeWhile_imp hc)
      have hlength : ((d :: ds).take 9).length ≤ 9 := List.length_take_le _ _
      calc Decimal.ofDigits ((d :: ds).take 9) * 10 ^ (9 - ((d :: ds).take 9).length)
          < 10 ^ ((d :: ds).take 9).length * 10 ^ (9 - ((d :: ds).take 9).length) :=
            (Nat.mul_lt_mul_right (Nat.pow_pos (by decide))).2 hlt
        _ = 10 ^ 9 := by rw [← Nat.pow_add, Nat.add_sub_cancel' hlength]
    · cases h
  · obtain ⟨rfl, -⟩ := Prod.mk.inj (Option.some.inj h)
    decide

/-! ## Offsets -/

/-- A sign, hours and minutes are read as so many minutes. -/
theorem readOffset?_signed {hour minute : Nat} (hhour : hour ≤ 23) (hminute : minute ≤ 59) (negative : Bool) :
    readOffset? ((if negative then '-' else '+') :: (padded 2 hour ++ ':' :: padded 2 minute)) =
      some (if negative then -(hour * 60 + minute : Int) else hour * 60 + minute) := by
  have hread := readDigits?_padded (by decide) (by omega : hour < 10 ^ 2) (':' :: padded 2 minute)
  have hlast := readDigits?_padded (by decide) (by omega : minute < 10 ^ 2) []
  rw [List.append_nil] at hlast
  cases negative <;> simp [readOffset?, hread, hlast, expect?, hhour, hminute]

/-- An offset of less than a day is read back. -/
theorem readOffset?_offsetText {offset : Int} (h : offset.natAbs < 1440) :
    readOffset? (offsetText offset) = some offset := by
  by_cases hzero : offset = 0
  · subst hzero
    rfl
  · have htext : offsetText offset =
        (if offset < 0 then '-' else '+') :: (padded 2 (offset.natAbs / 60) ++ ':' :: padded 2 (offset.natAbs % 60)) :=
          if_neg hzero
    have hread := readOffset?_signed (by omega : offset.natAbs / 60 ≤ 23) (by omega : offset.natAbs % 60 ≤ 59)
      (decide (offset < 0))
    simp only [decide_eq_true_eq] at hread
    rw [htext, hread, Option.some.injEq]
    split <;> omega

/-- The offset that is read from a text is less than a day. -/
theorem natAbs_lt_of_readOffset? {text : List Char} {offset : Int} (h : readOffset? text = some offset) :
    offset.natAbs < 1440 := by
  unfold readOffset? at h
  split at h
  · cases h
    decide
  · cases h
    decide
  · -- a minus, a plus, or no sign at all
    split at h
    on_goal 2 => split at h
    on_goal 3 => cases h
    all_goals
      simp only [Option.bind_eq_bind, Option.bind_some, Option.bind_eq_some_iff, Option.ite_none_right_eq_some,
        Option.some.injEq] at h
      obtain ⟨⟨hour, rest⟩, -, rest', -, ⟨minute, rest''⟩, -, ⟨-, hhour, hminute⟩, rfl⟩ := h
      dsimp only at hhour hminute ⊢
      omega
  · cases h

theorem endsSeconds_offsetText (offset : Int) : EndsSeconds (offsetText offset) := by
  intro c hc
  unfold offsetText at hc
  split at hc
  · obtain rfl := Option.some.inj hc
    decide
  · obtain rfl := Option.some.inj hc
    split <;> decide

/-! ## Dates -/

/-- A valid date of a year of four digits is read back. -/
theorem readDate?_padded {d : Date} (h : d.isValid = true) (hfrom : 0 ≤ d.year) (hto : d.year ≤ 9999)
    (rest : List Char) :
    readDate? (padded 4 d.year.toNat ++ '-' :: (padded 2 d.month ++ '-' :: (padded 2 d.day ++ rest))) =
      some (d, rest) := by
  obtain ⟨hmonth, hday⟩ := Date.le_of_isValid h
  have hyear : d.year.toNat < 10 ^ 4 := by omega
  have hdate : (⟨d.year.toNat, d.month, d.day⟩ : Date) = d := by
    rw [Int.toNat_of_nonneg hfrom]
  have hhyphen (text : List Char) : expect? '-' ('-' :: text) = some text := rfl
  unfold readDate?
  simp only [Option.bind_eq_bind, readDigits?_padded (by decide) hyear,
    readDigits?_padded (by decide) (by omega : d.month < 10 ^ 2),
    readDigits?_padded (by decide) (by omega : d.day < 10 ^ 2), hhyphen, Option.bind_some, hdate, h, if_true]

/-- A date that is read is valid, and its year has four digits. -/
theorem isValid_of_readDate? {text rest : List Char} {d : Date} (h : readDate? text = some (d, rest)) :
    d.isValid = true ∧ 0 ≤ d.year ∧ d.year ≤ 9999 := by
  simp only [readDate?, Option.bind_eq_bind, Option.bind_eq_some_iff, Option.ite_none_right_eq_some, Option.some.injEq,
    Prod.mk.injEq] at h
  obtain ⟨⟨year, _⟩, hyear, _, -, ⟨month, _⟩, -, _, -, ⟨day, _⟩, -, hvalid, rfl, -⟩ := h
  have hlt := lt_of_readDigits? hyear
  refine ⟨hvalid, ?_, ?_⟩ <;> dsimp only <;> omega

/-! ## Readings -/

/-- A reading that a clock can show in a year of four digits. -/
structure Reading.IsValid (r : Reading) : Prop where
  date : r.date.isValid = true
  yearFrom : 0 ≤ r.date.year
  yearTo : r.date.year ≤ 9999
  hour : r.hour ≤ 23
  minute : r.minute ≤ 59
  second : r.second ≤ 59
  nano : r.nano < 10 ^ 9

theorem nanosPerDay_eq : nanosPerDay = 86400000000000 := rfl

theorem nanosPerMinute_eq : nanosPerMinute = 60000000000 := rfl

theorem nanosPerSecond_eq : nanosPerSecond = 1000000000 := rfl

/-- On the clock that shows a reading, the nanoseconds since 1970 are those of the days before and those of the day. -/
theorem local_ofReading (r : Reading) (offset : Int) : (ofReading r offset).nanos + offset * nanosPerMinute =
    (r.date.number - epochDay) * nanosPerDay +
    (((r.hour * 60 + r.minute) * 60 + r.second) * 1000000000 + r.nano : Nat) := by
  simp only [ofReading, nanosPerDay_eq, nanosPerMinute_eq, nanosPerSecond_eq]
  omega

/-- A clock shows the reading that an instant was made from. -/
theorem reading_ofReading {r : Reading} (h : r.IsValid) (offset : Int) : (ofReading r offset).reading = r := by
  have hlocal := local_ofReading r offset
  have hoffset : (ofReading r offset).offset = offset := rfl
  have hunit : nanosPerSecond.toNat = 1000000000 := rfl
  have hdate := Date.ofNumber_number h.date
  obtain ⟨date, hour, minute, second, nano⟩ := r
  obtain ⟨-, -, -, hhour, hminute, hsecond, hnano⟩ := h
  unfold reading readingAt
  rw [hoffset, hlocal, hunit]
  dsimp only at hdate hhour hminute hsecond hnano ⊢
  generalize hinDay : ((hour * 60 + minute) * 60 + second) * 1000000000 + nano = inDay
  have hday : ((date.number - epochDay) * nanosPerDay + (inDay : Int)) / nanosPerDay + epochDay = date.number := by
    rw [nanosPerDay_eq]
    omega
  have htime : (((date.number - epochDay) * nanosPerDay + (inDay : Int)) % nanosPerDay).toNat = inDay := by
    rw [nanosPerDay_eq]
    omega
  rw [hday, htime, hdate, Reading.mk.injEq]
  refine ⟨rfl, ?_, ?_, ?_, ?_⟩ <;> omega

/-! ## Texts -/

/-- An instant that a clock shows: in a year of four digits, less than a day ahead of UTC or behind. -/
def IsShown (t : Instant) : Prop :=
  ∃ (r : Reading) (offset : Int), r.IsValid ∧ offset.natAbs < 1440 ∧ t = ofReading r offset

/-- The text of a reading and an offset. -/
def Reading.text (r : Reading) (offset : Int) : List Char :=
  padded 4 r.date.year.toNat ++ '-' :: (padded 2 r.date.month ++ '-' :: (padded 2 r.date.day ++ 'T' ::
    (padded 2 r.hour ++ ':' ::
      (padded 2 r.minute ++ ':' :: (padded 2 r.second ++ fractionText r.nano ++ offsetText offset)))))

theorem toList?_ofReading {r : Reading} (h : r.IsValid) (offset : Int) :
    (ofReading r offset).toList? = some (r.text offset) := by
  have hyear : 0 ≤ r.date.year ∧ r.date.year ≤ 9999 := ⟨h.yearFrom, h.yearTo⟩
  have hoffset : (ofReading r offset).offset = offset := rfl
  unfold toList?
  rw [reading_ofReading h, hoffset]
  exact if_pos hyear

/-- The text of a valid reading is read as the instant at which a clock shows it. -/
theorem ofList?_text {r : Reading} (h : r.IsValid) {offset : Int} (hoffset : offset.natAbs < 1440) :
    ofList? (r.text offset) = some (ofReading r offset) := by
  have hhour : r.hour < 10 ^ 2 := Nat.lt_of_le_of_lt h.hour (by decide)
  have hminute : r.minute < 10 ^ 2 := Nat.lt_of_le_of_lt h.minute (by decide)
  have hsecond : r.second < 10 ^ 2 := Nat.lt_of_le_of_lt h.second (by decide)
  have hcolon (text : List Char) : expect? ':' (':' :: text) = some text := rfl
  have hseparator : Char.toNat 'T' < 128 := by decide
  unfold ofList? Reading.text
  simp only [Option.bind_eq_bind, readDate?_padded h.date h.yearFrom h.yearTo, Option.bind_some, hseparator, if_true,
    readDigits?_padded (by decide) hhour, readDigits?_padded (by decide) hminute, List.append_assoc,
    readDigits?_padded (by decide) hsecond, hcolon, readFraction?_fractionText h.nano (endsSeconds_offsetText offset),
    readOffset?_offsetText hoffset, h.hour, h.minute, h.second, and_self]

/-- What is read as an instant is shown by a clock: a leap second as the nanosecond before it. -/
theorem isShown_of_ofText? {text : String} {t : Instant} (h : ofText? text = some t) : t.IsShown := by
  simp only [ofText?, ofList?, Option.bind_eq_bind, Option.bind_eq_some_iff] at h
  obtain ⟨⟨date, rest⟩, hdate, h⟩ := h
  obtain ⟨hvalid, hfrom, hto⟩ := isValid_of_readDate? hdate
  cases rest with
  | nil => cases h
  | cons separator rest =>
    dsimp only at h
    by_cases hseparator : separator.toNat < 128
    · rw [if_pos hseparator] at h
      simp only [Option.bind_some, Option.bind_eq_some_iff] at h
      obtain ⟨⟨hour, _⟩, -, _, -, ⟨minute, _⟩, -, _, -, ⟨second, _⟩, -, ⟨nano, _⟩, hnano, offset, hoffset, h⟩ := h
      have hless := natAbs_lt_of_readOffset? hoffset
      dsimp only at h
      by_cases htime : hour ≤ 23 ∧ minute ≤ 59 ∧ second ≤ 59
      · rw [if_pos htime] at h
        obtain rfl := Option.some.inj h
        obtain ⟨hhour, hminute, hsecond⟩ := htime
        exact ⟨_, offset, ⟨hvalid, hfrom, hto, hhour, hminute, hsecond, lt_of_readFraction? hnano⟩, hless, rfl⟩
      · rw [if_neg htime] at h
        obtain ⟨⟨hhour, hminute, -⟩, hleap⟩ := Option.ite_none_right_eq_some.1 h
        obtain ⟨-, ht⟩ := Option.ite_none_right_eq_some.1 hleap
        obtain rfl := Option.some.inj ht
        have hlast : 999999999 < 10 ^ 9 := by decide
        exact ⟨_, offset, ⟨hvalid, hfrom, hto, hhour, hminute, Nat.le_refl 59, hlast⟩, hless, rfl⟩
    · rw [if_neg hseparator] at h
      cases h

/-- An instant that a clock shows is read back from its text. -/
theorem ofText?_toText {t : Instant} (h : t.IsShown) : ofText? t.toText = some t := by
  obtain ⟨r, offset, hr, hoffset, rfl⟩ := h
  have htext : (ofReading r offset).toText = String.ofList (r.text offset) := by
    unfold toText
    simp only [toList?_ofReading hr]
  rw [htext, ofText?, String.toList_ofList, ofList?_text hr hoffset]

end Instant

end FeedQuery
