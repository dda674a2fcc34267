import Mathlib.Algebra.GroupWithZero.Nat
import Mathlib.Algebra.BigOperators.Group.List.Basic
import FeedQuery.Calendar

/-!
# Days and their numbers

The number of a valid date names that date and no other (`Date.ofNumber_number`). A year begins where the year before it
ends (`Date.daysBefore_succ`), so a day lies in one year alone, and the guess from the mean length of a year misses it
by one at most (`Date.yearOf_eq`). Inside the year the months are counted off by their lengths
(`Date.monthOf_sum_take`).
-/

namespace FeedQuery.Date

/-! ## Years -/

theorem isLeap_iff (year : Int) : isLeap year = true ↔ year % 4 = 0 ∧ (year % 100 ≠ 0 ∨ year % 400 = 0) := by
  simp [isLeap]

/-- The months of a year have 365 days together, or 366 in a leap year. -/
theorem sum_monthLengths (year : Int) : (monthLengths year).sum = if isLeap year then 366 else 365 := by
  cases h : isLeap year <;> simp [monthLengths, h]

/-- A year begins when the months of the year before it are over. -/
theorem daysBefore_succ (year : Int) : daysBefore (year + 1) = daysBefore year + (monthLengths year).sum := by
  have hleap := isLeap_iff year
  rw [sum_monthLengths]
  unfold daysBefore
  split
  · next h =>
    rw [hleap] at h
    omega
  · next h =>
    rw [hleap] at h
    omega

/-- The year that holds a day is found from the number of the day. -/
theorem yearOf_eq {year number : Int} (hfirst : daysBefore year ≤ number) (hlast : number < daysBefore (year + 1)) :
    yearOf number = year := by
  -- a day in the year is nearer to `year - 1` mean lengths of a year than one of these is long
  have hguess : number * 400 / 146097 + 1 = year ∨ number * 400 / 146097 + 1 = year - 1 := by
    unfold daysBefore at hfirst hlast
    omega
  unfold yearOf
  rcases hguess with hguess | hguess
  · rw [hguess]
    simp only
    rw [if_neg (by omega), if_neg (by omega)]
  · have hbefore := daysBefore_succ (year - 1)
    have hyear : year - 1 + 1 = year := by omega
    rw [hyear] at hbefore
    rw [hguess]
    simp only [hyear]
    rw [if_neg (by omega), if_pos hfirst]

/-! ## Months -/

/-- The lengths before a place, and what is there, are a part of all. -/
theorem sum_take_add_le {lengths : List Nat} {place length : Nat} (h : lengths[place]? = some length) :
    (lengths.take place).sum + length ≤ lengths.sum := by
  obtain ⟨hplace, rfl⟩ := List.getElem?_eq_some_iff.1 h
  rw [← List.sum_take_add_sum_drop lengths place, List.drop_eq_getElem_cons hplace, List.sum_cons]
  omega

/-- A day is in the month whose days are next when the months before it are counted off. -/
theorem monthOf_sum_take {lengths : List Nat} {place length day : Nat} (h : lengths[place]? = some length)
    (hday : day < length) (first : Nat) : monthOf first ((lengths.take place).sum + day) lengths =
      (first + place, day + 1) := by
  induction lengths generalizing place first with
  | nil => simp at h
  | cons head rest ih =>
    cases place with
    | zero =>
      obtain rfl : head = length := by simpa using h
      simp [monthOf, hday]
    | succ place =>
      have hrest : rest[place]? = some length := by simpa using h
      have hover : ¬ head + (rest.take place).sum + day < head := by omega
      have hleft : head + (rest.take place).sum + day - head = (rest.take place).sum + day := by omega
      rw [List.take_succ_cons, List.sum_cons, monthOf, if_neg hover, hleft, ih hrest]
      simp only [Prod.mk.injEq, and_true]
      omega

/-! ## Dates -/

theorem isValid_iff {d : Date} : d.isValid = true ↔
    ∃ length, (monthLengths d.year)[d.month - 1]? = some length ∧ 1 ≤ d.month ∧ 1 ≤ d.day ∧ d.day ≤ length := by
  obtain ⟨year, month, day⟩ := d
  cases month with
  | zero => simp [isValid]
  | succ month =>
    simp only [isValid, Nat.add_sub_cancel]
    cases (monthLengths year)[month]? with
    | none => simp
    | some length => simp

/-- There are twelve months, of 31 days at most. -/
theorem le_of_isValid {d : Date} (h : d.isValid = true) : d.month ≤ 12 ∧ d.day ≤ 31 := by
  obtain ⟨length, hlength, hmonth, -, hday⟩ := isValid_iff.1 h
  have hmonths : d.month - 1 < (monthLengths d.year).length := (List.getElem?_eq_some_iff.1 hlength).1
  have hlong : length ≤ 31 := by
    have hmem := List.mem_of_getElem? hlength
    simp only [monthLengths, List.mem_cons, List.not_mem_nil, or_false] at hmem
    split at hmem <;> omega
  have htwelve : (monthLengths d.year).length = 12 := rfl
  omega

/-- The number of a date counts the years before its year, the months before its month, and the days before it. -/
theorem number_eq {d : Date} (hday : 1 ≤ d.day) :
    d.number = daysBefore d.year + (((monthLengths d.year).take (d.month - 1)).sum + (d.day - 1) : Nat) := by
  rw [number, ← List.sum_eq_foldl]
  omega

/-- A valid date is named by its number. -/
theorem ofNumber_number {d : Date} (h : d.isValid = true) : ofNumber d.number = d := by
  obtain ⟨length, hlength, hmonth, hfirst, hlast⟩ := isValid_iff.1 h
  have hnumber := number_eq hfirst
  have hyear : yearOf d.number = d.year := by
    have hsum := sum_take_add_le hlength
    have hnext := daysBefore_succ d.year
    exact yearOf_eq (by omega) (by omega)
  have hinYear : (d.number - daysBefore d.year).toNat = ((monthLengths d.year).take (d.month - 1)).sum +
      (d.day - 1) := by omega
  have hmonthOf := monthOf_sum_take hlength (by omega : d.day - 1 < length) 1
  rw [Nat.add_sub_cancel' hmonth, Nat.sub_add_cancel hfirst] at hmonthOf
  unfold ofNumber
  rw [hyear]
  dsimp only
  rw [hinYear, hmonthOf]

end FeedQuery.Date
