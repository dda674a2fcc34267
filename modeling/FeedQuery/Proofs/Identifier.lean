import Mathlib.Algebra.Group.Nat.Defs
import Mathlib.Data.String.Basic
import FeedQuery.Uuid
import FeedQuery.Text.Blank

/-!
# Identifiers as text

The text that is written for an identifier is read back as that identifier (`Uuid.ofText?_toText`), so no two
identifiers share a text. A text that is read as an identifier, in whatever spelling, has no blanks at its ends
(`Uuid.trim_eq_self`): a cursor that is taken from a stored document survives the trimming of parameters. Texts that are
written for identifiers have the order of these (`Uuid.compare_toText`).
-/

namespace FeedQuery

namespace Text

theorem hexDigit?_hexChar {digit : Nat} (h : digit < 16) : hexDigit? (hexChar digit) = some digit := by
  have all : ∀ d < 16, hexDigit? (hexChar d) = some d := by decide
  exact all digit h

/-- The digits of a number are its quotients by the powers of sixteen. -/
theorem hexPadded_eq (width n : Nat) :
    hexPadded width n = (List.range width).map fun place => hexChar (n / 16 ^ (width - 1 - place) % 16) := rfl

/-- The digits of a wider number are one more digit, and the digits of the narrower. -/
theorem hexPadded_succ (width n : Nat) : hexPadded (width + 1) n =
    hexChar (n / 16 ^ width % 16) :: hexPadded width n := by
  rw [hexPadded_eq, hexPadded_eq, List.range_succ_eq_map, List.map_cons, List.map_map]
  simp only [Nat.add_sub_cancel, Nat.sub_zero, List.cons.injEq, true_and]
  refine List.map_congr_left ?_
  intro place _
  rw [Function.comp_apply, Nat.succ_eq_add_one, Nat.sub_sub, Nat.add_comm 1 place]

@[simp] theorem length_hexPadded (width n : Nat) : (hexPadded width n).length = width := by simp [hexPadded]

/-- Reading digits on from a number puts them behind its own. -/
theorem foldl_hexPadded (width n acc : Nat) : ∃ ds, (hexPadded width n).mapM hexDigit? = some ds ∧
    ds.foldl (fun value d => value * 16 + d) acc = acc * 16 ^ width + n % 16 ^ width := by
  induction width generalizing acc with
  | zero => exact ⟨[], by simp [hexPadded], by simp [Nat.mod_one]⟩
  | succ width ih =>
    obtain ⟨ds, hds, hfold⟩ := ih (acc * 16 + n / 16 ^ width % 16)
    refine ⟨n / 16 ^ width % 16 :: ds, ?_, ?_⟩
    · rw [hexPadded_succ, List.mapM_cons, hexDigit?_hexChar (Nat.mod_lt _ (by decide)), hds]
      rfl
    · rw [List.foldl_cons, hfold, Nat.mod_pow_succ, Nat.pow_succ, Nat.add_mul, Nat.mul_assoc,
        Nat.mul_comm 16 (16 ^ width), Nat.mul_comm (n / 16 ^ width % 16)]
      omega

/-- A text whose first and last characters are no blanks is trimmed to itself. -/
theorem trimList_eq_self {text : List Char} (hf : ∀ c, text.head? = some c → isBlank c = false)
    (hl : ∀ c, text.getLast? = some c → isBlank c = false) : trimList text = text := by
  have drop {l : List Char} (h : ∀ c, l.head? = some c → isBlank c = false) : l.dropWhile isBlank = l := by
    cases l with
    | nil => rfl
    | cons c rest => rw [List.dropWhile_cons_of_neg (by simp [h c rfl])]
  have hr : ∀ c, text.reverse.head? = some c → isBlank c = false := fun c hc => hl c (by rwa [List.head?_reverse] at hc)
  rw [trimList, drop hf, drop hr, List.reverse_reverse]

/-- A blank is no hexadecimal digit. -/
theorem isBlank_of_hexDigit? {c : Char} (h : (hexDigit? c).isSome = true) : isBlank c = false := by
  have hn : (48 ≤ c.toNat ∧ c.toNat ≤ 57) ∨ (97 ≤ c.toNat ∧ c.toNat ≤ 102) ∨ (65 ≤ c.toNat ∧ c.toNat ≤ 70) := by
    simp only [hexDigit?, Char.le_def, UInt32.le_iff_toNat_le] at h
    split at h
    · next hc => exact .inl hc
    · split at h
      · next hc => exact .inr (.inl hc)
      · split at h
        · next hc => exact .inr (.inr hc)
        · simp at h
  simp only [isBlank]
  generalize c.toNat = n at hn
  simp only [Bool.or_eq_false_iff, Bool.and_eq_false_iff, decide_eq_false_iff_not, beq_eq_false_iff_ne]
  omega

/-- A letter in upper case is no blank, and other characters are their own lower case. -/
theorem isBlank_of_toLower {c : Char} (h : isBlank c.toLower = false) : isBlank c = false := by
  unfold Char.toLower at h
  split at h
  · next hc =>
    have hn : 65 ≤ c.toNat ∧ c.toNat ≤ 90 := hc
    simp only [isBlank]
    generalize c.toNat = n at hn
    simp only [Bool.or_eq_false_iff, Bool.and_eq_false_iff, decide_eq_false_iff_not, beq_eq_false_iff_ne]
    omega
  · exact h

end Text

namespace Uuid

/-- The 32 digits of an identifier are read back. -/
theorem ofDigits?_digits (u : Uuid) : ofDigits? u.digits = some u := by
  obtain ⟨ds, hds, hfold⟩ := Text.foldl_hexPadded 32 u.bits.toNat 0
  have hlt : u.bits.toNat < 16 ^ 32 := Nat.lt_of_lt_of_eq u.bits.isLt (by decide)
  have hu : BitVec.ofNat 128 (Text.ofHex ds) = u.bits := by
    unfold Text.ofHex
    rw [hfold, Nat.zero_mul, Nat.zero_add, Nat.mod_eq_of_lt hlt, BitVec.ofNat_toNat, BitVec.setWidth_eq]
  simp [ofDigits?, digits, hds, hu]

/-- Taking the hyphens out of the written form gives the digits. -/
theorem unhyphen?_toList (u : Uuid) : unhyphen? u.toList = some u.digits := by
  have hlen : u.digits.length = 32 := Text.length_hexPadded ..
  have groups {a b c d e : List Char} (ha : a.length = 8) (hb : b.length = 4) (hc : c.length = 4) (hd : d.length = 4)
      (he : e.length = 12) : unhyphen? (a ++ '-' :: (b ++ '-' :: (c ++ '-' :: (d ++ '-' :: e)))) =
      some (a ++ b ++ c ++ d ++ e) := by
    simp (disch := omega) [unhyphen?, List.getElem?_append, List.drop_append, List.drop_eq_nil_of_le, ha,
      hb, hc, hd, he]
    exact ⟨rfl, rfl, rfl, rfl⟩
  unfold toList
  generalize u.digits = ds at hlen ⊢
  rw [groups (by simp [hlen]) (by simp [hlen]) (by simp [hlen]) (by simp [hlen]) (by simp [hlen])]
  have join (k : Nat) : (ds.drop k).take 4 ++ ds.drop (k + 4) = ds.drop k := by
    rw [← List.drop_drop, List.take_append_drop]
  simp only [List.append_assoc, join, List.take_append_drop]

/-- The written form of an identifier is read as the identifier. -/
theorem ofText?_toText (u : Uuid) : ofText? u.toText = some u := by
  have hlen : u.toList.length = 36 := by
    have : u.digits.length = 32 := Text.length_hexPadded ..
    simp [toList, this]
  simp [ofText?, toText, ofList?, hlen, ofHyphenated?, unhyphen?_toList, ofDigits?_digits]

/-- No two identifiers are written alike. -/
theorem toText_injective {u v : Uuid} (h : u.toText = v.toText) : u = v := by
  have := congrArg ofText? h
  rwa [ofText?_toText, ofText?_toText, Option.some.injEq] at this

/-! ## Spellings have no blanks around them -/

/-- The first and the last character of a text are no blanks. -/
def Tight (text : List Char) : Prop :=
  (∀ c, text.head? = some c → Text.isBlank c = false) ∧ ∀ c, text.getLast? = some c → Text.isBlank c = false

theorem isSome_of_mapM {text : List Char} {ds : List Nat} (h : text.mapM Text.hexDigit? = some ds) :
    ∀ c ∈ text, (Text.hexDigit? c).isSome = true := by
  induction text generalizing ds with
  | nil => simp
  | cons d rest ih =>
    simp only [List.mapM_cons, Option.bind_eq_bind, Option.bind_eq_some_iff] at h
    obtain ⟨digit, hd, others, hrest, -⟩ := h
    intro c hc
    rcases List.mem_cons.1 hc with rfl | hc
    · rw [hd]
      rfl
    · exact ih hrest c hc

/-- What is read as digits is nothing but digits. -/
theorem isSome_of_ofDigits? {text : List Char} {u : Uuid} (h : ofDigits? text = some u) :
    ∀ c ∈ text, (Text.hexDigit? c).isSome = true := by
  unfold ofDigits? at h
  split at h
  · obtain ⟨ds, hds, -⟩ := Option.map_eq_some_iff.1 h
    exact isSome_of_mapM hds
  · simp at h

theorem isBlank_of_ofDigits? {text : List Char} {u : Uuid} (h : ofDigits? text = some u) :
    ∀ c ∈ text, Text.isBlank c = false :=
  fun c hc => Text.isBlank_of_hexDigit? (isSome_of_ofDigits? h c hc)

/-- The hyphenated form begins and ends with a digit. -/
theorem tight_of_ofHyphenated? {text : List Char} {u : Uuid} (h : ofHyphenated? text = some u) : Tight text := by
  obtain ⟨digits, hu, hd⟩ := Option.bind_eq_some_iff.1 h
  unfold unhyphen? at hu
  split at hu
  · next hlen =>
    obtain rfl := Option.some.inj hu
    have hb := isBlank_of_ofDigits? hd
    refine ⟨fun c hc => hb c ?_, fun c hc => hb c ?_⟩
    · have : c ∈ text.take 8 := List.mem_of_head? (by rwa [List.head?_take, if_neg (by decide)])
      simp [this]
    · have : c ∈ text.drop 24 := List.mem_of_getLast? (by rwa [List.getLast?_drop, if_neg (by omega)])
      simp [this]
  · simp at hu

/-- Every spelling that is read as an identifier begins and ends with something else than a blank. -/
theorem tight_of_ofList? {text : List Char} {u : Uuid} (h : ofList? text = some u) : Tight text := by
  unfold ofList? at h
  split at h
  · have hb := isBlank_of_ofDigits? h
    exact ⟨fun c hc => hb c (List.mem_of_head? hc), fun c hc => hb c (List.mem_of_getLast? hc)⟩
  · split at h
    · next hbraces =>
      obtain ⟨hlen, hfirst, hlast⟩ := hbraces
      refine ⟨?_, ?_⟩
      · intro c hc
        rw [List.head?_eq_getElem?, hfirst] at hc
        obtain rfl := Option.some.inj hc
        decide
      · intro c hc
        rw [List.getLast?_eq_getElem?, hlen, hlast] at hc
        obtain rfl := Option.some.inj hc
        decide
    · split at h
      · next hurn =>
        obtain ⟨hlen, hurn⟩ := hurn
        have hrest := tight_of_ofHyphenated? h
        refine ⟨fun c hc => ?_, fun c hc => hrest.2 c (by rwa [List.getLast?_drop, if_neg (by omega)])⟩
        apply Text.isBlank_of_toLower
        cases text with
        | nil => simp at hc
        | cons first rest =>
          obtain rfl : first = c := Option.some.inj hc
          have hu : first.toLower = 'u' := by
            rw [List.take_succ_cons, List.map_cons, List.cons.injEq] at hurn
            exact hurn.1
          rw [hu]
          decide
      · exact tight_of_ofHyphenated? h

/-- Trimming leaves the spelling of an identifier as it is. -/
theorem trim_eq_self {text : String} {u : Uuid} (h : ofText? text = some u) : Text.trim text = text := by
  have ht := tight_of_ofList? h
  rw [Text.trim, Text.trimList_eq_self ht.1 ht.2, String.ofList_toList]

end Uuid

/-! ## The order of texts -/

namespace Text

theorem hexChar_lt {d e : Nat} (h : d < e) (he : e < 16) : hexChar d < hexChar e := by
  have all : ∀ e < 16, ∀ d < e, hexChar d < hexChar e := by decide
  exact all e he d h

/-- The digits of a smaller number come first. -/
theorem hexPadded_lt {width n m : Nat} (h : n % 16 ^ width < m % 16 ^ width) :
    hexPadded width n < hexPadded width m := by
  induction width with
  | zero => simp [Nat.mod_one] at h
  | succ width ih =>
    rw [hexPadded_succ, hexPadded_succ, List.cons_lt_cons_iff]
    rw [Nat.mod_pow_succ, Nat.mod_pow_succ] at h
    rcases Nat.lt_trichotomy (n / 16 ^ width % 16) (m / 16 ^ width % 16) with hlt | heq | hgt
    · exact .inl (hexChar_lt hlt (Nat.mod_lt _ (by decide)))
    · rw [heq] at h
      exact .inr ⟨by rw [heq], ih (Nat.lt_of_add_lt_add_right h)⟩
    · have hm : m % 16 ^ width < 16 ^ width := Nat.mod_lt _ (Nat.pow_pos (by decide))
      have hmul := Nat.mul_le_mul_left (16 ^ width) (Nat.succ_le_of_lt hgt)
      rw [Nat.mul_succ] at hmul
      omega

/-- A text comes first by what comes before a place, or else by what comes after it. -/
theorem take_append_lt {a b : List Char} (hlength : a.length = b.length) (h : a < b) (place : Nat)
    {f : List Char → List Char} (hf : a.drop place < b.drop place → f (a.drop place) < f (b.drop place)) :
    a.take place ++ f (a.drop place) < b.take place ++ f (b.drop place) := by
  induction place generalizing a b with
  | zero => exact hf h
  | succ place ih =>
    cases a with
    | nil =>
      cases b with
      | nil => exact absurd h (List.not_lt_nil _)
      | cons d ys => simp at hlength
    | cons c xs =>
      cases b with
      | nil => exact absurd h (List.not_lt_nil _)
      | cons d ys =>
        simp only [List.take_succ_cons, List.drop_succ_cons, List.cons_append, List.cons_lt_cons_iff] at hf ⊢
        rcases List.cons_lt_cons_iff.1 h with hlt | ⟨rfl, hlt⟩
        · exact .inl hlt
        · exact .inr ⟨rfl, ih (by simpa using hlength) hlt hf⟩

end Text

namespace Uuid

/-- Characters with a hyphen after each of some first groups. -/
def hyphenate : List Nat → List Char → List Char
  | [], chars => chars
  | group :: rest, chars => chars.take group ++ '-' :: hyphenate rest (chars.drop group)

/-- Hyphens at the same places leave the order as it is. -/
theorem hyphenate_lt (groups : List Nat) {a b : List Char} (hlength : a.length = b.length) (h : a < b) :
    hyphenate groups a < hyphenate groups b := by
  induction groups generalizing a b with
  | nil => exact h
  | cons group rest ih =>
    refine Text.take_append_lt hlength h group (f := fun chars => '-' :: hyphenate rest chars) fun hdrop => ?_
    exact List.cons_lt_cons_iff.2 (.inr ⟨rfl, ih (by simp [hlength]) hdrop⟩)

theorem toList_eq_hyphenate (u : Uuid) : u.toList = hyphenate [8, 4, 4, 4] u.digits := by
  simp [toList, hyphenate, List.drop_drop]

/-- The text of a smaller identifier comes first. -/
theorem toText_lt {u v : Uuid} (h : u.bits.toNat < v.bits.toNat) : u.toText < v.toText := by
  have hbits (w : Uuid) : w.bits.toNat % 16 ^ 32 = w.bits.toNat :=
    Nat.mod_eq_of_lt (Nat.lt_of_lt_of_eq w.bits.isLt (by decide))
  have hdigits : u.digits < v.digits := Text.hexPadded_lt (by rwa [hbits, hbits])
  rw [String.lt_iff_toList_lt, toText, toText, String.toList_ofList, String.toList_ofList, toList_eq_hyphenate,
    toList_eq_hyphenate]
  exact hyphenate_lt _ (by simp [digits]) hdigits

/-- Texts of identifiers have the order of the identifiers. -/
theorem compare_toText (u v : Uuid) : compare u.toText v.toText = compare u v := by
  have hlt {u v : Uuid} (h : compare u v = .lt) : compare u.toText v.toText = .lt :=
    compareOfLessAndEq_eq_lt.2 (toText_lt (Nat.compare_eq_lt.1 h))
  cases h : compare u v with
  | lt => exact hlt h
  | eq =>
    have huv : u = v := congrArg Uuid.mk (BitVec.eq_of_toNat_eq (Nat.compare_eq_eq.1 h))
    rw [huv]
    exact Std.ReflCmp.compare_self
  | gt => exact Std.OrientedCmp.gt_of_lt (hlt (Nat.compare_eq_lt.2 (Nat.compare_eq_gt.1 h)))

end Uuid

end FeedQuery
