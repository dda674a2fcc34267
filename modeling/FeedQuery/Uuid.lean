import FeedQuery.Text.Hex

/-!
# Universally unique identifiers

A `Uuid` is 128 bits, ordered as a number, which is the order of its bytes. It is written in lower case with hyphens; it
is read from that form, from 32 digits alone, and from the hyphenated form in braces or after `urn:uuid:`, in any case
of letters.
-/

namespace FeedQuery

/-- A 128-bit identifier. -/
structure Uuid where
  bits : BitVec 128
deriving DecidableEq, Repr, Inhabited

namespace Uuid

/-- Identifiers are ordered as numbers. -/
instance : Ord Uuid := ⟨fun a b => compare a.bits.toNat b.bits.toNat⟩

/-- Exactly 32 hexadecimal digits. -/
def ofDigits? (digits : List Char) : Option Uuid :=
  if digits.length = 32 then
    (digits.mapM Text.hexDigit?).map fun ds => ⟨BitVec.ofNat 128 (Text.ofHex ds)⟩
  else none

/-- Takes the hyphens out of groups of 8, 4, 4, 4 and 12 characters. -/
def unhyphen? (text : List Char) : Option (List Char) :=
  if text.length = 36 ∧ text[8]? = some '-' ∧ text[13]? = some '-' ∧ text[18]? = some '-' ∧ text[23]? = some '-' then
    some (text.take 8 ++ (text.drop 9).take 4 ++ (text.drop 14).take 4 ++ (text.drop 19).take 4 ++ text.drop 24)
  else none

/-- The hyphenated form. -/
def ofHyphenated? (text : List Char) : Option Uuid := (unhyphen? text).bind ofDigits?

/-- Any of the accepted forms. -/
def ofList? (text : List Char) : Option Uuid :=
  if text.length = 32 then ofDigits? text
  else if text.length = 38 ∧ text[0]? = some '\x7b' ∧ text[37]? = some '\x7d' then ofHyphenated? ((text.drop 1).take 36)
  else if text.length = 45 ∧ (text.take 9).map Char.toLower = ['u', 'r', 'n', ':', 'u', 'u', 'i', 'd', ':'] then
    ofHyphenated? (text.drop 9)
  else ofHyphenated? text

/-- Reads any of the accepted forms. -/
def ofText? (text : String) : Option Uuid := ofList? text.toList

/-- The 32 digits of an identifier, highest first. -/
def digits (u : Uuid) : List Char := Text.hexPadded 32 u.bits.toNat

/-- The hyphenated form in lower case. -/
def toList (u : Uuid) : List Char :=
  let ds := u.digits
  ds.take 8 ++ '-' :: ((ds.drop 8).take 4 ++ '-' ::
    ((ds.drop 12).take 4 ++ '-' :: ((ds.drop 16).take 4 ++ '-' :: ds.drop 20)))

/-- The hyphenated form in lower case. -/
def toText (u : Uuid) : String := String.ofList u.toList

end Uuid

end FeedQuery
