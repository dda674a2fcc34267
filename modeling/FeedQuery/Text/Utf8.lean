/-!
# UTF-8

`Utf8.decode` reads bytes as characters. Where the bytes are no character it gives `none` once for the longest start of
a character that is there, or for one byte. `Utf8.read?` refuses such bytes, `Utf8.readLossy` puts the replacement
character for each.
-/

namespace FeedQuery.Text.Utf8

/-- What the first byte of a longer character says: how many bytes follow, the range of the next one, and the bits it
holds. -/
structure Lead where
  tails : Nat
  low : Nat
  high : Nat
  bits : Nat
deriving DecidableEq, Repr

/-- The first bytes of longer characters. The narrower ranges keep out overlong forms, surrogates and what lies beyond
U+10FFFF. -/
def lead? (byte : Nat) : Option Lead :=
  if 0xc2 ≤ byte ∧ byte ≤ 0xdf then some ⟨1, 0x80, 0xbf, byte - 0xc0⟩
  else if byte = 0xe0 then some ⟨2, 0xa0, 0xbf, 0⟩
  else if byte = 0xed then some ⟨2, 0x80, 0x9f, 0xd⟩
  else if 0xe1 ≤ byte ∧ byte ≤ 0xef then some ⟨2, 0x80, 0xbf, byte - 0xe0⟩
  else if byte = 0xf0 then some ⟨3, 0x90, 0xbf, 0⟩
  else if 0xf1 ≤ byte ∧ byte ≤ 0xf3 then some ⟨3, 0x80, 0xbf, byte - 0xf0⟩
  else if byte = 0xf4 then some ⟨3, 0x80, 0x8f, 4⟩
  else none

/-- Reads the bytes that follow: the character, or `none` where one is not in its range, and the bytes from there on. -/
def tail (tails low high value : Nat) (bytes : List Nat) : Option Char × List Nat :=
  match tails, bytes with
  | 0, bytes => (some (Char.ofNat value), bytes)
  | _ + 1, [] => (none, [])
  | tails + 1, byte :: rest =>
    if low ≤ byte ∧ byte ≤ high then tail tails 0x80 0xbf (value * 64 + (byte - 0x80)) rest else (none, byte :: rest)

theorem length_tail_le (tails low high value : Nat) (bytes : List Nat) :
    (tail tails low high value bytes).2.length ≤ bytes.length := by
  induction tails generalizing low high value bytes with
  | zero => simp [tail]
  | succ tails ih =>
    cases bytes with
    | nil => simp [tail]
    | cons byte rest =>
      simp only [tail]
      split
      · exact Nat.le_trans (ih ..) (by simp)
      · simp

/-- The characters of some bytes, with `none` where there is no character. -/
def decode (bytes : List Nat) : List (Option Char) :=
  match bytes with
  | [] => []
  | byte :: rest =>
    if byte < 0x80 then some (Char.ofNat byte) :: decode rest
    else match lead? byte with
      | none => none :: decode rest
      | some lead =>
        have := length_tail_le lead.tails lead.low lead.high lead.bits rest
        (tail lead.tails lead.low lead.high lead.bits rest).1 ::
        decode (tail lead.tails lead.low lead.high lead.bits rest).2
termination_by bytes.length

/-- The text that the bytes are, if they are one. -/
def read? (bytes : List Nat) : Option (List Char) := (decode bytes).mapM id

/-- The text of the bytes, with U+FFFD where there is no character. -/
def readLossy (bytes : List Nat) : List Char := (decode bytes).map fun c => c.getD '\uFFFD'

/-- The bytes of a text. -/
def encode (text : List Char) : List Nat := text.flatMap fun c => (String.utf8EncodeChar c).map UInt8.toNat

end FeedQuery.Text.Utf8
