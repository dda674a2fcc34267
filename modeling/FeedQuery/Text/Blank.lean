/-!
# White space

`isBlank` is the Unicode property White_Space, and `trim` takes blanks off both ends of a text. The zero-width space and
the byte order mark are not blanks.
-/

namespace FeedQuery.Text

/-- Whether a character has the Unicode property White_Space. -/
def isBlank (c : Char) : Bool :=
  let n := c.toNat
  (0x9 ≤ n && n ≤ 0xd) || n == 0x20 || n == 0x85 || n == 0xa0 || n == 0x1680 || (0x2000 ≤ n && n ≤ 0x200a) ||
    n == 0x2028 || n == 0x2029 || n == 0x202f || n == 0x205f || n == 0x3000

/-- The characters between the blanks at both ends. -/
def trimList (text : List Char) : List Char :=
  ((text.dropWhile isBlank).reverse.dropWhile isBlank).reverse

/-- The text between the blanks at both ends. -/
def trim (text : String) : String := String.ofList (trimList text.toList)

/-- The text before the first separator and the text after it, if there is a separator. -/
def splitOnce? (separator : Char) (text : String) : Option (String × String) :=
  let chars := text.toList
  match chars.dropWhile (· != separator) with
  | _ :: rest => some (String.ofList (chars.takeWhile (· != separator)), String.ofList rest)
  | [] => none

/-- The parts of a list between separators; there is always one part more than there are separators. -/
def splitList (separator : Char) : List Char → List (List Char)
  | [] => [[]]
  | c :: rest =>
    if c == separator then [] :: splitList separator rest
    else match splitList separator rest with
      | part :: parts => (c :: part) :: parts
      | [] => [[c]]

/-- The parts of a text between separators. -/
def split (separator : Char) (text : String) : List String :=
  (splitList separator text.toList).map String.ofList

/-- ASCII letters in lower case, all other characters as they are. -/
def lower (text : String) : String := String.ofList (text.toList.map Char.toLower)

end FeedQuery.Text
