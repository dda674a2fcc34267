import FeedQuery.Text.Unprintable
import FeedQuery.Text.Hex

/-!
# Quoted text

`quoted` writes a text between double quotes so that nothing in it can be mistaken for the end or be invisible: quotes
and backslashes get a backslash, the usual controls their letter, and what has no glyph of its own its code point.
-/

namespace FeedQuery.Text

/-- One character inside quotes. -/
def quotedChar (c : Char) : List Char :=
  if c == '"' then ['\\', '"']
  else if c == '\\' then ['\\', '\\']
  else if c == '\t' then ['\\', 't']
  else if c == '\r' then ['\\', 'r']
  else if c == '\n' then ['\\', 'n']
  else if c == '\x00' then ['\\', '0']
  else if isUnprintable c then '\\' :: 'u' :: '\x7b' :: (hex c.toNat ++ ['\x7d'])
  else [c]

/-- A text between quotes. -/
def quoted (text : String) : String :=
  String.ofList ('"' :: (text.toList.flatMap quotedChar ++ ['"']))

end FeedQuery.Text
