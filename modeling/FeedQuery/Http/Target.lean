import FeedQuery.Text.Blank
import FeedQuery.Text.Hex
import FeedQuery.Text.Utf8

/-!
# Request targets

A target is a path and a query. In both, `%` and two hexadecimal digits stand for a byte, and a `%` without them for
itself. The names and values of a query are a form: `+` is a space there, and bytes that are no text become replacement
characters.
-/

namespace FeedQuery.Http

/-- What a request asks for. -/
structure Target where
  path : List Char
  query : Option (List Char)
deriving DecidableEq, Repr

/-- The bytes of a text in which `%` and two hexadecimal digits stand for one byte. -/
def percentDecode : List Char → List Nat
  | '%' :: a :: b :: rest =>
    match Text.hexDigit? a, Text.hexDigit? b with
    | some high, some low => (high * 16 + low) :: percentDecode rest
    | _, _ => '%'.toNat :: percentDecode (a :: b :: rest)
  | c :: rest => Text.Utf8.encode [c] ++ percentDecode rest
  | [] => []

/-- One name or value of a form. -/
def formText (text : List Char) : String :=
  String.ofList (Text.Utf8.readLossy (percentDecode (text.map fun c => if c == '+' then ' ' else c)))

/-- The names and values of a form. Empty pairs are passed over; a pair without `=` has an empty value. -/
def formPairs (query : List Char) : List (String × String) :=
  ((Text.splitList '&' query).filter fun pair => !pair.isEmpty).map fun pair =>
    (formText (pair.takeWhile (· != '=')), formText ((pair.dropWhile (· != '=')).drop 1))

namespace Target

/-- What follows the scheme and the host of an absolute target; an empty path is the root. -/
def withoutOrigin (text : List Char) : List Char :=
  let scheme := text.takeWhile fun c => c.isAlphanum || c == '+' || c == '-' || c == '.'
  match text.drop scheme.length with
  | ':' :: '/' :: '/' :: rest =>
    if scheme.isEmpty then text
    else match rest.dropWhile fun c => c != '/' && c != '?' && c != '#' with
      | '/' :: rest => '/' :: rest
      | rest => '/' :: rest
  | _ => text

/-- Reads a target. A fragment is dropped. -/
def ofText (text : String) : Target :=
  let chars := (withoutOrigin text.toList).takeWhile (· != '#')
  match chars.dropWhile (· != '?') with
  | _ :: query => ⟨chars.takeWhile (· != '?'), some query⟩
  | [] => ⟨chars, none⟩

/-- The names and values of the query. -/
def pairs (t : Target) : List (String × String) := (t.query.map formPairs).getD []

end Target

end FeedQuery.Http
