import FeedQuery.Json
import FeedQuery.Text.Blank

/-!
# Headers

Headers are kept under their names in lower case, one value to a name. A name is a token, and a value has no control
characters other than the tab. `Headers.authorized` makes the headers of a request that carries a key: the headers that
are configured are taken up in the order of their names, each in the place of one that is there already, the
authorization among them.
-/

namespace FeedQuery.Http

/-- Why headers cannot be made. -/
inductive HeaderError where
  /-- A configured header is no text. -/
  | notText (entry : String)
  | name
  | value
deriving DecidableEq, Repr

/-- The message of a header error. -/
def HeaderError.message : HeaderError → String
  | .notText entry => "Default header " ++ entry ++ " must be a string."
  | .name => "invalid HTTP header name"
  | .value => "failed to parse header value"

/-- Values under names in lower case. -/
abbrev Headers := Fields String

/-- Whether a character may stand in a header name. -/
def isTokenChar (c : Char) : Bool := c.isAlphanum || "!#$%&'*+-.^_\x60|~".toList.contains c

/-- The longest header name. -/
def maxNameLength : Nat := 65535

/-- Whether a text is a header name. -/
def isHeaderName (text : String) : Bool :=
  !text.isEmpty && text.toList.all isTokenChar && text.length ≤ maxNameLength

/-- Whether a text is a header value. -/
def isHeaderValue (text : String) : Bool := text.toList.all fun c => c == '\t' || (0x20 ≤ c.toNat && c.toNat != 0x7f)

namespace Headers

/-- Puts a value under a name. -/
def put (headers : Headers) (name value : String) : Except HeaderError Headers :=
  if !isHeaderName name then .error .name
  else if !isHeaderValue value then .error .value
  else .ok (headers.set (Text.lower name) value)

/-- Takes up a configured header. -/
def putConfigured (headers : Headers) (entry : String × Json) : Except HeaderError Headers :=
  match entry.2 with
  | .string value => headers.put entry.1 value
  | _ => .error (.notText entry.1)

/-- The headers in the order of their names. -/
def sorted (headers : Headers) : List (String × String) := headers.mergeSort fun a b => a.1 ≤ b.1

/-- The headers of a request that carries a key, with the configured ones. -/
def authorized (key : String) (configured : Fields Json) : Except HeaderError Headers := do
  let headers ← put [] "authorization" ("Bearer " ++ key)
  (configured.mergeSort fun a b => a.1 ≤ b.1).foldlM putConfigured headers

end Headers

end FeedQuery.Http
