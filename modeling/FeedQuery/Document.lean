import FeedQuery.Json
import FeedQuery.Uuid
import FeedQuery.Collection
import FeedQuery.Text.Blank

/-!
# Documents and paths

A document is a JSON object. A path is written with dots; reading follows it through nested objects, while writing and
removing take the whole path as the name of one top-level field.
-/

namespace FeedQuery

/-- A stored document. -/
structure Document where
  fields : Fields Json
deriving Repr, Inhabited

/-- A field and the fields below it. -/
structure Path where
  first : String
  nested : List String
deriving DecidableEq, Repr, Inhabited

namespace Path

/-- A top-level field. -/
def field (name : String) : Path := ⟨name, []⟩

/-- The identifier of a document. -/
def id : Path := field "_id"

/-- The path that a text with dots names. -/
def ofText (text : String) : Path :=
  match Text.split '.' text with
  | first :: nested => ⟨first, nested⟩
  | [] => ⟨"", []⟩

/-- The names along the path. -/
def segments (p : Path) : List String := p.first :: p.nested

/-- The path with its dots. -/
def toText (p : Path) : String := p.nested.foldl (fun text name => text ++ "." ++ name) p.first

/-- Follows names through nested objects. -/
def follow : List String → Json → Option Json
  | [], value => some value
  | name :: rest, value => (value.field? name).bind (follow rest)

end Path

namespace Document

/-- The value at a path. -/
def get? (d : Document) (p : Path) : Option Json :=
  (d.fields.get? p.first).bind (Path.follow p.nested)

/-- Puts a value under the top-level field that the path spells. -/
def set (d : Document) (p : Path) (value : Json) : Document := ⟨d.fields.set p.toText value⟩

/-- The value of the top-level field that the path spells. -/
def top? (d : Document) (p : Path) : Option Json := d.fields.get? p.toText

/-- Takes away the top-level field that the path spells. -/
def erase (d : Document) (p : Path) : Document := ⟨d.fields.erase p.toText⟩

/-- The document as a value. -/
def toJson (d : Document) : Json := .object d.fields

/-- A value that is an object, as a document. -/
def ofJson? (value : Json) : Option Document := value.object?.map Document.mk

/-- The identifier of a document, if it has one that is a UUID. -/
def id? (d : Document) : Option Uuid := ((d.get? .id).bind Json.string?).bind Uuid.ofText?

end Document

/-- The field that names the owning account. A creator owns itself. -/
def Collection.owner : Collection → Path
  | .creators => .id
  | _ => .field "user"

end FeedQuery
