import FeedQuery.Criteria.Filter
import FeedQuery.Criteria.Sort

/-!
# Criteria

A request says what it wants in tokens, `field;value` for a filter and `field;direction` for a sort. `Criteria.compile`
reads them one after the other: a field that is not known is passed over, a known field with a bad value refuses the
request.
-/

namespace FeedQuery

/-- What a request asks for. -/
structure Criteria where
  terms : List FilterTerm
  sort : Option SortSpec
  /-- Documents of the accounts that the viewer follows. -/
  followGraph : Bool
  /-- Documents in the order in which they were liked. -/
  reactionOrder : Bool
deriving DecidableEq, Repr

/-- What the tokens say about how documents are reached. -/
structure Hints where
  membership : Option Uuid
  taskOutput : Option Uuid
  graphFanOut : Bool
  reactionFanOut : Bool
  similarTo : Option Uuid
  search : Option String
deriving DecidableEq, Repr

/-- Fields of documents that filters look at. -/
def Path.createdAt : Path := .field "createdAt"

/-- What a new value does to the values of its kind. -/
def FilterTerm.add (t : FilterTerm) (value : Scalar) : FilterTerm :=
  if t.kind.isMultiValued then
    if t.values.contains value then t else { t with values := t.values ++ [value] }
  else { t with values := [value] }

namespace Criteria

/-- Nothing asked for. -/
def empty : Criteria := ⟨[], none, false, false⟩

/-- Puts a value among the terms: into the term of its kind, or into a new one at the end. -/
def addValue (kind : FilterKind) (value : Scalar) : List FilterTerm → List FilterTerm
  | [] => [⟨kind, [value]⟩]
  | term :: rest => if term.kind = kind then term.add value :: rest else term :: addValue kind value rest

/-- Reads one filter token. A token without a separator, or of an unknown field, says nothing. -/
def withFilter (c : Criteria) (token : String) : Except Rejection Criteria :=
  match Text.splitOnce? ';' token with
  | none => .ok c
  | some (field, raw) =>
    match FilterKind.ofField? (Text.trim field) with
    | none => .ok c
    | some kind =>
      match kind.read (Text.trim raw) with
      | .error fault => .error (.filter (Text.trim field) fault)
      | .ok value => .ok { c with terms := addValue kind value c.terms }

/-- Takes up an order. Of several orders by a field that documents carry, the first counts. -/
def order (c : Criteria) (field : SortField) (direction : Direction) : Criteria :=
  match field with
  | .following => { c with followGraph := true }
  | .liked => { c with reactionOrder := true }
  | field => { c with sort := c.sort.or (some ⟨field, direction⟩) }

/-- Reads one sort token. Without a separator the order is descending; an unknown field says nothing. -/
def withSort (c : Criteria) (token : String) : Except Rejection Criteria :=
  let (field, raw) := (Text.splitOnce? ';' token).getD (token, "-1")
  match SortField.ofField? (Text.trim field) with
  | none => .ok c
  | some sortField =>
    match Direction.ofText? raw with
    | none => .error (.sort (Text.trim field) raw)
    | some direction => .ok (c.order sortField direction)

/-- Reads all filter tokens, then all sort tokens. -/
def compile (filters sorts : List String) : Except Rejection Criteria := do
  let c ← filters.foldlM withFilter empty
  sorts.foldlM withSort c

/-- The term of a kind. -/
def term? (c : Criteria) (kind : FilterKind) : Option FilterTerm := c.terms.find? fun term => term.kind == kind

/-- The values of a kind. -/
def values (c : Criteria) (kind : FilterKind) : List Scalar := ((c.term? kind).map FilterTerm.values).getD []

/-- The identifiers of a kind. -/
def ids (c : Criteria) (kind : FilterKind) : List Uuid := (c.values kind).filterMap Scalar.id?

/-- The identifier of a kind that has one value. -/
def id? (c : Criteria) (kind : FilterKind) : Option Uuid := (c.values kind).head?.bind Scalar.id?

/-- The account whose likes are asked for. -/
def likedBy? (c : Criteria) : Option Uuid := c.id? .likedBy

/-- The visibility asked for; only views that are not restricted to public documents heed it. -/
def visibility? (c : Criteria) : Option Bool := (c.values .visibility).head?.bind Scalar.bool?

/-- What the tokens say about how documents are reached. -/
def hints (c : Criteria) : Hints where
  membership := c.id? .collection
  taskOutput := c.id? .concept
  graphFanOut := c.followGraph
  reactionFanOut := c.reactionOrder || c.likedBy?.isSome
  similarTo := c.id? .similar
  search := (c.values .search).head?.bind Scalar.text?

/-- The field of a document that a kind of filter looks at. Kinds that say how documents are reached look at none. -/
def path? (collection : Collection) : FilterKind → Option Path
  | .owner => some collection.owner
  | .agent => some (.field "agent")
  | .task => some (.field "task")
  | .name => some (.field "name")
  | .baseModel => some (.field "baseModel")
  | .minDate | .maxDate => some .createdAt
  | .minLikes => some (Counter.path .likeCount)
  | .collection | .concept | .similar | .likedBy | .visibility | .search => none

/-- What a term demands of a field: a bound, or one of its values. -/
def termPredicate (path : Path) (t : FilterTerm) : Predicate :=
  match t.kind, t.values with
  | .minDate, value :: _ | .minLikes, value :: _ => .order path .gte value
  | .maxDate, value :: _ => .order path .lte value
  | .minDate, [] | .minLikes, [] | .maxDate, [] => .always
  | _, [value] => .eq path value
  | _, values => .oneOf path values

/-- What the filters and the order demand of the documents themselves. -/
def documentPredicate (c : Criteria) (collection : Collection) : Predicate :=
  .all (c.terms.filterMap (fun term => (path? collection term.kind).map fun path => termPredicate path term) ++
    (c.sort.bind SortSpec.sideFilter?).toList)

end Criteria

end FeedQuery
