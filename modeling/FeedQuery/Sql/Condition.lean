import FeedQuery.SortKey
import FeedQuery.Sql.Expression

/-!
# Conditions and sort keys in SQL

A predicate becomes an expression that is true or false for every row and never null, so that a negated condition keeps
the rows whose field is missing. The identifier of a document is compared in its own column. Every other field is read
from the body, as the value of the kind that it is compared with, and as null when it is missing or of another JSON
type.
-/

namespace FeedQuery.Sql

/-- The field at a path as a value of a kind. Text that is no timestamp is null and does not fail the statement. -/
def typedField (path : Path) (kind : ValueKind) : Expr :=
  let isType (type : JsonType) : Expr := .compare .equal (.typeOf (.jsonAt path)) (.typeName type)
  let cast (type : CastType) : Expr := .cast (.parens (.textAt path)) type
  let text : Expr := .bytewise (.parens (.caseWhen (isType .string) (.textAt path)))
  match kind with
  | .id => if path = .id then .column .id else text
  | .text => text
  | .number => .parens (.caseWhen (isType .number) (cast .double))
  | .bool => .parens (.caseWhen (isType .boolean) (cast .boolean))
  | .datetime => .parens (.caseWhen (.and (isType .string) (.isTimestamp (.textAt path))) (cast .timestamp))

/-- Compares the field at a path with a scalar of its kind; null is not comparable with anything. -/
def comparison (operator : Operator) (path : Path) (value : Scalar) : Expr :=
  let against (kind : ValueKind) (right : Expr) : Expr :=
    .coalesce (.compare operator (typedField path kind) right) (.truth false)
  match value with
  | .id id => against .id (if path = .id then .bind (.uuid id) else .bytewise (.bind (.text id.toText)))
  | .text text => against .text (.bytewise (.bind (.text text)))
  | .number number => against .number (.bind (.double number))
  | .bool flag => against .bool (.bind (.bool flag))
  | .datetime instant => against .datetime (.bind (.ofInstant instant))
  | .null => .truth false

/-- Whether the field at a path holds a scalar. A field contains what one of its elements is; a missing field is
null. -/
def equality (path : Path) (value : Scalar) : Expr :=
  let contained : Expr :=
    .coalesce (.contains (.parens (.jsonAt path)) (.bind (.json value.toJson))) (.truth false)
  match value with
  | .id id => if path = .id then .compare .equal (.column .id) (.bind (.uuid id)) else contained
  | .null => .coalesce (.compare .equal (.typeOf (.jsonAt path)) (.typeName .null)) (.truth true)
  | .datetime _ => comparison .equal path value
  | _ => contained

/-- Whether the field at a path holds one of several scalars; identifiers of documents are looked up as one list. -/
def membership (path : Path) (values : List Scalar) : Expr :=
  match values.mapM Scalar.id? with
  | some ids => if path = .id ∧ ids ≠ [] then .isAny (.column .id) (.bind (.uuids ids))
      else .any (values.map (equality path))
  | none => .any (values.map (equality path))

/-- Whether the field at a path is an array with an element. -/
def nonempty (path : Path) : Expr :=
  .coalesce (.and (.compare .equal (.typeOf (.jsonAt path)) (.typeName .array))
    (.compare (.order .gt) (.arrayLength (.jsonAt path)) .zero)) (.truth false)

mutual

/-- The condition that a predicate puts on a row. -/
def condition : Predicate → Expr
  | .always => .truth true
  | .never => .truth false
  | .and terms => .all (conditions terms)
  | .or terms => .any (conditions terms)
  | .not term => .not (.parens (condition term))
  | .eq path value => equality path value
  | .ne path value => .not (.parens (equality path value))
  | .oneOf path values => membership path values
  | .order path order value => comparison (.order order) path value
  | .notEmpty path => nonempty path

/-- The conditions that predicates put on a row. -/
def conditions : List Predicate → List Expr
  | [] => []
  | term :: rest => condition term :: conditions rest

end

/-- The condition on the rows of a collection. -/
def scope (collection : Collection) (predicate : Predicate) : Expr :=
  .and (.compare .equal (.column .collection) (.bind (.text collection.name))) (condition predicate)

/-- The pieces of a sort key. -/
def sortPieces (key : SortKey) : List Piece :=
  (typedField key.path key.kind).pieces ++ [.text (" " ++ key.direction.sql)]

end FeedQuery.Sql
