import FeedQuery.Document
import FeedQuery.Predicate
import FeedQuery.Sql.Statement

/-!
# Expressions

The SQL expressions that conditions and sort keys are made of, over the rows of one table: the collection of a document,
its identifier and its body. An expression holds no text of its own, so that its pieces are fixed words and bound
values. Parentheses are part of an expression and are written where they stand: the pieces of an expression are those of
its parts with the words between them.
-/

namespace FeedQuery.Sql

/-- A column of the table of documents. -/
inductive Column where
  | collection
  | id
  | body
deriving DecidableEq, Repr

/-- The name of a column. -/
def Column.name : Column → String
  | .collection => "collection"
  | .id => "doc_id"
  | .body => "body"

/-- The type of a JSON value. -/
inductive JsonType where
  | null
  | boolean
  | number
  | string
  | array
deriving DecidableEq, Repr

/-- The name of a JSON type in the database. -/
def JsonType.name : JsonType → String
  | .null => "null"
  | .boolean => "boolean"
  | .number => "number"
  | .string => "string"
  | .array => "array"

/-- A type that text is cast to. -/
inductive CastType where
  | double
  | boolean
  | timestamp
deriving DecidableEq, Repr

/-- The name of a type in the database. -/
def CastType.name : CastType → String
  | .double => "double precision"
  | .boolean => "boolean"
  | .timestamp => "timestamptz"

/-- A comparison of two values. -/
inductive Operator where
  | equal
  | order (comparison : Comparison)
deriving DecidableEq, Repr

/-- The symbol of a comparison. -/
def Operator.symbol : Operator → String
  | .equal => "="
  | .order .gt => ">"
  | .order .gte => ">="
  | .order .lt => "<"
  | .order .lte => "<="

/-- An SQL expression. -/
inductive Expr where
  | truth (value : Bool)
  | zero
  | column (column : Column)
  | bind (value : Bind)
  /-- The name of a JSON type as text. -/
  | typeName (type : JsonType)
  /-- The JSON value at the end of a path in the body. -/
  | jsonAt (path : Path)
  /-- The text of the JSON value at the end of a path in the body. -/
  | textAt (path : Path)
  /-- The name of the type of a JSON value. -/
  | typeOf (value : Expr)
  | arrayLength (value : Expr)
  /-- Whether a text can be read as a timestamp. -/
  | isTimestamp (text : Expr)
  /-- Whether the left JSON value contains the right one. -/
  | contains (container part : Expr)
  | compare (operator : Operator) (left right : Expr)
  /-- Whether a value is one of a list. -/
  | isAny (value list : Expr)
  /-- The first value, or the second when the first is null. -/
  | coalesce (value fallback : Expr)
  | cast (value : Expr) (type : CastType)
  /-- A text that is compared byte by byte. -/
  | bytewise (text : Expr)
  /-- The value when the condition is true, and null when it is not. -/
  | caseWhen (condition value : Expr)
  | not (term : Expr)
  | and (left right : Expr)
  | or (left right : Expr)
  | parens (inner : Expr)
deriving Repr

namespace Expr

/-- The pieces that an expression is written with. -/
def pieces : Expr → List Piece
  | .truth true => [.text "TRUE"]
  | .truth false => [.text "FALSE"]
  | .zero => [.text "0"]
  | .column c => [.text c.name]
  | .bind value => [.bind value]
  | .typeName type => [.text ("'" ++ type.name ++ "'")]
  | .jsonAt path => [.text "body #> ", .bind (.texts path.segments)]
  | .textAt path => [.text "body #>> ", .bind (.texts path.segments)]
  | .typeOf value => .text "jsonb_typeof(" :: value.pieces ++ [.text ")"]
  | .arrayLength value => .text "jsonb_array_length(" :: value.pieces ++ [.text ")"]
  | .isTimestamp text => .text "pg_input_is_valid(" :: text.pieces ++ [.text ", 'timestamptz')"]
  | .contains container part => container.pieces ++ .text " @> " :: part.pieces
  | .compare operator left right => left.pieces ++ .text (" " ++ operator.symbol ++ " ") :: right.pieces
  | .isAny value list => value.pieces ++ .text " = ANY(" :: list.pieces ++ [.text ")"]
  | .coalesce value fallback => .text "COALESCE(" :: value.pieces ++ .text ", " :: fallback.pieces ++ [.text ")"]
  | .cast value type => value.pieces ++ [.text ("::" ++ type.name)]
  | .bytewise text => text.pieces ++ [.text " COLLATE \"C\""]
  | .caseWhen condition value => .text "CASE WHEN " :: condition.pieces ++ .text " THEN " :: value.pieces ++
      [.text " END"]
  | .not term => .text "NOT " :: term.pieces
  | .and left right => left.pieces ++ .text " AND " :: right.pieces
  | .or left right => left.pieces ++ .text " OR " :: right.pieces
  | .parens inner => .text "(" :: inner.pieces ++ [.text ")"]

/-- The conjunction of terms in one pair of parentheses; no terms are true. -/
def all : List Expr → Expr
  | [] => .truth true
  | term :: rest => .parens (rest.foldl .and term)

/-- The disjunction of terms in one pair of parentheses; no terms are false. -/
def any : List Expr → Expr
  | [] => .truth false
  | term :: rest => .parens (rest.foldl .or term)

end Expr

end FeedQuery.Sql
