import FeedQuery.Proofs.ByteOrder
import FeedQuery.Proofs.ExactNumber
import FeedQuery.Proofs.Sql.Reading

/-!
# Answering statements

What the statements on documents are answered with, over the rows of a table. An expression comes to a value, to null,
or it fails the whole statement (`Expr.eval`); truth values are joined as SQL joins them, and the right side of a
conjunction or disjunction is not looked at when the left one decides. A statement is read from its text first. The rows
on which its condition is true are put into an order that its keys allow, null before all values when it ascends, and
are counted off (`Statement.Answers`); where the keys tie, more than one order is allowed. What a database does with
JSON, texts and casts is an `Engine`, and `Engine.IsDocumented` says what is known of it.
-/

namespace FeedQuery.Sql

/-! ## Databases -/

/-- A row of the table of documents. -/
structure Row where
  collection : String
  id : Uuid
  body : Json

/-- What a database does with JSON values and texts. -/
structure Engine where
  /-- The value at the end of a path: `#>`. -/
  extract : List String → Json → Option Json
  /-- The text of a value at the end of a path, as `#>>` gives it. -/
  textOf : Json → Option String
  /-- Whether the left value contains the right one: `@>`. -/
  contains : Json → Json → Bool
  /-- The order of texts for which no collation is named. -/
  collate : String → String → Ordering
  /-- A text as a number; nothing when it is none, and the cast fails. -/
  double? : String → Option Double
  boolean? : String → Option Bool
  /-- A text as a timestamp, in microseconds since the start of 2000. -/
  timestamp? : String → Option Int

/-- A segment of a path without the blanks before it. -/
def unpadded (segment : String) : List Char := segment.toList.dropWhile fun c => c == ' ' || '\t' ≤ c && c ≤ '\r'

/-- Whether a database may take a segment of a path as the position of an element: an integer, perhaps after blanks. -/
def isPosition (segment : String) : Bool :=
  let text := (Decimal.readSign (unpadded segment)).2
  !text.isEmpty && text.all Char.isDigit

end FeedQuery.Sql

namespace FeedQuery.Json

/-- The name of the type of a value. -/
def typeName : Json → String
  | .null => "null"
  | .bool _ => "boolean"
  | .number _ => "number"
  | .string _ => "string"
  | .array _ => "array"
  | .object _ => "object"

/-- Whether a value is neither an array nor an object. -/
def isScalar : Json → Bool
  | .array _ | .object _ => false
  | _ => true

/-- The elements of an array, or the value alone. -/
def members : Json → List Json
  | .array items => items
  | value => [value]

/-- Whether two values are one scalar; numbers are one when they are the same number. -/
def isSame : Json → Json → Bool
  | .null, .null => true
  | .bool a, .bool b => a == b
  | .number a, .number b => a.quanta == b.quanta
  | .string a, .string b => a == b
  | _, _ => false

/-- Whether a value is no number that has to be rounded to be a double. -/
def isExact : Json → Bool
  | .number n => n.isExact
  | _ => true

end FeedQuery.Json

namespace FeedQuery.Sql

/-- What is known of a database. -/
structure Engine.IsDocumented (engine : Engine) : Prop where
  /-- Names lead through objects, and nothing but a position leads into an array. -/
  extract_eq : ∀ segments value, (∀ segment ∈ segments, isPosition segment = false) →
    engine.extract segments value = Path.follow segments value
  textOf_string : ∀ text, engine.textOf (.string text) = some text
  /-- The text of a number is read back as the double nearest to it. -/
  textOf_number : ∀ n, ∃ text value, engine.textOf (.number n) = some text ∧ engine.double? text = some value ∧
    value.key? = n.toDouble.key?
  textOf_bool : ∀ flag, ∃ text, engine.textOf (.bool flag) = some text ∧ engine.boolean? text = some flag
  /-- A value contains a scalar that it is, or that it is an array with. Decimals are kept with the fewest digits that
  read back, so that this is said of numbers that are doubles. -/
  contains_eq : ∀ value scalar, (∀ member ∈ value.members, member.isExact = true) → scalar.isExact = true →
    scalar.isScalar = true →
    engine.contains value scalar = value.members.any scalar.isSame
  collate_eq : ∀ a b, engine.collate a b = .eq ↔ a = b

/-! ## Expressions -/

/-- What an expression comes to at a row. -/
inductive Outcome where
  | failure
  | null
  | value (value : Bind)

namespace Outcome

/-- A truth value. -/
def truth (flag : Bool) : Outcome := .value (.bool flag)

/-- Null where there is no value. -/
def ofOption : Option Bind → Outcome
  | none => .null
  | some v => .value v

/-- A function of a value; null stays null. -/
def map (f : Bind → Outcome) : Outcome → Outcome
  | .failure => .failure
  | .null => .null
  | .value v => f v

/-- A function of two values; null if one of the two is. -/
def map₂ (f : Bind → Bind → Outcome) : Outcome → Outcome → Outcome
  | .failure, _ | _, .failure => .failure
  | .null, _ | _, .null => .null
  | .value left, .value right => f left right

/-- The conjunction of truth values. -/
def and : Outcome → Outcome → Outcome
  | .value (.bool false), _ => truth false
  | .value (.bool true), .value (.bool flag) => truth flag
  | .null, .value (.bool false) => truth false
  | .value (.bool true), .null | .null, .value (.bool true) | .null, .null => .null
  | _, _ => .failure

/-- The disjunction of truth values. -/
def or : Outcome → Outcome → Outcome
  | .value (.bool true), _ => truth true
  | .value (.bool false), .value (.bool flag) => truth flag
  | .null, .value (.bool true) => truth true
  | .value (.bool false), .null | .null, .value (.bool false) | .null, .null => .null
  | _, _ => .failure

/-- The negation of a truth value. -/
def not : Outcome → Outcome
  | .value (.bool flag) => truth !flag
  | .null => .null
  | _ => .failure

/-- The first outcome, or the second if the first is null. -/
def coalesce : Outcome → Outcome → Outcome
  | .null, fallback => fallback
  | outcome, _ => outcome

/-- The second outcome if the first is true, and null if it is false or null. -/
def caseWhen : Outcome → Outcome → Outcome
  | .value (.bool true), outcome => outcome
  | .value (.bool false), _ | .null, _ => .null
  | _, _ => .failure

/-- Whether a condition holds that came to this; null does not hold. -/
def holds? : Outcome → Option Bool
  | .value (.bool flag) => some flag
  | .null => some false
  | _ => none

end Outcome

/-- Whether an order of two values is as a comparison asks. -/
def Operator.admits : Operator → Ordering → Bool
  | .equal, o => o == .eq
  | .order comparison, o => comparison.admits o

/-- Whether texts are compared byte by byte with this one. -/
def Expr.isBytewise : Expr → Bool
  | .bytewise _ => true
  | .parens inner => inner.isBytewise
  | _ => false

/-- The order of doubles: what is not a number comes last. -/
def orderDoubles (a b : Double) : Ordering :=
  match a.key?, b.key? with
  | some x, some y => compare x y
  | some _, none => .lt
  | none, some _ => .gt
  | none, none => .eq

namespace Engine

variable (engine : Engine)

/-- The order of two values of one type; nothing if the two have none. -/
def order? (bytewise : Bool) : Bind → Bind → Option Ordering
  | .text a, .text b =>
    some (if bytewise then compare (Text.Utf8.encode a.toList) (Text.Utf8.encode b.toList) else engine.collate a b)
  | .integer a, .integer b => some (compare a b)
  | .double a, .double b => some (orderDoubles a b)
  | .bool a, .bool b => some (compare a b)
  | .uuid a, .uuid b => some (compare a b)
  | .timestamp a, .timestamp b => some (compare a b)
  | _, _ => none

/-- Compares two values. -/
def compare (operator : Operator) (bytewise : Bool) (left right : Bind) : Outcome :=
  match engine.order? bytewise left right with
  | some o => .truth (operator.admits o)
  | none => .failure

/-- A text as a value of a type. -/
def cast : CastType → Bind → Outcome
  | .double, .text text => match engine.double? text with
    | some value => .value (.double value)
    | none => .failure
  | .boolean, .text text => match engine.boolean? text with
    | some flag => .truth flag
    | none => .failure
  | .timestamp, .text text => match engine.timestamp? text with
    | some micros => .value (.timestamp micros)
    | none => .failure
  | _, _ => .failure

end Engine

/-- What an expression comes to at a row. -/
def Expr.eval (engine : Engine) (row : Row) : Expr → Outcome
  | .truth flag => .truth flag
  | .zero => .value (.integer 0)
  | .column .collection => .value (.text row.collection)
  | .column .id => .value (.uuid row.id)
  | .column .body => .value (.json row.body)
  | .bind value => .value value
  | .typeName type => .value (.text type.name)
  | .jsonAt path => .ofOption ((engine.extract path.segments row.body).map .json)
  | .textAt path => .ofOption (((engine.extract path.segments row.body).bind engine.textOf).map .text)
  | .typeOf value => (value.eval engine row).map fun
    | .json value => .value (.text value.typeName)
    | _ => .failure
  | .arrayLength value => (value.eval engine row).map fun
    | .json (.array items) => .value (.integer items.length)
    | _ => .failure
  | .isTimestamp text => (text.eval engine row).map fun
    | .text text => .truth (engine.timestamp? text).isSome
    | _ => .failure
  | .contains container part => .map₂ (fun
    | .json container, .json part => .truth (engine.contains container part)
    | _, _ => .failure) (container.eval engine row) (part.eval engine row)
  | .compare operator left right =>
    .map₂ (engine.compare operator (left.isBytewise || right.isBytewise)) (left.eval engine row) (right.eval engine row)
  | .isAny value list => .map₂ (fun
    | .uuid id, .uuids ids => .truth (ids.contains id)
    | _, _ => .failure) (value.eval engine row) (list.eval engine row)
  | .coalesce value fallback => (value.eval engine row).coalesce (fallback.eval engine row)
  | .cast value type => (value.eval engine row).map (engine.cast type)
  | .bytewise text => (text.eval engine row).map fun
    | .text text => .value (.text text)
    | _ => .failure
  | .caseWhen condition value => (condition.eval engine row).caseWhen (value.eval engine row)
  | .not term => (term.eval engine row).not
  | .and left right => (left.eval engine row).and (right.eval engine row)
  | .or left right => (left.eval engine row).or (right.eval engine row)
  | .parens inner => inner.eval engine row

/-! ## Statements -/

namespace Engine

variable (engine : Engine)

/-- The rows on which a condition holds; nothing when it fails on one. -/
def matching (condition : Expr) : List Row → Option (List Row)
  | [] => some []
  | row :: rest => do
    let holds ← (condition.eval engine row).holds?
    let kept ← matching condition rest
    pure (if holds then row :: kept else kept)

/-- The ascending order of two outcomes: null comes first. -/
def ascending? (bytewise : Bool) : Outcome → Outcome → Option Ordering
  | .null, .null => some .eq
  | .null, .value _ => some .lt
  | .value _, .null => some .gt
  | .value a, .value b => engine.order? bytewise a b
  | _, _ => none

/-- The order of two rows by the first key that tells them apart; nothing when a key fails. -/
def compareRows? : List (Expr × Direction) → Row → Row → Option Ordering
  | [], _, _ => some .eq
  | (value, direction) :: rest, a, b => do
    let first ← engine.ascending? value.isBytewise (value.eval engine a) (value.eval engine b)
    let next ← compareRows? rest a b
    pure ((direction.apply first).then next)

end Engine

/-- A number of rows, if one is given; nothing when it is no such number. -/
def rowCount? : Option Bind → Option (Option Nat)
  | none => some none
  | some (.integer (.ofNat n)) => some (some n)
  | some _ => none

/-- The bodies of rows that a selection may find in a table. -/
def Selection.Answers (engine : Engine) (table : List Row) (s : Selection) (bodies : List Json) : Prop :=
  ∃ kept sorted skip limit, engine.matching s.condition table = some kept ∧ kept.Perm sorted ∧
    (∀ a ∈ kept, ∀ b ∈ kept, (engine.compareRows? s.order a b).isSome = true) ∧
    sorted.Pairwise (fun a b => engine.compareRows? s.order a b ≠ some .gt) ∧
    rowCount? s.offset = some skip ∧ rowCount? s.limit = some limit ∧
    bodies = ((sorted.drop (skip.getD 0)).take (limit.getD sorted.length)).map Row.body

namespace Statement

/-- The bodies of rows that a statement may find in a table. -/
def Answers (engine : Engine) (table : List Row) (s : Statement) (bodies : List Json) : Prop :=
  ∃ selection, Selection.read s.text s.binds = some selection ∧ selection.Answers engine table bodies

/-- The number of rows that a statement counts in a table. -/
def Counts (engine : Engine) (table : List Row) (s : Statement) (count : Nat) : Prop :=
  ∃ condition kept, readCount s.text s.binds = some condition ∧ engine.matching condition table = some kept ∧
    kept.length = count

end Statement

end FeedQuery.Sql
