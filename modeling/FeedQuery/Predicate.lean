import FeedQuery.Scalar

/-!
# Predicates

A predicate accepts or refuses a document. `Predicate.all`, `Predicate.any` and `Predicate.negate` build the simplified
forms: nested conjunctions are flattened, and terms that decide nothing are dropped.
-/

namespace FeedQuery

/-- How a field has to lie relative to a scalar. -/
inductive Comparison where
  | gt
  | gte
  | lt
  | lte
deriving DecidableEq, Repr, Inhabited

/-- Whether an order of field and scalar is as asked. -/
def Comparison.admits : Comparison → Ordering → Bool
  | .gt, o => o == .gt
  | .gte, o => o != .lt
  | .lt, o => o == .lt
  | .lte, o => o != .gt

/-- A condition on a document. -/
inductive Predicate where
  | always
  | never
  | and (terms : List Predicate)
  | or (terms : List Predicate)
  | not (term : Predicate)
  | eq (path : Path) (value : Scalar)
  | ne (path : Path) (value : Scalar)
  | oneOf (path : Path) (values : List Scalar)
  | order (path : Path) (comparison : Comparison) (value : Scalar)
  /-- The field is an array with at least one element. -/
  | notEmpty (path : Path)
deriving Repr, Inhabited

namespace Predicate

/-- The terms of a conjunction without nested conjunctions and without `always`; `none` if a term is `never`. -/
def conjuncts? : List Predicate → Option (List Predicate)
  | [] => some []
  | .always :: rest => conjuncts? rest
  | .never :: _ => none
  | .and terms :: rest => (conjuncts? rest).map (terms ++ ·)
  | term :: rest => (conjuncts? rest).map (term :: ·)

/-- The terms of a disjunction without nested disjunctions and without `never`; `none` if a term is `always`. -/
def disjuncts? : List Predicate → Option (List Predicate)
  | [] => some []
  | .never :: rest => disjuncts? rest
  | .always :: _ => none
  | .or terms :: rest => (disjuncts? rest).map (terms ++ ·)
  | term :: rest => (disjuncts? rest).map (term :: ·)

/-- The simplified conjunction. -/
def all (terms : List Predicate) : Predicate :=
  match conjuncts? terms with
  | none => .never
  | some [] => .always
  | some [term] => term
  | some terms => .and terms

/-- The simplified disjunction. -/
def any (terms : List Predicate) : Predicate :=
  match disjuncts? terms with
  | none => .always
  | some [] => .never
  | some [term] => term
  | some terms => .or terms

/-- The simplified negation. -/
def negate : Predicate → Predicate
  | .always => .never
  | .never => .always
  | .not term => term
  | term => .not term

def isAlways : Predicate → Bool
  | .always => true
  | _ => false

def isNever : Predicate → Bool
  | .never => true
  | _ => false

mutual

/-- Whether a document satisfies the predicate. -/
def accepts (p : Predicate) (d : Document) : Bool :=
  match p with
  | .always => true
  | .never => false
  | .and terms => acceptsAll terms d
  | .or terms => acceptsAny terms d
  | .not term => !term.accepts d
  | .eq path value => value.holdsAt (d.get? path)
  | .ne path value => !value.holdsAt (d.get? path)
  | .oneOf path values => values.any fun value => value.holdsAt (d.get? path)
  | .order path comparison value =>
    match (d.get? path).bind value.orderOf with
    | some o => comparison.admits o
    | none => false
  | .notEmpty path =>
    match d.get? path with
    | some (.array (_ :: _)) => true
    | _ => false

/-- Whether a document satisfies every term. -/
def acceptsAll (terms : List Predicate) (d : Document) : Bool :=
  match terms with
  | [] => true
  | term :: rest => term.accepts d && acceptsAll rest d

/-- Whether a document satisfies some term. -/
def acceptsAny (terms : List Predicate) (d : Document) : Bool :=
  match terms with
  | [] => false
  | term :: rest => term.accepts d || acceptsAny rest d

end

end Predicate

end FeedQuery
