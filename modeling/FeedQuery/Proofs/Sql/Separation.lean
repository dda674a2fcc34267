import FeedQuery.Proofs.Sql.Reading

/-!
# Text and values

The text of a statement is made of fixed words alone. It depends on the shape of a query (`Query.shape`), which is what
is left of the query when its data are taken out: the paths but for `_id`, the scalars, and the numbers of rows. All
data are sent beside the text, in the order in which the text has placeholders for them (`selectBinds`). So no data can
change what a text asks for (`statements_carry_no_data`).
-/

namespace FeedQuery

/-! ## Shapes -/

/-- A path of which only is left whether it is that of the identifier. -/
def Path.shape (p : Path) : Path := if p = .id then .id else .field ""

@[simp] theorem Path.shape_eq_id {p : Path} : p.shape = .id ↔ p = .id := by
  have hfield : Path.field "" ≠ .id := by decide
  unfold shape
  split <;> simp_all

/-- A scalar of which only the kind is left. -/
def Scalar.shape : Scalar → Scalar
  | .id _ => .id default
  | .text _ => .text default
  | .number _ => .number default
  | .bool _ => .bool default
  | .datetime _ => .datetime default
  | .null => .null

mutual

/-- A predicate without the paths and scalars that it compares. -/
def Predicate.shape : Predicate → Predicate
  | .always => .always
  | .never => .never
  | .and terms => .and (Predicate.shapes terms)
  | .or terms => .or (Predicate.shapes terms)
  | .not term => .not term.shape
  | .eq path value => .eq path.shape value.shape
  | .ne path value => .ne path.shape value.shape
  | .oneOf path values => .oneOf path.shape (values.map Scalar.shape)
  | .order path comparison value => .order path.shape comparison value.shape
  | .notEmpty path => .notEmpty path.shape

/-- The shapes of several predicates. -/
def Predicate.shapes : List Predicate → List Predicate
  | [] => []
  | term :: rest => term.shape :: Predicate.shapes rest

end

/-- A key without its path. -/
def SortKey.shape (k : SortKey) : SortKey := { k with path := k.path.shape }

/-- A query without its data. -/
def Query.shape (q : Query) : Query :=
  ⟨q.predicate.shape, q.sort.map SortKey.shape, q.skip.map fun _ => 0, q.limit.map fun _ => 0⟩

theorem Predicate.shapes_eq (terms : List Predicate) : shapes terms = terms.map shape := by
  induction terms with
  | nil => rfl
  | cons term rest ih => rw [shapes, List.map_cons, ih]

namespace Sql

/-! ## The words of a text -/

/-- The words of a piece; nothing where a value is put in. -/
def Piece.words? : Piece → Option String
  | .text words => some words
  | .bind _ => none

/-- Words, with the places between them in which values are put. -/
def template (pieces : List Piece) : List (Option String) := pieces.map Piece.words?

@[simp] theorem template_nil : template [] = [] := rfl

@[simp] theorem template_text (words : String) (pieces : List Piece) :
    template (.text words :: pieces) = some words :: template pieces := rfl

@[simp] theorem template_bind (value : Bind) (pieces : List Piece) :
    template (.bind value :: pieces) = none :: template pieces := rfl

@[simp] theorem template_append (pieces pieces' : List Piece) :
    template (pieces ++ pieces') = template pieces ++ template pieces' :=
  List.map_append

/-- Pieces with the same words and places make one text. -/
theorem Statement.textFrom_congr {pieces pieces' : List Piece} (h : template pieces = template pieces') (number : Nat) :
    textFrom number pieces = textFrom number pieces' := by
  induction pieces generalizing pieces' number with
  | nil => rw [List.map_eq_nil_iff.1 h.symm]
  | cons piece rest ih =>
    obtain ⟨piece', rest', rfl, hpiece, hrest⟩ := List.map_eq_cons_iff.1 h.symm
    cases piece <;> cases piece' <;> cases hpiece
    · rw [textFrom, textFrom, ih hrest.symm]
    · rw [textFrom, textFrom, ih hrest.symm]

/-! ### Joined pieces -/

theorem joined_cons (separator : String) (first : List Piece) (rest : List (List Piece)) :
    joined separator (first :: rest) = first ++ rest.flatMap (.text separator :: ·) := by
  induction rest generalizing first with
  | nil => simp [joined]
  | cons next rest ih => simp [joined, ih]

theorem template_joined_cons (separator : String) (first : List Piece) (rest : List (List Piece)) :
    template (joined separator (first :: rest)) = template first ++
      (rest.map template).flatMap (some separator :: ·) := by
  simp [joined_cons, template, List.map_flatMap, List.flatMap_map, Piece.words?]

/-- Joined pieces have the words of those that are joined. -/
theorem template_joined (separator : String) {α : Type} {f g : α → List Piece} {xs : List α}
    (h : ∀ x ∈ xs, template (f x) = template (g x)) :
    template (joined separator (xs.map f)) = template (joined separator (xs.map g)) := by
  cases xs with
  | nil => rfl
  | cons x rest =>
    obtain ⟨hx, hrest⟩ := List.forall_mem_cons.1 h
    simp only [List.map_cons, template_joined_cons, List.map_map, Function.comp_def, hx, List.map_congr_left hrest]

/-- Terms in one pair of parentheses with a text between each two; another text for no terms. -/
def listed (empty separator : String) (terms : List (List Piece)) : List Piece :=
  if terms.isEmpty then [.text empty] else .text "(" :: joined separator terms ++ [.text ")"]

/-- Listed terms have the words of the terms. -/
theorem template_listed (empty separator : String) {α : Type} {f g : α → List Piece} {xs : List α}
    (h : ∀ x ∈ xs, template (f x) = template (g x)) :
    template (listed empty separator (xs.map f)) = template (listed empty separator (xs.map g)) := by
  simp only [listed, List.isEmpty_map]
  split
  · rfl
  · simp [template_joined separator h]

namespace Expr

/-- Terms that are joined from the left are written one after another. -/
theorem pieces_foldl {join : Expr → Expr → Expr} {separator : String}
    (hjoin : ∀ left right, (join left right).pieces = left.pieces ++ .text separator :: right.pieces)
    (terms : List Expr) (first : Expr) :
    (terms.foldl join first).pieces = joined separator ((first :: terms).map pieces) := by
  induction terms generalizing first with
  | nil => rfl
  | cons term rest ih => simp [ih, hjoin, joined_cons]

theorem pieces_all (terms : List Expr) : (all terms).pieces = listed "TRUE" " AND " (terms.map pieces) := by
  cases terms with
  | nil => rfl
  | cons first rest =>
    rw [all, pieces, pieces_foldl (fun _ _ => rfl)]
    rfl

theorem pieces_any (terms : List Expr) : (any terms).pieces = listed "FALSE" " OR " (terms.map pieces) := by
  cases terms with
  | nil => rfl
  | cons first rest =>
    rw [any, pieces, pieces_foldl (fun _ _ => rfl)]
    rfl

end Expr

/-- A negated condition has the words of the condition. -/
theorem template_not {e e' : Expr} (h : template e.pieces = template e'.pieces) :
    template (Expr.not (.parens e)).pieces = template (Expr.not (.parens e')).pieces := by
  simp [Expr.pieces, h]

/-! ### Words depend on the shape -/

theorem template_typedField (path : Path) (kind : ValueKind) :
    template (typedField path.shape kind).pieces = template (typedField path kind).pieces := by
  cases kind with
  | id =>
    simp only [typedField, Path.shape_eq_id]
    split <;> simp [Expr.pieces]
  | _ => simp [typedField, Expr.pieces]

theorem template_comparison (operator : Operator) (path : Path) (value : Scalar) :
    template (comparison operator path.shape value.shape).pieces =
      template (comparison operator path value).pieces := by
  cases value with
  | id id =>
    simp only [comparison, Scalar.shape, Path.shape_eq_id]
    split <;> simp [Expr.pieces, template_typedField]
  | _ => simp [comparison, Scalar.shape, Expr.pieces, template_typedField]

theorem template_equality (path : Path) (value : Scalar) :
    template (equality path.shape value.shape).pieces = template (equality path value).pieces := by
  cases value with
  | id id =>
    simp only [equality, Scalar.shape, Path.shape_eq_id]
    split <;> simp [Expr.pieces]
  | datetime instant => exact template_comparison .equal path (.datetime instant)
  | _ => simp [equality, Scalar.shape, Expr.pieces]

theorem mapM_id?_shape (values : List Scalar) :
    (values.map Scalar.shape).mapM Scalar.id? = (values.mapM Scalar.id?).map fun ids => ids.map fun _ => default := by
  induction values with
  | nil => rfl
  | cons value rest ih =>
    rw [List.map_cons, List.mapM_cons, List.mapM_cons, ih]
    cases value with
    | id id => cases rest.mapM Scalar.id? <;> rfl
    | _ => rfl

theorem template_membership (path : Path) (values : List Scalar) :
    template (membership path.shape (values.map Scalar.shape)).pieces = template (membership path values).pieces := by
  have hany : template (Expr.any ((values.map Scalar.shape).map (equality path.shape))).pieces =
      template (Expr.any (values.map (equality path))).pieces := by
    rw [Expr.pieces_any, Expr.pieces_any, List.map_map, List.map_map, List.map_map]
    exact template_listed _ _ fun value _ => template_equality path value
  unfold membership
  rw [mapM_id?_shape]
  cases values.mapM Scalar.id? with
  | none => exact hany
  | some ids =>
    simp only [Option.map_some, Path.shape_eq_id, ne_eq, List.map_eq_nil_iff]
    split
    · rfl
    · exact hany

mutual

/-- The words of the condition of a predicate are those of the condition of its shape. -/
theorem template_condition : ∀ p : Predicate, template (condition p.shape).pieces = template (condition p).pieces
  | .always | .never | .notEmpty _ => rfl
  | .and terms => by
    rw [Predicate.shape, condition, condition, conditions_eq, conditions_eq, Predicate.shapes_eq, Expr.pieces_all,
      Expr.pieces_all, List.map_map, List.map_map, List.map_map]
    exact template_listed _ _ (template_conditions terms)
  | .or terms => by
    rw [Predicate.shape, condition, condition, conditions_eq, conditions_eq, Predicate.shapes_eq, Expr.pieces_any,
      Expr.pieces_any, List.map_map, List.map_map, List.map_map]
    exact template_listed _ _ (template_conditions terms)
  | .not term => template_not (template_condition term)
  | .eq path value => template_equality path value
  | .ne path value => template_not (template_equality path value)
  | .oneOf path values => template_membership path values
  | .order path comparison value => template_comparison (.order comparison) path value

theorem template_conditions : ∀ terms : List Predicate, ∀ term ∈ terms,
    template (condition term.shape).pieces = template (condition term).pieces
  | [], _, h => absurd h List.not_mem_nil
  | first :: rest, _, h => (List.mem_cons.1 h).elim (fun hfirst => hfirst ▸ template_condition first)
      (template_conditions rest _)

end

/-! ## The values that are sent -/

/-- The values that are sent to read a field as a kind: its path, wherever it is looked up. -/
def fieldBinds (path : Path) : ValueKind → List Bind
  | .id => if path = .id then [] else List.replicate 2 (.texts path.segments)
  | .datetime => List.replicate 3 (.texts path.segments)
  | _ => List.replicate 2 (.texts path.segments)

/-- The values of a comparison: those of the field, and the scalar. -/
def comparisonBinds (path : Path) : Scalar → List Bind
  | .id id => fieldBinds path .id ++ [if path = .id then .uuid id else .text id.toText]
  | .text text => fieldBinds path .text ++ [.text text]
  | .number number => fieldBinds path .number ++ [.double number]
  | .bool flag => fieldBinds path .bool ++ [.bool flag]
  | .datetime instant => fieldBinds path .datetime ++ [.ofInstant instant]
  | .null => []

/-- The values of a test of equality. -/
def equalityBinds (path : Path) (value : Scalar) : List Bind :=
  match value with
  | .id id => if path = .id then [.uuid id] else [.texts path.segments, .json value.toJson]
  | .null => [.texts path.segments]
  | .datetime _ => comparisonBinds path value
  | _ => [.texts path.segments, .json value.toJson]

/-- The values of a test of membership: one list of identifiers, or those of each test of equality. -/
def membershipBinds (path : Path) (values : List Scalar) : List Bind :=
  match values.mapM Scalar.id? with
  | some ids => if path = .id ∧ ids ≠ [] then [.uuids ids] else values.flatMap (equalityBinds path)
  | none => values.flatMap (equalityBinds path)

mutual

/-- The values that are sent beside the condition of a predicate, from left to right. -/
def conditionBinds : Predicate → List Bind
  | .always | .never => []
  | .and terms | .or terms => conditionsBinds terms
  | .not term => conditionBinds term
  | .eq path value | .ne path value => equalityBinds path value
  | .oneOf path values => membershipBinds path values
  | .order path _ value => comparisonBinds path value
  | .notEmpty path => List.replicate 2 (.texts path.segments)

/-- The values that are sent beside the conditions of predicates. -/
def conditionsBinds : List Predicate → List Bind
  | [] => []
  | term :: rest => conditionBinds term ++ conditionsBinds rest

end

/-- The values that are sent to find documents: the name of the collection, the data of the query, and the numbers of
rows. -/
def selectBinds (c : Collection) (q : Query) : List Bind :=
  .text c.name :: conditionBinds q.predicate ++ q.sort.flatMap (fun key => fieldBinds key.path key.kind) ++
    (q.skip.map Bind.ofCount).toList ++ (q.limit.map Bind.ofCount).toList

/-- The values that are sent to count documents. -/
def countBinds (c : Collection) (p : Predicate) : List Bind := .text c.name :: conditionBinds p

/-- The values of pieces. -/
def bindsOf (pieces : List Piece) : List Bind := pieces.filterMap Piece.bind?

theorem bindsOf_append (pieces pieces' : List Piece) :
    bindsOf (pieces ++ pieces') = bindsOf pieces ++ bindsOf pieces' :=
  List.filterMap_append

theorem bindsOf_text (words : String) (pieces : List Piece) : bindsOf (.text words :: pieces) = bindsOf pieces := rfl

theorem bindsOf_joined (separator : String) (xs : List (List Piece)) :
    bindsOf (joined separator xs) = xs.flatMap bindsOf := by
  cases xs with
  | nil => rfl
  | cons first rest =>
    rw [joined_cons, bindsOf_append, List.flatMap_cons]
    exact congrArg _ List.filterMap_flatMap

/-- Words around pieces add no values. -/
theorem bindsOf_enclosed (opening closing : String) (pieces : List Piece) :
    bindsOf (.text opening :: pieces ++ [.text closing]) = bindsOf pieces := by
  rw [List.cons_append, bindsOf_text, bindsOf_append]
  exact List.append_nil _

theorem bindsOf_listed (empty separator : String) (terms : List (List Piece)) :
    bindsOf (listed empty separator terms) = terms.flatMap bindsOf := by
  cases terms with
  | nil => rfl
  | cons first rest => rw [listed, List.isEmpty_cons, if_neg Bool.false_ne_true, bindsOf_enclosed, bindsOf_joined]

/-- A negated condition has the values of the condition. -/
theorem bindsOf_not (e : Expr) : bindsOf (Expr.not (.parens e)).pieces = bindsOf e.pieces := by
  rw [Expr.pieces, bindsOf_text, Expr.pieces, bindsOf_enclosed]

theorem bindsOf_typedField (path : Path) (kind : ValueKind) :
    bindsOf (typedField path kind).pieces = fieldBinds path kind := by
  cases kind with
  | id =>
    simp only [typedField, fieldBinds]
    split <;> rfl
  | _ => rfl

theorem bindsOf_comparison (operator : Operator) (path : Path) (value : Scalar) :
    bindsOf (comparison operator path value).pieces = comparisonBinds path value := by
  cases value with
  | id id =>
    simp only [comparison, typedField, comparisonBinds, fieldBinds]
    split <;> rfl
  | _ => rfl

theorem bindsOf_equality (path : Path) (value : Scalar) :
    bindsOf (equality path value).pieces = equalityBinds path value := by
  cases value with
  | id id =>
    simp only [equality, equalityBinds]
    split <;> rfl
  | _ => rfl

theorem bindsOf_membership (path : Path) (values : List Scalar) :
    bindsOf (membership path values).pieces = membershipBinds path values := by
  have hany : bindsOf (Expr.any (values.map (equality path))).pieces = values.flatMap (equalityBinds path) := by
    rw [Expr.pieces_any, bindsOf_listed, List.map_map, List.flatMap_map]
    exact congrArg (values.flatMap ·) (funext (bindsOf_equality path))
  unfold membership membershipBinds
  cases values.mapM Scalar.id? with
  | none => exact hany
  | some ids =>
    dsimp only
    split
    · rfl
    · exact hany

mutual

/-- The values beside the condition of a predicate. -/
theorem bindsOf_condition : ∀ p : Predicate, bindsOf (condition p).pieces = conditionBinds p
  | .always | .never | .notEmpty _ => rfl
  | .and terms => by rw [condition, Expr.pieces_all, bindsOf_listed, conditionBinds, bindsOf_conditions]
  | .or terms => by rw [condition, Expr.pieces_any, bindsOf_listed, conditionBinds, bindsOf_conditions]
  | .not term => by rw [condition, bindsOf_not, conditionBinds, bindsOf_condition]
  | .eq path value => bindsOf_equality path value
  | .ne path value => by rw [condition, bindsOf_not, conditionBinds, bindsOf_equality]
  | .oneOf path values => bindsOf_membership path values
  | .order path comparison value => bindsOf_comparison (.order comparison) path value

theorem bindsOf_conditions : ∀ terms : List Predicate, ((conditions terms).map Expr.pieces).flatMap bindsOf =
    conditionsBinds terms
  | [] => rfl
  | term :: rest => by
    rw [conditions, List.map_cons, List.flatMap_cons, conditionsBinds, bindsOf_condition, bindsOf_conditions]

end

/-- The values beside a condition on the rows of a collection. -/
theorem bindsOf_scope (c : Collection) (p : Predicate) : bindsOf (scope c p).pieces = countBinds c p :=
  congrArg (Bind.text c.name :: ·) (bindsOf_condition p)

/-! ## Statements -/

section

variable (c c' : Collection) (q : Query)

theorem template_scope (p : Predicate) : template (scope c p.shape).pieces = template (scope c' p).pieces :=
  congrArg ([some Column.collection.name, some " = ", none, some " AND "] ++ ·) (template_condition p)

theorem template_orderPieces (keys : List SortKey) :
    template (orderPieces (keys.map SortKey.shape)) = template (orderPieces keys) := by
  have hkey : ∀ key ∈ keys, template (sortPieces key.shape) = template (sortPieces key) := by
    intro key _
    simp [sortPieces, SortKey.shape, template_typedField]
  cases keys with
  | nil => rfl
  | cons first rest =>
    have hjoined := template_joined ", " hkey
    rw [← Function.comp_def sortPieces, ← List.map_map] at hjoined
    exact congrArg (some " ORDER BY " :: ·) hjoined

theorem template_boundPieces (words : String) (n : Option Nat) :
    template (boundPieces words (n.map fun _ => 0)) = template (boundPieces words n) := by
  cases n <;> rfl

/-- The statement that finds documents has the words of the statement of the shape, in whatever collection. -/
theorem template_select : template (Statement.select c q.shape).pieces = template (Statement.select c' q).pieces := by
  simp only [Statement.select, Query.shape, List.cons_append, template_text, template_append, template_scope c c',
    template_orderPieces, template_boundPieces]

/-- The statement that counts documents has the words of the statement of the shape. -/
theorem template_count (p : Predicate) : template (Statement.count c p.shape).pieces =
    template (Statement.count c' p).pieces :=
  congrArg (some "SELECT count(*) FROM feed_documents WHERE " :: ·) (template_scope c c' p)

theorem bindsOf_orderPieces (keys : List SortKey) :
    bindsOf (orderPieces keys) = keys.flatMap fun key => fieldBinds key.path key.kind := by
  have hkey (key : SortKey) : bindsOf (sortPieces key) = fieldBinds key.path key.kind := by
    rw [sortPieces, bindsOf_append, bindsOf_typedField]
    exact List.append_nil _
  cases keys with
  | nil => rfl
  | cons first rest =>
    rw [orderPieces, List.isEmpty_cons, if_neg Bool.false_ne_true, bindsOf_text, bindsOf_joined, List.flatMap_map]
    exact congrArg (List.flatMap · _) (funext hkey)

theorem bindsOf_boundPieces (words : String) (n : Option Nat) :
    bindsOf (boundPieces words n) = (n.map Bind.ofCount).toList := by
  cases n <;> rfl

theorem binds_select : (Statement.select c q).binds = selectBinds c q := by
  have hvalues : bindsOf (Statement.select c q).pieces = selectBinds c q := by
    simp only [Statement.select, List.cons_append, bindsOf_text, bindsOf_append, bindsOf_scope, bindsOf_orderPieces,
      bindsOf_boundPieces]
    rfl
  rw [Statement.binds_eq]
  exact hvalues

theorem binds_count (p : Predicate) : (Statement.count c p).binds = countBinds c p := by
  rw [Statement.binds_eq]
  exact bindsOf_scope c p

end

/-- The numbers of the placeholders of a text. -/
def placeholders (text : String) : List Nat := (Pending.nothing.lex text.toList).filterMap Token.number?

/-- The placeholders of a statement are numbered from one, and there is one for each value. -/
theorem placeholders_text {s : Statement} (h : WellSpaced s.pieces) :
    placeholders s.text = List.range' 1 s.binds.length := by
  rw [placeholders, Statement.text, Statement.lex_textFrom h, Statement.filterMap_number?_numberedFrom h.whole,
    Statement.binds_eq]

/-- No data are in the text of a statement:

1. queries of one shape are sent as one text, and counted by one text, in whatever collections;
2. the placeholders of a text are numbered from one in the order in which they stand, one for each value that is sent;
3. the values are the data: the name of the collection, the paths and scalars of the predicate in their order, the paths
   of the keys, and the numbers of rows;
4. with each placeholder read as the value of its number, a text says what it was made of. -/
theorem statements_carry_no_data :
    (∀ c c' q q', q.shape = q'.shape → (Statement.select c q).text = (Statement.select c' q').text) ∧
    (∀ c c' p p', p.shape = p'.shape → (Statement.count c p).text = (Statement.count c' p').text) ∧
    (∀ c q,
      placeholders (Statement.select c q).text = List.range' 1 (Statement.select c q).binds.length ∧
      (Statement.select c q).binds = selectBinds c q ∧
      Selection.read (Statement.select c q).text (Statement.select c q).binds =
        some ⟨scope c q.predicate, q.sort.map orderKey, q.skip.map Bind.ofCount, q.limit.map Bind.ofCount⟩) ∧
    ∀ c p,
      placeholders (Statement.count c p).text = List.range' 1 (Statement.count c p).binds.length ∧
      (Statement.count c p).binds = countBinds c p ∧
      readCount (Statement.count c p).text (Statement.count c p).binds = some (scope c p) := by
  refine ⟨?_, ?_, ?_, ?_⟩
  · intro c c' q q' h
    refine Statement.textFrom_congr ?_ 1
    rw [← template_select c c q, h, template_select c c' q']
  · intro c c' p p' h
    refine Statement.textFrom_congr ?_ 1
    rw [← template_count c c p, h, template_count c c' p']
  · exact fun c q => ⟨placeholders_text (wellSpaced_select c q), binds_select c q, read_select c q⟩
  · have hspaced (c : Collection) (p : Predicate) : WellSpaced (Statement.count c p).pieces :=
      (scope c p).wellSpaced.cons rfl rfl
    exact fun c p => ⟨placeholders_text (hspaced c p), binds_count c p, readCount_count c p⟩

end Sql

namespace Sample

/-- A query for documents with a tag that are older than another. -/
def tagQuery (tag : String) (id : Uuid) (skip : Nat) : Query where
  predicate := .and [.eq (.field "tags") (.text tag), .order .id .lt (.id id)]
  sort := [.idDescending]
  skip := some skip
  limit := none

end Sample

namespace Sql

/-- The theorem at two queries of one shape: a tag that looks like SQL is a value as any other. -/
theorem statements_carry_no_data_tag :
    (Statement.select .creations (Sample.tagQuery "a" ⟨9⟩ 0)).text =
      (Statement.select .models (Sample.tagQuery "a'; DROP TABLE feed_documents; --" ⟨10⟩ 5)).text ∧
    (Statement.select .creations (Sample.tagQuery "a" ⟨9⟩ 0)).text =
      "SELECT body FROM feed_documents WHERE collection = $1" ++
        " AND (COALESCE((body #> $2) @> $3, FALSE) AND COALESCE(doc_id < $4, FALSE))" ++
        " ORDER BY doc_id DESC NULLS LAST OFFSET $5" :=
  ⟨statements_carry_no_data.1 .creations .models _ _ rfl, by decide +kernel⟩

end Sql

end FeedQuery
