import FeedQuery.Proofs.Sql.Spelling

/-!
# Conditions are true or false

The condition of a predicate comes to true or false at every row, whatever the body of the row holds and whatever the
predicate compares it with: never to null, and it does not fail (`exists_eval_condition`). So a negated condition is
true wherever the condition is not, a missing field included, and conditions are joined as truth values are
(`conditions_two_valued`). Each form of a condition sees to it by itself: a field is read as a value of the kind that it
is compared with, or as null (`nullOr_typedField`), and a comparison with null is made false.
-/

namespace FeedQuery.Sql

/-! ## What a field is read as -/

/-- An outcome is null, or a value of some sort. -/
def Outcome.NullOr (sort : Bind → Prop) : Outcome → Prop
  | .failure => False
  | .null => True
  | .value v => sort v

/-- The values that a field is read as under a kind. The identifier of a document has a column, and other identifiers
are texts. -/
inductive IsOfKind (path : Path) : ValueKind → Bind → Prop where
  | id (id : Uuid) : path = .id → IsOfKind path .id (.uuid id)
  | idText (text : String) : path ≠ .id → IsOfKind path .id (.text text)
  | text (text : String) : IsOfKind path .text (.text text)
  | number (value : Double) : IsOfKind path .number (.double value)
  | bool (flag : Bool) : IsOfKind path .bool (.bool flag)
  | datetime (micros : Int) : IsOfKind path .datetime (.timestamp micros)

/-- Values of one kind at one path can be compared. -/
theorem exists_compare (engine : Engine) {path : Path} {kind : ValueKind} {v w : Bind} (hv : IsOfKind path kind v)
    (hw : IsOfKind path kind w) (operator : Operator) (bytewise : Bool) :
    ∃ flag, engine.compare operator bytewise v w = .truth flag := by
  cases hv with
  | id id hpath =>
    cases hw with
    | id other => exact ⟨_, rfl⟩
    | idText text hother => exact absurd hpath hother
  | idText text hpath =>
    cases hw with
    | id other hother => exact absurd hother hpath
    | idText other => exact ⟨_, rfl⟩
  | text text | number value | bool flag | datetime micros => cases hw; exact ⟨_, rfl⟩

section

variable {engine : Engine} (he : engine.IsDocumented) {row : Row} {path : Path}
include he

/-- What is made of a field of a type is null, or what it is made into. -/
theorem nullOr_caseType {sort : Bind → Prop} (type : JsonType) {value : Expr}
    (h : ∀ found, engine.extract path.segments row.body = some found → found.hasType type = true →
      (value.eval engine row).NullOr sort) :
    ((Expr.caseWhen (.compare .equal (.typeOf (.jsonAt path)) (.typeName type)) value).eval engine row).NullOr
      sort := by
  rw [eval_caseType rfl he]
  split
  · next hany =>
    obtain ⟨found, hfound, htype⟩ := (Option.any_eq_true _ _).1 hany
    exact h found hfound htype
  · trivial

/-- A text that is compared byte by byte is null, or a text. -/
theorem nullOr_bytewise {sort : Bind → Prop} (hsort : ∀ text, sort (.text text)) :
    ((Expr.bytewise (.parens
      (.caseWhen (.compare .equal (.typeOf (.jsonAt path)) (.typeName .string)) (.textAt path)))).eval
        engine row).NullOr sort := by
  have htext :
      ((Expr.caseWhen (.compare .equal (.typeOf (.jsonAt path)) (.typeName .string)) (.textAt path)).eval
        engine row).NullOr fun v => ∃ text, v = .text text := by
    refine nullOr_caseType he .string fun found hfound htype => ?_
    cases found with
    | string text =>
      rw [eval_textAt hfound, Option.bind_some, he.textOf_string]
      exact ⟨text, rfl⟩
    | _ => cases htype
  rw [Expr.eval, Expr.eval]
  generalize Expr.eval engine row _ = outcome at htext ⊢
  cases outcome with
  | failure => exact htext
  | null => trivial
  | value v =>
    obtain ⟨text, rfl⟩ := htext
    exact hsort text

/-- Whether a field is a text that can be read as a timestamp. -/
theorem eval_isTimestampText :
    (Expr.and (.compare .equal (.typeOf (.jsonAt path)) (.typeName .string)) (.isTimestamp (.textAt path))).eval
        engine row =
      .ofOption ((engine.extract path.segments row.body).map fun found =>
        .bool (found.string?.bind engine.timestamp?).isSome) := by
  rw [Expr.eval, eval_isType rfl he]
  cases hfound : engine.extract path.segments row.body with
  | none =>
    rw [Expr.eval, eval_textAt hfound]
    rfl
  | some found =>
    cases found with
    | string text =>
      rw [Expr.eval, eval_textAt hfound, Option.bind_some, he.textOf_string]
      rfl
    | _ => rfl

/-- A field is read as a value of the kind, or as null. -/
theorem nullOr_typedField (kind : ValueKind) :
    ((typedField path kind).eval engine row).NullOr (IsOfKind path kind) := by
  cases kind with
  | id =>
    simp only [typedField]
    split
    · next hpath => exact .id row.id hpath
    · next hpath => exact nullOr_bytewise he fun text => .idText text hpath
  | text => exact nullOr_bytewise he .text
  | number =>
    refine nullOr_caseType he .number fun found hfound htype => ?_
    cases found with
    | number n =>
      obtain ⟨text, value, htext, hdouble, -⟩ := he.textOf_number n
      have heval : (Expr.cast (.parens (.textAt path)) .double).eval engine row = .value (.double value) :=
        eval_castText hfound htext (by rw [Engine.cast, hdouble])
      exact heval ▸ .number value
    | _ => cases htype
  | bool =>
    refine nullOr_caseType he .boolean fun found hfound htype => ?_
    cases found with
    | bool flag =>
      obtain ⟨text, htext, hboolean⟩ := he.textOf_bool flag
      have heval : (Expr.cast (.parens (.textAt path)) .boolean).eval engine row = .value (.bool flag) :=
        eval_castText hfound htext (by rw [Engine.cast, hboolean]; rfl)
      exact heval ▸ .bool flag
    | _ => cases htype
  | datetime =>
    -- What cannot be read as a timestamp is not cast: that would fail.
    rw [typedField, Expr.eval, Expr.eval, eval_isTimestampText he]
    cases hfound : engine.extract path.segments row.body with
    | none => trivial
    | some found =>
      rw [Option.map_some]
      cases hread : found.string?.bind engine.timestamp? with
      | none => trivial
      | some micros =>
        obtain ⟨text, hstring, htimestamp⟩ := Option.bind_eq_some_iff.1 hread
        cases found with
        | string other =>
          obtain rfl := Option.some.inj hstring
          have heval : (Expr.cast (.parens (.textAt path)) .timestamp).eval engine row = .value (.timestamp micros) :=
            eval_castText hfound (he.textOf_string _) (by rw [Engine.cast, htimestamp])
          exact heval ▸ .datetime micros
        | _ => cases hstring

/-! ## Each form of a condition -/

theorem exists_eval_comparison (operator : Operator) (value : Scalar) :
    ∃ flag, (comparison operator path value).eval engine row = .truth flag := by
  have hagainst (kind : ValueKind) {right : Expr} {w : Bind} (hright : right.eval engine row = .value w)
      (hw : IsOfKind path kind w) :
      ∃ flag, (Expr.coalesce (.compare operator (typedField path kind) right) (.truth false)).eval engine row =
        .truth flag := by
    have hfield : ((typedField path kind).eval engine row).NullOr (IsOfKind path kind) := nullOr_typedField he kind
    simp only [Expr.eval, hright]
    generalize (typedField path kind).eval engine row = outcome at hfield ⊢
    cases outcome with
    | failure => exact hfield.elim
    | null => exact ⟨false, rfl⟩
    | value v =>
      obtain ⟨flag, hflag⟩ :=
        exists_compare engine hfield hw operator ((typedField path kind).isBytewise || right.isBytewise)
      exact ⟨flag, by rw [Outcome.map₂, hflag]; rfl⟩
  cases value with
  | id id =>
    by_cases hpath : path = .id
    · exact hagainst .id (w := .uuid id) (by rw [if_pos hpath, Expr.eval]) (.id id hpath)
    · exact hagainst .id (w := .text id.toText) (by rw [if_neg hpath]; rfl) (.idText _ hpath)
  | text text => exact hagainst .text (w := .text text) rfl (.text text)
  | number x => exact hagainst .number (w := .double x) rfl (.number x)
  | bool flag => exact hagainst .bool (w := .bool flag) rfl (.bool flag)
  | datetime instant => exact hagainst .datetime (w := .ofInstant instant) rfl (.datetime _)
  | null => exact ⟨false, rfl⟩

theorem exists_eval_equality (value : Scalar) : ∃ flag, (equality path value).eval engine row = .truth flag := by
  cases value with
  | id id =>
    simp only [equality]
    split
    · exact ⟨_, rfl⟩
    · exact ⟨_, eval_contained rfl _⟩
  | text text => exact ⟨_, eval_contained rfl _⟩
  | number x => exact ⟨_, eval_contained rfl _⟩
  | bool flag => exact ⟨_, eval_contained rfl _⟩
  | datetime instant => exact exists_eval_comparison he .equal (.datetime instant)
  | null =>
    rw [equality, Expr.eval, eval_isType rfl he]
    cases engine.extract path.segments row.body with
    | none => exact ⟨true, rfl⟩
    | some found => exact ⟨_, rfl⟩

theorem exists_eval_membership (values : List Scalar) :
    ∃ flag, (membership path values).eval engine row = .truth flag := by
  have hany : ∃ flag, (Expr.any (values.map (equality path))).eval engine row = .truth flag := by
    have hequality : ∀ value, ∃ flag, (equality path value).eval engine row = .truth flag := exists_eval_equality he
    choose flag hflag using hequality
    exact ⟨_, eval_any fun value _ => hflag value⟩
  unfold membership
  split
  · split
    · exact ⟨_, rfl⟩
    · exact hany
  · exact hany

end

mutual

/-- At every row the condition of a predicate is true or false. -/
theorem exists_eval_condition {engine : Engine} (he : engine.IsDocumented) (row : Row) : ∀ p : Predicate,
    ∃ flag, (condition p).eval engine row = .truth flag
  | .always => ⟨true, rfl⟩
  | .never => ⟨false, rfl⟩
  | .and terms => by
    choose! flag hflag using exists_eval_conditions he row terms
    rw [condition, conditions_eq]
    exact ⟨_, eval_all hflag⟩
  | .or terms => by
    choose! flag hflag using exists_eval_conditions he row terms
    rw [condition, conditions_eq]
    exact ⟨_, eval_any hflag⟩
  | .not term => by
    obtain ⟨flag, hflag⟩ := exists_eval_condition he row term
    rw [condition, Expr.eval, Expr.eval, hflag]
    exact ⟨!flag, rfl⟩
  | .eq path value => exists_eval_equality he value
  | .ne path value => by
    have hequality : ∃ flag, (equality path value).eval engine row = .truth flag := exists_eval_equality he value
    obtain ⟨flag, hflag⟩ := hequality
    rw [condition, Expr.eval, Expr.eval, hflag]
    exact ⟨!flag, rfl⟩
  | .oneOf path values => exists_eval_membership he values
  | .order path comparison value => exists_eval_comparison he (.order comparison) value
  | .notEmpty path => ⟨_, eval_nonempty rfl he⟩

theorem exists_eval_conditions {engine : Engine} (he : engine.IsDocumented) (row : Row) : ∀ terms : List Predicate,
    ∀ term ∈ terms, ∃ flag, (condition term).eval engine row = .truth flag
  | [], _, h => absurd h List.not_mem_nil
  | first :: rest, _, h => (List.mem_cons.1 h).elim (fun hfirst => hfirst ▸ exists_eval_condition he row first)
      (exists_eval_conditions he row rest _)

end

theorem truth_inj {a b : Bool} : Outcome.truth a = .truth b ↔ a = b := by
  simp [Outcome.truth]

/-- At every row the condition of every predicate, as it is read from its text, is true or false: that of a negation
where the negated condition is false, that of `ne` where that of `eq` is, those of conjunctions and disjunctions as
those of their terms are. The condition of a whole statement is true where the row is of the collection and the
condition of the predicate is true, and false everywhere else. -/
theorem conditions_two_valued {engine : Engine} (he : engine.IsDocumented) (row : Row) : ∃ holds : Predicate → Bool,
    (∀ p, outcome? engine row p = some (.truth (holds p))) ∧
    (∀ p, holds (.not p) = !holds p) ∧
    (∀ path value, holds (.ne path value) = !holds (.eq path value)) ∧
    (∀ terms, holds (.and terms) = terms.all holds) ∧
    (∀ terms, holds (.or terms) = terms.any holds) ∧
    (∀ c q, ∃ selection, Selection.read (Statement.select c q).text (Statement.select c q).binds = some selection ∧
      selection.condition.eval engine row = .truth (row.collection == c.name && holds q.predicate)) ∧
    ∀ c p, ∃ condition, readCount (Statement.count c p).text (Statement.count c p).binds = some condition ∧
      condition.eval engine row = .truth (row.collection == c.name && holds p) := by
  choose holds hholds using exists_eval_condition he row
  have hnot (term : Predicate) (e : Expr) (h : e = condition term) : (Expr.not (.parens e)).eval engine row =
      .truth !holds term := by
    rw [Expr.eval, Expr.eval, h, hholds]
    rfl
  have hscope (c : Collection) (p : Predicate) :
      (scope c p).eval engine row = .truth (row.collection == c.name && holds p) := by
    rw [scope, Expr.eval, eval_collection he, hholds]
    cases row.collection == c.name <;> rfl
  refine ⟨holds, fun p => by rw [outcome?_eq, hholds], ?_, ?_, ?_, ?_, ?_, ?_⟩
  · intro p
    rw [← truth_inj, ← hholds, condition]
    exact hnot p _ rfl
  · intro path value
    rw [← truth_inj, ← hholds, condition]
    exact hnot (.eq path value) _ rfl
  · intro terms
    rw [← truth_inj, ← hholds, condition, conditions_eq]
    exact eval_all fun term _ => hholds term
  · intro terms
    rw [← truth_inj, ← hholds, condition, conditions_eq]
    exact eval_any fun term _ => hholds term
  · exact fun c q => ⟨_, read_select c q, hscope c q.predicate⟩
  · exact fun c p => ⟨_, readCount_count c p, hscope c p⟩

/-- The theorem at a row without the field: a condition that something is not so is true there, and it is not true in
another collection. -/
theorem conditions_two_valued_missing :
    outcome? .reference (Sample.ratedRow 3 .null ["a"]) (.ne (.field "deleted") (.bool true)) = some (.truth true) ∧
    ∃ condition, readCount (Statement.count .models (.ne (.field "deleted") (.bool true))).text
        (Statement.count .models (.ne (.field "deleted") (.bool true))).binds = some condition ∧
      condition.eval .reference (Sample.ratedRow 3 .null ["a"]) = .truth false := by
  obtain ⟨holds, houtcome, -, hne, -, -, -, hcount⟩ :=
    conditions_two_valued isDocumented_reference (Sample.ratedRow 3 .null ["a"])
  have heq : holds (.eq (.field "deleted") (.bool true)) = false := by
    have h := houtcome (.eq (.field "deleted") (.bool true))
    rw [outcome?_eq] at h
    exact (truth_inj.1 (Option.some.inj h)).symm
  obtain ⟨condition, hread, heval⟩ := hcount .models (.ne (.field "deleted") (.bool true))
  refine ⟨by rw [houtcome, hne, heq]; rfl, condition, hread, heval⟩

end FeedQuery.Sql
