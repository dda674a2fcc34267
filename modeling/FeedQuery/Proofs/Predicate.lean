import FeedQuery.Predicate

/-!
# What simplified predicates accept

`Predicate.all` and `Predicate.any` flatten and drop terms, and `Predicate.negate` drops double negations, but they
accept what the plain conjunction, disjunction and negation accept. Nothing else needs to look into them.
-/

namespace FeedQuery

namespace Predicate

theorem acceptsAll_eq (terms : List Predicate) (d : Document) : acceptsAll terms d = terms.all (·.accepts d) := by
  induction terms with
  | nil => rfl
  | cons term rest ih => rw [acceptsAll, ih, List.all_cons]

theorem acceptsAny_eq (terms : List Predicate) (d : Document) : acceptsAny terms d = terms.any (·.accepts d) := by
  induction terms with
  | nil => rfl
  | cons term rest ih => rw [acceptsAny, ih, List.any_cons]

/-- A conjunction is satisfied by its conjuncts together; without conjuncts, a term is satisfied by nothing. -/
theorem all_conjuncts? (terms : List Predicate) (d : Document) :
    (match conjuncts? terms with | none => false | some kept => kept.all (·.accepts d)) = terms.all (·.accepts d) := by
  fun_induction conjuncts? terms with
  | case1 => rfl
  | case2 rest ih => simpa [accepts] using ih
  | case3 rest => simp [accepts]
  | case4 nested rest ih =>
    rw [List.all_cons, ← ih, accepts, acceptsAll_eq]
    cases conjuncts? rest <;> simp
  | case5 term rest _ _ _ ih =>
    rw [List.all_cons, ← ih]
    cases conjuncts? rest <;> simp

/-- A disjunction is satisfied by one of its disjuncts; without disjuncts, a term is satisfied by everything. -/
theorem any_disjuncts? (terms : List Predicate) (d : Document) :
    (match disjuncts? terms with | none => true | some kept => kept.any (·.accepts d)) = terms.any (·.accepts d) := by
  fun_induction disjuncts? terms with
  | case1 => rfl
  | case2 rest ih => simpa [accepts] using ih
  | case3 rest => simp [accepts]
  | case4 nested rest ih =>
    rw [List.any_cons, ← ih, accepts, acceptsAny_eq]
    cases disjuncts? rest <;> simp
  | case5 term rest _ _ _ ih =>
    rw [List.any_cons, ← ih]
    cases disjuncts? rest <;> simp

/-- The simplified conjunction accepts what every term accepts. -/
@[simp] theorem accepts_all (terms : List Predicate) (d : Document) :
    (all terms).accepts d = terms.all (·.accepts d) := by
  rw [← all_conjuncts?, all]
  rcases conjuncts? terms with _ | _ | ⟨first, _ | ⟨second, rest⟩⟩
  · simp only [accepts]
  · simp only [accepts, List.all_nil]
  · simp
  · simp only [accepts, acceptsAll_eq]

/-- The simplified disjunction accepts what some term accepts. -/
@[simp] theorem accepts_any (terms : List Predicate) (d : Document) :
    (any terms).accepts d = terms.any (·.accepts d) := by
  rw [← any_disjuncts?, any]
  rcases disjuncts? terms with _ | _ | ⟨first, _ | ⟨second, rest⟩⟩
  · simp only [accepts]
  · simp only [accepts, List.any_nil]
  · simp
  · simp only [accepts, acceptsAny_eq]

/-- The simplified negation accepts what the term refuses: to drop two negations is to negate twice. -/
@[simp] theorem accepts_negate (p : Predicate) (d : Document) : p.negate.accepts d = !p.accepts d := by
  cases p with
  | not term => rw [negate, accepts, Bool.not_not]
  | always => rfl
  | never => rfl
  | _ => simp only [negate, accepts]

@[simp] theorem accepts_always (d : Document) : always.accepts d = true := rfl

@[simp] theorem accepts_never (d : Document) : never.accepts d = false := rfl

@[simp] theorem accepts_eq (path : Path) (value : Scalar) (d : Document) :
    (eq path value).accepts d = value.holdsAt (d.get? path) :=
  rfl

@[simp] theorem accepts_ne (path : Path) (value : Scalar) (d : Document) :
    (ne path value).accepts d = !value.holdsAt (d.get? path) :=
  rfl

@[simp] theorem accepts_oneOf (path : Path) (values : List Scalar) (d : Document) :
    (oneOf path values).accepts d = values.any fun value => value.holdsAt (d.get? path) :=
  rfl

/-- A predicate that is nothing but `never` accepts nothing. -/
theorem accepts_of_isNever {p : Predicate} (h : p.isNever = true) (d : Document) : p.accepts d = false := by
  cases p <;> simp_all [isNever]

theorem accepts_of_isAlways {p : Predicate} (h : p.isAlways = true) (d : Document) : p.accepts d = true := by
  cases p <;> simp_all [isAlways]

end Predicate

end FeedQuery
