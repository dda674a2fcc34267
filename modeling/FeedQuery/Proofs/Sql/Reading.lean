import FeedQuery.Proofs.Sql.Parser
import FeedQuery.Sql.Access

/-!
# Reading statements

`Selection.read` reads the text of a statement that finds rows, with the values that are sent beside it, and `readCount`
that of one that counts them. The conditions of predicates have parentheses wherever they need them (`isTerm_condition`)
and their pieces do not run together (`Expr.wellSpaced`), so that the statements are read as what they were made of
(`read_select`, `readCount_count`).
-/

namespace FeedQuery.Sql

/-! ## Pieces that do not run together -/

/-- The pieces of an expression are read apart. -/
theorem Expr.wellSpaced (e : Expr) : WellSpaced e.pieces := by
  induction e with
  | truth value => cases value <;> exact .singleton rfl
  | zero => exact .singleton rfl
  | column c => cases c <;> exact .singleton rfl
  | bind value => exact .singleton rfl
  | typeName type => cases type <;> exact .singleton rfl
  | jsonAt path => exact (WellSpaced.singleton rfl).cons rfl rfl
  | textAt path => exact (WellSpaced.singleton rfl).cons rfl rfl
  | typeOf value ih => exact (ih.concat rfl rfl).cons rfl rfl
  | arrayLength value ih => exact (ih.concat rfl rfl).cons rfl rfl
  | isTimestamp text ih => exact (ih.concat rfl rfl).cons rfl rfl
  | contains container part ihc ihp => exact ihc.between ihp rfl rfl rfl
  | compare operator left right ihl ihr => rcases operator with _ | _ | _ | _ | _ <;> exact ihl.between ihr rfl rfl rfl
  | isAny value list ihv ihl =>
    simp only [pieces, List.append_assoc, List.cons_append]
    exact ihv.between (ihl.concat rfl rfl) rfl rfl rfl
  | coalesce value fallback ihv ihf =>
    simp only [pieces, List.append_assoc, List.cons_append]
    exact (ihv.between (ihf.concat rfl rfl) rfl rfl rfl).cons rfl rfl
  | cast value type ih => cases type <;> exact ih.concat rfl rfl
  | bytewise text ih => exact ih.concat rfl rfl
  | caseWhen condition value ihc ihv =>
    simp only [pieces, List.append_assoc, List.cons_append]
    exact (ihc.between (ihv.concat rfl rfl) rfl rfl rfl).cons rfl rfl
  | not term ih => exact ih.cons rfl rfl
  | and left right ihl ihr => exact ihl.between ihr rfl rfl rfl
  | or left right ihl ihr => exact ihl.between ihr rfl rfl rfl
  | parens inner ih => exact (ih.concat rfl rfl).cons rfl rfl

/-! ## Conditions have the parentheses that they need -/

/-- The expression may be negated or joined with others as it is. -/
structure Expr.IsTerm (e : Expr) : Prop where
  readable : e.IsReadable 3
  edge : 3 ≤ e.edge

namespace Expr

/-- Terms that are joined from the left need no parentheses among them. -/
theorem isReadable_foldl (join : Expr → Expr → Expr) (level : Nat)
    (hjoin : ∀ left right, left.IsReadable 0 → level ≤ left.edge → right.IsTerm → (join left right).IsReadable 0 ∧
      level ≤ (join left right).edge) {terms : List Expr} (hterms : ∀ e ∈ terms, e.IsTerm) {first : Expr}
        (hfirst : first.IsReadable 0)
    (hedge : level ≤ first.edge) : (terms.foldl join first).IsReadable 0 := by
  induction terms generalizing first with
  | nil => exact hfirst
  | cons term rest ih =>
    obtain ⟨hreadable, hjoined⟩ := hjoin first term hfirst hedge (hterms term List.mem_cons_self)
    exact ih (fun e he => hterms e (List.mem_cons_of_mem _ he)) hreadable hjoined

theorem isTerm_all {terms : List Expr} (h : ∀ e ∈ terms, e.IsTerm) : (all terms).IsTerm := by
  cases terms with
  | nil => exact ⟨trivial, by decide⟩
  | cons term rest =>
    obtain ⟨hterm, hrest⟩ := List.forall_mem_cons.1 h
    refine ⟨isReadable_foldl .and 2 ?_ hrest (hterm.readable.mono (by decide)) (by have := hterm.edge; omega),
      (by decide : 3 ≤ 7)⟩
    intro left right hleft hedge hright
    exact ⟨⟨by decide, hleft, hedge, hright.readable.mono (by decide)⟩,
      Nat.le_min.2 ⟨Nat.le_refl _, by have := hright.edge; omega⟩⟩

theorem isTerm_any {terms : List Expr} (h : ∀ e ∈ terms, e.IsTerm) : (any terms).IsTerm := by
  cases terms with
  | nil => exact ⟨trivial, by decide⟩
  | cons term rest =>
    obtain ⟨hterm, hrest⟩ := List.forall_mem_cons.1 h
    refine ⟨isReadable_foldl .or 1 ?_ hrest (hterm.readable.mono (by decide)) (by have := hterm.edge; omega),
      (by decide : 3 ≤ 7)⟩
    intro left right hleft hedge hright
    exact ⟨⟨by decide, hleft, hedge, hright.readable.mono (by decide)⟩,
      Nat.le_min.2 ⟨Nat.le_refl _, by have := hright.edge; omega⟩⟩

end Expr

theorem isReadable_typedField (path : Path) (kind : ValueKind) :
    (typedField path kind).IsReadable 0 ∧ 4 ≤ (typedField path kind).edge ∧
    (typedField path kind).isComparison = false := by
  unfold typedField
  cases kind with
  | id =>
    dsimp only
    split <;> simp [Expr.IsReadable, Expr.edge, Expr.isComparison]
  | _ => simp [Expr.IsReadable, Expr.edge, Expr.isComparison]

theorem isTerm_comparison (operator : Operator) (path : Path) (value : Scalar) :
    (comparison operator path value).IsTerm := by
  have hfield (kind : ValueKind) {right : Expr} (hright : right.IsReadable 4) :
      (Expr.coalesce (.compare operator (typedField path kind) right) (.truth false)).IsTerm := by
    obtain ⟨hreadable, hedge, hcomparison⟩ := isReadable_typedField path kind
    exact ⟨⟨⟨by decide, hreadable, hedge, hcomparison, hright⟩, trivial⟩, (by decide : 3 ≤ 7)⟩
  unfold comparison
  cases value with
  | id id =>
    refine hfield .id ?_
    split <;> simp [Expr.IsReadable, Expr.edge]
  | null => exact ⟨trivial, (by decide : 3 ≤ 7)⟩
  | _ => exact hfield _ (by simp [Expr.IsReadable, Expr.edge])

theorem isTerm_equality (path : Path) (value : Scalar) : (equality path value).IsTerm := by
  unfold equality
  cases value with
  | id id =>
    dsimp only
    split <;> constructor <;> simp [Expr.IsReadable, Expr.edge, Expr.isComparison]
  | datetime instant => exact isTerm_comparison ..
  | _ => constructor <;> simp [Expr.IsReadable, Expr.edge, Expr.isComparison]

theorem isTerm_membership (path : Path) (values : List Scalar) : (membership path values).IsTerm := by
  have hany : (Expr.any (values.map (equality path))).IsTerm := by
    refine Expr.isTerm_any fun e he => ?_
    obtain ⟨value, -, rfl⟩ := List.mem_map.1 he
    exact isTerm_equality path value
  unfold membership
  split
  · split
    · constructor <;> simp [Expr.IsReadable, Expr.edge, Expr.isComparison]
    · exact hany
  · exact hany

mutual

/-- The condition of a predicate may be negated or joined with others as it is. -/
theorem isTerm_condition : ∀ p : Predicate, (condition p).IsTerm
  | .always | .never => ⟨trivial, by decide⟩
  | .and terms => Expr.isTerm_all (isTerm_conditions terms)
  | .or terms => Expr.isTerm_any (isTerm_conditions terms)
  | .not term => ⟨(isTerm_condition term).readable.mono (by decide), (by decide : 3 ≤ min 3 7)⟩
  | .eq path value => isTerm_equality path value
  | .ne path value => ⟨(isTerm_equality path value).readable.mono (by decide), (by decide : 3 ≤ min 3 7)⟩
  | .oneOf path values => isTerm_membership path values
  | .order path order value => isTerm_comparison (.order order) path value
  | .notEmpty path => by constructor <;> simp [condition, nonempty, Expr.IsReadable, Expr.edge, Expr.isComparison]

theorem isTerm_conditions : ∀ terms : List Predicate, ∀ e ∈ conditions terms, e.IsTerm
  | [], _, he => absurd he List.not_mem_nil
  | term :: rest, e, he => (List.mem_cons.1 he).elim (fun h => h ▸ isTerm_condition term) (isTerm_conditions rest e)

end

/-- The conditions of terms are those of each. -/
theorem conditions_eq (terms : List Predicate) : conditions terms = terms.map condition := by
  induction terms with
  | nil => rfl
  | cons term rest ih => rw [conditions, List.map_cons, ih]

theorem isReadable_scope (collection : Collection) (p : Predicate) : (scope collection p).IsReadable 0 :=
  ⟨by decide, ⟨by decide, trivial, by decide, rfl, trivial⟩, (by decide : 2 ≤ min 4 7),
  (isTerm_condition p).readable.mono (by decide)⟩

/-! ## Statements -/

/-- What a statement asks for that finds rows. -/
structure Selection where
  condition : Expr
  order : List (Expr × Direction)
  offset : Option Bind
  limit : Option Bind

/-- A direction, and on which side of the order null is. -/
def readDirection : (tokens : List (Token Bind)) → Option (Direction × Rest tokens.length)
  | .word "ASC" :: .word "NULLS" :: .word "FIRST" :: rest =>
    some (.ascending, ⟨rest, by simp only [List.length_cons]; omega⟩)
  | .word "DESC" :: .word "NULLS" :: .word "LAST" :: rest =>
    some (.descending, ⟨rest, by simp only [List.length_cons]; omega⟩)
  | _ => none

/-- The values that rows are ordered by. -/
def readKeys (tokens : List (Token Bind)) : Option (List (Expr × Direction) × List (Token Bind)) := do
  let (value, ⟨rest, _⟩) ← parseFront 0 tokens
  let (direction, ⟨rest, hrest⟩) ← readDirection rest
  match rest, hrest with
  | .comma :: rest, _ => do
    let (keys, rest) ← readKeys rest
    pure ((value, direction) :: keys, rest)
  | rest, _ => pure ([(value, direction)], rest)
termination_by tokens.length
decreasing_by grind

/-- The order of the rows, if one is asked for. -/
def readOrder : List (Token Bind) → Option (List (Expr × Direction) × List (Token Bind))
  | .word "ORDER" :: .word "BY" :: rest => readKeys rest
  | tokens => some ([], tokens)

/-- A number of rows after a word, if it is given. -/
def readBound (word : String) : List (Token Bind) → Option Bind × List (Token Bind)
  | .word other :: .value n :: rest => if other = word then (some n, rest) else (none, .word other :: .value n :: rest)
  | tokens => (none, tokens)

/-- What a list of tokens asks for that finds the bodies of rows. -/
def Selection.ofTokens : List (Token Bind) → Option Selection
  | .word "SELECT" :: .word "body" :: .word "FROM" :: .word "feed_documents" :: .word "WHERE" :: rest => do
    let (condition, rest) ← parse 0 rest
    let (order, rest) ← readOrder rest
    let (offset, rest) := readBound "OFFSET" rest
    let (limit, rest) := readBound "LIMIT" rest
    if rest.isEmpty then some ⟨condition, order, offset, limit⟩ else none
  | _ => none

/-- What a text asks for that finds the bodies of rows, with the values of its placeholders. -/
def Selection.read (text : String) (binds : List Bind) : Option Selection := (scan text binds).bind Selection.ofTokens

/-- The condition on the rows that a list of tokens counts. -/
def countOfTokens : List (Token Bind) → Option Expr
  | .word "SELECT" :: .word "count" :: .opening :: .symbol "*" :: .closing :: .word "FROM" :: .word "feed_documents" ::
      .word "WHERE" ::
      rest => do
    let (condition, rest) ← parse 0 rest
    if rest.isEmpty then some condition else none
  | _ => none

/-- The condition on the rows that a text counts, with the values of its placeholders. -/
def readCount (text : String) (binds : List Bind) : Option Expr := (scan text binds).bind countOfTokens

/-! ### What the statements on documents are read as -/

/-- The value that rows are ordered by, and the direction. -/
def orderKey (key : SortKey) : Expr × Direction := (typedField key.path key.kind, key.direction)

theorem tokens_sql (direction : Direction) (rest : List (Token Bind)) :
    ∃ hrest, readDirection ((Piece.text (" " ++ direction.sql)).tokens ++ rest) = some (direction, ⟨rest, hrest⟩) := by
  cases direction <;> exact ⟨_, rfl⟩

theorem levelOf_sql (direction : Direction) (rest : List (Token Bind)) :
    Follow.levelOf ((Piece.text (" " ++ direction.sql)).tokens ++ rest) = 0 := by
  cases direction <;> rfl

/-- A sort key is read from its tokens, and after a comma more of them are. -/
theorem readKeys_key (key : SortKey) (rest : List (Token Bind)) :
    readKeys ((typedField key.path key.kind).tokens ++ ((Piece.text (" " ++ key.direction.sql)).tokens ++ rest)) =
      match rest with
      | .comma :: rest => (readKeys rest).bind fun (keys, rest) => some (orderKey key :: keys, rest)
      | rest => some ([orderKey key], rest) := by
  obtain ⟨_, hvalue⟩ :=
    exists_of_plain (parse_tokens (isReadable_typedField key.path key.kind).1 (levelOf_sql key.direction rest))
  obtain ⟨_, hdirection⟩ := tokens_sql key.direction rest
  rw [readKeys, hvalue]
  simp only [Option.bind_eq_bind, Option.bind_some, hdirection]
  cases rest with
  | nil => rfl
  | cons first rest => cases first <;> rfl

/-- Sort keys are read from their tokens, up to what is no comma. -/
theorem readKeys_tokens {keys : List SortKey} (hne : keys ≠ []) {rest : List (Token Bind)}
    (hrest : ∀ more, rest ≠ .comma :: more) :
    readKeys ((joined ", " (keys.map sortPieces)).flatMap Piece.tokens ++ rest) = some (keys.map orderKey, rest) := by
  induction keys with
  | nil => exact absurd rfl hne
  | cons key others ih =>
    cases others with
    | nil =>
      have htokens : (joined ", " ([key].map sortPieces)).flatMap Piece.tokens ++ rest =
          (typedField key.path key.kind).tokens ++ ((Piece.text (" " ++ key.direction.sql)).tokens ++ rest) := by
        simp [joined, sortPieces, Expr.tokens]
      rw [htokens, readKeys_key]
      split
      · next more => exact absurd rfl (hrest more)
      · rfl
    | cons next others =>
      have hcomma : (Piece.text ", ").tokens = [.comma] := rfl
      have htokens : (joined ", " ((key :: next :: others).map sortPieces)).flatMap Piece.tokens ++ rest =
          (typedField key.path key.kind).tokens ++ ((Piece.text (" " ++ key.direction.sql)).tokens ++
            .comma :: ((joined ", " ((next :: others).map sortPieces)).flatMap Piece.tokens ++ rest)) := by
        simp [joined, sortPieces, Expr.tokens, hcomma]
      rw [htokens, readKeys_key]
      simp only [ih (by simp), Option.bind_some]
      rfl

/-- The tokens of the bounds. -/
def boundTokens (skip limit : Option Nat) : List (Token Bind) :=
  (boundPieces " OFFSET " skip ++ boundPieces " LIMIT " limit).flatMap Piece.tokens

/-- Bounds are read from their tokens. -/
theorem readBound_boundTokens (skip limit : Option Nat) :
    ∃ rest, readBound "OFFSET" (boundTokens skip limit) = (skip.map Bind.ofCount, rest) ∧
    readBound "LIMIT" rest = (limit.map Bind.ofCount, []) := by
  cases skip <;> cases limit <;> exact ⟨_, rfl, rfl⟩

/-- Bounds go on neither with an expression nor with the keys of an order, and are no order. -/
theorem boundTokens_apart (skip limit : Option Nat) : Follow.levelOf (boundTokens skip limit) = 0 ∧
    (∀ more, boundTokens skip limit ≠ .comma :: more) ∧
      readOrder (boundTokens skip limit) = some ([], boundTokens skip limit) := by
  have hoffset : (Piece.text " OFFSET ").tokens = [.word "OFFSET"] := rfl
  have hlimit : (Piece.text " LIMIT ").tokens = [.word "LIMIT"] := rfl
  cases skip <;> cases limit <;> exact ⟨rfl, by simp [boundTokens, boundPieces, hoffset, hlimit], rfl⟩

/-- The order is read from its tokens, up to the bounds. -/
theorem readOrder_orderPieces (keys : List SortKey) (skip limit : Option Nat) :
    Follow.levelOf ((orderPieces keys).flatMap Piece.tokens ++ boundTokens skip limit) = 0 ∧
    readOrder ((orderPieces keys).flatMap Piece.tokens ++ boundTokens skip limit) =
      some (keys.map orderKey, boundTokens skip limit) := by
  obtain ⟨hlevel, hcomma, hnone⟩ := boundTokens_apart skip limit
  unfold orderPieces
  cases keys with
  | nil => exact ⟨hlevel, hnone⟩
  | cons key others => exact ⟨rfl, readKeys_tokens (by simp) hcomma⟩

theorem wellSpaced_joined {keys : List SortKey} (hne : keys ≠ []) : WellSpaced (joined ", " (keys.map sortPieces)) := by
  have hkey (key : SortKey) : WellSpaced (sortPieces key) := by
    unfold sortPieces
    cases key.direction <;> exact (Expr.wellSpaced _).concat rfl rfl
  induction keys with
  | nil => exact absurd rfl hne
  | cons key others ih =>
    cases others with
    | nil => exact hkey key
    | cons next others => exact (hkey key).between (ih (by simp)) rfl rfl rfl

/-- The pieces of a statement that finds documents are read apart. -/
theorem wellSpaced_select (collection : Collection) (q : Query) :
    WellSpaced (Statement.select collection q).pieces := by
  have hbound {words : String} (hwhole : (Piece.text words).isWhole = true)
      (hclosed : (Piece.text words).isClosed = true)
      (hfree : (Piece.text words).isFree = true) (n : Option Nat) :
      WellSpaced (boundPieces words n) ∧ ∀ piece ∈ (boundPieces words n).head?, piece.isFree = true := by
    cases n with
    | none => exact ⟨⟨.nil, fun _ h => absurd h List.not_mem_nil⟩, fun _ h => by cases h⟩
    | some n => exact ⟨(WellSpaced.singleton rfl).cons hwhole hclosed, fun _ h => Option.some.inj h ▸ hfree⟩
  obtain ⟨hskip, hskipfree⟩ := @hbound " OFFSET " rfl rfl rfl q.skip
  obtain ⟨hlimit, hlimitfree⟩ := @hbound " LIMIT " rfl rfl rfl q.limit
  have horder : WellSpaced (orderPieces q.sort) ∧ ∀ piece ∈ (orderPieces q.sort).head?, piece.isFree = true := by
    unfold orderPieces
    split
    · exact ⟨⟨.nil, fun _ h => absurd h List.not_mem_nil⟩, fun _ h => by cases h⟩
    · next hne => exact ⟨(wellSpaced_joined (by simpa using hne)).cons rfl rfl, fun _ h => Option.some.inj h ▸ rfl⟩
  exact (((((scope collection q.predicate).wellSpaced.append horder.1 horder.2).append hskip hskipfree).append hlimit
    hlimitfree).cons
    rfl rfl : WellSpaced (.text "SELECT body FROM feed_documents WHERE " :: _))

/-- The statement that finds documents is read as what it was made of. -/
theorem read_select (collection : Collection) (q : Query) :
    Selection.read (Statement.select collection q).text (Statement.select collection q).binds =
      some ⟨scope collection q.predicate, q.sort.map orderKey, q.skip.map Bind.ofCount, q.limit.map Bind.ofCount⟩ := by
  obtain ⟨hlevel, horder⟩ := readOrder_orderPieces q.sort q.skip q.limit
  obtain ⟨rest, hoffset, hlimit⟩ := readBound_boundTokens q.skip q.limit
  have htokens : (Statement.select collection q).pieces.flatMap Piece.tokens =
      .word "SELECT" :: .word "body" :: .word "FROM" :: .word "feed_documents" :: .word "WHERE" ::
        ((scope collection q.predicate).tokens ++
          ((orderPieces q.sort).flatMap Piece.tokens ++ boundTokens q.skip q.limit)) := by
    simp only [Statement.select, List.cons_append, List.flatMap_cons, List.flatMap_append, List.append_assoc,
      boundTokens]
    rfl
  rw [Selection.read, scan_text (wellSpaced_select collection q), htokens, Option.bind_some, Selection.ofTokens,
    parse_tokens (isReadable_scope collection q.predicate) hlevel]
  simp only [Option.bind_eq_bind, Option.bind_some, horder, hoffset, hlimit, List.isEmpty_nil, if_true]

/-- The statement that counts documents is read as the condition that it was made of. -/
theorem readCount_count (collection : Collection) (p : Predicate) :
    readCount (Statement.count collection p).text (Statement.count collection p).binds = some (scope collection p) := by
  have hspaced : WellSpaced (Statement.count collection p).pieces := (scope collection p).wellSpaced.cons rfl rfl
  have htokens : (Statement.count collection p).pieces.flatMap Piece.tokens =
      .word "SELECT" :: .word "count" :: .opening :: .symbol "*" :: .closing :: .word "FROM" ::
      .word "feed_documents" :: .word "WHERE" ::
        ((scope collection p).tokens ++ []) := by
    simp only [Statement.count, List.flatMap_cons, List.append_nil]
    rfl
  rw [readCount, scan_text hspaced, htokens, Option.bind_some, countOfTokens,
    parse_tokens (isReadable_scope collection p) rfl]
  rfl

end FeedQuery.Sql
