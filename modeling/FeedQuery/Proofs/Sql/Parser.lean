import FeedQuery.Proofs.Sql.Lexer
import FeedQuery.Sql.Condition

/-!
# Reading expressions

A database reads tokens as an expression by the precedence of its operators: `OR`, `AND`, `NOT`, comparisons, other
operators, `COLLATE` and `::`, from the loosest to the tightest. `parse` reads so, and does not look at how the text was
written. An expression whose parts need no parentheses but those that it has (`Expr.IsReadable`) is read from its own
tokens (`parse_tokens`).
-/

namespace FeedQuery.Sql

/-- A function that is called by its name. -/
inductive Callee where
  | typeOf
  | arrayLength
  | isTimestamp
  | coalesce
deriving DecidableEq, Repr

/-- What a token begins an expression with. -/
inductive Start where
  | whole (e : Expr)
  | parens
  | call (callee : Callee)
  | not
  | caseWhen

/-- The type of a JSON value that has a name. -/
def JsonType.ofName? (name : String) : Option JsonType :=
  [JsonType.null, .boolean, .number, .string, .array].find? fun type => type.name == name

/-- What a token begins. -/
def Start.of? : Token Bind → Option Start
  | .word text =>
    if text = "TRUE" then some (.whole (.truth true))
    else if text = "FALSE" then some (.whole (.truth false))
    else if text = "0" then some (.whole .zero)
    else if text = "collection" then some (.whole (.column .collection))
    else if text = "doc_id" then some (.whole (.column .id))
    else if text = "body" then some (.whole (.column .body))
    else if text = "jsonb_typeof" then some (.call .typeOf)
    else if text = "jsonb_array_length" then some (.call .arrayLength)
    else if text = "pg_input_is_valid" then some (.call .isTimestamp)
    else if text = "COALESCE" then some (.call .coalesce)
    else if text = "NOT" then some .not
    else if text = "CASE" then some .caseWhen
    else none
  | .quoted text => (JsonType.ofName? text).map fun type => .whole (.typeName type)
  | .value value => some (.whole (.bind value))
  | .opening => some .parens
  | _ => none

/-- An operator between two operands. -/
inductive Binary where
  | or
  | and
  | compare (operator : Operator)
  | jsonAt
  | textAt
  | contains
deriving DecidableEq, Repr

/-- What may follow an operand. -/
inductive Follow where
  | binary (operator : Binary)
  /-- A comparison with any element of a list. -/
  | any
  | collate
  | cast (type : CastType)
deriving DecidableEq, Repr

namespace Follow

/-- How tightly it binds. -/
def level : Follow → Nat
  | .binary .or => 1
  | .binary .and => 2
  | .binary (.compare _) | .any => 4
  | .binary _ => 5
  | .collate => 6
  | .cast _ => 7

/-- The operator that a symbol is. -/
def ofSymbol? (text : String) : Option Follow :=
  if text = "=" then some (.binary (.compare .equal))
  else if text = ">" then some (.binary (.compare (.order .gt)))
  else if text = ">=" then some (.binary (.compare (.order .gte)))
  else if text = "<" then some (.binary (.compare (.order .lt)))
  else if text = "<=" then some (.binary (.compare (.order .lte)))
  else if text = "#>" then some (.binary .jsonAt)
  else if text = "#>>" then some (.binary .textAt)
  else if text = "@>" then some (.binary .contains)
  else none

/-- What tokens begin with, and the tokens after it. -/
def of? : List (Token Bind) → Option (Follow × List (Token Bind))
  | .symbol "=" :: .word "ANY" :: .opening :: rest => some (.any, rest)
  | .symbol "::" :: .word "double" :: .word "precision" :: rest => some (.cast .double, rest)
  | .symbol "::" :: .word "boolean" :: rest => some (.cast .boolean, rest)
  | .symbol "::" :: .word "timestamptz" :: rest => some (.cast .timestamp, rest)
  | .word "COLLATE" :: .name "C" :: rest => some (.collate, rest)
  | .word "OR" :: rest => some (.binary .or, rest)
  | .word "AND" :: rest => some (.binary .and, rest)
  | .symbol text :: rest => (ofSymbol? text).map fun follow => (follow, rest)
  | _ => none

theorem length_lt {tokens rest : List (Token Bind)} {follow : Follow} (h : of? tokens = some (follow, rest)) :
    rest.length < tokens.length := by
  have hsymbol {text : String} {tail : List (Token Bind)}
      (h : (ofSymbol? text).map (fun follow => (follow, tail)) = some (follow, rest)) :
        rest.length < tail.length + 1 := by
    obtain ⟨_, -, h⟩ := Option.map_eq_some_iff.1 h
    cases h
    exact Nat.lt_succ_self _
  unfold of? at h
  split at h
  -- a symbol that is looked up, or else tokens that are spelled out, or nothing
  all_goals first
    | exact hsymbol h
    | cases h <;> simp only [List.length_cons] <;> omega

/-- How tightly what tokens begin with binds to an operand before it. -/
def levelOf (tokens : List (Token Bind)) : Nat := (of? tokens).elim 0 fun follow => follow.1.level

end Follow

/-- A comparison is no operand of a comparison. -/
def Expr.isComparison : Expr → Bool
  | .compare .. | .isAny .. => true
  | _ => false

/-- The expression that an operator makes of its operands. Paths are read in the body alone. -/
def Binary.combine? (left right : Expr) : Binary → Option Expr
  | .or => some (.or left right)
  | .and => some (.and left right)
  | .compare operator => if left.isComparison then none else some (.compare operator left right)
  | .jsonAt => match left, right with
    | .column .body, .bind (.texts (first :: nested)) => some (.jsonAt ⟨first, nested⟩)
    | _, _ => none
  | .textAt => match left, right with
    | .column .body, .bind (.texts (first :: nested)) => some (.textAt ⟨first, nested⟩)
    | _, _ => none
  | .contains => some (.contains left right)

/-- What comes after some tokens is shorter than all of them. -/
abbrev Rest (n : Nat) := { rest : List (Token Bind) // rest.length < n }

/-- The tokens after a token that has to be there. -/
def expect (token : Token Bind → Bool) : (tokens : List (Token Bind)) → Option (Rest tokens.length)
  | first :: rest => if token first then some ⟨rest, Nat.lt_succ_self _⟩ else none
  | [] => none

namespace Token

def isOpening : Token Bind → Bool
  | .opening => true
  | _ => false

def isClosing : Token Bind → Bool
  | .closing => true
  | _ => false

def isComma : Token Bind → Bool
  | .comma => true
  | _ => false

def isWord (text : String) : Token Bind → Bool
  | .word other => other = text
  | _ => false

def isQuoted (text : String) : Token Bind → Bool
  | .quoted other => other = text
  | _ => false

end Token

mutual

/-- Reads an expression whose operators bind more tightly than a level, and gives the tokens after it. -/
def parseFront (level : Nat) (tokens : List (Token Bind)) : Option (Expr × Rest tokens.length) := do
  let (left, ⟨rest, _⟩) ← operandFront tokens
  let (e, ⟨rest, _⟩) ← extendFront level left rest
  pure (e, ⟨rest, by omega⟩)
termination_by 2 * tokens.length + 1
decreasing_by all_goals omega

/-- Reads an operand. -/
def operandFront (tokens : List (Token Bind)) : Option (Expr × Rest tokens.length) :=
  match tokens with
  | [] => none
  | first :: rest =>
    match Start.of? first with
    | none => none
    | some (.whole e) => some (e, ⟨rest, Nat.lt_succ_self _⟩)
    | some .parens => do
      let (inner, ⟨rest, _⟩) ← parseFront 0 rest
      let ⟨rest, _⟩ ← expect Token.isClosing rest
      pure (.parens inner, ⟨rest, by grind⟩)
    | some .not => do
      let (term, ⟨rest, _⟩) ← parseFront 3 rest
      pure (.not term, ⟨rest, by grind⟩)
    | some .caseWhen => do
      let ⟨rest, _⟩ ← expect (Token.isWord "WHEN") rest
      let (condition, ⟨rest, _⟩) ← parseFront 0 rest
      let ⟨rest, _⟩ ← expect (Token.isWord "THEN") rest
      let (value, ⟨rest, _⟩) ← parseFront 0 rest
      let ⟨rest, _⟩ ← expect (Token.isWord "END") rest
      pure (.caseWhen condition value, ⟨rest, by grind⟩)
    | some (.call callee) => do
      let ⟨rest, _⟩ ← expect Token.isOpening rest
      let (argument, ⟨rest, _⟩) ← parseFront 0 rest
      match callee with
      | .typeOf => do
        let ⟨rest, _⟩ ← expect Token.isClosing rest
        pure (.typeOf argument, ⟨rest, by grind⟩)
      | .arrayLength => do
        let ⟨rest, _⟩ ← expect Token.isClosing rest
        pure (.arrayLength argument, ⟨rest, by grind⟩)
      | .isTimestamp => do
        let ⟨rest, _⟩ ← expect Token.isComma rest
        let ⟨rest, _⟩ ← expect (Token.isQuoted "timestamptz") rest
        let ⟨rest, _⟩ ← expect Token.isClosing rest
        pure (.isTimestamp argument, ⟨rest, by grind⟩)
      | .coalesce => do
        let ⟨rest, _⟩ ← expect Token.isComma rest
        let (fallback, ⟨rest, _⟩) ← parseFront 0 rest
        let ⟨rest, _⟩ ← expect Token.isClosing rest
        pure (.coalesce argument fallback, ⟨rest, by grind⟩)
termination_by 2 * tokens.length
decreasing_by all_goals grind

/-- Goes on with an operand as long as operators bind more tightly than a level. -/
def extendFront (level : Nat) (left : Expr) (tokens : List (Token Bind)) : Option (Expr × Rest (tokens.length + 1)) :=
  match h : Follow.of? tokens with
  | none => some (left, ⟨tokens, Nat.lt_succ_self _⟩)
  | some (follow, rest) =>
    have hrest : rest.length < tokens.length := Follow.length_lt h
    if follow.level ≤ level then some (left, ⟨tokens, Nat.lt_succ_self _⟩)
    else match follow with
      | .binary operator => do
        let (right, ⟨rest, _⟩) ← parseFront follow.level rest
        let e ← operator.combine? left right
        let (e, ⟨rest, _⟩) ← extendFront level e rest
        pure (e, ⟨rest, by omega⟩)
      | .any => do
        if left.isComparison then none
        else
          let (list, ⟨rest, _⟩) ← parseFront 0 rest
          let ⟨rest, _⟩ ← expect Token.isClosing rest
          let (e, ⟨rest, _⟩) ← extendFront level (.isAny left list) rest
          pure (e, ⟨rest, by omega⟩)
      | .collate => do
        let (e, ⟨rest, _⟩) ← extendFront level (.bytewise left) rest
        pure (e, ⟨rest, by omega⟩)
      | .cast type => do
        let (e, ⟨rest, _⟩) ← extendFront level (.cast left type) rest
        pure (e, ⟨rest, by omega⟩)
termination_by 2 * tokens.length
decreasing_by all_goals omega

end

/-- What was read, with the tokens after it. -/
def plain {α : Type} {n : Nat} (read : Option (α × Rest n)) : Option (α × List (Token Bind)) :=
  read.map fun (a, rest) => (a, rest.1)

/-- Reads an expression whose operators bind more tightly than a level. -/
def parse (level : Nat) (tokens : List (Token Bind)) : Option (Expr × List (Token Bind)) :=
  plain (parseFront level tokens)

/-- Reads an operand. -/
def operand (tokens : List (Token Bind)) : Option (Expr × List (Token Bind)) := plain (operandFront tokens)

/-- Goes on with an operand as long as operators bind more tightly than a level. -/
def extend (level : Nat) (left : Expr) (tokens : List (Token Bind)) : Option (Expr × List (Token Bind)) :=
  plain (extendFront level left tokens)

theorem exists_of_plain {α : Type} {n : Nat} {read : Option (α × Rest n)} {a : α} {rest : List (Token Bind)}
    (h : plain read = some (a, rest)) : ∃ hrest, read = some (a, ⟨rest, hrest⟩) := by
  obtain ⟨⟨_, rest, hrest⟩, hread, hplain⟩ := Option.map_eq_some_iff.1 h
  cases hplain
  exact ⟨hrest, hread⟩

/-- One after another, readings are plain as each of them is. -/
theorem plain_bind {α β : Type} {m n : Nat} {next : α × Rest m → Option (β × Rest n)}
    {plainly : α × List (Token Bind) → Option (β × List (Token Bind))} (h : ∀ x, plain (next x) = plainly (x.1, x.2.1))
    (read : Option (α × Rest m)) : plain (read.bind next) = (plain read).bind plainly := by
  cases read with
  | none => rfl
  | some x => exact h x

/-- What is passed on as it was read. -/
theorem plain_bind_self {α : Type} {m n : Nat} {next : α × Rest m → Option (α × Rest n)}
    (h : ∀ x, plain (next x) = some (x.1, x.2.1)) (read : Option (α × Rest m)) :
    plain (read.bind next) = plain read := by
  cases read with
  | none => rfl
  | some x => exact h x

theorem parse_eq (level : Nat) (tokens : List (Token Bind)) :
    parse level tokens = (operand tokens).bind fun (left, rest) => extend level left rest := by
  rw [parse, parseFront]
  exact plain_bind (fun _ => plain_bind_self (fun _ => rfl) _) _

/-- What goes on with an operand, where it binds tightly enough. -/
theorem extend_eq {level : Nat} {tokens rest : List (Token Bind)} {follow : Follow}
    (h : Follow.of? tokens = some (follow, rest)) (hlevel : level < follow.level) (left : Expr) :
    extend level left tokens = match follow with
      | .binary operator => (parse follow.level rest).bind fun (right, rest) =>
          (operator.combine? left right).bind fun e =>
        extend level e rest
      | .any => if left.isComparison then none else (parse 0 rest).bind fun (list, rest) =>
          (expect Token.isClosing rest).bind fun rest =>
        extend level (.isAny left list) rest
      | .collate => extend level (.bytewise left) rest
      | .cast type => extend level (.cast left type) rest := by
  rw [extend, extendFront]
  split
  · next hnone =>
    rw [hnone] at h
    cases h
  · next hfollow =>
    cases hfollow.symm.trans h
    rw [if_neg (Nat.not_le.2 hlevel)]
    cases follow with
    | binary operator =>
      refine plain_bind (fun (right, ⟨rest, _⟩) => ?_) _
      dsimp only
      cases operator.combine? left right with
      | none => rfl
      | some e => exact plain_bind_self (fun _ => rfl) _
    | any =>
      dsimp only
      split
      · rfl
      · refine plain_bind (fun (list, ⟨rest, _⟩) => ?_) _
        dsimp only
        cases expect Token.isClosing rest with
        | none => rfl
        | some rest => exact plain_bind_self (fun _ => rfl) _
    | collate => exact plain_bind_self (fun _ => rfl) _
    | cast type => exact plain_bind_self (fun _ => rfl) _

/-! ## Expressions that are read from their own tokens -/

namespace Expr

/-- The tokens that an expression is written with. -/
def tokens (e : Expr) : List (Token Bind) := e.pieces.flatMap Piece.tokens

/-- Operators that bind no more tightly than this are not drawn into the end of the expression. -/
def edge : Expr → Nat
  | .or _ right => min 1 right.edge
  | .and _ right => min 2 right.edge
  | .not term => min 3 term.edge
  | .compare _ _ right => min 4 right.edge
  | .contains _ right => min 5 right.edge
  | .jsonAt _ | .textAt _ => 5
  | _ => 7

/-- Where operators have to bind more tightly than a level, the expression needs no parentheses but those that it
has. -/
def IsReadable (level : Nat) : Expr → Prop
  | .truth _ | .zero | .column _ | .bind _ | .typeName _ => True
  | .jsonAt _ | .textAt _ => level < 5
  | .typeOf value | .arrayLength value | .isTimestamp value | .parens value => value.IsReadable 0
  | .contains container part => level < 5 ∧ container.IsReadable level ∧ 5 ≤ container.edge ∧ part.IsReadable 5
  | .compare _ left right =>
    level < 4 ∧ left.IsReadable level ∧ 4 ≤ left.edge ∧ left.isComparison = false ∧ right.IsReadable 4
  | .isAny value list => level < 4 ∧ value.IsReadable level ∧ 4 ≤ value.edge ∧ value.isComparison = false ∧
      list.IsReadable 0
  | .coalesce value fallback => value.IsReadable 0 ∧ fallback.IsReadable 0
  | .cast value _ => level < 7 ∧ value.IsReadable level ∧ 7 ≤ value.edge
  | .bytewise text => level < 6 ∧ text.IsReadable level ∧ 6 ≤ text.edge
  | .caseWhen condition value => condition.IsReadable 0 ∧ value.IsReadable 0
  | .not term => term.IsReadable 3
  | .and left right => level < 2 ∧ left.IsReadable level ∧ 2 ≤ left.edge ∧ right.IsReadable 2
  | .or left right => level < 1 ∧ left.IsReadable level ∧ 1 ≤ left.edge ∧ right.IsReadable 1

/-- What is readable among tight operators is readable among looser ones. -/
theorem IsReadable.mono {e : Expr} {level looser : Nat} (h : e.IsReadable level) (hl : looser ≤ level) :
    e.IsReadable looser := by
  induction e with
  | contains container part ihc _ => exact ⟨by have := h.1; omega, ihc h.2.1, h.2.2⟩
  | compare operator left right ihl _ => exact ⟨by have := h.1; omega, ihl h.2.1, h.2.2⟩
  | isAny value list ihv _ => exact ⟨by have := h.1; omega, ihv h.2.1, h.2.2⟩
  | cast value type ih => exact ⟨by have := h.1; omega, ih h.2.1, h.2.2⟩
  | bytewise text ih => exact ⟨by have := h.1; omega, ih h.2.1, h.2.2⟩
  | and left right ihl _ => exact ⟨by have := h.1; omega, ihl h.2.1, h.2.2⟩
  | or left right ihl _ => exact ⟨by have := h.1; omega, ihl h.2.1, h.2.2⟩
  | jsonAt path => exact Nat.lt_of_le_of_lt hl h
  | textAt path => exact Nat.lt_of_le_of_lt hl h
  | _ => exact h

end Expr

/-! ### Token by token -/

namespace Expr

theorem tokens_typeOf (value : Expr) : (typeOf value).tokens =
    .word "jsonb_typeof" :: .opening :: (value.tokens ++ [.closing]) := by
  simp only [tokens, pieces, List.flatMap_cons, List.flatMap_append]
  rfl

theorem tokens_arrayLength (value : Expr) :
    (arrayLength value).tokens = .word "jsonb_array_length" :: .opening :: (value.tokens ++ [.closing]) := by
  simp only [tokens, pieces, List.flatMap_cons, List.flatMap_append]
  rfl

theorem tokens_isTimestamp (text : Expr) : (isTimestamp text).tokens =
    .word "pg_input_is_valid" :: .opening :: (text.tokens ++ [.comma, .quoted "timestamptz", .closing]) := by
  simp only [tokens, pieces, List.flatMap_cons, List.flatMap_append]
  rfl

theorem tokens_parens (inner : Expr) : (parens inner).tokens = .opening :: (inner.tokens ++ [.closing]) := by
  simp only [tokens, pieces, List.flatMap_cons, List.flatMap_append]
  rfl

theorem tokens_coalesce (value fallback : Expr) : (coalesce value fallback).tokens =
    .word "COALESCE" :: .opening :: (value.tokens ++ .comma :: (fallback.tokens ++ [.closing])) := by
  simp only [tokens, pieces, List.flatMap_cons, List.flatMap_append, List.append_assoc]
  rfl

theorem tokens_caseWhen (condition value : Expr) : (caseWhen condition value).tokens =
    .word "CASE" :: .word "WHEN" :: (condition.tokens ++ .word "THEN" :: (value.tokens ++ [.word "END"])) := by
  simp only [tokens, pieces, List.flatMap_cons, List.flatMap_append, List.append_assoc]
  rfl

theorem tokens_not (term : Expr) : (not term).tokens = .word "NOT" :: term.tokens := by
  simp only [tokens, pieces, List.flatMap_cons]
  rfl

theorem tokens_and (left right : Expr) : (and left right).tokens = left.tokens ++ .word "AND" :: right.tokens := by
  simp only [tokens, pieces, List.flatMap_cons, List.flatMap_append]
  rfl

theorem tokens_or (left right : Expr) : (or left right).tokens = left.tokens ++ .word "OR" :: right.tokens := by
  simp only [tokens, pieces, List.flatMap_cons, List.flatMap_append]
  rfl

theorem tokens_contains (container part : Expr) :
    (contains container part).tokens = container.tokens ++ .symbol "@>" :: part.tokens := by
  simp only [tokens, pieces, List.flatMap_cons, List.flatMap_append]
  rfl

theorem tokens_compare (operator : Operator) (left right : Expr) :
    (compare operator left right).tokens = left.tokens ++ .symbol operator.symbol :: right.tokens := by
  simp only [tokens, pieces, List.flatMap_cons, List.flatMap_append]
  rcases operator with _ | _ | _ | _ | _ <;> rfl

theorem tokens_isAny (value list : Expr) :
    (isAny value list).tokens = value.tokens ++ .symbol "=" :: .word "ANY" :: .opening ::
      (list.tokens ++ [.closing]) := by
  simp only [tokens, pieces, List.flatMap_cons, List.flatMap_append, List.append_assoc]
  rfl

theorem tokens_bytewise (text : Expr) : (bytewise text).tokens = text.tokens ++ [.word "COLLATE", .name "C"] := by
  simp only [tokens, pieces, List.flatMap_append]
  rfl

theorem tokens_cast (value : Expr) (type : CastType) :
    (cast value type).tokens = value.tokens ++ (Piece.text ("::" ++ type.name)).tokens := by
  simp only [tokens, pieces, List.flatMap_append, List.flatMap_cons, List.flatMap_nil, List.append_nil]

end Expr

theorem levelOf_eq {tokens rest : List (Token Bind)} {follow : Follow} (h : Follow.of? tokens = some (follow, rest)) :
    Follow.levelOf tokens = follow.level := by
  rw [Follow.levelOf, h]
  rfl

/-- Where nothing binds more tightly, an operand is not gone on with. -/
theorem extend_of_le {level : Nat} {rest : List (Token Bind)} (h : Follow.levelOf rest ≤ level) (left : Expr) :
    extend level left rest = some (left, rest) := by
  rw [extend, extendFront]
  split
  · rfl
  · next hfollow =>
    rw [levelOf_eq hfollow] at h
    rw [if_pos h]
    rfl

/-- An operand and an operator that binds tightly enough are gone on with by the right operand. -/
theorem extend_binary {operator : Binary} {level : Nat} {left right e : Expr}
    {tokens following rest : List (Token Bind)} (hfollow : Follow.of? tokens = some (.binary operator, following))
    (hlevel : level < (Follow.binary operator).level)
    (hright : parse (Follow.binary operator).level following = some (right, rest))
    (he : operator.combine? left right = some e) :
    extend level left tokens = extend level e rest := by
  rw [extend_eq hfollow hlevel]
  simp only [hright, he, Option.bind_some]

/-- The expression is read from its tokens, up to an operator that is not drawn into it. -/
def Expr.IsRead (e : Expr) : Prop :=
  ∀ (level : Nat) (rest : List (Token Bind)), e.IsReadable level → Follow.levelOf rest ≤ e.edge →
  parse level (e.tokens ++ rest) = extend level e rest

/-- An expression begins with a token that begins operands. -/
theorem Expr.exists_tokens (e : Expr) : ∃ first more, e.tokens = first :: more ∧ (Start.of? first).isSome = true := by
  have happend {left : Expr} (h : ∃ first more, left.tokens = first :: more ∧ (Start.of? first).isSome = true)
      (others : List (Token Bind)) : ∃ first more, left.tokens ++ others = first :: more ∧
      (Start.of? first).isSome = true := by
    obtain ⟨first, more, htokens, hfirst⟩ := h
    exact ⟨first, more ++ others, by rw [htokens, List.cons_append], hfirst⟩
  induction e with
  | truth value => cases value <;> exact ⟨_, _, rfl, rfl⟩
  | column c => cases c <;> exact ⟨_, _, rfl, rfl⟩
  | typeName type => cases type <;> exact ⟨_, _, rfl, rfl⟩
  | contains container part ih _ => exact tokens_contains container part ▸ happend ih _
  | compare operator left right ih _ => exact tokens_compare operator left right ▸ happend ih _
  | isAny value list ih _ => exact tokens_isAny value list ▸ happend ih _
  | cast value type ih => exact tokens_cast value type ▸ happend ih _
  | bytewise text ih => exact tokens_bytewise text ▸ happend ih _
  | and left right ih _ => exact tokens_and left right ▸ happend ih _
  | or left right ih _ => exact tokens_or left right ▸ happend ih _
  | typeOf value _ => exact ⟨_, _, tokens_typeOf value, rfl⟩
  | arrayLength value _ => exact ⟨_, _, tokens_arrayLength value, rfl⟩
  | isTimestamp text _ => exact ⟨_, _, tokens_isTimestamp text, rfl⟩
  | coalesce value fallback _ _ => exact ⟨_, _, tokens_coalesce value fallback, rfl⟩
  | caseWhen condition value _ _ => exact ⟨_, _, tokens_caseWhen condition value, rfl⟩
  | not term _ => exact ⟨_, _, tokens_not term, rfl⟩
  | parens inner _ => exact ⟨_, _, tokens_parens inner, rfl⟩
  | _ => exact ⟨_, _, rfl, rfl⟩

/-- Before an operand, the sign of equality is no comparison with any element of a list. -/
theorem Follow.of?_equal {first : Token Bind} (h : (Start.of? first).isSome = true) (rest : List (Token Bind)) :
    Follow.of? (.symbol "=" :: first :: rest) = some (.binary (.compare .equal), first :: rest) := by
  unfold Follow.of?
  split
  · next heq =>
    simp only [List.cons.injEq] at heq
    rw [heq.2.1] at h
    cases h
  all_goals simp_all [Follow.ofSymbol?]

namespace Expr.IsRead

variable {e left right : Expr}

/-- Where no operator goes on with it, the expression is all that is read. -/
theorem parse (h : e.IsRead) {level : Nat} {rest : List (Token Bind)} (he : e.IsReadable level)
    (hlevel : Follow.levelOf rest ≤ level) (hedge : Follow.levelOf rest ≤ e.edge) :
    Sql.parse level (e.tokens ++ rest) = some (e, rest) :=
  (h level rest he hedge).trans (extend_of_le hlevel e)

/-- Between brackets the expression is all that is read. -/
theorem inner (h : e.IsRead) (he : e.IsReadable 0) (token : Token Bind) (rest : List (Token Bind))
    (htoken : Follow.levelOf (token :: rest) = 0) : Sql.parse 0 (e.tokens ++ token :: rest) = some (e, token :: rest) :=
  h.parse he (Nat.le_of_eq htoken) (by rw [htoken]; exact Nat.zero_le _)

/-- What one token begins and ends is read from it. -/
theorem whole {token : Token Bind} (htokens : e.tokens = [token]) (hstart : Start.of? token = some (.whole e)) :
    e.IsRead := by
  intro level rest _ _
  rw [htokens, parse_eq, List.cons_append, operand, operandFront, hstart]
  rfl

/-- What an operator makes of operands is read as such. -/
theorem binary (operator : Binary) {token : Token Bind} (hleft : left.IsRead) (hright : right.IsRead)
    (htokens : e.tokens = left.tokens ++ token :: right.tokens)
    (hfollow : ∀ rest, Follow.of? (token :: (right.tokens ++ rest)) = some (.binary operator, right.tokens ++ rest))
    (hcombine : operator.combine? left right = some e) (hedge : e.edge = min (Follow.binary operator).level right.edge)
    (hreadable : ∀ level, e.IsReadable level → level < (Follow.binary operator).level ∧ left.IsReadable level ∧
      (Follow.binary operator).level ≤ left.edge ∧ right.IsReadable (Follow.binary operator).level) : e.IsRead := by
  intro level rest he hrest
  obtain ⟨hlevel, hl, hledge, hr⟩ := hreadable level he
  rw [hedge] at hrest
  have hoperand := hleft level (token :: (right.tokens ++ rest)) hl (by rw [levelOf_eq (hfollow rest)]; exact hledge)
  have hbehind := hright.parse hr (hrest.trans (Nat.min_le_left _ _)) (hrest.trans (Nat.min_le_right _ _))
  rw [htokens, List.append_assoc, List.cons_append, hoperand]
  exact extend_binary (hfollow rest) hlevel hbehind hcombine

/-- What is written in brackets is read without regard to what comes after it. -/
theorem closed {rest : List (Token Bind)} (h : operand (e.tokens ++ rest) = some (e, rest)) (level : Nat) :
    Sql.parse level (e.tokens ++ rest) = extend level e rest := by
  rw [parse_eq, h, Option.bind_some]

theorem parens (h : e.IsRead) : (Expr.parens e).IsRead := by
  intro level rest he _
  obtain ⟨_, hinner⟩ := exists_of_plain (h.inner he .closing rest rfl)
  have htokens : (Expr.parens e).tokens ++ rest = .opening :: (e.tokens ++ .closing :: rest) := by simp [tokens_parens]
  refine closed ?_ level
  rw [htokens, operand, operandFront]
  simp only [Start.of?, hinner, Option.bind_eq_bind, Option.bind_some]
  rfl

theorem typeOf (h : e.IsRead) : (Expr.typeOf e).IsRead := by
  intro level rest he _
  obtain ⟨_, hinner⟩ := exists_of_plain (h.inner he .closing rest rfl)
  have htokens : (Expr.typeOf e).tokens ++ rest =
      .word "jsonb_typeof" :: .opening :: (e.tokens ++ .closing :: rest) := by
    simp [tokens_typeOf]
  refine closed ?_ level
  rw [htokens, operand, operandFront, show Start.of? (.word "jsonb_typeof") = some (.call .typeOf) from rfl]
  simp only [expect, Token.isOpening, if_true, Option.bind_eq_bind, Option.bind_some, hinner, Token.isClosing]
  rfl

theorem arrayLength (h : e.IsRead) : (Expr.arrayLength e).IsRead := by
  intro level rest he _
  obtain ⟨_, hinner⟩ := exists_of_plain (h.inner he .closing rest rfl)
  have htokens : (Expr.arrayLength e).tokens ++ rest = .word "jsonb_array_length" :: .opening ::
      (e.tokens ++ .closing :: rest) := by
    simp [tokens_arrayLength]
  refine closed ?_ level
  rw [htokens, operand, operandFront, show Start.of? (.word "jsonb_array_length") = some (.call .arrayLength) from rfl]
  simp only [expect, Token.isOpening, if_true, Option.bind_eq_bind, Option.bind_some, hinner, Token.isClosing]
  rfl

theorem isTimestamp (h : e.IsRead) : (Expr.isTimestamp e).IsRead := by
  intro level rest he _
  obtain ⟨_, hinner⟩ := exists_of_plain (h.inner he .comma (.quoted "timestamptz" :: .closing :: rest) rfl)
  have htokens : (Expr.isTimestamp e).tokens ++ rest =
      .word "pg_input_is_valid" :: .opening :: (e.tokens ++ .comma :: .quoted "timestamptz" :: .closing :: rest) := by
    simp [tokens_isTimestamp]
  refine closed ?_ level
  rw [htokens, operand, operandFront, show Start.of? (.word "pg_input_is_valid") = some (.call .isTimestamp) from rfl]
  simp only [expect, Token.isOpening, if_true, Option.bind_eq_bind, Option.bind_some, hinner, Token.isComma,
    Token.isQuoted, Token.isClosing, decide_true]
  rfl

theorem coalesce (hleft : left.IsRead) (hright : right.IsRead) : (Expr.coalesce left right).IsRead := by
  intro level rest he _
  obtain ⟨_, hvalue⟩ := exists_of_plain (hleft.inner he.1 .comma (right.tokens ++ .closing :: rest) rfl)
  obtain ⟨_, hfallback⟩ := exists_of_plain (hright.inner he.2 .closing rest rfl)
  have htokens : (Expr.coalesce left right).tokens ++ rest =
      .word "COALESCE" :: .opening :: (left.tokens ++ .comma :: (right.tokens ++ .closing :: rest)) := by
    simp [tokens_coalesce]
  refine closed ?_ level
  rw [htokens, operand, operandFront, show Start.of? (.word "COALESCE") = some (.call .coalesce) from rfl]
  simp only [expect, Token.isOpening, if_true, Option.bind_eq_bind, Option.bind_some, hvalue, hfallback, Token.isComma,
    Token.isClosing]
  rfl

theorem caseWhen (hleft : left.IsRead) (hright : right.IsRead) : (Expr.caseWhen left right).IsRead := by
  intro level rest he _
  obtain ⟨_, hcondition⟩ := exists_of_plain (hleft.inner he.1 (.word "THEN") (right.tokens ++ .word "END" :: rest) rfl)
  obtain ⟨_, hvalue⟩ := exists_of_plain (hright.inner he.2 (.word "END") rest rfl)
  have htokens : (Expr.caseWhen left right).tokens ++ rest =
      .word "CASE" :: .word "WHEN" :: (left.tokens ++ .word "THEN" :: (right.tokens ++ .word "END" :: rest)) := by
    simp [tokens_caseWhen]
  refine closed ?_ level
  rw [htokens, operand, operandFront, show Start.of? (.word "CASE") = some .caseWhen from rfl]
  simp only [expect, Token.isWord, decide_true, if_true, Option.bind_eq_bind, Option.bind_some, hcondition, hvalue]
  rfl

theorem not (h : e.IsRead) : (Expr.not e).IsRead := by
  intro level rest he hrest
  obtain ⟨_, hterm⟩ :=
    exists_of_plain (h.parse he (hrest.trans (Nat.min_le_left _ _)) (hrest.trans (Nat.min_le_right _ _)))
  refine closed ?_ level
  rw [tokens_not, List.cons_append, operand, operandFront, show Start.of? (.word "NOT") = some .not from rfl]
  simp only [hterm, Option.bind_eq_bind, Option.bind_some]
  rfl

theorem and (hleft : left.IsRead) (hright : right.IsRead) : (Expr.and left right).IsRead :=
  binary .and hleft hright (tokens_and left right) (fun _ => rfl) rfl rfl fun _ h => h

theorem or (hleft : left.IsRead) (hright : right.IsRead) : (Expr.or left right).IsRead :=
  binary .or hleft hright (tokens_or left right) (fun _ => rfl) rfl rfl fun _ h => h

theorem contains (hleft : left.IsRead) (hright : right.IsRead) : (Expr.contains left right).IsRead :=
  binary .contains hleft hright (tokens_contains left right) (fun _ => rfl) rfl rfl fun _ h => h

/-- A comparison is read if its left operand is none. -/
theorem compare (operator : Operator) (hleft : left.IsRead) (hright : right.IsRead) :
    (Expr.compare operator left right).IsRead := by
  intro level rest he hrest
  refine binary (.compare operator) hleft hright (tokens_compare operator left right) ?_
    (if_neg (by rw [he.2.2.2.1]; decide)) rfl (fun _ h => ⟨h.1, h.2.1, h.2.2.1, h.2.2.2.2⟩) level rest he hrest
  intro rest
  obtain ⟨first, more, htokens, hfirst⟩ := right.exists_tokens
  rw [htokens, List.cons_append]
  rcases operator with _ | _ | _ | _ | _
  · exact Follow.of?_equal hfirst _
  all_goals rfl

theorem isAny (hleft : left.IsRead) (hright : right.IsRead) : (Expr.isAny left right).IsRead := by
  intro level rest he _
  obtain ⟨hlevel, hl, hledge, hcomparison, hr⟩ := he
  have hlist := hright.inner hr .closing rest rfl
  have hfollow : Follow.of? (.symbol "=" :: .word "ANY" :: .opening :: (right.tokens ++ .closing :: rest)) =
    some (.any, right.tokens ++ .closing :: rest) := rfl
  have hvalue := hleft level (.symbol "=" :: .word "ANY" :: .opening :: (right.tokens ++ .closing :: rest)) hl
    (by rw [levelOf_eq hfollow]; exact hledge)
  rw [tokens_isAny, List.append_assoc]
  simp only [List.cons_append, List.append_assoc, List.nil_append]
  rw [hvalue, extend_eq hfollow hlevel]
  simp only [hcomparison, Bool.false_eq_true, if_false, hlist, Option.bind_some, expect, Token.isClosing, if_true]

theorem bytewise (h : e.IsRead) : (Expr.bytewise e).IsRead := by
  intro level rest he _
  obtain ⟨hlevel, hl, hedge⟩ := he
  have hfollow : Follow.of? (.word "COLLATE" :: .name "C" :: rest) = some (.collate, rest) := rfl
  have htext := h level (.word "COLLATE" :: .name "C" :: rest) hl (by rw [levelOf_eq hfollow]; exact hedge)
  rw [tokens_bytewise, List.append_assoc, List.cons_append, List.cons_append, List.nil_append, htext,
    extend_eq hfollow hlevel]

theorem cast (h : e.IsRead) (type : CastType) : (Expr.cast e type).IsRead := by
  intro level rest he _
  obtain ⟨hlevel, hl, hedge⟩ := he
  have hfollow : Follow.of? ((Piece.text ("::" ++ type.name)).tokens ++ rest) = some (.cast type, rest) := by
    cases type <;> rfl
  have hvalue := h level ((Piece.text ("::" ++ type.name)).tokens ++ rest) hl (by rw [levelOf_eq hfollow]; exact hedge)
  rw [tokens_cast, List.append_assoc, hvalue, extend_eq hfollow hlevel]

theorem column (c : Column) : (Expr.column c).IsRead := by
  cases c <;> exact whole rfl rfl

theorem bind (value : Bind) : (Expr.bind value).IsRead := whole rfl rfl

theorem jsonAt (path : Path) : (Expr.jsonAt path).IsRead := by
  intro level rest he hrest
  exact binary .jsonAt (column .body) (bind (.texts path.segments)) rfl (fun _ => rfl) rfl rfl
    (fun _ h => ⟨h, trivial, by decide, trivial⟩) level rest he hrest

theorem textAt (path : Path) : (Expr.textAt path).IsRead := by
  intro level rest he hrest
  exact binary .textAt (column .body) (bind (.texts path.segments)) rfl (fun _ => rfl) rfl rfl
    (fun _ h => ⟨h, trivial, by decide, trivial⟩) level rest he hrest

end Expr.IsRead

/-- Every expression is read from its tokens where it is readable. -/
theorem Expr.isRead (e : Expr) : e.IsRead := by
  induction e with
  | truth value => cases value <;> exact IsRead.whole rfl rfl
  | zero => exact IsRead.whole rfl rfl
  | column c => exact IsRead.column c
  | bind value => exact IsRead.bind value
  | typeName type => cases type <;> exact IsRead.whole rfl rfl
  | jsonAt path => exact IsRead.jsonAt path
  | textAt path => exact IsRead.textAt path
  | typeOf value ih => exact ih.typeOf
  | arrayLength value ih => exact ih.arrayLength
  | isTimestamp text ih => exact ih.isTimestamp
  | contains container part ihc ihp => exact ihc.contains ihp
  | compare operator left right ihl ihr => exact ihl.compare operator ihr
  | isAny value list ihv ihl => exact ihv.isAny ihl
  | coalesce value fallback ihv ihf => exact ihv.coalesce ihf
  | cast value type ih => exact ih.cast type
  | bytewise text ih => exact ih.bytewise
  | caseWhen condition value ihc ihv => exact ihc.caseWhen ihv
  | not term ih => exact ih.not
  | and left right ihl ihr => exact ihl.and ihr
  | or left right ihl ihr => exact ihl.or ihr
  | parens inner ih => exact ih.parens

/-- A readable expression is read from its tokens up to what is no operator. -/
theorem parse_tokens {e : Expr} (h : e.IsReadable 0) {rest : List (Token Bind)} (hrest : Follow.levelOf rest = 0) :
    parse 0 (e.tokens ++ rest) = some (e, rest) :=
  e.isRead.parse h (Nat.le_of_eq hrest) (by rw [hrest]; exact Nat.zero_le _)

end FeedQuery.Sql
