import Mathlib.Data.List.Chain
import FeedQuery.Proofs.Decimal
import FeedQuery.Sql.Statement

/-!
# The tokens of a statement

A database reads the text of a statement as tokens, each as long as it can be, and puts in the place of a placeholder
the value of that number. `scan` does so. The pieces that a statement is written with keep their tokens apart where no
word runs on into the next piece (`WellSpaced`); then reading the text gives the tokens of the pieces one after the
other, with each value where it was put (`scan_text`).
-/

namespace FeedQuery.Sql

/-- A token; `α` is what stands for a placeholder. -/
inductive Token (α : Type) where
  /-- A keyword, a name or a numeral. -/
  | word (text : String)
  /-- A text in apostrophes. -/
  | quoted (text : String)
  /-- A name in quotation marks. -/
  | name (text : String)
  /-- An operator. -/
  | symbol (text : String)
  | value (value : α)
  | opening
  | closing
  | comma
  /-- What is no token. -/
  | broken
deriving DecidableEq, Repr

/-- A token with the value that its placeholder stands for. Placeholders are numbered from one. -/
def Token.resolve (binds : List Bind) : Token Nat → Option (Token Bind)
  | .word text => some (.word text)
  | .quoted text => some (.quoted text)
  | .name text => some (.name text)
  | .symbol text => some (.symbol text)
  | .value 0 => none
  | .value (n + 1) => binds[n]?.map .value
  | .opening => some .opening
  | .closing => some .closing
  | .comma => some .comma
  | .broken => none

/-- The number of a placeholder. -/
def Token.number? : Token Nat → Option Nat
  | .value n => some n
  | _ => none

/-- What is resolved without values is no placeholder. -/
theorem Token.number?_of_resolve {token : Token Nat} (h : (token.resolve []).isSome = true) : token.number? = none := by
  cases token with
  | value n => cases n <;> simp [Token.resolve] at h
  | _ => rfl

/-- What is no placeholder is resolved alike with any values. -/
theorem Token.resolve_of_number? {token : Token Nat} (h : token.number? = none) (binds : List Bind) :
    token.resolve binds = token.resolve [] := by
  cases token with
  | value n => cases h
  | _ => rfl

/-! ## Reading characters -/

/-- What was read of a token that may not be at its end; the characters are in reverse. -/
inductive Pending where
  | nothing
  | complete (token : Token Nat)
  | word (chars : List Char)
  | symbol (chars : List Char)
  | digits (chars : List Char)
  | enclosed (mark : Char) (chars : List Char)
deriving DecidableEq, Repr

namespace Pending

def isWordChar (c : Char) : Bool := c.isAlphanum || c == '_'

def isSymbolChar (c : Char) : Bool :=
  ['+', '-', '*', '/', '<', '>', '=', '~', '!', '@', '#', '%', '^', '&', '|', '?', ':'].contains c

/-- What a character begins. -/
def start (c : Char) : Pending :=
  if c == ' ' || c == '\n' || c == '\t' then .nothing
  else if c == '(' then .complete .opening
  else if c == ')' then .complete .closing
  else if c == ',' then .complete .comma
  else if c == '$' then .digits []
  else if c == '\'' || c == '"' then .enclosed c []
  else if isWordChar c then .word [c]
  else if isSymbolChar c then .symbol [c]
  else .complete .broken

/-- Goes on with a character, if it belongs to the token. -/
def take? (c : Char) : Pending → Option Pending
  | .nothing => none
  | .complete _ => none
  | .word chars => if isWordChar c then some (.word (c :: chars)) else none
  | .symbol chars => if isSymbolChar c then some (.symbol (c :: chars)) else none
  | .digits chars => if c.isDigit then some (.digits (c :: chars)) else none
  | .enclosed mark chars =>
    if c == mark then
      let text := String.ofList chars.reverse
      some (.complete (if mark == '"' then .name text else .quoted text))
    else some (.enclosed mark (c :: chars))

/-- The token, where the text does not go on with it. -/
def finish : Pending → List (Token Nat)
  | .nothing => []
  | .complete token => [token]
  | .word chars => [.word (String.ofList chars.reverse)]
  | .symbol chars => [.symbol (String.ofList chars.reverse)]
  | .digits chars => [.value (Decimal.ofDigits (chars.reverse.map Decimal.digitValue))]
  | .enclosed _ _ => [.broken]

/-- The tokens of what is pending and of the characters after it. -/
def lex (p : Pending) : List Char → List (Token Nat)
  | [] => p.finish
  | c :: rest => match p.take? c with
    | some p => p.lex rest
    | none => p.finish ++ (start c).lex rest

/-- What is pending after some characters. -/
def after (p : Pending) : List Char → Pending
  | [] => p
  | c :: rest => ((p.take? c).getD (start c)).after rest

/-- The tokens of two texts, where no token goes on from the first into the second. -/
theorem lex_append {p : Pending} {a b : List Char} (h : ∀ c ∈ b.head?, (p.after a).take? c = none) :
    p.lex (a ++ b) = p.lex a ++ nothing.lex b := by
  induction a generalizing p with
  | nil =>
    cases b with
    | nil => simp [lex, finish]
    | cons c rest =>
      have hc : p.take? c = none := h c rfl
      have hnothing : nothing.take? c = none := rfl
      simp only [List.nil_append, lex, hc, hnothing, finish]
  | cons c rest ih =>
    simp only [List.cons_append, lex]
    cases hc : p.take? c with
    | some q =>
      refine ih ?_
      simpa [after, hc] using h
    | none =>
      dsimp only
      rw [List.append_assoc, ih]
      simpa [after, hc] using h

/-- Nothing but a character of a word goes on with it. -/
def isSoft : Pending → Bool
  | .symbol _ | .enclosed _ _ => false
  | _ => true

/-- Nothing goes on with it. -/
def isClosed : Pending → Bool
  | .nothing | .complete _ => true
  | _ => false

theorem take?_of_isClosed {p : Pending} (h : p.isClosed = true) (c : Char) : p.take? c = none := by
  cases p <;> first | rfl | cases h

theorem take?_of_isSoft {p : Pending} (h : p.isSoft = true) {c : Char} (hc : isWordChar c = false) :
    p.take? c = none := by
  have hdigit : c.isDigit = false := by
    simp only [isWordChar, Char.isAlphanum, Bool.or_eq_false_iff] at hc
    exact hc.1.2
  cases p with
  | symbol chars => cases h
  | enclosed mark chars => cases h
  | _ => simp [take?, hc, hdigit]

/-- Digits go on with a placeholder. -/
theorem after_digits {digits : List Char} (h : ∀ c ∈ digits, c.isDigit = true) (chars : List Char) :
    (Pending.digits chars).after digits = .digits (digits.reverse ++ chars) := by
  induction digits generalizing chars with
  | nil => rfl
  | cons c rest ih =>
    have hc : c.isDigit = true := h c List.mem_cons_self
    simp only [after, take?, hc, if_true, Option.getD_some]
    rw [ih fun c hc => h c (List.mem_cons_of_mem _ hc)]
    simp

theorem lex_digits {digits : List Char} (h : ∀ c ∈ digits, c.isDigit = true) (chars : List Char) :
    (Pending.digits chars).lex digits = (Pending.digits (digits.reverse ++ chars)).finish := by
  induction digits generalizing chars with
  | nil => rfl
  | cons c rest ih =>
    have hc : c.isDigit = true := h c List.mem_cons_self
    simp only [lex, take?, hc, if_true]
    rw [ih fun c hc => h c (List.mem_cons_of_mem _ hc)]
    simp

end Pending

/-- The tokens of a text, with the values that its placeholders stand for; nothing where it has no tokens. -/
def scan (text : String) (binds : List Bind) : Option (List (Token Bind)) :=
  (Pending.nothing.lex text.toList).mapM (Token.resolve binds)

/-! ## Reading pieces -/

namespace Piece

open Pending

/-- The tokens of a piece. -/
def tokens : Piece → List (Token Bind)
  | .text words => (nothing.lex words.toList).filterMap (Token.resolve [])
  | .bind value => [.value value]

/-- The piece does not begin with a character that words go on with. -/
def isFree : Piece → Bool
  | .text words => words.toList.head?.any fun c => !isWordChar c
  | .bind _ => true

/-- No token goes on after the piece. -/
def isClosed : Piece → Bool
  | .text words => (nothing.after words.toList).isClosed
  | .bind _ => false

/-- The piece has tokens and no placeholders of its own, and no operator goes on after it. -/
def isWhole : Piece → Bool
  | .text words => (nothing.after words.toList).isSoft && (nothing.lex words.toList).all fun token =>
      (token.resolve []).isSome
  | .bind _ => true

/-- The characters of a piece, where the number of its placeholder is given. -/
def chars (number : Nat) : Piece → List Char
  | .text words => words.toList
  | .bind _ => '$' :: Decimal.digitsOf number

/-- The tokens of a piece before its placeholder is resolved. -/
def numbered (number : Nat) : Piece → List (Token Nat)
  | .text words => nothing.lex words.toList
  | .bind _ => [.value number]

/-- The value of a piece that is one. -/
def bind? : Piece → Option Bind
  | .text _ => none
  | .bind value => some value

variable {piece : Piece}

theorem lex_chars (number : Nat) (piece : Piece) : nothing.lex (piece.chars number) = piece.numbered number := by
  cases piece with
  | text words => rfl
  | bind value =>
    refine (lex_digits (fun c hc => Decimal.isDigit_of_mem_digitsOf hc) []).trans ?_
    rw [finish, List.append_nil, List.reverse_reverse, Decimal.ofDigits_digitsOf]
    rfl

/-- After a piece that is whole nothing goes on but characters of words, and nothing at all where it is closed. -/
theorem take?_after_chars (hwhole : piece.isWhole = true) (number : Nat) {c : Char}
    (hc : piece.isClosed = true ∨ isWordChar c = false) : (nothing.after (piece.chars number)).take? c = none := by
  have hsoft : (nothing.after (piece.chars number)).isSoft = true := by
    cases piece with
    | text words => exact (Bool.and_eq_true_iff.1 hwhole).1
    | bind value =>
      have hdigits := after_digits (fun c hc => Decimal.isDigit_of_mem_digitsOf (n := number) hc) []
      exact congrArg isSoft hdigits
  rcases hc with hclosed | hc
  · cases piece with
    | text words => exact take?_of_isClosed hclosed c
    | bind value => cases hclosed
  · exact take?_of_isSoft hsoft hc

/-- The first character of a piece that is free is none that words go on with. -/
theorem exists_chars_of_isFree (h : piece.isFree = true) (number : Nat) :
    ∃ c rest, piece.chars number = c :: rest ∧ isWordChar c = false := by
  cases piece with
  | text words =>
    simp only [isFree, Option.any_eq_true, Bool.not_eq_true'] at h
    obtain ⟨c, hhead, hc⟩ := h
    obtain ⟨rest, hrest⟩ := List.head?_eq_some_iff.1 hhead
    exact ⟨c, rest, hrest, hc⟩
  | bind value => exact ⟨'$', _, rfl, by decide⟩

/-- The tokens of a piece are resolved by the value that it puts in. -/
theorem mapM_resolve_numbered (hwhole : piece.isWhole = true) {before binds : List Bind} :
    (piece.numbered (before.length + 1)).mapM (Token.resolve (before ++ piece.bind?.toList ++ binds)) =
      some piece.tokens := by
  cases piece with
  | bind value => simp [numbered, tokens, bind?, Token.resolve]
  | text words =>
    have hresolved := (Bool.and_eq_true_iff.1 hwhole).2
    rw [List.all_eq_true] at hresolved
    have hsame (binds : List Bind) : ∀ token ∈ nothing.lex words.toList, token.resolve binds = token.resolve [] :=
      fun token htoken => Token.resolve_of_number? (Token.number?_of_resolve (hresolved token htoken)) binds
    simp only [numbered, tokens]
    generalize nothing.lex words.toList = tokens at hsame hresolved
    induction tokens with
    | nil => rfl
    | cons token rest ih =>
      obtain ⟨found, hfound⟩ := Option.isSome_iff_exists.1 (hresolved token List.mem_cons_self)
      rw [List.mapM_cons, hsame _ token List.mem_cons_self, hfound,
        ih (fun binds token h => hsame binds token (List.mem_cons_of_mem _ h))
          (fun token h => hresolved token (List.mem_cons_of_mem _ h)),
        List.filterMap_cons, hfound]
      rfl

/-- A piece has one placeholder if it puts in a value, and none if it does not. -/
theorem filterMap_number?_numbered (hwhole : piece.isWhole = true) (number : Nat) :
    (piece.numbered number).filterMap Token.number? = List.range' number piece.bind?.toList.length := by
  cases piece with
  | bind value => rfl
  | text words =>
    have hresolved := (Bool.and_eq_true_iff.1 hwhole).2
    rw [List.all_eq_true] at hresolved
    exact List.filterMap_eq_nil_iff.2 fun token htoken => Token.number?_of_resolve (hresolved token htoken)

end Piece

/-- Every piece is read alone as it is read among the others: where words may go on after one, the next begins with
something else. -/
structure WellSpaced (pieces : List Piece) : Prop where
  chain : pieces.IsChain fun a b => a.isClosed = true ∨ b.isFree = true
  whole : ∀ piece ∈ pieces, piece.isWhole = true

namespace WellSpaced

variable {words : String} {pieces before following : List Piece}

theorem singleton {piece : Piece} (h : piece.isWhole = true) : WellSpaced [piece] :=
  ⟨List.isChain_singleton _, fun _ hpiece => List.mem_singleton.1 hpiece ▸ h⟩

/-- A text that is closed may stand before pieces. -/
theorem cons (hpieces : WellSpaced pieces) (hwhole : (Piece.text words).isWhole = true)
    (hclosed : (Piece.text words).isClosed = true) :
    WellSpaced (.text words :: pieces) :=
  ⟨hpieces.chain.cons fun _ _ => .inl hclosed, List.forall_mem_cons.2 ⟨hwhole, hpieces.whole⟩⟩

/-- Pieces of which the first is free may stand after pieces. -/
theorem append (hbefore : WellSpaced before) (hfollowing : WellSpaced following)
    (hfree : ∀ piece ∈ following.head?, piece.isFree = true) : WellSpaced (before ++ following) :=
  ⟨hbefore.chain.append hfollowing.chain fun _ _ piece hpiece => .inr (hfree piece hpiece),
    List.forall_mem_append.2 ⟨hbefore.whole, hfollowing.whole⟩⟩

/-- A free text may stand after pieces. -/
theorem concat (hpieces : WellSpaced pieces) (hwhole : (Piece.text words).isWhole = true)
    (hfree : (Piece.text words).isFree = true) :
    WellSpaced (pieces ++ [.text words]) :=
  hpieces.append (.singleton hwhole) fun _ hpiece => Option.some.inj hpiece ▸ hfree

/-- A text that is free and closed may stand between pieces. -/
theorem between (hbefore : WellSpaced before) (hfollowing : WellSpaced following)
    (hwhole : (Piece.text words).isWhole = true) (hfree : (Piece.text words).isFree = true)
    (hclosed : (Piece.text words).isClosed = true) :
    WellSpaced (before ++ .text words :: following) :=
  hbefore.append (hfollowing.cons hwhole hclosed) fun _ hpiece => Option.some.inj hpiece ▸ hfree

end WellSpaced

namespace Statement

theorem binds_eq (s : Statement) : s.binds = s.pieces.filterMap Piece.bind? := by
  refine congrArg (List.filterMap · s.pieces) (funext fun piece => ?_)
  cases piece <;> rfl

/-- The text begins with the first piece, and goes on with the next number if that piece has a placeholder. -/
theorem textFrom_cons (number : Nat) (piece : Piece) (rest : List Piece) :
    (textFrom number (piece :: rest)).toList =
      piece.chars number ++ (textFrom (number + piece.bind?.toList.length) rest).toList := by
  cases piece with
  | text words => simp [textFrom, Piece.chars, Piece.bind?]
  | bind value =>
    have hnumber : (toString number).toList = Decimal.digitsOf number := String.toList_ofList
    have hdollar : ("$" : String).toList = ['$'] := rfl
    simp only [textFrom, Piece.chars, Piece.bind?, String.toList_append, hnumber, hdollar, Option.toList_some,
      List.length_singleton, List.cons_append, List.nil_append]

/-- The tokens of pieces, each read alone, of which the first placeholder has the given number. -/
def numberedFrom (number : Nat) : List Piece → List (Token Nat)
  | [] => []
  | piece :: rest => piece.numbered number ++ numberedFrom (number + piece.bind?.toList.length) rest

/-- Pieces that are spaced are read one by one. -/
theorem lex_textFrom {pieces : List Piece} (h : WellSpaced pieces) (number : Nat) :
    Pending.nothing.lex (textFrom number pieces).toList = numberedFrom number pieces := by
  induction pieces generalizing number with
  | nil => rfl
  | cons piece rest ih =>
    have hrest : WellSpaced rest := ⟨h.chain.tail, fun piece hpiece => h.whole piece (List.mem_cons_of_mem _ hpiece)⟩
    -- what comes after the piece does not go on with it
    have happart : ∀ c ∈ (textFrom (number + piece.bind?.toList.length) rest).toList.head?,
        (Pending.nothing.after (piece.chars number)).take? c = none := by
      intro c hc
      refine Piece.take?_after_chars (h.whole piece List.mem_cons_self) _ ?_
      cases rest with
      | nil => cases hc
      | cons following others =>
        refine (List.isChain_cons_cons.1 h.chain).1.imp_right fun hfree => ?_
        obtain ⟨first, more, hchars, hfirst⟩ := Piece.exists_chars_of_isFree hfree (number + piece.bind?.toList.length)
        rw [textFrom_cons, hchars, List.cons_append, List.head?_cons] at hc
        rwa [← Option.some.inj hc]
    rw [textFrom_cons, Pending.lex_append happart, Piece.lex_chars, ih hrest, numberedFrom]

/-- The tokens of pieces are resolved by the values in their places. -/
theorem mapM_resolve_numberedFrom {pieces : List Piece} (h : ∀ piece ∈ pieces, piece.isWhole = true)
    (before : List Bind) :
    (numberedFrom (before.length + 1) pieces).mapM (Token.resolve (before ++ pieces.filterMap Piece.bind?)) =
      some (pieces.flatMap Piece.tokens) := by
  induction pieces generalizing before with
  | nil => rfl
  | cons piece rest ih =>
    obtain ⟨hwhole, hrest⟩ := List.forall_mem_cons.1 h
    have hbinds : before ++ (piece :: rest).filterMap Piece.bind? = before ++ piece.bind?.toList ++
        rest.filterMap Piece.bind? := by
      cases piece <;> simp [Piece.bind?, List.filterMap_cons]
    have hnumber : before.length + 1 + piece.bind?.toList.length = (before ++ piece.bind?.toList).length + 1 := by
      rw [List.length_append]
      omega
    rw [numberedFrom, List.mapM_append, hbinds, Piece.mapM_resolve_numbered hwhole, hnumber, ih hrest]
    rfl

/-- The placeholders of pieces are numbered one after another, one for each value. -/
theorem filterMap_number?_numberedFrom {pieces : List Piece} (h : ∀ piece ∈ pieces, piece.isWhole = true)
    (number : Nat) :
    (numberedFrom number pieces).filterMap Token.number? =
      List.range' number (pieces.filterMap Piece.bind?).length := by
  induction pieces generalizing number with
  | nil => rfl
  | cons piece rest ih =>
    obtain ⟨hwhole, hrest⟩ := List.forall_mem_cons.1 h
    have hlength : ((piece :: rest).filterMap Piece.bind?).length =
        piece.bind?.toList.length + (rest.filterMap Piece.bind?).length := by
      cases piece <;> simp [Piece.bind?, List.filterMap_cons, Nat.add_comm]
    rw [numberedFrom, List.filterMap_append, Piece.filterMap_number?_numbered hwhole, ih hrest, hlength,
      List.range'_append_1]

end Statement

/-- Reading the text of a statement gives the tokens of its pieces, with the values where they were put. -/
theorem scan_text {s : Statement} (h : WellSpaced s.pieces) :
    scan s.text s.binds = some (s.pieces.flatMap Piece.tokens) := by
  rw [s.binds_eq, scan, Statement.text, Statement.lex_textFrom h]
  exact Statement.mapM_resolve_numberedFrom h.whole []

end FeedQuery.Sql
