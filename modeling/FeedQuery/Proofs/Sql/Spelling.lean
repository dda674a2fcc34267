import FeedQuery.Proofs.Sql.Answers

/-!
# Identifiers under other fields

The identifier of a document has a column of its own, and is compared there as an identifier. Under every other field a
database compares texts: it looks for the canonical text of an identifier, and orders texts by their bytes
(`eval_condition_on`). A predicate reads the texts as identifiers instead, in whatever spelling. The two agree on a
field exactly as far as its texts let them (`id_tests_compare_texts`), which they do where identifiers are spelled
canonically; where they are not, they do not (`id_tests_disagree`).
-/

namespace FeedQuery

/-- A test of a field against identifiers. -/
inductive IdTest where
  | eq (id : Uuid)
  | ne (id : Uuid)
  | oneOf (ids : List Uuid)
  | order (comparison : Comparison) (id : Uuid)

namespace IdTest

/-- The test of a field, with a scalar for each identifier. -/
def predicate (scalar : Uuid → Scalar) (path : Path) : IdTest → Predicate
  | .eq id => .eq path (scalar id)
  | .ne id => .ne path (scalar id)
  | .oneOf ids => .oneOf path (ids.map scalar)
  | .order comparison id => .order path comparison (scalar id)

/-- The test of a field for identifiers. -/
def on (path : Path) (test : IdTest) : Predicate := test.predicate .id path

/-- The test of a field for the texts that are written for the identifiers. -/
def textOn (path : Path) (test : IdTest) : Predicate := test.predicate (fun id => .text id.toText) path

/-- Whether the test is one of order. -/
def isOrder : IdTest → Bool
  | .order .. => true
  | _ => false

end IdTest

/-- A field that is a text, or an array of texts. -/
inductive Json.HasTexts : Json → List String → Prop where
  | one (text : String) : HasTexts (.string text) [text]
  | many (texts : List String) : HasTexts (.array (texts.map .string)) texts

/-- What has to be true of the texts of a field for a test to come to the same whether they are compared as texts or as
identifiers. An identifier that some text spells has to be there canonically. A text alone has to lie towards the text
of an identifier as the identifier that it spells, if any, lies towards that one. -/
def IdTest.Agrees (field : Json) (texts : List String) : IdTest → Prop
  | .eq id | .ne id => (∃ text ∈ texts, Uuid.ofText? text = some id) → id.toText ∈ texts
  | .oneOf ids => (∃ id ∈ ids, ∃ text ∈ texts, Uuid.ofText? text = some id) → ∃ id ∈ ids, id.toText ∈ texts
  | .order comparison id => ∀ text, field = .string text →
    comparison.admits (compare text id.toText) = (Uuid.ofText? text).any fun other =>
      comparison.admits (compare other id)

namespace Json.HasTexts

variable {field : Json} {texts : List String} (h : field.HasTexts texts)
include h

theorem members_eq : field.members = texts.map .string := by
  cases h <;> rfl

/-- A field with texts holds a scalar that one of them is. -/
theorem holdsAt_eq {s : Scalar} (hs : s ≠ .null) :
    s.holdsAt (some field) = texts.any fun text => s.orderOf (.string text) == some .eq := by
  rw [Scalar.holdsAt_eq_any hs, h.members_eq, List.any_map]
  rfl

theorem holdsAt_id (id : Uuid) : (Scalar.id id).holdsAt (some field) = true ↔
    ∃ text ∈ texts, Uuid.ofText? text = some id := by
  have hid : Scalar.id id ≠ .null := nofun
  rw [h.holdsAt_eq hid, List.any_eq_true]
  exact exists_congr fun text => and_congr_right fun _ => by rw [Scalar.orderOf_id_eq, Json.id?_string]

theorem holdsAt_text (text : String) : (Scalar.text text).holdsAt (some field) = texts.any fun other =>
    text == other := by
  have htext : Scalar.text text ≠ .null := nofun
  rw [h.holdsAt_eq htext]
  simp only [Scalar.orderOf_text_eq]

theorem holdsAt_text_iff (text : String) : (Scalar.text text).holdsAt (some field) = true ↔ text ∈ texts := by
  rw [h.holdsAt_text, List.any_eq_true]
  simp

end Json.HasTexts

/-- A field lies towards a text as the text that it is. -/
theorem Predicate.accepts_order_text (path : Path) (comparison : Comparison) (text : String) (d : Document) :
    (order path comparison (.text text)).accepts d =
      ((d.get? path).bind Json.string?).any fun other => comparison.admits (compare other text) := by
  rw [accepts]
  rcases d.get? path with _ | _ | _ | _ | _ | _ | _ <;> rfl

namespace IdTest

variable {d : Document} {path : Path} {field : Json} {texts : List String} (hd : d.get? path = some field)
  (htexts : field.HasTexts texts)
include htexts

include hd in
/-- A test comes to the same for texts and for identifiers where the texts of the field let it. -/
theorem accepts_textOn_iff (test : IdTest) : (test.textOn path).accepts d = (test.on path).accepts d ↔
    test.Agrees field texts := by
  have hspelled {id : Uuid} (h : id.toText ∈ texts) : ∃ text ∈ texts, Uuid.ofText? text = some id :=
    ⟨_, h, id.ofText?_toText⟩
  have hholds (id : Uuid) : (Scalar.text id.toText).holdsAt (some field) = (Scalar.id id).holdsAt (some field) ↔
      ((∃ text ∈ texts, Uuid.ofText? text = some id) → id.toText ∈ texts) := by
    rw [Bool.eq_iff_iff, htexts.holdsAt_text_iff, htexts.holdsAt_id]
    exact ⟨Iff.mpr, fun h => ⟨hspelled, h⟩⟩
  cases test with
  | eq id =>
    rw [textOn, on, predicate, predicate, Predicate.accepts, Predicate.accepts, hd]
    exact hholds id
  | ne id =>
    rw [textOn, on, predicate, predicate, Predicate.accepts, Predicate.accepts, hd, Bool.not_inj_iff]
    exact hholds id
  | oneOf ids =>
    rw [textOn, on, predicate, predicate, Predicate.accepts, Predicate.accepts, hd, Bool.eq_iff_iff]
    simp only [List.any_map, List.any_eq_true, Function.comp_apply, htexts.holdsAt_text_iff, htexts.holdsAt_id]
    refine ⟨Iff.mpr, fun h => ⟨?_, h⟩⟩
    rintro ⟨id, hid, htext⟩
    exact ⟨id, hid, hspelled htext⟩
  | order comparison id =>
    rw [textOn, on, predicate, predicate, Predicate.accepts_order_text, Predicate.accepts_order_id, hd]
    cases htexts with
    | one text => exact ⟨fun h _ heq => Json.string.inj heq ▸ h, fun h => h text rfl⟩
    | many texts => exact ⟨fun _ _ heq => (nomatch heq), fun _ => rfl⟩

/-- Canonical texts let every test, if none is compared by order that spells no identifier. -/
theorem agrees_of_canonical {test : IdTest} (hcanonical : ∀ text ∈ texts, (Json.string text).isCanonical = true)
    (horder : test.isOrder = true → ∀ text, field = .string text → (Uuid.ofText? text).isSome = true) :
    test.Agrees field texts := by
  have hthere {id : Uuid} (h : ∃ text ∈ texts, Uuid.ofText? text = some id) : id.toText ∈ texts := by
    obtain ⟨text, htext, hid⟩ := h
    exact Json.isCanonical_string (hcanonical text htext) hid ▸ htext
  cases test with
  | eq id | ne id => exact hthere
  | oneOf ids => exact fun ⟨id, hid, hspelled⟩ => ⟨id, hid, hthere hspelled⟩
  | order comparison id =>
    rintro text rfl
    obtain ⟨other, hother⟩ := Option.isSome_iff_exists.1 (horder rfl text rfl)
    cases htexts
    rw [hother, ← Json.isCanonical_string (hcanonical text (List.mem_singleton_self _)) hother, Uuid.compare_toText]
    rfl

end IdTest

namespace Sql

/-! ## What a database compares -/

/-- Under any field but the identifier, identifiers are looked for one after the other. -/
theorem membership_of_ne {path : Path} (hpath : path ≠ .id) (values : List Scalar) :
    membership path values = .any (values.map (equality path)) := by
  unfold membership
  split
  · exact if_neg fun h => hpath h.1
  · rfl

section

variable {engine : Engine} (he : engine.IsDocumented) {row : Row} {path : Path} {field : Json} {texts : List String}
  (hfield : engine.extract path.segments row.body = some field) (htexts : field.HasTexts texts) (hpath : path ≠ .id)
include he hfield htexts hpath

/-- A field contains the canonical text of an identifier where one of its texts is that text. -/
theorem eval_equality_id (id : Uuid) :
    (equality path (.id id)).eval engine row = .truth ((Scalar.text id.toText).holdsAt (some field)) := by
  have hexact : ∀ member ∈ field.members, member.isExact = true := by
    rw [htexts.members_eq]
    exact List.forall_mem_map.2 fun _ _ => rfl
  have hcontains : engine.contains field (.string id.toText) = (Scalar.text id.toText).holdsAt (some field) := by
    rw [he.contains_eq field (.string id.toText) hexact rfl rfl, htexts.members_eq, List.any_map, htexts.holdsAt_text]
    rfl
  simp only [equality, if_neg hpath, Expr.eval, hfield]
  exact congrArg Outcome.truth hcontains

/-- A field is compared as a text if it is one. -/
theorem eval_typedField_id : (typedField path .id).eval engine row = .ofOption (field.string?.map .text) := by
  simp only [typedField, if_neg hpath]
  rw [Expr.eval, Expr.eval, eval_caseType hfield he, eval_textAt hfield]
  cases htexts with
  | one text =>
    have htext : (some (Json.string text)).bind engine.textOf = some text := he.textOf_string text
    rw [htext]
    rfl
  | many texts => rfl

/-- A field that is a text lies towards the canonical text of an identifier as its bytes do. -/
theorem eval_comparison_id (comparison : Comparison) (id : Uuid) :
    (Sql.comparison (.order comparison) path (.id id)).eval engine row =
    .truth (field.string?.any fun text => comparison.admits (compare text id.toText)) := by
  have hfieldtext := eval_typedField_id he hfield htexts hpath
  have hbytewise : (typedField path .id).isBytewise = true := by
    simp only [typedField, if_neg hpath]
    rfl
  simp only [Sql.comparison, if_neg hpath, Expr.eval, hfieldtext, hbytewise, Bool.true_or]
  cases field.string? with
  | none => rfl
  | some text =>
    have horder : engine.order? true (.text text) (.text id.toText) = some (compare text id.toText) := by
      rw [Engine.order?, if_pos rfl, Text.Utf8.compare_encode]
    have hcompare : engine.compare (.order comparison) true (.text text) (.text id.toText) =
        .truth (comparison.admits (compare text id.toText)) := by
      rw [Engine.compare, horder]
      rfl
    exact congrArg (Outcome.coalesce · _) hcompare

/-- On a row that holds a document, the condition of a test for identifiers comes to what the test for their texts
does. -/
theorem eval_condition_on {d : Document} (hd : d.get? path = some field) (test : IdTest) :
    (condition (test.on path)).eval engine row = .truth ((test.textOn path).accepts d) := by
  have hequality (id : Uuid) := eval_equality_id he hfield htexts hpath id
  cases test with
  | eq id =>
    simp only [IdTest.on, IdTest.textOn, IdTest.predicate, condition, Predicate.accepts, hd, hequality]
  | ne id =>
    simp only [IdTest.on, IdTest.textOn, IdTest.predicate, condition, Predicate.accepts, hd, Expr.eval, hequality]
    rfl
  | oneOf ids =>
    have hany := eval_any (fun id (_ : id ∈ ids) => hequality id)
    have hmembership : membership path (ids.map .id) = .any (ids.map fun id => equality path (.id id)) := by
      rw [membership_of_ne hpath, List.map_map]
      rfl
    simp only [IdTest.on, IdTest.textOn, IdTest.predicate, condition, Predicate.accepts, hd, hmembership, hany,
      List.any_map, Function.comp_def]
  | order comparison id =>
    rw [IdTest.on, IdTest.textOn, IdTest.predicate, IdTest.predicate, condition, Predicate.accepts_order_text, hd]
    exact eval_comparison_id he hfield htexts hpath comparison id

end

/-! ## What is sent -/

/-- The condition that a text is, with the values of its placeholders. -/
def readCondition (text : String) (binds : List Bind) : Option Expr :=
  (scan text binds).bind fun tokens => (parse 0 tokens).bind fun (e, rest) => if rest.isEmpty then some e else none

/-- What a predicate comes to at a row, sent as the text of a condition with its values; nothing if the text is no
condition. -/
def outcome? (engine : Engine) (row : Row) (p : Predicate) : Option Outcome :=
  (readCondition (Statement.mk (condition p).pieces).text (Statement.mk (condition p).pieces).binds).map
    (Expr.eval engine row)

/-- The text of a condition is read as the condition. -/
theorem outcome?_eq (engine : Engine) (row : Row) (p : Predicate) :
    outcome? engine row p = some ((condition p).eval engine row) := by
  have htokens : (Statement.mk (condition p).pieces).pieces.flatMap Piece.tokens = (condition p).tokens ++ [] :=
    (List.append_nil _).symm
  have hreadable : (condition p).IsReadable 0 := (isTerm_condition p).readable.mono (Nat.zero_le _)
  have hread : readCondition (Statement.mk (condition p).pieces).text (Statement.mk (condition p).pieces).binds =
      some (condition p) := by
    rw [readCondition, scan_text (condition p).wellSpaced, htokens, Option.bind_some, parse_tokens hreadable rfl]
    rfl
  rw [outcome?, hread, Option.map_some]

/-- Every test of a field of a document against identifiers, of any field but the identifier, that is a text or an array
of texts, sent to a database of which what is documented is true, at a row that holds the document:

1. it is true or false, as the canonical texts of the identifiers are looked for among the texts and compared with them;
2. it is true exactly where the predicate accepts the document, if and only if the texts of the field let it;
3. they do so where each of them that spells an identifier spells it canonically, and for a test of order a text alone
   spells one.

This needs that the database follows names along the path, which it does by itself where no segment is the position of
an element. -/
theorem id_tests_compare_texts {engine : Engine} (he : engine.IsDocumented) {d : Document} {row : Row}
    (hrow : row.body = d.toJson) {path : Path} (hpath : path ≠ .id)
    (hnames : path.isNamed = true ∨ engine.extract path.segments d.toJson = d.get? path)
    {field : Json} (hfield : d.get? path = some field) {texts : List String} (htexts : field.HasTexts texts)
    (test : IdTest) :
    outcome? engine row (test.on path) = some (.truth ((test.textOn path).accepts d)) ∧
    ((outcome? engine row (test.on path) = some (.truth true) ↔ (test.on path).accepts d = true) ↔
      test.Agrees field texts) ∧
    ((∀ text ∈ texts, (Json.string text).isCanonical = true) →
      (test.isOrder = true → ∀ text, field = .string text → (Uuid.ofText? text).isSome = true) →
      (outcome? engine row (test.on path) = some (.truth true) ↔ (test.on path).accepts d = true)) := by
  have hextract : engine.extract path.segments row.body = some field := by rw [hrow, extract_eq_get? he hnames, hfield]
  have houtcome : outcome? engine row (test.on path) = some (.truth ((test.textOn path).accepts d)) := by
    rw [outcome?_eq, eval_condition_on he hextract htexts hpath hfield]
  have htrue : outcome? engine row (test.on path) = some (.truth true) ↔ (test.textOn path).accepts d = true := by
    rw [houtcome]
    simp [Outcome.truth]
  have hagrees : (outcome? engine row (test.on path) = some (.truth true) ↔ (test.on path).accepts d = true) ↔
      test.Agrees field texts := by
    rw [htrue, ← Bool.eq_iff_iff, IdTest.accepts_textOn_iff hfield htexts]
  exact ⟨houtcome, hagrees, fun hcanonical horder => hagrees.2 (IdTest.agrees_of_canonical htexts hcanonical horder)⟩

end Sql

namespace Sample

/-- A document whose owner is spelled as a text. -/
def ownedBy (text : String) : Document := ⟨[("_id", .string (uuid 1).toText), ("user", .string text)]⟩

/-- The row of the document. -/
def ownedRow (text : String) : Sql.Row := ⟨"creations", uuid 1, (ownedBy text).toJson⟩

/-- An identifier in upper case. -/
def upperCase : String := "00000000-0000-0000-0000-00000000000A"

end Sample

namespace Sql

/-- The theorem at an owner that is spelled canonically and lies behind another identifier. -/
theorem id_tests_compare_texts_sample :
    outcome? .reference (Sample.ownedRow (Sample.uuid 10).toText)
      ((IdTest.order .gt (Sample.uuid 9)).on (.field "user")) =
      some (.truth true) := by
  have hcanonical : ∀ text ∈ [(Sample.uuid 10).toText], (Json.string text).isCanonical = true := by decide
  have hspelled : ∀ text, Json.string (Sample.uuid 10).toText = .string text → (Uuid.ofText? text).isSome = true := by
    intro text htext
    rw [← Json.string.inj htext, Uuid.ofText?_toText]
    rfl
  have hbody : (Sample.ownedRow (Sample.uuid 10).toText).body = (Sample.ownedBy (Sample.uuid 10).toText).toJson := rfl
  have hpath : Path.field "user" ≠ .id := by decide
  obtain ⟨-, -, hagree⟩ := id_tests_compare_texts isDocumented_reference hbody hpath (.inl (by decide)) rfl (.one _)
    (.order .gt (Sample.uuid 9))
  exact (hagree hcanonical fun _ => hspelled).2 (by decide)

/-- An owner in upper case is accepted as the identifier that it spells, and is not found by it; an owner that is no
identifier lies behind none, and is found behind one. -/
theorem id_tests_disagree : Engine.reference.IsDocumented ∧
    (outcome? .reference (Sample.ownedRow Sample.upperCase) ((IdTest.eq (Sample.uuid 10)).on (.field "user")) =
      some (.truth false) ∧
      ((IdTest.eq (Sample.uuid 10)).on (.field "user")).accepts (Sample.ownedBy Sample.upperCase) = true) ∧
    (outcome? .reference (Sample.ownedRow "zzz") ((IdTest.order .gt (Sample.uuid 10)).on (.field "user")) =
      some (.truth true) ∧
      ((IdTest.order .gt (Sample.uuid 10)).on (.field "user")).accepts (Sample.ownedBy "zzz") = false) := by
  have hpath : Path.field "user" ≠ .id := by decide
  have houtcome (text : String) (test : IdTest) : outcome? .reference (Sample.ownedRow text) (test.on (.field "user")) =
      some (.truth ((test.textOn (.field "user")).accepts (Sample.ownedBy text))) := by
    rw [outcome?_eq, eval_condition_on (d := Sample.ownedBy text) isDocumented_reference rfl (.one text) hpath rfl]
  rw [houtcome, houtcome]
  refine ⟨isDocumented_reference, ⟨?_, by decide⟩, ?_, by decide⟩
  · exact congrArg (fun flag => some (Outcome.truth flag)) (by decide)
  · exact congrArg (fun flag => some (Outcome.truth flag)) (by decide)

end Sql

end FeedQuery
