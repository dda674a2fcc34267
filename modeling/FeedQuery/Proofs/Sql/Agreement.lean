import FeedQuery.Proofs.Cursor
import FeedQuery.Proofs.Predicate
import FeedQuery.Proofs.Sql.Evaluation

/-!
# Conditions mean what predicates mean

On a row that holds a document, the condition of a predicate is true where the predicate accepts the document and false
where it does not, never null and never a failure (`eval_condition`); and the values that rows are ordered by put two
rows into the order of their documents (`compareRows?_eq`). This needs documents whose identifiers are spelled
canonically and whose integers are doubles, since the database compares the first as texts and the second as decimals
(`Json.isKept`), and scalars that are no timestamps (`Predicate.isKept`).
-/

namespace FeedQuery

/-! ## Documents that a database compares as they are compared here -/

namespace Json

mutual

/-- Whether something holds of a value and of every value in it. -/
def every (p : Json → Bool) : Json → Bool
  | .array items => p (.array items) && everyItem p items
  | .object fields => p (.object fields) && everyField p fields
  | value => p value

/-- Whether something holds of every element and of every value in it. -/
def everyItem (p : Json → Bool) : List Json → Bool
  | [] => true
  | item :: rest => item.every p && everyItem p rest

/-- Whether something holds of the value of every field and of every value in it. -/
def everyField (p : Json → Bool) : List (String × Json) → Bool
  | [] => true
  | (_, value) :: rest => value.every p && everyField p rest

end

variable {p : Json → Bool}

theorem every_self {value : Json} (h : value.every p = true) : p value = true := by
  cases value <;> simp_all [every]

theorem every_of_mem_items {items : List Json} (h : everyItem p items = true) {item : Json} (hitem : item ∈ items) :
    item.every p = true := by
  induction items with
  | nil => exact absurd hitem List.not_mem_nil
  | cons first rest ih =>
    obtain ⟨hfirst, hrest⟩ := Bool.and_eq_true_iff.1 h
    rcases List.mem_cons.1 hitem with rfl | hmem
    · exact hfirst
    · exact ih hrest hmem

theorem every_of_get? {fields : Fields Json} (h : everyField p fields = true) {name : String} {value : Json}
    (hget : Fields.get? name fields = some value) : value.every p = true := by
  induction fields with
  | nil => cases hget
  | cons field rest ih =>
    obtain ⟨hfirst, hrest⟩ := Bool.and_eq_true_iff.1 h
    rw [Fields.get?] at hget
    split at hget
    · exact Option.some.inj hget ▸ hfirst
    · exact ih hrest hget

/-- What holds of everything in a value holds of its elements. -/
theorem of_mem_members {value member : Json} (h : value.every p = true) (hmem : member ∈ value.members) :
    p member = true := by
  cases value with
  | array items => exact every_self (every_of_mem_items (Bool.and_eq_true_iff.1 h).2 hmem)
  | _ => exact List.mem_singleton.1 hmem ▸ every_self h

/-- What holds of everything in a value holds of everything at the end of a path. -/
theorem every_follow {names : List String} {value inner : Json} (h : value.every p = true)
    (hfollow : Path.follow names value = some inner) :
    inner.every p = true := by
  induction names generalizing value with
  | nil => exact Option.some.inj hfollow ▸ h
  | cons name rest ih =>
    obtain ⟨next, hnext, hrest⟩ := Option.bind_eq_some_iff.1 hfollow
    obtain ⟨fields, hfields, hget⟩ := Option.bind_eq_some_iff.1 hnext
    cases value with
    | object fields =>
      obtain rfl := Option.some.inj hfields
      exact ih (every_of_get? (Bool.and_eq_true_iff.1 h).2 hget) hrest
    | _ => cases hfields

/-- Whether a value is of a type. -/
def hasType : Sql.JsonType → Json → Bool
  | .null, .null | .boolean, .bool _ | .number, .number _ | .string, .string _ | .array, .array _ => true
  | _, _ => false

theorem typeName_eq (type : Sql.JsonType) (value : Json) : (value.typeName == type.name) = value.hasType type := by
  cases type <;> cases value <;> rfl

/-- Whether a value is an array with an element. -/
def isNonempty : Json → Bool
  | .array (_ :: _) => true
  | _ => false

/-- Whether a text that spells an identifier spells it canonically. -/
def isCanonical : Json → Bool
  | .string text => match Uuid.ofText? text with
    | some id => id.toText == text
    | none => true
  | _ => true

/-- Whether a database compares a value as it is compared here: an identifier is spelled canonically, and a number is a
double. -/
def isKept (value : Json) : Bool := value.isExact && value.isCanonical

theorem id?_string (text : String) : (Json.string text).id? = Uuid.ofText? text := rfl

theorem isCanonical_string {text : String} (h : isCanonical (.string text) = true) {id : Uuid}
    (hid : Uuid.ofText? text = some id) :
    id.toText = text := by
  simpa [isCanonical, hid] using h

end Json

/-- What a document holds at a path is in the document. -/
theorem Document.every_get? {p : Json → Bool} {d : Document} (h : d.toJson.every p = true) {path : Path} {value : Json}
    (hget : d.get? path = some value) : value.every p = true := by
  obtain ⟨first, hfirst, hfollow⟩ := Option.bind_eq_some_iff.1 hget
  exact Json.every_follow (Json.every_of_get? (Bool.and_eq_true_iff.1 h).2 hfirst) hfollow

namespace Scalar

/-- Whether a database compares a scalar as it is compared here: a timestamp is cut off, and what is no finite number
has no JSON. -/
def isKept : Scalar → Bool
  | .number value => value.isFinite
  | .datetime _ => false
  | _ => true

theorem toJson_number {value : Double} (h : value.isFinite = true) :
    (Scalar.number value).toJson = .number (.decimal value h) := by
  simp [toJson, Json.ofDouble, Number.ofDouble?, h]

/-- A scalar is kept as a scalar, and a number as a double. -/
theorem toJson_of_isKept {s : Scalar} (h : s.isKept = true) : s.toJson.isScalar = true ∧ s.toJson.isExact = true := by
  cases s with
  | number value => rw [toJson_number h]; exact ⟨rfl, rfl⟩
  | datetime value => cases h
  | _ => exact ⟨rfl, rfl⟩

/-- A scalar that is not null is held by a field that is it or that is an array with it. -/
theorem holdsAt_eq_any {s : Scalar} (h : s ≠ .null) (value : Json) :
    s.holdsAt (some value) = value.members.any fun member => s.orderOf member == some .eq := by
  cases value with
  | array items => exact holdsAt_array h items
  | _ =>
    rw [holdsAt_single h (by rintro _ ⟨⟩)]
    exact (Bool.or_false _).symm

/-- A field that spells an identifier holds that identifier alone. -/
theorem holdsAt_of_id? {id other : Uuid} {value : Json} (h : value.id? = some other) :
    (Scalar.id id).holdsAt (some value) = (other == id) := by
  cases value with
  | string text =>
    rw [Bool.eq_iff_iff, beq_iff_eq]
    exact orderOf_id_eq.trans (by rw [h, Option.some.injEq])
  | _ => cases h

end Scalar

/-- Whether a database orders fields of a kind as they are ordered here: no timestamps, and identifiers where those of
documents are. -/
def ValueKind.isKeptAt (path : Path) : ValueKind → Bool
  | .id => path == .id
  | .datetime => false
  | _ => true

namespace Predicate

mutual

/-- Whether a database compares fields with the scalars of a predicate as they are compared here. Identifiers have an
order where those of documents are, and elsewhere they are only looked for. -/
def isKept : Predicate → Bool
  | .always | .never | .notEmpty _ => true
  | .and terms | .or terms => areKept terms
  | .not term => term.isKept
  | .eq _ value | .ne _ value => value.isKept
  | .oneOf _ values => values.all Scalar.isKept
  | .order path _ value => value.isKept && (value.kind? != some .id || path == .id)

/-- Whether a database compares fields with the scalars of all terms as they are compared here. -/
def areKept : List Predicate → Bool
  | [] => true
  | term :: rest => term.isKept && areKept rest

end

mutual

/-- The paths of the fields that a predicate looks at. -/
def paths : Predicate → List Path
  | .always | .never => []
  | .and terms | .or terms => pathsOf terms
  | .not term => term.paths
  | .eq path _ | .ne path _ | .oneOf path _ | .order path _ _ | .notEmpty path => [path]

/-- The paths of the fields that the terms look at. -/
def pathsOf : List Predicate → List Path
  | [] => []
  | term :: rest => term.paths ++ pathsOf rest

end

end Predicate

/-- A value is the JSON of a scalar exactly when it is equal to the scalar. -/
theorem Json.isSame_toJson {s : Scalar} (hs : s.isKept = true) (hnull : s ≠ .null) {value : Json}
    (hvalue : value.isKept = true) :
    s.toJson.isSame value = (s.orderOf value == some .eq) := by
  obtain ⟨hexact, hcanonical⟩ := Bool.and_eq_true_iff.1 hvalue
  cases s with
  | id id =>
    cases value with
    | string text =>
      have hsame : (Scalar.id id).toJson.isSame (.string text) = (id.toText == text) := rfl
      rw [hsame, Bool.eq_iff_iff, beq_iff_eq, Scalar.orderOf_id_eq, Json.id?_string]
      constructor
      · rintro rfl
        rw [Uuid.ofText?_toText]
      · exact fun hread => Json.isCanonical_string hcanonical hread
    | _ => rfl
  | text text =>
    cases value with
    | string other =>
      have hsame : (Scalar.text text).toJson.isSame (.string other) = (text == other) := rfl
      rw [hsame, Scalar.orderOf_text_eq]
    | _ => rfl
  | number x =>
    rw [Scalar.toJson_number hs]
    cases value with
    | number n =>
      have hsame : (Json.number (.decimal x hs)).isSame (.number n) = (Number.quanta (.decimal x hs) == n.quanta) := rfl
      have horder : (Scalar.number x).orderOf (.number n) = n.toDouble.compare? x := rfl
      have heq : Number.quanta (.decimal x hs) = n.quanta ↔ x.key? = n.toDouble.key? := Number.quanta_eq_iff rfl hexact
      rw [horder, hsame, Bool.eq_iff_iff, beq_iff_eq, beq_iff_eq, heq, Double.compare?, Double.key?_of_isFinite hs,
        Double.key?_of_isFinite n.toDouble_isFinite]
      simp only [Option.some.injEq, Std.compare_eq_iff_eq]
      exact eq_comm
    | _ => rfl
  | bool flag =>
    cases value with
    | bool other => cases flag <;> cases other <;> rfl
    | _ => rfl
  | datetime instant => cases hs
  | null => exact absurd rfl hnull

namespace Sql

/-! ## Values of fields -/

/-- A value of the database is what a scalar is kept as. -/
inductive Represents : Scalar → Bind → Prop where
  | id (id : Uuid) : Represents (.id id) (.uuid id)
  | text (text : String) : Represents (.text text) (.text text)
  | number {value kept : Double} {place : Int} (hvalue : value.key? = some place) (hkept : kept.key? = some place) :
    Represents (.number value) (.double kept)
  | bool (flag : Bool) : Represents (.bool flag) (.bool flag)

/-- An expression comes to the value of a scalar, or to null where there is no scalar. -/
inductive Shows : Option Scalar → Outcome → Prop where
  | null : Shows none .null
  | value {s : Scalar} {v : Bind} : Represents s v → Shows (some s) (.value v)

/-- Values of scalars of one kind have the order of the scalars, if texts are compared byte by byte. -/
theorem exists_order (engine : Engine) {s t : Scalar} {v w : Bind} (hs : Represents s v) (ht : Represents t w)
    (hkind : s.kind? = t.kind?) {bytewise : Bool} (hbytes : s.kind? = some .text → bytewise = true) :
    ∃ o, engine.order? bytewise v w = some o ∧ s.compare? t = some o := by
  cases hs with
  | id id =>
    cases ht with
    | id other => exact ⟨_, rfl, rfl⟩
    | _ => cases hkind
  | text text =>
    cases ht with
    | text other =>
      refine ⟨compare text other, ?_, rfl⟩
      rw [hbytes rfl, Engine.order?, if_pos rfl, Text.Utf8.compare_encode]
    | _ => cases hkind
  | number hvalue hkept =>
    cases ht with
    | number hvalue' hkept' =>
      refine ⟨_, rfl, ?_⟩
      simp only [orderDoubles, Scalar.compare?, Double.compare?, hvalue, hkept, hvalue', hkept']
    | _ => cases hkind
  | bool flag =>
    cases ht with
    | bool other => exact ⟨_, rfl, rfl⟩
    | _ => cases hkind

/-- A text that is compared byte by byte is the text. -/
theorem shows_bytewise {engine : Engine} {row : Row} {field : Option Json} {inner : Expr}
    (h : Shows (field.bind ValueKind.text.decode) (inner.eval engine row)) :
    Shows (field.bind ValueKind.text.decode) ((Expr.bytewise (.parens inner)).eval engine row) := by
  rw [Expr.eval, Expr.eval]
  generalize inner.eval engine row = outcome at h
  generalize hread : field.bind ValueKind.text.decode = read at h
  cases h with
  | null => exact .null
  | value hv =>
    obtain ⟨found, -, hdecode⟩ := Option.bind_eq_some_iff.1 hread
    obtain ⟨text, -, rfl⟩ := Option.map_eq_some_iff.1 hdecode
    cases hv
    exact .value (.text text)

section

variable {engine : Engine} {row : Row} {path : Path} {field : Option Json}
  (hfield : engine.extract path.segments row.body = field)
include hfield

theorem eval_textAt : (Expr.textAt path).eval engine row = .ofOption ((field.bind engine.textOf).map .text) := by
  rw [Expr.eval, hfield]

/-- The text of a field is cast to what it is read as. -/
theorem eval_castText {type : CastType} {text : String} {v : Bind} (htext : field.bind engine.textOf = some text)
    (hcast : engine.cast type (.text text) = .value v) :
    (Expr.cast (.parens (.textAt path)) type).eval engine row = .value v := by
  rw [Expr.eval, Expr.eval, eval_textAt hfield, htext]
  exact hcast

/-- A missing field contains nothing. -/
theorem eval_contained (part : Json) :
    (Expr.coalesce (.contains (.parens (.jsonAt path)) (.bind (.json part))) (.truth false)).eval engine row =
      .truth (field.any (engine.contains · part)) := by
  simp only [Expr.eval, hfield]
  cases field <;> rfl

variable (he : engine.IsDocumented)
include he

/-- The type of a field; a missing field has none. -/
theorem eval_isType (type : JsonType) :
    (Expr.compare .equal (.typeOf (.jsonAt path)) (.typeName type)).eval engine row =
    .ofOption (field.map fun value => .bool (value.hasType type)) := by
  simp only [Expr.eval, hfield]
  cases field with
  | none => rfl
  | some value =>
    have hcollate : (engine.collate value.typeName type.name == .eq) = value.hasType type := by
      rw [← Json.typeName_eq, Bool.eq_iff_iff, beq_iff_eq, beq_iff_eq, he.collate_eq]
    exact congrArg Outcome.truth hcollate

/-- What is made of a field of a type is null for a field that is missing or of another type. -/
theorem eval_caseType (type : JsonType) (value : Expr) :
    (Expr.caseWhen (.compare .equal (.typeOf (.jsonAt path)) (.typeName type)) value).eval engine row =
      if field.any (Json.hasType type) then value.eval engine row else .null := by
  rw [Expr.eval, eval_isType hfield he]
  cases field with
  | none => rfl
  | some found => cases h : found.hasType type <;> simp [h, Outcome.ofOption, Outcome.caseWhen]

/-- A field is an array with an element where the condition says so. -/
theorem eval_nonempty : (nonempty path).eval engine row = .truth (field.any Json.isNonempty) := by
  rw [nonempty, Expr.eval, Expr.eval, Expr.eval, eval_isType hfield he]
  simp only [Expr.eval, hfield]
  cases field with
  | none => rfl
  | some found =>
    cases found with
    | array items => cases items <;> rfl
    | _ => rfl

end

/-- What is known of a field of a row: the database finds it at its path, it is compared there as it is here, and the
identifier of a document is that of its row. -/
structure Reads (engine : Engine) (row : Row) (path : Path) (field : Option Json) : Prop where
  extract : engine.extract path.segments row.body = field
  kept : ∀ value, field = some value → value.every Json.isKept = true
  id : path = .id → field.bind Json.id? = some row.id

section

variable {engine : Engine} {row : Row} {path : Path} {field : Option Json} (hf : Reads engine row path field)
  (he : engine.IsDocumented)
include hf he

/-- A field as a value of a kind is null where it is missing or of another type. -/
theorem shows_typedField {kind : ValueKind} (hkind : kind.isKeptAt path = true) :
    Shows (field.bind kind.decode) ((typedField path kind).eval engine row) := by
  -- the text of a field is looked at when the field is of the type of the kind
  have hcase (type : JsonType) (decode : Json → Option Scalar) {value : Expr}
      (hread : ∀ found, field = some found → found.hasType type = true → Shows (decode found) (value.eval engine row))
      (hother : ∀ found, found.hasType type = false → decode found = none) :
      Shows (field.bind decode)
        ((Expr.caseWhen (.compare .equal (.typeOf (.jsonAt path)) (.typeName type)) value).eval engine row) := by
    rw [eval_caseType hf.extract he]
    cases hfield : field with
    | none => exact .null
    | some found =>
      rw [Option.bind_some, Option.any_some]
      cases h : found.hasType type with
      | true => exact hread found hfield h
      | false => exact hother found h ▸ .null
  have htext {found : Json} {text : String} (hfield : field = some found) (h : engine.textOf found = some text) :
      (Expr.textAt path).eval engine row = .value (.text text) := by
    rw [eval_textAt hf.extract, hfield, Option.bind_some, h]
    rfl
  cases kind with
  | id =>
    obtain rfl : path = .id := beq_iff_eq.1 hkind
    have hread : field.bind ValueKind.id.decode = some (.id row.id) := by
      obtain ⟨value, hvalue, hid⟩ := Option.bind_eq_some_iff.1 (hf.id rfl)
      rw [hvalue, Option.bind_some]
      exact congrArg (Option.map Scalar.id) hid
    rw [hread]
    exact .value (.id row.id)
  | text =>
    suffices h : Shows (field.bind ValueKind.text.decode) ((Expr.caseWhen
        (.compare .equal (.typeOf (.jsonAt path)) (.typeName .string)) (.textAt path)).eval engine
          row) from shows_bytewise h
    refine hcase .string ValueKind.text.decode ?_ ?_
    · intro found hfield htype
      cases found with
      | string text => exact htext hfield (he.textOf_string text) ▸ .value (.text text)
      | _ => cases htype
    · intro found htype
      cases found with
      | string text => cases htype
      | _ => rfl
  | number =>
    refine hcase .number ValueKind.number.decode ?_ ?_
    · intro found hfield htype
      cases found with
      | number n =>
        obtain ⟨text, value, htextOf, hdouble, hkey⟩ := he.textOf_number n
        have hplace := Double.key?_of_isFinite n.toDouble_isFinite
        have heval : (Expr.cast (.parens (.textAt path)) .double).eval engine row = .value (.double value) :=
          eval_castText hf.extract (by rw [hfield, Option.bind_some, htextOf]) (by rw [Engine.cast, hdouble])
        exact heval ▸ .value (.number hplace (hkey.trans hplace))
      | _ => cases htype
    · intro found htype
      cases found with
      | number n => cases htype
      | _ => rfl
  | bool =>
    refine hcase .boolean ValueKind.bool.decode ?_ ?_
    · intro found hfield htype
      cases found with
      | bool flag =>
        obtain ⟨text, htextOf, hboolean⟩ := he.textOf_bool flag
        have heval : (Expr.cast (.parens (.textAt path)) .boolean).eval engine row = .value (.bool flag) :=
          eval_castText hf.extract (by rw [hfield, Option.bind_some, htextOf]) (by rw [Engine.cast, hboolean]; rfl)
        exact heval ▸ .value (.bool flag)
      | _ => cases htype
    · intro found htype
      cases found with
      | bool flag => cases htype
      | _ => rfl
  | datetime => cases hkind

/-! ## Conditions -/

/-- A comparison holds where the field can be read as the kind of the scalar and lies as asked. -/
theorem eval_comparison {value : Scalar} (hvalue : value.isKept = true) (hid : value.kind? = some .id → path = .id)
    (operator : Operator) :
    (comparison operator path value).eval engine row =
      .truth (((field.bind value.orderOf).map operator.admits).getD false) := by
  have hagainst (kind : ValueKind) {right : Expr} {v : Bind} (hkind : value.kind? = some kind)
      (hkept : kind.isKeptAt path = true)
      (hright : right.eval engine row = .value v) (hv : Represents value v)
      (hbytes : kind = .text → ((typedField path kind).isBytewise || right.isBytewise) = true) :
      (Expr.coalesce (.compare operator (typedField path kind) right) (.truth false)).eval engine row =
        .truth (((field.bind value.orderOf).map operator.admits).getD false) := by
    have horder : field.bind value.orderOf = (field.bind kind.decode).bind fun stored => stored.compare? value := by
      cases field with
      | none => rfl
      | some found => simp only [Option.bind_some, Scalar.orderOf, hkind]
    have hshows := shows_typedField hf he hkept
    simp only [horder, Expr.eval, hright]
    generalize (typedField path kind).eval engine row = outcome at hshows
    generalize hread : field.bind kind.decode = read at hshows
    cases hshows with
    | null => rfl
    | value hs =>
      obtain ⟨found, -, hdecode⟩ := Option.bind_eq_some_iff.1 hread
      have hsame := ValueKind.kind?_of_decode hdecode
      obtain ⟨o, ho, hcompare⟩ := exists_order engine hs hv (hsame.trans hkind.symm) fun h =>
        hbytes (Option.some.inj (hsame.symm.trans h))
      rw [Outcome.map₂, Engine.compare, ho, Option.bind_some, hcompare]
      rfl
  cases value with
  | id id =>
    obtain rfl := hid rfl
    exact hagainst .id (v := .uuid id) rfl rfl rfl (.id id) fun h => by cases h
  | text text => exact hagainst .text (v := .text text) rfl rfl rfl (.text text) fun _ => rfl
  | number x =>
    have hplace := Double.key?_of_isFinite hvalue
    exact hagainst .number (v := .double x) rfl rfl rfl (.number hplace hplace) fun h => by cases h
  | bool flag => exact hagainst .bool (v := .bool flag) rfl rfl rfl (.bool flag) fun h => by cases h
  | datetime instant => cases hvalue
  | null => cases field <;> rfl

/-- A field contains a scalar that is not null where it holds the scalar. -/
theorem eval_contains {value : Scalar} (hvalue : value.isKept = true) (hnull : value ≠ .null) :
    (Expr.coalesce (.contains (.parens (.jsonAt path)) (.bind (.json value.toJson))) (.truth false)).eval engine row =
      .truth (value.holdsAt field) := by
  rw [eval_contained hf.extract]
  cases hfield : field with
  | none => cases value <;> first | rfl | exact absurd rfl hnull
  | some found =>
    obtain ⟨hscalar, hexact⟩ := Scalar.toJson_of_isKept hvalue
    have hmembers : ∀ member ∈ found.members, member.isKept = true :=
      fun _ => Json.of_mem_members (hf.kept found hfield)
    have hcontains : engine.contains found value.toJson = value.holdsAt (some found) := by
      rw [he.contains_eq found value.toJson (fun member hm => (Bool.and_eq_true_iff.1 (hmembers member hm)).1)
        hexact hscalar,
        Scalar.holdsAt_eq_any hnull]
      rw [Bool.eq_iff_iff, List.any_eq_true, List.any_eq_true]
      exact exists_congr fun member => and_congr_right fun hm => by
        rw [Json.isSame_toJson hvalue hnull (hmembers member hm)]
    exact congrArg Outcome.truth hcontains

/-- A condition of equality holds where the field holds the scalar. -/
theorem eval_equality {value : Scalar} (hvalue : value.isKept = true) :
    (equality path value).eval engine row = .truth (value.holdsAt field) := by
  cases value with
  | id id =>
    simp only [equality]
    split
    · next hpath =>
      obtain ⟨found, hfound, hid⟩ := Option.bind_eq_some_iff.1 (hf.id hpath)
      have hcolumn : (compare row.id id == .eq) = (row.id == id) := by
        rw [Bool.eq_iff_iff, beq_iff_eq, beq_iff_eq, Uuid.compare_eq_eq]
      rw [hfound, Scalar.holdsAt_of_id? hid]
      exact congrArg Outcome.truth hcolumn
    · exact eval_contains hf he hvalue nofun
  | text text => exact eval_contains hf he hvalue nofun
  | number x => exact eval_contains hf he hvalue nofun
  | bool flag => exact eval_contains hf he hvalue nofun
  | datetime instant => cases hvalue
  | null =>
    have htype := eval_isType hf.extract he .null
    rw [equality, Expr.eval, htype]
    cases field with
    | none => rfl
    | some found => cases found <;> rfl

end

section

variable {engine : Engine} {row : Row} {α : Type} {expr : α → Expr} {flag : α → Bool}

/-- Terms that are joined come to what their truth values come to. -/
theorem eval_foldl {join : Expr → Expr → Expr} (op : Bool → Bool → Bool) (fold : List α → Bool)
    (hjoin : ∀ left right a b, left.eval engine row = .truth a → right.eval engine row = .truth b →
      (join left right).eval engine row = .truth (op a b))
    (hnil : ∀ a, op a (fold []) = a) (hcons : ∀ a x xs, op (op a (flag x)) (fold xs) = op a (fold (x :: xs)))
    {xs : List α} (hxs : ∀ x ∈ xs, (expr x).eval engine row = .truth (flag x)) {first : Expr} {a : Bool}
    (hfirst : first.eval engine row = .truth a) :
    ((xs.map expr).foldl join first).eval engine row = .truth (op a (fold xs)) := by
  induction xs generalizing first a with
  | nil => rw [hnil]; exact hfirst
  | cons x rest ih =>
    obtain ⟨hx, hrest⟩ := List.forall_mem_cons.1 hxs
    rw [← hcons]
    exact ih hrest (hjoin first (expr x) a (flag x) hfirst hx)

theorem eval_all {xs : List α} (hxs : ∀ x ∈ xs, (expr x).eval engine row = .truth (flag x)) :
    (Expr.all (xs.map expr)).eval engine row = .truth (xs.all flag) := by
  cases xs with
  | nil => rfl
  | cons x rest =>
    obtain ⟨hx, hrest⟩ := List.forall_mem_cons.1 hxs
    refine eval_foldl (· && ·) (fun xs => xs.all flag) ?_ (by simp) (by simp [Bool.and_assoc]) hrest hx
    intro left right a b hleft hright
    rw [Expr.eval, hleft, hright]
    cases a <;> rfl

theorem eval_any {xs : List α} (hxs : ∀ x ∈ xs, (expr x).eval engine row = .truth (flag x)) :
    (Expr.any (xs.map expr)).eval engine row = .truth (xs.any flag) := by
  cases xs with
  | nil => rfl
  | cons x rest =>
    obtain ⟨hx, hrest⟩ := List.forall_mem_cons.1 hxs
    refine eval_foldl (· || ·) (fun xs => xs.any flag) ?_ (by simp) (by simp [Bool.or_assoc]) hrest hx
    intro left right a b hleft hright
    rw [Expr.eval, hleft, hright]
    cases a <;> rfl

end

theorem eq_map_of_mapM {values : List Scalar} {ids : List Uuid} (h : values.mapM Scalar.id? = some ids) :
    values = ids.map .id := by
  induction values generalizing ids with
  | nil => simpa using h.symm
  | cons value rest ih =>
    simp only [List.mapM_cons, Option.bind_eq_bind, Option.bind_eq_some_iff] at h
    obtain ⟨id, hid, others, hothers, heq⟩ := h
    obtain rfl := Option.some.inj heq
    rw [List.map_cons, ← ih hothers]
    cases value with
    | id other => rw [Option.some.inj hid]
    | _ => cases hid

/-- A condition of membership holds where the field holds one of the scalars. -/
theorem eval_membership {engine : Engine} (he : engine.IsDocumented) {row : Row} {path : Path} {field : Option Json}
    (hf : Reads engine row path field) {values : List Scalar} (hvalues : ∀ value ∈ values, value.isKept = true) :
    (membership path values).eval engine row = .truth (values.any fun value => value.holdsAt field) := by
  have hany : (Expr.any (values.map (equality path))).eval engine row =
      .truth (values.any fun value => value.holdsAt field) :=
    eval_any fun value hvalue => eval_equality hf he (hvalues value hvalue)
  unfold membership
  cases hids : values.mapM Scalar.id? with
  | none => exact hany
  | some ids =>
    dsimp only
    split
    · next h =>
      obtain ⟨found, hfound, hid⟩ := Option.bind_eq_some_iff.1 (hf.id h.1)
      have hcontains : ids.contains row.id = values.any fun value => value.holdsAt field := by
        simp only [eq_map_of_mapM hids, hfound, List.any_map, List.contains_eq_any_beq, Function.comp_def,
          Scalar.holdsAt_of_id? hid]
      exact congrArg Outcome.truth hcontains
    · exact hany

/-- A row is of a collection whose name it has. -/
theorem eval_collection {engine : Engine} (he : engine.IsDocumented) (row : Row) (c : Collection) :
    (Expr.compare .equal (.column .collection) (.bind (.text c.name))).eval engine row =
      .truth (row.collection == c.name) := by
  have hcollate : (engine.collate row.collection c.name == .eq) = (row.collection == c.name) := by
    rw [Bool.eq_iff_iff, beq_iff_eq, beq_iff_eq, he.collate_eq]
  exact congrArg Outcome.truth hcollate

mutual

/-- On a row that holds a document, the condition of a predicate is true or false as the predicate accepts the document
or not. -/
theorem eval_condition {engine : Engine} (he : engine.IsDocumented) {row : Row} {d : Document} :
    ∀ p : Predicate, p.isKept = true →
    (∀ path ∈ p.paths, Reads engine row path (d.get? path)) → (condition p).eval engine row = .truth (p.accepts d)
  | .always, _, _ => rfl
  | .never, _, _ => rfl
  | .and terms, hkept, hreads => by
    rw [condition, conditions_eq, Predicate.accepts, Predicate.acceptsAll_eq]
    exact eval_all (eval_conditions he terms hkept hreads)
  | .or terms, hkept, hreads => by
    rw [condition, conditions_eq, Predicate.accepts, Predicate.acceptsAny_eq]
    exact eval_any (eval_conditions he terms hkept hreads)
  | .not term, hkept, hreads => by
    rw [condition, Expr.eval, Expr.eval, eval_condition he term hkept hreads]
    rfl
  | .eq path value, hkept, hreads => eval_equality (hreads path (List.mem_singleton_self _)) he hkept
  | .ne path value, hkept, hreads => by
    rw [condition, Expr.eval, Expr.eval, eval_equality (hreads path (List.mem_singleton_self _)) he hkept]
    rfl
  | .oneOf path values, hkept, hreads =>
    eval_membership he (hreads path (List.mem_singleton_self _)) (List.all_eq_true.1 hkept)
  | .order path order value, hkept, hreads => by
    obtain ⟨hvalue, hid⟩ := Bool.and_eq_true_iff.1 hkept
    rw [condition, eval_comparison (hreads path (List.mem_singleton_self _)) he hvalue
      (by simpa [imp_iff_not_or] using hid),
      Predicate.accepts]
    cases (d.get? path).bind value.orderOf <;> rfl
  | .notEmpty path, _, hreads => by
    rw [condition, eval_nonempty (hreads path (List.mem_singleton_self _)).extract he, Predicate.accepts]
    rcases d.get? path with _ | _ | _ | _ | _ | (_ | _) | _ <;> rfl

theorem eval_conditions {engine : Engine} (he : engine.IsDocumented) {row : Row} {d : Document} :
    ∀ terms : List Predicate,
    Predicate.areKept terms = true → (∀ path ∈ Predicate.pathsOf terms, Reads engine row path (d.get? path)) →
      ∀ term ∈ terms, (condition term).eval engine row = .truth (term.accepts d)
  | [], _, _, _, hterm => absurd hterm List.not_mem_nil
  | first :: rest, hkept, hreads, term, hterm => by
    obtain ⟨hfirst, hrest⟩ := Bool.and_eq_true_iff.1 hkept
    obtain ⟨hreadsfirst, hreadsrest⟩ := List.forall_mem_append.1 hreads
    rcases List.mem_cons.1 hterm with heq | hmem
    · exact heq ▸ eval_condition he first hfirst hreadsfirst
    · exact eval_conditions he rest hrest hreadsrest term hmem

end

/-! ## Orders -/

/-- Readings of one kind have the order of what they come to: nothing comes first, as null does. -/
theorem ascending?_eq (engine : Engine) {x y : Option Scalar} {left right : Outcome} (hx : Shows x left)
    (hy : Shows y right) {bytewise : Bool} (hkind : ∀ s ∈ x, ∀ t ∈ y, s.kind? = t.kind?)
    (hbytes : ∀ s ∈ x, s.kind? = some .text → bytewise = true) :
    engine.ascending? bytewise left right = some (SortKey.order x y) := by
  cases hx with
  | null => cases hy <;> rfl
  | value hs =>
    cases hy with
    | null => rfl
    | value ht =>
      obtain ⟨o, horder, hcompare⟩ := exists_order engine hs ht (hkind _ rfl _ rfl) (hbytes _ rfl)
      rw [Engine.ascending?, horder, SortKey.order, hcompare]
      rfl

/-- Rows that hold documents have the order of the documents. -/
theorem compareRows?_eq {engine : Engine} (he : engine.IsDocumented) {keys : List SortKey}
    (hkeys : ∀ key ∈ keys, key.kind.isKeptAt key.path = true) {a b : Row} {d e : Document}
    (ha : ∀ key ∈ keys, Reads engine a key.path (d.get? key.path))
    (hb : ∀ key ∈ keys, Reads engine b key.path (e.get? key.path)) :
    engine.compareRows? (keys.map orderKey) a b = some (compareDocuments keys d e) := by
  induction keys with
  | nil => rfl
  | cons key rest ih =>
    obtain ⟨hkey, hrest⟩ := List.forall_mem_cons.1 hkeys
    obtain ⟨hakey, harest⟩ := List.forall_mem_cons.1 ha
    obtain ⟨hbkey, hbrest⟩ := List.forall_mem_cons.1 hb
    have hkind {d : Document} {s : Scalar} (h : s ∈ key.read d) : s.kind? = some key.kind := by
      obtain ⟨found, -, hdecode⟩ := Option.bind_eq_some_iff.1 h
      exact ValueKind.kind?_of_decode hdecode
    have hbytes : ∀ s ∈ key.read d, s.kind? = some .text → (typedField key.path key.kind).isBytewise = true := by
      intro s hs htext
      rw [← Option.some.inj (htext.symm.trans (hkind hs))]
      rfl
    have hfirst := ascending?_eq engine (shows_typedField hakey he hkey) (shows_typedField hbkey he hkey)
      (fun s hs t ht => (hkind hs).trans (hkind ht).symm) hbytes
    rw [List.map_cons, orderKey, Engine.compareRows?, hfirst, ih hrest harest hbrest]
    rfl

end Sql

end FeedQuery
