import FeedQuery.Json.Printer
import FeedQuery.Proofs.Paging
import FeedQuery.Proofs.Sql.Agreement
import Mathlib.Data.List.TakeWhile

/-!
# A database answers queries as documents do

The statements of a query, sent to a database that holds the rows of some documents, are answered with what the query
finds among the documents, in the same order, and with the number of those that satisfy its predicate
(`statements_answer_queries`). `Engine.reference` is a database of which everything that is needed is true
(`isDocumented_reference`).
-/

namespace FeedQuery

/-- Whether no segment of a path is the position of an element. -/
def Path.isNamed (p : Path) : Bool := p.segments.all fun segment => !Sql.isPosition segment

/-- The paths of the fields that a query looks at. -/
def Query.paths (q : Query) : List Path := q.predicate.paths ++ q.sort.map SortKey.path

/-- The row that a document is written to; without an identifier it is not written. -/
def Document.row? (collection : Collection) (d : Document) : Option Sql.Row :=
  d.id?.map fun id => ⟨collection.name, id, d.toJson⟩

namespace Sql

/-- The document that a row holds. -/
def Row.document (row : Row) : Document := ⟨row.body.object?.getD []⟩

/-! ## Rows of documents -/

/-- Along a path without positions a database finds what the document holds, unless it does so anyway. -/
theorem extract_eq_get? {engine : Engine} (he : engine.IsDocumented) {d : Document} {path : Path}
    (hpath : path.isNamed = true ∨ engine.extract path.segments d.toJson = d.get? path) :
    engine.extract path.segments d.toJson = d.get? path := by
  refine hpath.elim (fun hnamed => ?_) id
  refine (he.extract_eq path.segments d.toJson fun segment hsegment => ?_).trans rfl
  simpa using List.all_eq_true.1 hnamed segment hsegment

section

variable {c : Collection} {d : Document} {row : Row} (h : d.row? c = some row)
include h

theorem row_of_row? : d.id? = some row.id ∧ row.collection = c.name ∧ row.body = d.toJson ∧ row.document = d := by
  obtain ⟨id, hid, rfl⟩ := Option.map_eq_some_iff.1 h
  exact ⟨hid, rfl, rfl, rfl⟩

/-- On paths along which a database follows names, it finds in a row what the document holds. -/
theorem reads_of_row? {engine : Engine} (he : engine.IsDocumented) (hd : d.toJson.every Json.isKept = true)
    {path : Path} (hpath : path.isNamed = true ∨ engine.extract path.segments d.toJson = d.get? path) :
    Reads engine row path (d.get? path) := by
  obtain ⟨hid, -, hbody, -⟩ := row_of_row? h
  constructor
  · rw [hbody, extract_eq_get? he hpath]
  · exact fun value hvalue => Document.every_get? hd hvalue
  · rintro rfl
    rw [← hid, Document.id?_eq]

end

/-- The rows of documents that all have identifiers hold the documents. -/
theorem map_document_row? {c : Collection} {docs : List Document} (h : ∀ d ∈ docs, d.id?.isSome = true) :
    (docs.filterMap (Document.row? c)).map Row.document = docs := by
  induction docs with
  | nil => rfl
  | cons d rest ih =>
    obtain ⟨hd, hrest⟩ := List.forall_mem_cons.1 h
    obtain ⟨id, hid⟩ := Option.isSome_iff_exists.1 hd
    have hrow : d.row? c = some ⟨c.name, id, d.toJson⟩ := by rw [Document.row?, hid]; rfl
    rw [List.filterMap_cons_some hrow, List.map_cons, ih hrest]
    rfl

/-- Rows have the order of their documents. -/
theorem compareRows?_document {engine : Engine} (he : engine.IsDocumented) {c : Collection} {docs : List Document}
    (hdocs : ∀ d ∈ docs, d.toJson.every Json.isKept = true) {keys : List SortKey}
    (hkeys : ∀ key ∈ keys, key.kind.isKeptAt key.path = true)
    (hpaths : ∀ key ∈ keys, key.path.isNamed = true ∨ ∀ d ∈ docs, engine.extract key.path.segments d.toJson =
      d.get? key.path)
    {a b : Row} (ha : a ∈ docs.filterMap (Document.row? c)) (hb : b ∈ docs.filterMap (Document.row? c)) :
    engine.compareRows? (keys.map orderKey) a b = some (compareDocuments keys a.document b.document) := by
  have hreads {row : Row} (hrow : row ∈ docs.filterMap (Document.row? c)) :
      ∀ key ∈ keys, Reads engine row key.path (row.document.get? key.path) := by
    obtain ⟨d, hd, hrow⟩ := List.mem_filterMap.1 hrow
    rw [(row_of_row? hrow).2.2.2]
    exact fun key hkey => reads_of_row? hrow he (hdocs d hd) ((hpaths key hkey).imp_right fun h => h d hd)
  exact compareRows?_eq he hkeys (hreads ha) (hreads hb)

section

variable {engine : Engine} {keys : List SortKey} {kept : List Row} (hcompare : ∀ a ∈ kept, ∀ b ∈ kept,
  engine.compareRows? (keys.map orderKey) a b = some (compareDocuments keys a.document b.document))
include hcompare

/-- Rows in an order that the keys allow hold the documents in their order, if the keys tell these apart. -/
theorem sortDocuments_eq_map_document {docs : List Document} (hseparates : Separates keys docs)
    (hdocs : (kept.map Row.document).Perm docs) {sorted : List Row} (hperm : kept.Perm sorted)
    (hordered : sorted.Pairwise fun a b => engine.compareRows? (keys.map orderKey) a b ≠ some .gt) :
    sortDocuments keys docs = sorted.map Row.document := by
  refine sortDocuments_unique hseparates (hdocs.symm.trans (hperm.map _)) (List.pairwise_map.2 ?_)
  refine hordered.imp_of_mem fun {a b} ha hb hne => ?_
  rw [hcompare a (hperm.mem_iff.2 ha) b (hperm.mem_iff.2 hb)] at hne
  exact Ordering.isLE_iff_ne_gt.2 fun h => hne (congrArg some h)

/-- Rows can be put into an order that the keys allow. -/
theorem exists_sorted : ∃ sorted : List Row, kept.Perm sorted ∧
    sorted.Pairwise fun a b => engine.compareRows? (keys.map orderKey) a b ≠ some .gt := by
  have hsame : ∀ a ∈ kept, ∀ b ∈ kept, compareDocuments keys a.document b.document =
      compareDocuments keys a.document b.document :=
    fun _ _ _ _ => rfl
  obtain ⟨sorted, hperm, hsorted, -⟩ := sortDocuments_map_map hsame
  have hpairwise := pairwise_sortDocuments keys (kept.map Row.document)
  rw [hsorted, List.pairwise_map] at hpairwise
  refine ⟨sorted, hperm.symm, hpairwise.imp_of_mem fun {a b} ha hb hle h => ?_⟩
  rw [hcompare a (hperm.mem_iff.1 ha) b (hperm.mem_iff.1 hb)] at h
  exact Ordering.isLE_iff_ne_gt.1 hle (Option.some.inj h)

end

/-! ## Counting off -/

/-- Where a condition fails on no row, the rows are kept on which it holds. -/
theorem matching_eq {engine : Engine} {condition : Expr} {holds : Row → Bool} {table : List Row}
    (h : ∀ row ∈ table, (condition.eval engine row).holds? = some (holds row)) :
    engine.matching condition table = some (table.filter holds) := by
  induction table with
  | nil => rfl
  | cons row rest ih =>
    obtain ⟨hrow, hrest⟩ := List.forall_mem_cons.1 h
    rw [Engine.matching, hrow, ih hrest, List.filter_cons]
    rfl

/-- More rows than a database can count are more than there are. -/
theorem rowCount?_ofCount (n : Option Nat) : rowCount? (n.map Bind.ofCount) =
    some (n.map fun n => min n (2 ^ 63 - 1)) := by
  cases n <;> rfl

theorem drop_min {α : Type} {xs : List α} {most : Nat} (h : xs.length ≤ most) (n : Nat) :
    xs.drop (min n most) = xs.drop n := by
  rcases Nat.le_total n most with hn | hn
  · rw [Nat.min_eq_left hn]
  · rw [Nat.min_eq_right hn, List.drop_eq_nil_of_le h, List.drop_eq_nil_of_le (h.trans hn)]

theorem take_min {α : Type} {xs : List α} {most : Nat} (h : xs.length ≤ most) (n : Nat) :
    xs.take (min n most) = xs.take n := by
  rcases Nat.le_total n most with hn | hn
  · rw [Nat.min_eq_left hn]
  · rw [Nat.min_eq_right hn, List.take_of_length_le h, List.take_of_length_le (h.trans hn)]

/-- The rows that are counted off are those that the query takes. -/
theorem window_eq {α : Type} {xs : List α} (h : xs.length ≤ 2 ^ 63 - 1) (skip limit : Option Nat) :
    (xs.drop ((skip.map fun n => min n (2 ^ 63 - 1)).getD 0)).take
      ((limit.map fun n => min n (2 ^ 63 - 1)).getD xs.length) =
      match limit with
      | some limit => (xs.drop (skip.getD 0)).take limit
      | none => xs.drop (skip.getD 0) := by
  have hdrop : xs.drop ((skip.map fun n => min n (2 ^ 63 - 1)).getD 0) = xs.drop (skip.getD 0) := by
    cases skip with
    | none => rfl
    | some n => exact drop_min h n
  have hlength : (xs.drop (skip.getD 0)).length ≤ xs.length := (List.drop_sublist ..).length_le
  rw [hdrop]
  cases limit with
  | none => exact List.take_of_length_le hlength
  | some n => exact take_min (hlength.trans h) n

/-! ## The statements of a query -/

section

variable {c : Collection} {docs : List Document} {table : List Row}
  (htable : (table.filter fun row => row.collection == c.name).Perm (docs.filterMap (Document.row? c)))
include htable

/-- The documents that the kept rows hold are those that the predicate accepts. -/
theorem map_document_kept (hids : ∀ d ∈ docs, d.id?.isSome = true) (p : Predicate) :
    ((table.filter fun row => row.collection == c.name && p.accepts row.document).map Row.document).Perm
      (docs.filter p.accepts) := by
  have hkept : (table.filter fun row => row.collection == c.name && p.accepts row.document) =
      (table.filter fun row => row.collection == c.name).filter (p.accepts ∘ Row.document) := by
    rw [List.filter_filter]
    exact List.filter_congr fun row _ => Bool.and_comm _ _
  rw [hkept, ← List.filter_map]
  have hperm := (htable.map Row.document).filter p.accepts
  rwa [map_document_row? hids] at hperm

variable {engine : Engine} (he : engine.IsDocumented) (hdocs : ∀ d ∈ docs, d.toJson.every Json.isKept = true)
include he hdocs

/-- The rows that a predicate keeps. -/
theorem matching_scope {p : Predicate} (hp : p.isKept = true)
    (hpaths : ∀ path ∈ p.paths, path.isNamed = true ∨ ∀ d ∈ docs, engine.extract path.segments d.toJson = d.get? path) :
    engine.matching (scope c p) table =
      some (table.filter fun row => row.collection == c.name && p.accepts row.document) := by
  refine matching_eq fun row hrow => ?_
  rw [scope, Expr.eval, eval_collection he]
  cases hname : row.collection == c.name with
  | false => rfl
  | true =>
    have hmem := htable.mem_iff.1 (List.mem_filter.2 ⟨hrow, hname⟩)
    obtain ⟨d, hd, hrow⟩ := List.mem_filterMap.1 hmem
    have hreads : ∀ path ∈ p.paths, Reads engine row path (d.get? path) := fun path hpath =>
      reads_of_row? hrow he (hdocs d hd) ((hpaths path hpath).imp_right fun h => h d hd)
    rw [eval_condition he p hp hreads, (row_of_row? hrow).2.2.2]
    rfl

end

/-- The statements of a query are answered as the query is: finding rows yields the bodies of the documents that the
query finds, in the same order and in no other, and counting yields the number of documents that satisfy the predicate.
The table holds a row for each document of the collection, in any order, and whatever it likes for other collections.
This needs

1. a database of which what is documented is true, and which follows names along the paths of the query: it does so by
   itself where no segment is the position of an element;
2. an order that ends with the identifier, after keys that are texts, numbers or truth values;
3. a predicate without timestamps and infinities, which compares identifiers by order only where those of documents are;
4. documents with distinct identifiers, no more than a database can count, all of whose identifiers are spelled
   canonically and whose integers are within `2 ^ 53`. -/
theorem statements_answer_queries {engine : Engine} (he : engine.IsDocumented) (c : Collection) (q : Query)
    (others : List SortKey) {direction : Direction} (hsort : q.sort = others ++ [⟨.id, direction, .id⟩])
    (hothers : ∀ key ∈ others, key.kind = .text ∨ key.kind = .number ∨ key.kind = .bool)
    (hpredicate : q.predicate.isKept = true) {docs : List Document} (hids : Identified docs)
    (hdocs : ∀ d ∈ docs, d.toJson.every Json.isKept = true) (hlength : docs.length ≤ 2 ^ 63 - 1)
    (hpaths : ∀ path ∈ q.paths, path.isNamed = true ∨ ∀ d ∈ docs, engine.extract path.segments d.toJson = d.get? path)
    {table : List Row} (htable : (table.filter fun row => row.collection == c.name).Perm
      (docs.filterMap (Document.row? c))) :
    (∀ bodies, (Statement.select c q).Answers engine table bodies ↔ bodies = (q.apply docs).map Document.toJson) ∧
    ∀ count, (Statement.count c q.predicate).Counts engine table count ↔
      count = (docs.filter q.predicate.accepts).length := by
  obtain ⟨hpredicatepaths, hsortpaths⟩ := List.forall_mem_append.1 hpaths
  have hmatching := matching_scope htable he hdocs hpredicate hpredicatepaths
  have hdocuments := map_document_kept htable hids.isSome q.predicate
  have hrows : ∀ row ∈ table.filter fun row => row.collection == c.name && q.predicate.accepts row.document,
      row ∈ docs.filterMap (Document.row? c) := by
    intro row hrow
    obtain ⟨hmem, hholds⟩ := List.mem_filter.1 hrow
    exact htable.mem_iff.1 (List.mem_filter.2 ⟨hmem, (Bool.and_eq_true_iff.1 hholds).1⟩)
  generalize (table.filter fun row => row.collection == c.name && q.predicate.accepts row.document) =
    kept at hmatching hdocuments hrows
  have hkeys : ∀ key ∈ q.sort, key.kind.isKeptAt key.path = true := by
    rw [hsort]
    refine List.forall_mem_append.2 ⟨fun key hkey => ?_, List.forall_mem_singleton.2 rfl⟩
    rcases hothers key hkey with h | h | h <;> rw [h] <;> rfl
  have hcompare : ∀ a ∈ kept, ∀ b ∈ kept, engine.compareRows? (q.sort.map orderKey) a b =
      some (compareDocuments q.sort a.document b.document) := fun a ha b hb =>
    compareRows?_document he hdocs hkeys (fun key hkey => hsortpaths key.path (List.mem_map_of_mem hkey)) (hrows a ha)
      (hrows b hb)
  have hbody {rows : List Row} (h : rows ⊆ kept) : rows.map Row.body = (rows.map Row.document).map Document.toJson := by
    rw [List.map_map]
    refine List.map_congr_left fun row hrow => ?_
    obtain ⟨d, -, hd⟩ := List.mem_filterMap.1 (hrows row (h hrow))
    obtain ⟨-, -, hbody, hdocument⟩ := row_of_row? hd
    rw [Function.comp, hbody, hdocument]
  have hseparates : Separates q.sort (docs.filter q.predicate.accepts) :=
    (hids.filter _).separates (hsort ▸ List.mem_append_right _ (List.mem_singleton_self _))
  -- there is one order in which the rows may be found
  have hwindow : ∀ sorted : List Row, kept.Perm sorted →
      sorted.Pairwise (fun a b => engine.compareRows? (q.sort.map orderKey) a b ≠ some .gt) →
      ((sorted.drop ((q.skip.map fun n => min n (2 ^ 63 - 1)).getD 0)).take
        ((q.limit.map fun n => min n (2 ^ 63 - 1)).getD sorted.length)).map Row.body =
        (q.apply docs).map Document.toJson := by
    intro sorted hperm hordered
    have hsorted := sortDocuments_eq_map_document hcompare hseparates hdocuments hperm hordered
    have hfew : (sorted.map Row.document).length ≤ 2 ^ 63 - 1 := by
      rw [← hsorted, (sortDocuments_perm q.sort _).length_eq]
      exact (List.length_filter_le ..).trans hlength
    rw [hbody fun row hrow => hperm.mem_iff.2 (List.mem_of_mem_drop (List.mem_of_mem_take hrow)), List.map_take,
      List.map_drop, ← List.length_map (f := Row.document), window_eq hfew, ← hsorted]
    exact congrArg (List.map Document.toJson) (Pipeline.apply_eq q docs).symm
  refine ⟨fun bodies => ⟨?_, ?_⟩, fun count => ⟨?_, ?_⟩⟩
  · rintro ⟨selection, hread, kept', sorted, skip, limit, hkept, hperm, -, hordered, hskip, hlimit, rfl⟩
    obtain rfl := Option.some.inj ((read_select c q).symm.trans hread)
    obtain rfl := Option.some.inj (hmatching.symm.trans hkept)
    obtain rfl := Option.some.inj ((rowCount?_ofCount q.skip).symm.trans hskip)
    obtain rfl := Option.some.inj ((rowCount?_ofCount q.limit).symm.trans hlimit)
    exact hwindow sorted hperm hordered
  · rintro rfl
    obtain ⟨sorted, hperm, hordered⟩ := exists_sorted hcompare
    exact ⟨_, read_select c q, kept, sorted, _, _, hmatching, hperm,
      fun a ha b hb => by rw [hcompare a ha b hb]; rfl, hordered, rowCount?_ofCount q.skip, rowCount?_ofCount q.limit,
      (hwindow sorted hperm hordered).symm⟩
  · rintro ⟨condition, kept', hread, hkept, rfl⟩
    obtain rfl := Option.some.inj ((readCount_count c q.predicate).symm.trans hread)
    obtain rfl := Option.some.inj (hmatching.symm.trans hkept)
    rw [← hdocuments.length_eq, List.length_map]
  · rintro rfl
    exact ⟨_, kept, readCount_count c q.predicate, hmatching, by rw [← hdocuments.length_eq, List.length_map]⟩

/-! ## A database -/

/-- The element at a position, counted from the end where it is negative. -/
def elementAt? (segment : String) (items : List Json) : Option Json :=
  (Decimal.readInteger? (-2147483648) 2147483647 (unpadded segment)).bind fun position =>
    if 0 ≤ position then items[position.toNat]?
    else if position.natAbs ≤ items.length then items[items.length - position.natAbs]?
    else none

/-- The value at the end of a path through objects and arrays. -/
def valueAt? : List String → Json → Option Json
  | [], value => some value
  | segment :: rest, .object fields => (Fields.get? segment fields).bind (valueAt? rest)
  | segment :: rest, .array items => (elementAt? segment items).bind (valueAt? rest)
  | _ :: _, _ => none

/-- The text of a value; the text of a number is one that reads back. -/
def textOf? : Json → Option String
  | .null => none
  | .string text => some text
  | .number n =>
    let text := Json.numberText n
    some (if (Double.ofText? (Text.trim text)).bind Double.key? = n.toDouble.key? then text else n.toDouble.exactText)
  | value => some value.toText

/-- A database that looks for scalars only. -/
def Engine.reference : Engine where
  extract := valueAt?
  textOf := textOf?
  contains value part := value.members.any part.isSame
  collate a b := Ord.compare a b
  double? text := Double.ofText? (Text.trim text)
  boolean? text := if text = "true" then some true else if text = "false" then some false else none
  timestamp? text := (Instant.ofText? text).map fun t => (t.nanos - Bind.timestampEpoch).tdiv 1000

/-- What is no position leads to no element. -/
theorem elementAt?_eq_none {segment : String} (h : isPosition segment = false) (items : List Json) :
    elementAt? segment items = none := by
  have hread (lowest highest : Int) : Decimal.readInteger? lowest highest (unpadded segment) = none := by
    unfold Decimal.readInteger?
    dsimp only
    split
    · next digit digits hspan =>
      obtain ⟨hdigits, hrest⟩ := Prod.mk.inj hspan
      have hall := List.dropWhile_eq_nil_iff.1 hrest
      have hne : (Decimal.readSign (unpadded segment)).2 ≠ [] := fun hnil => by simp [hnil] at hdigits
      have hposition : isPosition segment = true := by simpa [isPosition, hne] using hall
      rw [hposition] at h
      cases h
    · rfl
  rw [elementAt?, hread]
  rfl

theorem valueAt?_eq_follow {segments : List String} (h : ∀ segment ∈ segments, isPosition segment = false)
    (value : Json) :
    valueAt? segments value = Path.follow segments value := by
  induction segments generalizing value with
  | nil => rfl
  | cons segment rest ih =>
    obtain ⟨hsegment, hrest⟩ := List.forall_mem_cons.1 h
    cases value with
    | object fields => exact congrArg (Option.bind (Fields.get? segment fields)) (funext (ih hrest))
    | array items => rw [valueAt?, elementAt?_eq_none hsegment]; rfl
    | _ => rfl

variable (n : Number) (text : String) (value : Json)

@[simp] theorem textOf_reference : Engine.reference.textOf value = textOf? value := by simp only [Engine.reference]

@[simp] theorem double?_reference : Engine.reference.double? text = Double.ofText? (Text.trim text) := by
  simp only [Engine.reference]

theorem exists_textOf_number : ∃ text value, Engine.reference.textOf (.number n) = some text ∧
    Engine.reference.double? text = some value ∧ value.key? = n.toDouble.key? := by
  have hplace := Double.key?_of_isFinite n.toDouble_isFinite
  simp only [textOf_reference, double?_reference, textOf?]
  by_cases h : (Double.ofText? (Text.trim (Json.numberText n))).bind Double.key? = n.toDouble.key?
  · obtain ⟨value, hvalue, hkey⟩ := Option.bind_eq_some_iff.1 (h.trans hplace)
    rw [if_pos h]
    exact ⟨_, value, rfl, hvalue, hkey.trans hplace.symm⟩
  · rw [if_neg h]
    exact ⟨_, n.toDouble, rfl, Double.ofText?_exactText n.toDouble_isFinite, rfl⟩

theorem isDocumented_reference : Engine.reference.IsDocumented where
  extract_eq segments value h := valueAt?_eq_follow h value
  textOf_string _ := rfl
  textOf_number := exists_textOf_number
  textOf_bool flag := by cases flag <;> exact ⟨_, rfl, rfl⟩
  contains_eq _ _ _ _ _ := rfl
  collate_eq _ _ := Std.compare_eq_iff_eq

end Sql

namespace Sample

/-- A document with a number of likes and some tags. -/
def rated (n : Nat) (likes : Json) (tags : List String) : Document :=
  ⟨[("_id", .string (uuid n).toText), ("likes", likes), ("tags", .array (tags.map .string))]⟩

/-- Three, as a decimal. -/
def three : Json := .ofDouble ⟨false, 0x4008000000000000⟩

/-- Twice the same decimal, no number, and an integer without the tag. -/
def ratedDocs : List Document :=
  [rated 1 three ["a"], rated 2 three ["b", "a"], rated 3 .null ["a"], rated 4 (.ofNat 5) ["b"]]

/-- A query for documents with a tag and not below one like, most likes first, and among equals the newest. -/
def ratedQuery : Query where
  predicate :=
    .and [.eq (.field "tags") (.text "a"), .not (.order (.field "likes") .lt (.number ⟨false, 0x3ff0000000000000⟩)),
    .ne (.field "user") (.id (uuid 9))]
  sort := [⟨.field "likes", .descending, .number⟩, .idDescending]
  skip := some 1
  limit := none

/-- The last document lacks the tag, and of the others the one without a number comes last. -/
theorem sortDocuments_ratedDocs : sortDocuments ratedQuery.sort (ratedDocs.filter ratedQuery.predicate.accepts) =
    [rated 2 three ["b", "a"], rated 1 three ["a"], rated 3 .null ["a"]] := by
  have hkept : [rated 1 three ["a"], rated 2 three ["b", "a"], rated 3 .null ["a"]].all ratedQuery.predicate.accepts =
      true := by decide
  have hleft : ratedQuery.predicate.accepts (rated 4 (.ofNat 5) ["b"]) = false := by decide
  simp only [List.all_cons, List.all_nil, Bool.and_eq_true, and_true] at hkept
  refine sortDocuments_eq_of_perm ?_ (by decide)
  simp only [ratedDocs, List.filter_cons, hkept, hleft, if_true, List.filter_nil, Bool.false_eq_true, if_false]
  exact .swap _ _ _

/-- The row of a document. -/
def ratedRow (n : Nat) (likes : Json) (tags : List String) : Sql.Row :=
  ⟨"creations", uuid n, (rated n likes tags).toJson⟩

theorem id?_rated (n : Nat) (likes : Json) (tags : List String) : (rated n likes tags).id? = some (uuid n) := by
  have hfield : (rated n likes tags).get? .id = some (.string (uuid n).toText) := rfl
  rw [Document.id?_eq, hfield, Option.bind_some, Json.id?_string, Uuid.ofText?_toText]

theorem row?_rated (n : Nat) (likes : Json) (tags : List String) :
    (rated n likes tags).row? .creations = some (ratedRow n likes tags) := by
  rw [Document.row?, id?_rated]
  rfl

/-- An identifier is spelled canonically, so it comes down to the likes and the tags. -/
theorem every_isKept_rated (n : Nat) {likes : Json} (hlikes : likes.every Json.isKept = true) {tags : List String}
    (htags : (Json.array (tags.map .string)).every Json.isKept = true) :
    (rated n likes tags).toJson.every Json.isKept = true := by
  have hobject (fields : Fields Json) : (Json.object fields).every Json.isKept =
      Json.everyField Json.isKept fields := rfl
  have hstring (text : String) : (Json.string text).every Json.isKept = (Json.string text).isCanonical := rfl
  have hid : (Json.string (uuid n).toText).isCanonical = true := by
    rw [Json.isCanonical, Uuid.ofText?_toText]
    exact beq_self_eq_true _
  simp only [rated, Document.toJson, hobject, Json.everyField, hstring, hid, hlikes, htags, Bool.and_self]

/-- The rows of the documents, with a row of another collection among them. -/
def ratedTable : List Sql.Row :=
  [ratedRow 2 three ["b", "a"], ⟨"models", uuid 1, .null⟩, ratedRow 1 three ["a"], ratedRow 3 .null ["a"],
  ratedRow 4 (.ofNat 5) ["b"]]

end Sample

namespace Sql

/-- The theorem at a small table: of three documents the first is skipped, and the one without a number comes last. -/
theorem statements_answer_queries_sample :
    (∀ bodies, (Statement.select .creations Sample.ratedQuery).Answers .reference Sample.ratedTable bodies ↔
      bodies = [(Sample.rated 1 Sample.three ["a"]).toJson, (Sample.rated 3 .null ["a"]).toJson]) ∧
    ∀ count, (Statement.count .creations Sample.ratedQuery.predicate).Counts .reference Sample.ratedTable count ↔
      count = 3 := by
  have hids : Identified Sample.ratedDocs := by
    constructor
    · simp [Sample.ratedDocs, Sample.id?_rated]
    · simp only [Sample.ratedDocs, List.pairwise_cons, List.forall_mem_cons, Sample.id?_rated]
      decide
  have htable : (Sample.ratedTable.filter fun row => row.collection == Collection.creations.name).Perm
      (Sample.ratedDocs.filterMap (Document.row? .creations)) := by
    have hrow (n : Nat) (likes : Json) (tags : List String) :
        ((Sample.ratedRow n likes tags).collection == Collection.creations.name) = true := rfl
    have hmodel : ("models" == Collection.creations.name) = false := rfl
    simp only [Sample.ratedDocs, List.filterMap_cons_some (Sample.row?_rated _ _ _), List.filterMap_nil,
      Sample.ratedTable, List.filter_cons, hrow, hmodel, if_true, Bool.false_eq_true, if_false, List.filter_nil]
    exact .swap _ _ _
  have hkept : ∀ d ∈ Sample.ratedDocs, d.toJson.every Json.isKept = true := by
    simp only [Sample.ratedDocs, List.forall_mem_cons]
    exact ⟨Sample.every_isKept_rated 1 rfl rfl, Sample.every_isKept_rated 2 rfl rfl,
      Sample.every_isKept_rated 3 rfl rfl, Sample.every_isKept_rated 4 rfl rfl, List.forall_mem_nil _⟩
  have hnamed : ∀ path ∈ Sample.ratedQuery.paths, path.isNamed = true := by decide
  obtain ⟨hselect, hcount⟩ := statements_answer_queries isDocumented_reference .creations Sample.ratedQuery
    [⟨.field "likes", .descending, .number⟩] rfl (by decide) (by decide) hids hkept (by decide)
    (fun path hpath => .inl (hnamed path hpath)) htable
  rw [Pipeline.apply_eq, Sample.sortDocuments_ratedDocs] at hselect
  rw [← (sortDocuments_perm Sample.ratedQuery.sort _).length_eq, Sample.sortDocuments_ratedDocs] at hcount
  exact ⟨hselect, hcount⟩

end Sql

end FeedQuery
