import FeedQuery.Proofs.FirstSeen
import FeedQuery.Proofs.Tokens

/-!
# What criteria hold

Criteria are built up token by token, and a token that is refused leaves them as they were (`Criteria.after`). Whatever
the tokens, in whatever order, the outcome can be read off the tokens that are accepted without building anything up
(`Criteria.after_eq`): there is one term for each kind of filter among them, in the order in which the kinds were first
seen, with all different values of the kind or with the last one; and the order is the first that documents carry. From
this follow the shape of the terms and what is read from them (`Criteria.represents_after`).
-/

namespace FeedQuery

/-! ## Calls -/

/-- The kind and the value of a filter token that is accepted and says something. -/
def FilterKind.reading? (token : String) : Option (FilterKind × Scalar) :=
  (Text.splitOnce? ';' token).bind fun parts => (ofField? (Text.trim parts.1)).bind fun kind =>
    (kind.read (Text.trim parts.2)).toOption.map fun value => (kind, value)

/-- The value of a filter token of the kind that is accepted. -/
def FilterKind.value? (kind : FilterKind) (token : String) : Option Scalar :=
  ((reading? token).filter fun reading => reading.1 == kind).map Prod.snd

/-- The order of a sort token that is accepted and says something. Without a separator it is descending. -/
def SortSpec.reading? (token : String) : Option SortSpec :=
  let parts := (Text.splitOnce? ';' token).getD (token, "-1")
  (SortField.ofField? (Text.trim parts.1)).bind fun field => (Direction.ofText? parts.2).map fun direction =>
    ⟨field, direction⟩

/-- A token that is put to criteria. -/
inductive Call where
  | filter (token : String)
  | sort (token : String)
deriving DecidableEq, Repr

namespace Call

/-- The kind and the value of a filter token that is accepted. -/
def term? : Call → Option (FilterKind × Scalar)
  | filter token => FilterKind.reading? token
  | sort _ => none

/-- The order of a sort token that is accepted. -/
def sort? : Call → Option SortSpec
  | filter _ => none
  | sort token => SortSpec.reading? token

/-- The value of a filter token of the kind that is accepted. -/
def value? (kind : FilterKind) : Call → Option Scalar
  | filter token => kind.value? token
  | sort _ => none

end Call

/-- The values of a kind that are accepted, in the order of the calls. -/
def FilterKind.accepted (kind : FilterKind) (calls : List Call) : List Scalar := calls.filterMap (Call.value? kind)

/-- The orders that are accepted, in the order of the calls. -/
def SortSpec.accepted (calls : List Call) : List SortSpec := calls.filterMap Call.sort?

/-- What is kept of the values of a kind: all different ones, or the last. -/
def FilterKind.settle (kind : FilterKind) (values : List Scalar) : List Scalar :=
  if kind.isMultiValued then values.eraseDups else values.getLast?.toList

namespace Criteria

/-- Puts a token to criteria. -/
def call (c : Criteria) : Call → Except Rejection Criteria
  | .filter token => c.withFilter token
  | .sort token => c.withSort token

/-- The criteria after some calls. A call that is refused leaves them as they were. -/
def after (calls : List Call) : Criteria := calls.foldl (fun c call => (c.call call).toOption.getD c) empty

/-- A filter token adds its value. -/
theorem withFilter_getD (c : Criteria) (token : String) : (c.withFilter token).toOption.getD c =
    match FilterKind.reading? token with
    | some (kind, value) => { c with terms := addValue kind value c.terms }
    | none => c := by
  unfold withFilter FilterKind.reading?
  cases Text.splitOnce? ';' token with
  | none => rfl
  | some parts =>
    dsimp only [Option.bind_some]
    cases FilterKind.ofField? (Text.trim parts.1) with
    | none => rfl
    | some kind =>
      dsimp only [Option.bind_some]
      cases kind.read (Text.trim parts.2) <;> rfl

/-- A sort token takes up its order. -/
theorem withSort_getD (c : Criteria) (token : String) : (c.withSort token).toOption.getD c =
    match SortSpec.reading? token with
    | some s => c.order s.field s.direction
    | none => c := by
  unfold withSort SortSpec.reading?
  generalize (Text.splitOnce? ';' token).getD (token, "-1") = parts
  dsimp only
  cases SortField.ofField? (Text.trim parts.1) with
  | none => rfl
  | some field =>
    dsimp only [Option.bind_some]
    cases Direction.ofText? parts.2 <;> rfl

/-! ## All calls -/

/-- The values of a kind among readings. -/
def valuesOf (kind : FilterKind) (readings : List (FilterKind × Scalar)) : List Scalar :=
  (readings.filter fun reading => reading.1 == kind).map Prod.snd

/-- The terms of readings: one for each kind, as it was first seen. -/
def termsOf (readings : List (FilterKind × Scalar)) : List FilterTerm :=
  (readings.map Prod.fst).eraseDups.map fun kind => ⟨kind, kind.settle (valuesOf kind readings)⟩

/-- Putting a value among terms of different kinds: the term of its kind gets it, or there is a new term at the end. -/
theorem addValue_map {kinds : List FilterKind} (hkinds : kinds.Nodup) (values : FilterKind → List Scalar)
    (kind : FilterKind) (value : Scalar) : addValue kind value (kinds.map fun k => ⟨k, values k⟩) =
      if kind ∈ kinds then kinds.map fun k => if k = kind then FilterTerm.add ⟨k, values k⟩ value else ⟨k, values k⟩
      else kinds.map (fun k => ⟨k, values k⟩) ++ [⟨kind, [value]⟩] := by
  induction kinds with
  | nil => rfl
  | cons k rest ih =>
    obtain ⟨hk, hrest⟩ := List.nodup_cons.1 hkinds
    rw [List.map_cons, addValue]
    by_cases hkind : k = kind
    · subst hkind
      have hothers : rest.map (fun k' => if k' = k then FilterTerm.add ⟨k', values k'⟩ value else ⟨k', values k'⟩) =
          rest.map fun k' => ⟨k', values k'⟩ :=
        List.map_congr_left fun k' hk' => if_neg fun he : k' = k => hk (he ▸ hk')
      simp [hothers]
    · rw [if_neg hkind, ih hrest]
      by_cases hmem : kind ∈ rest <;> simp [hmem, hkind, Ne.symm hkind]

/-- A value that comes after others of its kind. -/
theorem add_settle (kind : FilterKind) (values : List Scalar) (value : Scalar) :
    FilterTerm.add ⟨kind, kind.settle values⟩ value = ⟨kind, kind.settle (values ++ [value])⟩ := by
  unfold FilterTerm.add FilterKind.settle
  cases kind.isMultiValued with
  | false => simp
  | true =>
    simp only [if_true, eraseDups_concat, List.contains_iff_mem, List.mem_eraseDups]
    split <;> rfl

theorem settle_singleton (kind : FilterKind) (value : Scalar) : kind.settle [value] = [value] := by
  unfold FilterKind.settle
  split <;> rfl

theorem valuesOf_concat (kind other : FilterKind) (value : Scalar) (readings : List (FilterKind × Scalar)) :
    valuesOf other (readings ++ [(kind, value)]) =
      if other = kind then valuesOf other readings ++ [value] else valuesOf other readings := by
  unfold valuesOf
  by_cases h : kind = other
  · simp [h]
  · simp [h, Ne.symm h]

/-- A kind without a reading has no values. -/
theorem valuesOf_eq_nil {kind : FilterKind} {readings : List (FilterKind × Scalar)} (h : kind ∉ readings.map Prod.fst) :
    valuesOf kind readings = [] := by
  rw [valuesOf, List.filter_eq_nil_iff.2, List.map_nil]
  intro reading hr hkind
  exact h (List.mem_map.2 ⟨reading, hr, eq_of_beq hkind⟩)

/-- The terms of readings take up one more. -/
theorem addValue_termsOf (kind : FilterKind) (value : Scalar) (readings : List (FilterKind × Scalar)) :
    addValue kind value (termsOf readings) = termsOf (readings ++ [(kind, value)]) := by
  unfold termsOf
  rw [addValue_map (nodup_eraseDups _), List.map_append, List.map_singleton, eraseDups_concat]
  simp only [List.mem_eraseDups, valuesOf_concat]
  split
  · refine List.map_congr_left fun k _ => ?_
    split
    · exact add_settle k _ value
    · rfl
  · next hmem =>
    rw [List.map_append]
    refine congrArg₂ (· ++ ·) (List.map_congr_left fun k hk => ?_) ?_
    · rw [if_neg fun he : k = kind => hmem (List.mem_eraseDups.1 (he ▸ hk))]
    · simp [valuesOf_eq_nil hmem, settle_singleton]

/-- The criteria that readings amount to. -/
def ofReadings (readings : List (FilterKind × Scalar)) (sorts : List SortSpec) : Criteria where
  terms := termsOf readings
  sort := sorts.find? fun s => s.field.isLiteral
  followGraph := sorts.any fun s => s.field == .following
  reactionOrder := sorts.any fun s => s.field == .liked

theorem order_ofReadings (readings : List (FilterKind × Scalar)) (sorts : List SortSpec) (s : SortSpec) :
    (ofReadings readings sorts).order s.field s.direction = ofReadings readings (sorts ++ [s]) := by
  obtain ⟨field, direction⟩ := s
  cases field <;> simp [ofReadings, order, List.find?_append, SortField.isLiteral]

/-- What calls make is what the accepted ones among them amount to. -/
theorem after_eq (calls : List Call) : after calls =
    ofReadings (calls.filterMap Call.term?) (SortSpec.accepted calls) := by
  induction calls using List.reverseRecOn with
  | nil => rfl
  | append_singleton calls x ih =>
    have hstep : after (calls ++ [x]) = ((after calls).call x).toOption.getD (after calls) := by
      rw [after, List.foldl_append]
      rfl
    rw [hstep, ih, List.filterMap_append, SortSpec.accepted, SortSpec.accepted, List.filterMap_append]
    cases x with
    | filter token =>
      have hsorts : [Call.filter token].filterMap Call.sort? = [] := rfl
      rw [call, withFilter_getD, hsorts, List.append_nil]
      cases hreading : FilterKind.reading? token with
      | none => simp [Call.term?, hreading]
      | some reading =>
        have hone : [Call.filter token].filterMap Call.term? = [reading] := by simp [Call.term?, hreading]
        rw [hone]
        exact congrArg (fun terms => { ofReadings _ _ with terms := terms }) (addValue_termsOf reading.1 reading.2 _)
    | sort token =>
      have hterms : [Call.sort token].filterMap Call.term? = [] := rfl
      rw [call, withSort_getD, hterms, List.append_nil]
      cases hreading : SortSpec.reading? token with
      | none => simp [Call.sort?, hreading]
      | some s =>
        have hone : [Call.sort token].filterMap Call.sort? = [s] := by simp [Call.sort?, hreading]
        rw [hone]
        exact order_ofReadings _ _ s

/-! ## What is read from criteria -/

/-- The values of a kind are what is kept of those that are read. -/
theorem values_ofReadings (readings : List (FilterKind × Scalar)) (sorts : List SortSpec) (kind : FilterKind) :
    (ofReadings readings sorts).values kind = kind.settle (valuesOf kind readings) := by
  have hcomp : (fun term : FilterTerm => term.kind == kind) ∘ (fun k => ⟨k, k.settle (valuesOf k readings)⟩) =
      fun k => k == kind := rfl
  rw [values, term?, ofReadings, termsOf, List.find?_map, hcomp]
  cases hfind : (readings.map Prod.fst).eraseDups.find? fun k => k == kind with
  | none =>
    have hmem : kind ∉ readings.map Prod.fst := fun h =>
      List.find?_eq_none.1 hfind kind (List.mem_eraseDups.2 h) (beq_self_eq_true kind)
    rw [valuesOf_eq_nil hmem]
    unfold FilterKind.settle
    split <;> rfl
  | some k =>
    obtain rfl : k = kind := eq_of_beq (List.find?_some (p := fun k : FilterKind => k == kind) hfind)
    rfl

/-- The values of a kind that are read are those that are accepted. -/
theorem valuesOf_filterMap (kind : FilterKind) (calls : List Call) :
    valuesOf kind (calls.filterMap Call.term?) = kind.accepted calls := by
  rw [valuesOf, FilterKind.accepted, List.filter_filterMap, List.map_filterMap]
  refine List.filterMap_congr fun call _ => ?_
  cases call <;> rfl

theorem values_after (calls : List Call) (kind : FilterKind) :
    (after calls).values kind = kind.settle (kind.accepted calls) := by
  rw [after_eq, values_ofReadings, valuesOf_filterMap]

end Criteria

/-- A value of the kind that a kind of filter is read as: an identifier, a date, a visibility, a finite number or a
text. -/
def FilterKind.HasVariant (kind : FilterKind) (value : Scalar) : Prop :=
  match kind with
  | .owner | .agent | .task | .collection | .concept | .similar | .likedBy => ∃ id, value = .id id
  | .minDate | .maxDate => ∃ date, value = .datetime date
  | .visibility => ∃ isPublic, value = .bool isPublic
  | .minLikes => ∃ number, value = .number number ∧ number.isFinite = true
  | .search | .name | .baseModel => ∃ text, value = .text text ∧ text ≠ ""

theorem FilterKind.hasVariant_of_read {kind : FilterKind} {raw : String} {value : Scalar}
    (h : kind.read raw = .ok value) :
    kind.HasVariant value := by
  cases kind with
  | owner | agent | task | collection | concept | similar | likedBy =>
    unfold read at h
    cases hid : Uuid.ofText? raw <;> rw [hid] at h <;> cases h
    exact ⟨_, rfl⟩
  | minDate | maxDate =>
    unfold read at h
    cases hdate : readDate? raw <;> rw [hdate] at h <;> cases h
    exact ⟨_, rfl⟩
  | visibility =>
    unfold read at h
    cases hvisibility : readVisibility? raw <;> rw [hvisibility] at h <;> cases h
    exact ⟨_, rfl⟩
  | minLikes =>
    unfold read at h
    cases hnumber : (Double.ofText? raw).filter Double.isFinite <;> rw [hnumber] at h <;> cases h
    exact ⟨_, rfl, (Option.filter_eq_some_iff.1 hnumber).2⟩
  | search | name | baseModel =>
    unfold read at h
    by_cases hraw : raw = ""
    · simp [hraw] at h
    · simp only [String.isEmpty_iff, hraw, if_false] at h
      cases h
      exact ⟨_, rfl, hraw⟩

/-- A value that is accepted was read by its kind. -/
theorem FilterKind.hasVariant_of_value? {kind : FilterKind} {token : String} {value : Scalar}
    (h : kind.value? token = some value) :
    kind.HasVariant value := by
  simp only [value?, reading?, Option.map_eq_some_iff, Option.filter_eq_some_iff, Option.bind_eq_some_iff, beq_iff_eq]
    at h
  obtain ⟨reading, ⟨⟨parts, -, other, -, value', hread, rfl⟩, rfl⟩, rfl⟩ := h
  dsimp only at hread ⊢
  cases hvalue : other.read (Text.trim parts.2) <;> rw [hvalue] at hread <;> cases hread
  exact hasVariant_of_read hvalue

theorem FilterKind.hasVariant_of_mem {kind : FilterKind} {calls : List Call} {value : Scalar}
    (h : value ∈ kind.accepted calls) :
    kind.HasVariant value := by
  obtain ⟨call, -, hcall⟩ := List.mem_filterMap.1 h
  cases call with
  | sort token => cases hcall
  | filter token => exact hasVariant_of_value? hcall

/-- Nothing else is kept than what there is. -/
theorem FilterKind.mem_of_mem_settle {kind : FilterKind} {values : List Scalar} {value : Scalar}
    (h : value ∈ kind.settle values) :
    value ∈ values := by
  unfold settle at h
  split at h
  · exact List.mem_eraseDups.1 h
  · exact List.mem_of_getLast? (Option.mem_toList.1 h)

theorem FilterKind.settle_ne_nil {kind : FilterKind} {values : List Scalar} (h : values ≠ []) :
    kind.settle values ≠ [] := by
  obtain ⟨value, hvalue⟩ := List.exists_mem_of_ne_nil values h
  unfold settle
  split
  · exact List.ne_nil_of_mem (List.mem_eraseDups.2 hvalue)
  · rw [List.getLast?_eq_some_getLast h]
    exact List.cons_ne_nil _ []

theorem FilterKind.length_settle {kind : FilterKind} {values : List Scalar} (hkind : kind.isMultiValued = false)
    (h : values ≠ []) :
    (kind.settle values).length = 1 := by
  rw [settle, hkind, List.getLast?_eq_some_getLast h]
  rfl

theorem Scalar.eq_of_id? {a b : Scalar} {u : Uuid} (ha : a.id? = some u) (hb : b.id? = some u) : a = b := by
  cases a <;> cases b <;> simp_all [id?]

namespace Criteria

/-- What criteria hold after some calls. -/
structure Represents (c : Criteria) (calls : List Call) : Prop where
  /-- No two terms are of one kind. -/
  kinds : (c.terms.map FilterTerm.kind).Nodup
  /-- Every term has a value. -/
  nonempty : ∀ term ∈ c.terms, term.values ≠ []
  /-- A term of a kind with one value has one. -/
  single : ∀ term ∈ c.terms, term.kind.isMultiValued = false → term.values.length = 1
  /-- A term of a kind with several values has none twice. -/
  distinct : ∀ term ∈ c.terms, term.kind.isMultiValued = true → term.values.Nodup
  /-- Every value is of the variant of its kind. -/
  variants : ∀ term ∈ c.terms, ∀ value ∈ term.values, term.kind.HasVariant value
  /-- Of a kind with several values there are all different ones that were accepted, as they were first seen. -/
  values_all : ∀ kind : FilterKind, kind.isMultiValued = true → c.values kind = (kind.accepted calls).eraseDups
  /-- Of a kind with one value there is the last that was accepted. -/
  values_last : ∀ kind : FilterKind, kind.isMultiValued = false → c.values kind = (kind.accepted calls).getLast?.toList
  ids_all : ∀ kind : FilterKind, kind.isMultiValued = true →
    c.ids kind = ((kind.accepted calls).filterMap Scalar.id?).eraseDups
  ids_last : ∀ kind : FilterKind, kind.isMultiValued = false →
    c.ids kind = ((kind.accepted calls).getLast?.bind Scalar.id?).toList
  id? : ∀ kind : FilterKind, kind.isMultiValued = false → c.id? kind = (kind.accepted calls).getLast?.bind Scalar.id?
  likedBy? : c.likedBy? = (FilterKind.likedBy.accepted calls).getLast?.bind Scalar.id?
  visibility? : c.visibility? = (FilterKind.visibility.accepted calls).getLast?.bind Scalar.bool?
  hints : c.hints = {
    membership := (FilterKind.collection.accepted calls).getLast?.bind Scalar.id?
    taskOutput := (FilterKind.concept.accepted calls).getLast?.bind Scalar.id?
    graphFanOut := (SortSpec.accepted calls).any fun s => s.field == .following
    reactionFanOut := ((SortSpec.accepted calls).any fun s => s.field == .liked) ||
      ((FilterKind.likedBy.accepted calls).getLast?.bind Scalar.id?).isSome
    similarTo := (FilterKind.similar.accepted calls).getLast?.bind Scalar.id?
    search := (FilterKind.search.accepted calls).getLast?.bind Scalar.text? }
  /-- The order is the first that was accepted and is one that documents carry. -/
  sort : c.sort = (SortSpec.accepted calls).find? fun s => s.field.isLiteral
  followGraph : c.followGraph = true ↔ ∃ s ∈ SortSpec.accepted calls, s.field = .following
  reactionOrder : c.reactionOrder = true ↔ ∃ s ∈ SortSpec.accepted calls, s.field = .liked

/-- There is a term of each kind with values, and it holds what is kept of them. -/
theorem mem_terms_after {calls : List Call} {term : FilterTerm} : term ∈ (after calls).terms ↔
    term.kind.accepted calls ≠ [] ∧ term.values = term.kind.settle (term.kind.accepted calls) := by
  have hkind (kind : FilterKind) : kind ∈ (calls.filterMap Call.term?).map Prod.fst ↔ kind.accepted calls ≠ [] := by
    rw [← valuesOf_filterMap]
    refine ⟨fun h => ?_, fun h => Decidable.byContradiction fun hnot => h (valuesOf_eq_nil hnot)⟩
    obtain ⟨reading, hreading, rfl⟩ := List.mem_map.1 h
    exact List.ne_nil_of_mem (List.mem_map.2 ⟨reading, List.mem_filter.2 ⟨hreading, beq_self_eq_true _⟩, rfl⟩)
  rw [after_eq, ofReadings, termsOf]
  simp only [List.mem_map (l := List.eraseDups _), List.mem_eraseDups, hkind, valuesOf_filterMap]
  obtain ⟨kind, values⟩ := term
  constructor
  · rintro ⟨kind', hne, he⟩
    cases he
    exact ⟨hne, rfl⟩
  · rintro ⟨hne, hvalues⟩
    exact ⟨kind, hne, congrArg (FilterTerm.mk kind) hvalues.symm⟩

theorem kinds_after (calls : List Call) :
    (after calls).terms.map FilterTerm.kind = ((calls.filterMap Call.term?).map Prod.fst).eraseDups := by
  rw [after_eq, ofReadings, termsOf, List.map_map]
  exact List.map_id _

/-- The order is the first that is accepted and is one that documents carry. -/
theorem sort_after (calls : List Call) : (after calls).sort = (SortSpec.accepted calls).find? fun s =>
    s.field.isLiteral := by
  rw [after_eq]
  rfl

theorem followGraph_after (calls : List Call) :
    (after calls).followGraph = (SortSpec.accepted calls).any fun s => s.field == .following := by
  rw [after_eq]
  rfl

theorem reactionOrder_after (calls : List Call) :
    (after calls).reactionOrder = (SortSpec.accepted calls).any fun s => s.field == .liked := by
  rw [after_eq]
  rfl

section LastValue

variable {calls : List Call} {kind : FilterKind} (h : kind.isMultiValued = false)
include h

/-- Of a kind with one value the last is kept. -/
theorem values_after_last : (after calls).values kind = (kind.accepted calls).getLast?.toList := by
  rw [values_after, FilterKind.settle, h]
  rfl

/-- Whatever is read of a kind with one value is read of the last. -/
theorem head?_bind_values_after {α : Type} (read : Scalar → Option α) :
    ((after calls).values kind).head?.bind read = (kind.accepted calls).getLast?.bind read := by
  rw [values_after_last h]
  cases (kind.accepted calls).getLast? <;> rfl

end LastValue

/-- Whatever the calls, no matter which of them are refused, the criteria have at most one term of each kind, with
values of the variant of the kind: all different ones, or the last; what is read from them are the tokens that were
accepted, the order is the first that documents carry, and the two flags say whether a token asked for them. -/
theorem represents_after (calls : List Call) : (after calls).Represents calls := by
  have hterm {term : FilterTerm} (h : term ∈ (after calls).terms) := mem_terms_after.1 h
  have hall (kind : FilterKind) (h : kind.isMultiValued = true) :
      (after calls).values kind = (kind.accepted calls).eraseDups := by
    rw [values_after, FilterKind.settle, if_pos h]
  have hid (kind : FilterKind) (h : kind.isMultiValued = false) :
      (after calls).id? kind = (kind.accepted calls).getLast?.bind Scalar.id? := head?_bind_values_after h Scalar.id?
  exact {
    kinds := by
      rw [kinds_after]
      exact nodup_eraseDups _
    nonempty := by
      intro term h
      rw [(hterm h).2]
      exact FilterKind.settle_ne_nil (hterm h).1
    single := by
      intro term h hsingle
      rw [(hterm h).2]
      exact FilterKind.length_settle hsingle (hterm h).1
    distinct := by
      intro term h hmulti
      rw [(hterm h).2, FilterKind.settle, if_pos hmulti]
      exact nodup_eraseDups _
    variants := by
      intro term h value hvalue
      rw [(hterm h).2] at hvalue
      exact FilterKind.hasVariant_of_mem (FilterKind.mem_of_mem_settle hvalue)
    values_all := hall
    values_last := fun kind h => values_after_last h
    ids_all := by
      intro kind h
      rw [ids, hall kind h, filterMap_eraseDups fun a b u => Scalar.eq_of_id?]
    ids_last := by
      intro kind h
      rw [ids, values_after_last h]
      cases (kind.accepted calls).getLast? with
      | none => rfl
      | some value => cases hvalue : value.id? <;> simp [hvalue]
    id? := hid
    likedBy? := hid .likedBy rfl
    visibility? := head?_bind_values_after rfl Scalar.bool?
    hints := by
      have hsearch : ((after calls).values .search).head?.bind Scalar.text? =
          (FilterKind.search.accepted calls).getLast?.bind Scalar.text? := head?_bind_values_after rfl Scalar.text?
      rw [Criteria.hints, Criteria.likedBy?, hsearch, followGraph_after, reactionOrder_after, hid .collection rfl,
        hid .concept rfl, hid .similar rfl, hid .likedBy rfl]
    sort := sort_after calls
    followGraph := by
      rw [followGraph_after, List.any_eq_true]
      simp only [beq_iff_eq]
    reactionOrder := by
      rw [reactionOrder_after, List.any_eq_true]
      simp only [beq_iff_eq] }

/-- A visibility that is refused counts for nothing, the last that is accepted replaces the one before, names are
collected, and the first order that documents carry stands. -/
example :
    after [.filter "name;a", .filter "public;1", .filter "public;maybe", .filter "name;b", .filter "name;a",
      .filter "public;private", .sort "liked", .sort "createdAt;1", .sort "likeCount"] =
    ⟨[⟨.name, [.text "a", .text "b"]⟩, ⟨.visibility, [.bool false]⟩], some ⟨.createdAt, .ascending⟩, false, true⟩ := by
  decide

end Criteria

end FeedQuery
