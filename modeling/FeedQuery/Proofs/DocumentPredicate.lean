import Mathlib.Logic.Relation
import FeedQuery.Proofs.ExactNumber
import FeedQuery.Proofs.Malformed
import FeedQuery.Proofs.Predicate
import FeedQuery.Proofs.Representation

/-!
# What filters demand of documents

The tokens of a request that is not refused demand of a document, field by field, what is written in `Demands`: one of
the values that are given for an owner, agent, task, name or base model; the last bound on the date and on the likes; a
count above zero for an order by a count. Nothing in it depends on the order of tokens for different fields, on tokens
that say nothing, or on a token that is said again (`FilterKind.Reworded`), and so neither does the predicate that
criteria make of the tokens (`Criteria.documentPredicate_exact`), whichever form it takes: an equality, a list of values
or a bound, flattened into one conjunction.
-/

namespace FeedQuery

/-! ## What tokens give -/

/-- The values of a kind that filter tokens give. -/
def FilterKind.given (kind : FilterKind) (filters : List String) : List Scalar := filters.filterMap kind.value?

/-- The first order that documents carry. -/
def SortSpec.first? (sorts : List String) : Option SortSpec :=
  (sorts.filterMap reading?).find? fun s => s.field.isLiteral

/-- The field holds one of some values, if there are any. -/
def Document.HoldsOneOf (d : Document) (path : Path) (values : List Scalar) : Prop :=
  values ≠ [] → ∃ value ∈ values, value.holdsAt (d.get? path) = true

/-- The date in a field. -/
def Document.date? (d : Document) (path : Path) : Option Instant :=
  ((d.get? path).bind Json.string?).bind Instant.ofText?

/-- The number in a field. -/
def Document.number? (d : Document) (path : Path) : Option Double := (d.get? path).bind Json.double?

/-- What filter and sort tokens demand of a document. -/
structure Demands (filters sorts : List String) (collection : Collection) (d : Document) : Prop where
  owner : d.HoldsOneOf collection.owner (FilterKind.owner.given filters)
  agent : d.HoldsOneOf (.field "agent") (FilterKind.agent.given filters)
  task : d.HoldsOneOf (.field "task") (FilterKind.task.given filters)
  name : d.HoldsOneOf (.field "name") (FilterKind.name.given filters)
  baseModel : d.HoldsOneOf (.field "baseModel") (FilterKind.baseModel.given filters)
  /-- Not before the last date that is given. -/
  minDate : ∀ bound, (FilterKind.minDate.given filters).getLast? = some (.datetime bound) →
    ∃ date, d.date? (.field "createdAt") = some date ∧ bound.nanos ≤ date.nanos
  /-- Not after the last date that is given. -/
  maxDate : ∀ bound, (FilterKind.maxDate.given filters).getLast? = some (.datetime bound) →
    ∃ date, d.date? (.field "createdAt") = some date ∧ date.nanos ≤ bound.nanos
  /-- Not less than the last number that is given. -/
  minLikes : ∀ bound, (FilterKind.minLikes.given filters).getLast? = some (.number bound) →
    ∃ likes, d.number? (.field "likeCount") = some likes ∧ bound.signedQuanta ≤ likes.signedQuanta
  /-- More than zero of what the order counts. -/
  counter : ∀ counter, (SortSpec.first? sorts).map SortSpec.field = some (.counter counter) →
    ∃ count, d.number? counter.path = some count ∧ 0 < count.signedQuanta

/-! ## Bounds -/

namespace Predicate

/-- A field lies towards a date as the date that it holds. -/
theorem accepts_order_datetime (path : Path) (comparison : Comparison) (bound : Instant) (d : Document) :
    (order path comparison (.datetime bound)).accepts d = (d.date? path).any fun date =>
      comparison.admits (compare date.nanos bound.nanos) := by
  unfold accepts Document.date?
  cases d.get? path with
  | none => rfl
  | some value =>
    have horder : (Scalar.datetime bound).orderOf value = (value.string?.bind Instant.ofText?).map fun date =>
        compare date.nanos bound.nanos := by
      change ((value.string?.bind Instant.ofText?).map Scalar.datetime).bind _ = _
      cases value.string?.bind Instant.ofText? <;> rfl
    rw [Option.bind_some, Option.bind_some, horder]
    cases value.string?.bind Instant.ofText? <;> rfl

/-- A field lies towards a number as the number that it holds. -/
theorem accepts_order_number (path : Path) (comparison : Comparison) {bound : Double} (h : bound.isFinite = true)
    (d : Document) :
    (order path comparison (.number bound)).accepts d =
      (d.number? path).any fun number => comparison.admits (compare number.signedQuanta bound.signedQuanta) := by
  unfold accepts Document.number?
  cases d.get? path with
  | none => rfl
  | some value =>
    have horder : (Scalar.number bound).orderOf value = value.double?.map fun number =>
        compare number.signedQuanta bound.signedQuanta := by
      change (value.double?.map Scalar.number).bind _ = _
      cases hnumber : value.double? with
      | none => rfl
      | some number => exact Double.compare?_eq (Json.isFinite_of_double? hnumber) h
    rw [Option.bind_some, Option.bind_some, horder]
    cases value.double? <;> rfl

end Predicate

theorem Comparison.gte_admits {a b : Int} : gte.admits (compare a b) = true ↔ b ≤ a := by
  simp [admits, Int.compare_eq_lt]

theorem Comparison.lte_admits {a b : Int} : lte.admits (compare a b) = true ↔ a ≤ b := by
  simp [admits, Int.compare_eq_gt]

theorem Comparison.gt_admits {a b : Int} : gt.admits (compare a b) = true ↔ b < a := by
  simp [admits, Int.compare_eq_gt]

namespace Criteria

/-! ## Terms -/

/-- A term of a kind with several values accepts what holds one of them, in whichever form. -/
theorem accepts_termPredicate_all {kind : FilterKind} (h : kind.isMultiValued = true) (path : Path)
    (values : List Scalar) (d : Document) :
    (termPredicate path ⟨kind, values⟩).accepts d = true ↔ ∃ value ∈ values, value.holdsAt (d.get? path) = true := by
  rcases values with _ | ⟨value, _ | ⟨second, rest⟩⟩ <;> cases kind <;>
    simp_all [termPredicate, FilterKind.isMultiValued]

/-- The criteria demand of documents what each term with a field and the order demand. -/
theorem accepts_documentPredicate (c : Criteria) (collection : Collection) (d : Document) :
    (c.documentPredicate collection).accepts d = true ↔
    (∀ term ∈ c.terms, ∀ path, path? collection term.kind = some path → (termPredicate path term).accepts d = true) ∧
      ∀ counter, c.sort.map SortSpec.field = some (.counter counter) →
        (Predicate.order counter.path .gt (.number .zero)).accepts d = true := by
  have hside : (∀ p ∈ (c.sort.bind SortSpec.sideFilter?).toList, p.accepts d = true) ↔
      ∀ counter, c.sort.map SortSpec.field = some (.counter counter) →
        (Predicate.order counter.path .gt (.number .zero)).accepts d = true := by
    cases c.sort with
    | none => simp
    | some s =>
      obtain ⟨field, direction⟩ := s
      cases field <;> simp [SortSpec.sideFilter?]
  rw [documentPredicate, Predicate.accepts_all, List.all_eq_true, List.forall_mem_append, hside]
  refine and_congr_left fun _ => ?_
  simp only [List.mem_filterMap, Option.map_eq_some_iff]
  constructor
  · exact fun h term hterm path hpath => h _ ⟨term, hterm, path, hpath, rfl⟩
  · rintro h _ ⟨term, hterm, path, hpath, rfl⟩
    exact h term hterm path hpath

/-! ## Tokens -/

/-- Steps that are all passed are those that pass over what is refused. -/
theorem foldl_getD_of_foldlM {ε α β : Type} {step : β → α → Except ε β} {elements : List α} {b b' : β}
    (h : elements.foldlM step b = .ok b') : elements.foldl (fun b a => (step b a).toOption.getD b) b = b' := by
  induction elements generalizing b with
  | nil => exact Except.ok.inj h
  | cons a rest ih =>
    rw [List.foldlM_cons] at h
    obtain ⟨next, hstep, hrest⟩ := of_bind_eq_ok h
    rw [List.foldl_cons, hstep]
    exact ih hrest

/-- The calls that put filter tokens and then sort tokens to criteria. -/
def calls (filters sorts : List String) : List Call := filters.map .filter ++ sorts.map .sort

theorem after_of_compile {filters sorts : List String} {c : Criteria} (h : compile filters sorts = .ok c) :
    after (calls filters sorts) = c := by
  obtain ⟨filtered, hfilters, hsorts⟩ := of_bind_eq_ok h
  rw [after, calls, List.foldl_append, List.foldl_map, List.foldl_map]
  refine Eq.trans ?_ (foldl_getD_of_foldlM hsorts)
  exact congrArg (sorts.foldl _) (foldl_getD_of_foldlM hfilters)

theorem accepted_calls (kind : FilterKind) (filters sorts : List String) :
    kind.accepted (calls filters sorts) = kind.given filters := by
  have hfilters : Call.value? kind ∘ Call.filter = kind.value? := rfl
  have hsorts : Call.value? kind ∘ Call.sort = fun _ => none := rfl
  rw [FilterKind.accepted, calls, List.filterMap_append, List.filterMap_map, List.filterMap_map, hfilters, hsorts]
  simp [FilterKind.given]

theorem sort_accepted_calls (filters sorts : List String) :
    SortSpec.accepted (calls filters sorts) = sorts.filterMap SortSpec.reading? := by
  have hfilters : Call.sort? ∘ Call.filter = fun _ => none := rfl
  have hsorts : Call.sort? ∘ Call.sort = SortSpec.reading? := by
    funext token
    rw [Function.comp_apply, Call.sort?]
  rw [SortSpec.accepted, calls, List.filterMap_append, List.filterMap_map, List.filterMap_map, hfilters, hsorts]
  simp

section Tokens

variable {filters sorts : List String} {collection : Collection} {d : Document}

/-- What the term of a kind demands where tokens give values of the kind. -/
def TermAccepts (filters : List String) (d : Document) (kind : FilterKind) (path : Path) : Prop :=
  kind.given filters ≠ [] → (termPredicate path ⟨kind, kind.settle (kind.given filters)⟩).accepts d = true

/-- The terms of tokens, kind by kind. -/
theorem forall_terms_calls_iff :
    (∀ term ∈ (after (calls filters sorts)).terms, ∀ path, path? collection term.kind = some path →
      (termPredicate path term).accepts d = true) ↔
    ∀ kind path, path? collection kind = some path → TermAccepts filters d kind path := by
  unfold TermAccepts
  simp only [mem_terms_after, accepted_calls]
  constructor
  · exact fun h kind path hpath hgiven => h ⟨kind, _⟩ ⟨hgiven, rfl⟩ path hpath
  · rintro h ⟨kind, values⟩ ⟨hgiven, hvalues⟩ path hpath
    dsimp only at hgiven hvalues hpath
    rw [hvalues]
    exact h kind path hpath hgiven

/-- A kind with several values demands one of those that are given. -/
theorem termAccepts_all_iff {kind : FilterKind} (h : kind.isMultiValued = true) (path : Path) :
    TermAccepts filters d kind path ↔ d.HoldsOneOf path (kind.given filters) := by
  rw [TermAccepts, Document.HoldsOneOf, FilterKind.settle, if_pos h]
  simp only [accepts_termPredicate_all h, List.mem_eraseDups]

/-- A kind with one value makes its demand of the last that is given. -/
theorem termAccepts_last_iff {kind : FilterKind} (h : kind.isMultiValued = false) (path : Path) :
    TermAccepts filters d kind path ↔
    ∀ value, (kind.given filters).getLast? = some value → (termPredicate path ⟨kind, [value]⟩).accepts d = true := by
  rw [TermAccepts, FilterKind.settle, h]
  cases hlast : (kind.given filters).getLast? with
  | none => simp [List.getLast?_eq_none_iff.1 hlast]
  | some value =>
    have hgiven : kind.given filters ≠ [] := fun he => by rw [he] at hlast; cases hlast
    simp [hgiven]

/-- A value that is given has the variant of its kind. -/
theorem hasVariant_of_getLast? {kind : FilterKind} {value : Scalar} (h : (kind.given filters).getLast? = some value) :
    kind.HasVariant value := by
  obtain ⟨token, -, hvalue⟩ := List.mem_filterMap.1 (List.mem_of_getLast? h)
  exact FilterKind.hasVariant_of_value? hvalue

/-- A bound on a date is the last date that is given. -/
theorem termAccepts_date_iff {kind : FilterKind} {path : Path} (comparison : Comparison)
    (hkind : kind.isMultiValued = false) (hvariant : ∀ value, kind.HasVariant value → ∃ date, value = .datetime date)
    (hterm : ∀ bound, termPredicate path ⟨kind, [.datetime bound]⟩ = .order path comparison (.datetime bound)) :
    TermAccepts filters d kind path ↔ ∀ bound, (kind.given filters).getLast? = some (.datetime bound) →
      ∃ date, d.date? path = some date ∧ comparison.admits (compare date.nanos bound.nanos) = true := by
  rw [termAccepts_last_iff hkind]
  simp only [← Option.any_eq_true, ← Predicate.accepts_order_datetime, ← hterm]
  constructor
  · exact fun h bound hlast => h _ hlast
  · intro h value hlast
    obtain ⟨bound, rfl⟩ := hvariant value (hasVariant_of_getLast? hlast)
    exact h bound hlast

/-- A bound on a number is the last number that is given. -/
theorem termAccepts_minLikes_iff (path : Path) :
    TermAccepts filters d .minLikes path ↔ ∀ bound, (FilterKind.minLikes.given filters).getLast? =
      some (.number bound) →
      ∃ likes, d.number? path = some likes ∧ bound.signedQuanta ≤ likes.signedQuanta := by
  have hbound (bound : Double) (h : bound.isFinite = true) :
      (termPredicate path ⟨.minLikes, [.number bound]⟩).accepts d = true ↔
      ∃ likes, d.number? path = some likes ∧ bound.signedQuanta ≤ likes.signedQuanta := by
    have hterm : termPredicate path ⟨.minLikes, [.number bound]⟩ = .order path .gte (.number bound) := rfl
    simp only [hterm, Predicate.accepts_order_number path .gte h, Option.any_eq_true, Comparison.gte_admits]
  rw [termAccepts_last_iff rfl]
  constructor
  · intro h bound hlast
    obtain ⟨_, he, hfinite⟩ := hasVariant_of_getLast? hlast
    cases he
    exact (hbound bound hfinite).1 (h _ hlast)
  · intro h value hlast
    obtain ⟨bound, rfl, hfinite⟩ := hasVariant_of_getLast? hlast
    exact (hbound bound hfinite).2 (h bound hlast)

/-- Criteria of tokens demand what the tokens demand. -/
theorem accepts_after_calls : ((after (calls filters sorts)).documentPredicate collection).accepts d = true ↔
    Demands filters sorts collection d := by
  have hsort : (after (calls filters sorts)).sort = SortSpec.first? sorts := by
    rw [sort_after, sort_accepted_calls]
    rfl
  have hminDate : TermAccepts filters d .minDate .createdAt ↔ _ :=
    termAccepts_date_iff .gte rfl (fun _ h => h) fun _ => rfl
  have hmaxDate : TermAccepts filters d .maxDate .createdAt ↔ _ :=
    termAccepts_date_iff .lte rfl (fun _ h => h) fun _ => rfl
  have hcounter (counter : Counter) : (Predicate.order counter.path .gt (.number .zero)).accepts d = true ↔
      ∃ count, d.number? counter.path = some count ∧ 0 < count.signedQuanta := by
    have hzero : Double.zero.isFinite = true := by decide
    simp only [Predicate.accepts_order_number counter.path .gt hzero, Option.any_eq_true, Comparison.gt_admits]
    rfl
  simp only [Comparison.gte_admits] at hminDate
  simp only [Comparison.lte_admits] at hmaxDate
  rw [accepts_documentPredicate, forall_terms_calls_iff, hsort]
  simp only [hcounter]
  constructor
  · rintro ⟨hterms, hcount⟩
    have hall (kind : FilterKind) (hkind : kind.isMultiValued = true) (path : Path)
        (hpath : path? collection kind = some path) :=
      (termAccepts_all_iff hkind path).1 (hterms kind path hpath)
    exact {
      owner := hall .owner rfl _ rfl
      agent := hall .agent rfl _ rfl
      task := hall .task rfl _ rfl
      name := hall .name rfl _ rfl
      baseModel := hall .baseModel rfl _ rfl
      minDate := hminDate.1 (hterms .minDate _ rfl)
      maxDate := hmaxDate.1 (hterms .maxDate _ rfl)
      minLikes := (termAccepts_minLikes_iff _).1 (hterms .minLikes _ rfl)
      counter := hcount }
  · intro h
    refine ⟨fun kind path hpath => ?_, h.counter⟩
    cases kind with
    | owner => cases hpath; exact (termAccepts_all_iff rfl _).2 h.owner
    | agent => cases hpath; exact (termAccepts_all_iff rfl _).2 h.agent
    | task => cases hpath; exact (termAccepts_all_iff rfl _).2 h.task
    | name => cases hpath; exact (termAccepts_all_iff rfl _).2 h.name
    | baseModel => cases hpath; exact (termAccepts_all_iff rfl _).2 h.baseModel
    | minDate => cases hpath; exact hminDate.2 h.minDate
    | maxDate => cases hpath; exact hmaxDate.2 h.maxDate
    | minLikes => cases hpath; exact (termAccepts_minLikes_iff _).2 h.minLikes
    | collection | concept | similar | likedBy | visibility | search => cases hpath

end Tokens

end Criteria

/-! ## The same in other words -/

namespace FilterKind

/-- A token that is put in or taken out, or that changes places with the next, where that changes nothing of what the
tokens demand: one that says nothing; one that is said again later; one that was said before, of a kind with several
values; two that are not for one kind. -/
inductive Reworded : List String → List String → Prop
  | idle {token : String} (before after : List String) :
    ofToken? token = none → Reworded (before ++ after) (before ++ token :: after)
  | again {token : String} (before after : List String) :
    token ∈ after → Reworded (before ++ after) (before ++ token :: after)
  | more {token : String} {kind : FilterKind} (before after : List String) :
    ofToken? token = some kind → kind.isMultiValued = true →
      token ∈ before → Reworded (before ++ after) (before ++ token :: after)
  | swap {token other : String} (before after : List String) : ofToken? token ≠ ofToken? other →
      Reworded (before ++ token :: other :: after) (before ++ other :: token :: after)

/-- Tokens give the same values of kinds with several values, the same last value of any other kind, and are refused
together. -/
structure SaysAlike (filters filters' : List String) : Prop where
  all : ∀ kind : FilterKind, kind.isMultiValued = true → ∀ value, value ∈ kind.given filters ↔
    value ∈ kind.given filters'
  last : ∀ kind : FilterKind, kind.isMultiValued = false →
    (kind.given filters).getLast? = (kind.given filters').getLast?
  refused : (∀ token ∈ filters, ¬IsMalformed token) ↔ ∀ token ∈ filters', ¬IsMalformed token

theorem SaysAlike.symm {filters filters' : List String} (h : SaysAlike filters filters') : SaysAlike filters' filters :=
  ⟨fun kind hkind value => (h.all kind hkind value).symm, fun kind hkind => (h.last kind hkind).symm, h.refused.symm⟩

/-- A token gives a value of the kind that it is for. -/
theorem ofToken?_of_value? {kind : FilterKind} {token : String} {value : Scalar} (h : kind.value? token = some value) :
    ofToken? token = some kind := by
  simp only [value?, reading?, Option.map_eq_some_iff, Option.filter_eq_some_iff, Option.bind_eq_some_iff, beq_iff_eq]
    at h
  obtain ⟨reading, ⟨⟨parts, hparts, other, hother, -, -, rfl⟩, rfl⟩, -⟩ := h
  rw [ofToken?, hparts]
  exact hother

theorem ofToken?_ne_none {token : String} (h : IsMalformed token) : ofToken? token ≠ none := by
  obtain ⟨field, raw, kind, hsplit, hkind, -⟩ := h
  simp [ofToken?, hsplit, hkind]

theorem given_append (kind : FilterKind) (before after : List String) :
    kind.given (before ++ after) = kind.given before ++ kind.given after :=
  List.filterMap_append

theorem given_cons_none {kind : FilterKind} {token : String} (h : kind.value? token = none) (rest : List String) :
    kind.given (token :: rest) = kind.given rest := List.filterMap_cons_none h

theorem given_cons_some {kind : FilterKind} {token : String} {value : Scalar} (h : kind.value? token = some value)
    (rest : List String) :
    kind.given (token :: rest) = value :: kind.given rest := List.filterMap_cons_some h

theorem mem_given {kind : FilterKind} {filters : List String} {token : String} {value : Scalar}
    (htoken : token ∈ filters) (h : kind.value? token = some value) : value ∈ kind.given filters :=
  List.mem_filterMap.2 ⟨token, htoken, h⟩

/-- A token may be put in where its value is given anyway, and is not the last of its kind or the kind has several
values. -/
theorem saysAlike_insert {token : String} {before after : List String}
    (hvalue : ∀ kind value, value? kind token = some value →
      value ∈ kind.given (before ++ after) ∧ (kind.isMultiValued = true ∨ kind.given after ≠ []))
    (hrefused : IsMalformed token → token ∈ before ++ after) :
    SaysAlike (before ++ after) (before ++ token :: after) where
  all := by
    intro kind hkind value
    rw [given_append, given_append, List.mem_append, List.mem_append]
    cases hgiven : value? kind token with
    | none => rw [given_cons_none hgiven]
    | some extra =>
      have hextra := (hvalue kind extra hgiven).1
      rw [given_append, List.mem_append] at hextra
      rw [given_cons_some hgiven, List.mem_cons]
      constructor
      · exact fun h => h.imp_right .inr
      · rintro (h | rfl | h)
        · exact .inl h
        · exact hextra
        · exact .inr h
  last := by
    intro kind hkind
    rw [given_append, given_append]
    cases hgiven : value? kind token with
    | none => rw [given_cons_none hgiven]
    | some extra =>
      have hafter : kind.given after ≠ [] := (hvalue kind extra hgiven).2.resolve_left (by simp [hkind])
      rw [given_cons_some hgiven, List.getLast?_append_of_ne_nil _ hafter,
        List.getLast?_append_of_ne_nil _ (List.cons_ne_nil _ _), List.getLast?_cons_of_ne_nil hafter]
  refused := by
    constructor
    · intro h other hother
      rcases List.mem_append.1 hother with hm | hm
      · exact h other (List.mem_append_left _ hm)
      · rcases List.mem_cons.1 hm with rfl | hm
        · exact fun hbad => h other (hrefused hbad) hbad
        · exact h other (List.mem_append_right _ hm)
    · exact fun h other hother =>
        h other (List.mem_append.2 ((List.mem_append.1 hother).imp_right (List.mem_cons_of_mem token)))

theorem Reworded.saysAlike {filters filters' : List String} (h : Reworded filters filters') :
    SaysAlike filters filters' := by
  cases h with
  | idle before after htoken =>
    refine saysAlike_insert (fun kind value hvalue => ?_) fun hbad => absurd htoken (ofToken?_ne_none hbad)
    rw [ofToken?_of_value? hvalue] at htoken
    cases htoken
  | again before after htoken =>
    refine saysAlike_insert (fun kind value hvalue => ?_) fun _ => List.mem_append_right _ htoken
    exact ⟨mem_given (List.mem_append_right _ htoken) hvalue, .inr (List.ne_nil_of_mem (mem_given htoken hvalue))⟩
  | more before after htoken hkind hmem =>
    refine saysAlike_insert (fun other value hvalue => ?_) fun _ => List.mem_append_left _ hmem
    rw [ofToken?_of_value? hvalue, Option.some.injEq] at htoken
    exact ⟨mem_given (List.mem_append_left _ hmem) hvalue, .inl (htoken ▸ hkind)⟩
  | @swap token other before after htoken =>
    have hgiven (kind : FilterKind) : kind.given (before ++ token :: other :: after) =
        kind.given (before ++ other :: token :: after) := by
      rw [given_append, given_append]
      refine congrArg _ ?_
      cases hfirst : value? kind token with
      | none =>
        rw [given_cons_none hfirst]
        cases hsecond : value? kind other with
        | none => rw [given_cons_none hsecond, given_cons_none hsecond, given_cons_none hfirst]
        | some value => rw [given_cons_some hsecond, given_cons_some hsecond, given_cons_none hfirst]
      | some value =>
        -- the other token is for another kind
        have hsecond : value? kind other = none := by
          cases hsecond : value? kind other with
          | none => rfl
          | some _ => exact absurd ((ofToken?_of_value? hfirst).trans (ofToken?_of_value? hsecond).symm) htoken
        rw [given_cons_some hfirst, given_cons_none hsecond, given_cons_none hsecond, given_cons_some hfirst]
    refine ⟨fun kind _ value => by rw [hgiven], fun kind _ => by rw [hgiven], ?_⟩
    simp only [List.forall_mem_append, List.forall_mem_cons]
    exact and_congr_right fun _ => and_left_comm

theorem saysAlike_of_eqvGen {filters filters' : List String} (h : Relation.EqvGen Reworded filters filters') :
    SaysAlike filters filters' := by
  induction h with
  | rel _ _ h => exact h.saysAlike
  | refl _ => exact ⟨fun _ _ _ => .rfl, fun _ _ => rfl, .rfl⟩
  | symm _ _ _ ih => exact ih.symm
  | trans _ _ _ _ _ ih ih' =>
    exact ⟨fun kind hkind value => (ih.all kind hkind value).trans (ih'.all kind hkind value),
      fun kind hkind => (ih.last kind hkind).trans (ih'.last kind hkind), ih.refused.trans ih'.refused⟩

end FilterKind

/-- Tokens that say alike demand the same, under orders by the same field. -/
theorem Demands.of_saysAlike {filters filters' sorts sorts' : List String} {collection : Collection} {d : Document}
    (h : FilterKind.SaysAlike filters filters')
    (hsorts : (SortSpec.first? sorts').map SortSpec.field = (SortSpec.first? sorts).map SortSpec.field)
    (hd : Demands filters sorts collection d) : Demands filters' sorts' collection d := by
  have hall (kind : FilterKind) (hkind : kind.isMultiValued = true) (path : Path)
      (hold : d.HoldsOneOf path (kind.given filters)) :
      d.HoldsOneOf path (kind.given filters') := by
    intro hne
    obtain ⟨value, hvalue⟩ := List.exists_mem_of_ne_nil _ hne
    obtain ⟨held, hheld, hholds⟩ := hold (List.ne_nil_of_mem ((h.all kind hkind value).2 hvalue))
    exact ⟨held, (h.all kind hkind held).1 hheld, hholds⟩
  exact {
    owner := hall .owner rfl _ hd.owner
    agent := hall .agent rfl _ hd.agent
    task := hall .task rfl _ hd.task
    name := hall .name rfl _ hd.name
    baseModel := hall .baseModel rfl _ hd.baseModel
    minDate := by rw [← h.last .minDate rfl]; exact hd.minDate
    maxDate := by rw [← h.last .maxDate rfl]; exact hd.maxDate
    minLikes := by rw [← h.last .minLikes rfl]; exact hd.minLikes
    counter := by rw [hsorts]; exact hd.counter }

/-- The predicate of criteria that tokens are compiled to accepts a document exactly if it is as the tokens demand.
Tokens of fields that are not known, and filter tokens without a separator, may be left out of the request. And however
the filter tokens are put, with others that say nothing, said again, or in another order of their fields, and whatever
sort tokens come with them, as long as the first order that documents carry is by the same field: the request is not
refused, and its predicate accepts the same documents. -/
theorem Criteria.documentPredicate_exact {filters sorts : List String} {c : Criteria}
    (h : compile filters sorts = .ok c) :
    (∀ collection d, (c.documentPredicate collection).accepts d = true ↔ Demands filters sorts collection d) ∧
    compile (filters.filter fun token => (FilterKind.ofToken? token).isSome)
      (sorts.filter fun token => (SortField.ofToken? token).isSome) =
      .ok c ∧
    ∀ filters' sorts', Relation.EqvGen FilterKind.Reworded filters filters' →
      (∀ token ∈ sorts', ¬SortField.IsMalformed token) →
      (SortSpec.first? sorts').map SortSpec.field = (SortSpec.first? sorts).map SortSpec.field →
      ∃ c', compile filters' sorts' = .ok c' ∧
        ∀ collection d, (c'.documentPredicate collection).accepts d = (c.documentPredicate collection).accepts d := by
  have hmeaning {filters sorts : List String} {c : Criteria} (h : compile filters sorts = .ok c)
      (collection : Collection) (d : Document) :
      (c.documentPredicate collection).accepts d = true ↔ Demands filters sorts collection d := by
    rw [← accepts_after_calls, after_of_compile h]
  refine ⟨hmeaning h, (compile_idle filters sorts).trans h, fun filters' sorts' hreworded hsorts hfield => ?_⟩
  have halike := FilterKind.saysAlike_of_eqvGen hreworded
  have hfilters : ∀ token ∈ filters, ¬FilterKind.IsMalformed token :=
    ((isOk_compile filters sorts).1 (by rw [h]; rfl)).1
  have hok : (compile filters' sorts').isOk = true :=
    (isOk_compile filters' sorts').2 ⟨halike.refused.1 hfilters, hsorts⟩
  cases hcompiled : compile filters' sorts' with
  | error rejection => rw [hcompiled] at hok; cases hok
  | ok c' =>
    refine ⟨c', rfl, fun collection d => Bool.eq_iff_iff.2 ?_⟩
    rw [hmeaning hcompiled, hmeaning h]
    exact ⟨Demands.of_saysAlike halike.symm hfield.symm, Demands.of_saysAlike halike hfield⟩

/-- The theorem at a request with two owners, one bound after another and a field that is not known, and at the same
tokens with the first bound before the owners. -/
theorem Criteria.documentPredicate_exact_sample :
    ∃ c, compile ["user;00000000-0000-0000-0000-000000000003", "minLikes;5", "owner;00000000000000000000000000000004",
      "minLikes;2", "color;red"]
        ["following", "likeCount"] = .ok c ∧
      (∀ collection d, (c.documentPredicate collection).accepts d = true ↔
        Demands ["user;00000000-0000-0000-0000-000000000003", "minLikes;5", "owner;00000000000000000000000000000004",
          "minLikes;2", "color;red"]
          ["following", "likeCount"] collection d) ∧
      ∃ c', compile ["minLikes;5", "user;00000000-0000-0000-0000-000000000003",
        "owner;00000000000000000000000000000004", "minLikes;2",
          "color;red"] ["likeCount;1", "createdAt"] = .ok c' ∧
        ∀ collection d, (c'.documentPredicate collection).accepts d = (c.documentPredicate collection).accepts d := by
  have hcompile : compile ["user;00000000-0000-0000-0000-000000000003", "minLikes;5",
      "owner;00000000000000000000000000000004", "minLikes;2", "color;red"] ["following", "likeCount"] =
      .ok ⟨[⟨.owner, [.id ⟨3⟩, .id ⟨4⟩]⟩, ⟨.minLikes, [.number (.ofInt 2)]⟩],
        some ⟨.counter .likeCount, .descending⟩, true, false⟩ := by decide +kernel
  obtain ⟨hdemands, -, hreworded⟩ := documentPredicate_exact hcompile
  have hsorts := ((isOk_compile [] ["likeCount;1", "createdAt"]).1 (by decide)).2
  exact ⟨_, hcompile, hdemands, hreworded _ _ (.rel _ _ (.swap [] _ (by decide +kernel))) hsorts (by decide +kernel)⟩

end FeedQuery
