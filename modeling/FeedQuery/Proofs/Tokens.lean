import Mathlib.Data.List.Basic
import FeedQuery.Visibility

/-!
# What tokens say

A token says the same to all criteria (`Criteria.withFilter_eq_ok`): nothing, or a value of a kind of filter, which goes
among the terms. So every value among the terms was read by its kind (`Criteria.isRead_of_compile`), and leaving out the
tokens of a kind leaves out the terms of that kind and nothing else (`Criteria.compile_without`). Both are proved of one
token first, and then of all of them in turn.
-/

namespace FeedQuery

/-- What goes on after a step that may refuse goes on with what the step gives. -/
theorem of_bind_eq_ok {ε α β : Type} {x : Except ε α} {f : α → Except ε β} {b : β} (h : (x >>= f) = .ok b) :
    ∃ a, x = .ok a ∧ f a = .ok b := by
  cases x with
  | error e => simp [bind, Except.bind] at h
  | ok a => exact ⟨a, rfl, h⟩

/-- The kind of filter that a token is for, if its field is known. -/
def FilterKind.ofToken? (token : String) : Option FilterKind :=
  (Text.splitOnce? ';' token).bind fun parts => ofField? (Text.trim parts.1)

/-- The filter tokens that are not for the kind. -/
def FilterKind.without (kind : FilterKind) (filters : List String) : List String :=
  filters.filter fun token => ofToken? token != some kind

theorem FilterKind.without_cons (kind : FilterKind) (token : String) (rest : List String) :
    kind.without (token :: rest) =
    if ofToken? token = some kind then kind.without rest else token :: kind.without rest := by
  unfold without
  rw [List.filter_cons]
  by_cases h : ofToken? token = some kind <;> simp [h]

/-- An owner is read as an identifier. -/
theorem FilterKind.exists_id_of_read {raw : String} {value : Scalar} (h : owner.read raw = .ok value) :
    ∃ id, value = .id id := by
  simp only [read] at h
  split at h
  · exact ⟨_, (Except.ok.inj h).symm⟩
  · simp at h

/-- A new value of a term is the one that is added, or was there. -/
theorem FilterTerm.mem_add {t : FilterTerm} {value v : Scalar} (h : v ∈ (t.add value).values) :
    v = value ∨ v ∈ t.values := by
  unfold add at h
  split at h
  · split at h
    · exact .inr h
    · exact (List.mem_append.1 h).elim .inr fun h => .inl (List.mem_singleton.1 h)
  · exact .inl (List.mem_singleton.1 h)

@[simp] theorem FilterTerm.kind_add (t : FilterTerm) (value : Scalar) : (t.add value).kind = t.kind := by
  unfold add
  split
  · split <;> rfl
  · rfl

namespace Criteria

variable {c c' : Criteria} {token : String}

/-! ## One token -/

/-- A filter token that is not refused says nothing to any criteria, or the same value to all. -/
theorem withFilter_eq_ok (h : c.withFilter token = .ok c') :
    (FilterKind.ofToken? token = none ∧ ∀ a : Criteria, a.withFilter token = .ok a) ∨
    ∃ kind raw value, FilterKind.ofToken? token = some kind ∧ kind.read raw = .ok value ∧
      ∀ a : Criteria, a.withFilter token = .ok { a with terms := addValue kind value a.terms } := by
  unfold withFilter at h
  cases hsplit : Text.splitOnce? ';' token with
  | none => exact .inl ⟨by simp [FilterKind.ofToken?, hsplit], fun a => by simp [withFilter, hsplit]⟩
  | some parts =>
    obtain ⟨field, raw⟩ := parts
    cases hkind : FilterKind.ofField? (Text.trim field) with
    | none => exact .inl ⟨by simp [FilterKind.ofToken?, hsplit, hkind], fun a => by simp [withFilter, hsplit, hkind]⟩
    | some kind =>
      cases hread : kind.read (Text.trim raw) with
      | error fault => simp [hsplit, hkind, hread] at h
      | ok value =>
        exact .inr ⟨kind, Text.trim raw, value, by simp [FilterKind.ofToken?, hsplit, hkind], hread,
          fun a => by simp [withFilter, hsplit, hkind, hread]⟩

/-- A sort token neither reads nor writes the terms. -/
theorem withSort_terms (c : Criteria) (token : String) (terms : List FilterTerm) :
    ({ c with terms := terms } : Criteria).withSort token = (c.withSort token).map fun c' =>
      { c' with terms := terms } := by
  have horder (field : SortField) (direction : Direction) :
      ({ c with terms := terms } : Criteria).order field direction =
      { c.order field direction with terms := terms } := by
    cases field <;> rfl
  unfold withSort
  generalize (Text.splitOnce? ';' token).getD (token, "-1") = parts
  obtain ⟨field, raw⟩ := parts
  dsimp only
  cases SortField.ofField? (Text.trim field) with
  | none => rfl
  | some sortField =>
    cases Direction.ofText? raw with
    | none => rfl
    | some direction => exact congrArg Except.ok (horder sortField direction)

/-- The terms after a value was put among them: one of them may have the value, every other value was there. -/
theorem of_mem_addValue {kind : FilterKind} {value : Scalar} {terms : List FilterTerm} {term : FilterTerm}
    (h : term ∈ addValue kind value terms) {v : Scalar} (hv : v ∈ term.values) :
    term.kind = kind ∧ v = value ∨ ∃ old ∈ terms, old.kind = term.kind ∧ v ∈ old.values := by
  fun_induction addValue kind value terms with
  | case1 =>
    obtain rfl := List.mem_singleton.1 h
    exact .inl ⟨rfl, List.mem_singleton.1 hv⟩
  | case2 first rest hkind =>
    rcases List.mem_cons.1 h with rfl | h
    · rcases FilterTerm.mem_add hv with rfl | hv
      · exact .inl ⟨by simp [hkind], rfl⟩
      · exact .inr ⟨first, List.mem_cons_self, by simp, hv⟩
    · exact .inr ⟨term, List.mem_cons_of_mem _ h, rfl, hv⟩
  | case3 first rest hkind ih =>
    rcases List.mem_cons.1 h with rfl | h
    · exact .inr ⟨term, List.mem_cons_self, rfl, hv⟩
    · exact (ih h).imp_right fun ⟨old, hold, hrest⟩ => ⟨old, List.mem_cons_of_mem _ hold, hrest⟩

/-- Every value among the terms was read by the kind of its term. -/
def IsRead (c : Criteria) : Prop := ∀ term ∈ c.terms, ∀ value ∈ term.values, ∃ raw, term.kind.read raw = .ok value

/-- The criteria without the terms of a kind. -/
def without (c : Criteria) (kind : FilterKind) : Criteria :=
  { c with terms := c.terms.filter fun term => term.kind != kind }

/-- Putting a value among the terms and leaving out the terms of a kind can be exchanged, but for a value of that kind,
which is left out. -/
theorem filter_addValue (kind other : FilterKind) (value : Scalar) (terms : List FilterTerm) :
    (addValue kind value terms).filter (fun term => term.kind != other) =
      if kind = other then terms.filter (fun term => term.kind != other)
      else addValue kind value (terms.filter fun term => term.kind != other) := by
  fun_induction addValue kind value terms with
  | case1 =>
    by_cases hother : kind = other <;> simp [addValue, hother]
  | case2 first rest hkind =>
    by_cases hother : kind = other <;> simp [addValue, hkind, hother]
  | case3 first rest hkind ih =>
    rw [List.filter_cons, ih, List.filter_cons]
    by_cases hother : kind = other
    · simp [hother]
    · by_cases hfirst : first.kind = other
      · simp [hother, hfirst]
      · simp [addValue, hother, hfirst, hkind]

/-- A filter token that is not refused keeps the values read. -/
theorem IsRead.withFilter (hc : c.IsRead) (h : c.withFilter token = .ok c') : c'.IsRead := by
  rcases withFilter_eq_ok h with ⟨-, hall⟩ | ⟨kind, raw, value, -, hread, hall⟩
  · obtain rfl : c = c' := Except.ok.inj ((hall c).symm.trans h)
    exact hc
  · obtain rfl := Except.ok.inj ((hall c).symm.trans h)
    intro term hterm v hv
    rcases of_mem_addValue hterm hv with ⟨rfl, rfl⟩ | ⟨old, hold, hkind, hv⟩
    · exact ⟨raw, hread⟩
    · exact hkind ▸ hc old hold v hv

/-- A filter token of the kind that is left out says nothing else; any other says the same without that kind. -/
theorem withFilter_without (h : c.withFilter token = .ok c') (kind : FilterKind) :
    if FilterKind.ofToken? token = some kind then c'.without kind = c.without kind
    else (c.without kind).withFilter token = .ok (c'.without kind) := by
  rcases withFilter_eq_ok h with ⟨hnone, hall⟩ | ⟨other, raw, value, hother, -, hall⟩
  · obtain rfl : c = c' := Except.ok.inj ((hall c).symm.trans h)
    rw [hnone, if_neg (by simp)]
    exact hall _
  · obtain rfl := Except.ok.inj ((hall c).symm.trans h)
    rw [hother, hall]
    by_cases hkind : other = kind <;> simp [hkind, without, filter_addValue]

/-! ## All tokens -/

/-- All filter tokens keep the values read. -/
theorem IsRead.foldlM {tokens : List String} (hc : c.IsRead) (h : tokens.foldlM Criteria.withFilter c = .ok c') :
    c'.IsRead := by
  induction tokens generalizing c with
  | nil => exact Except.ok.inj h ▸ hc
  | cons token rest ih =>
    rw [List.foldlM_cons] at h
    obtain ⟨next, hstep, hrest⟩ := of_bind_eq_ok h
    exact ih (hc.withFilter hstep) hrest

/-- Leaving out the filter tokens of a kind leaves out the terms of that kind. -/
theorem foldlM_without {tokens : List String} (h : tokens.foldlM withFilter c = .ok c') (kind : FilterKind) :
    (kind.without tokens).foldlM withFilter (c.without kind) = .ok (c'.without kind) := by
  induction tokens generalizing c with
  | nil =>
    obtain rfl := Except.ok.inj h
    rfl
  | cons token rest ih =>
    rw [List.foldlM_cons] at h
    obtain ⟨next, hstep, hrest⟩ := of_bind_eq_ok h
    have hwithout := withFilter_without hstep kind
    rw [FilterKind.without_cons]
    split at hwithout
    · next hkind =>
      rw [if_pos hkind, ← hwithout]
      exact ih hrest
    · next hkind =>
      rw [if_neg hkind, List.foldlM_cons, hwithout]
      exact ih hrest

/-- Sort tokens neither read nor write the terms. -/
theorem foldlM_withSort_terms (tokens : List String) (c : Criteria) (terms : List FilterTerm) :
    tokens.foldlM withSort { c with terms := terms } = (tokens.foldlM withSort c).map fun c' =>
      { c' with terms := terms } := by
  induction tokens generalizing c with
  | nil => rfl
  | cons token rest ih =>
    rw [List.foldlM_cons, List.foldlM_cons, withSort_terms]
    cases c.withSort token with
    | error e => rfl
    | ok next => exact ih next

/-- The terms of criteria that are read are those that the filter tokens make. -/
theorem compile_eq_ok {filters sorts : List String} (h : compile filters sorts = .ok c) :
    ∃ filtered, filters.foldlM withFilter empty = .ok filtered ∧ c.terms = filtered.terms ∧
      sorts.foldlM withSort filtered = .ok c := by
  obtain ⟨filtered, hfilters, hsorts⟩ := of_bind_eq_ok h
  have hself := foldlM_withSort_terms sorts filtered filtered.terms
  rw [hsorts] at hself
  have heq : c = { c with terms := filtered.terms } := Except.ok.inj hself
  exact ⟨filtered, hfilters, by rw [heq], hsorts⟩

/-- The values of criteria that are read were read by their kinds. -/
theorem isRead_of_compile {filters sorts : List String} (h : compile filters sorts = .ok c) : c.IsRead := by
  obtain ⟨filtered, hfilters, hterms, -⟩ := compile_eq_ok h
  have hempty : empty.IsRead := by simp [IsRead, empty]
  have hread := hempty.foldlM hfilters
  unfold IsRead at hread ⊢
  rwa [hterms]

/-- Leaving out the filter tokens of a kind leaves out the terms of that kind and nothing else. -/
theorem compile_without {filters sorts : List String} (h : compile filters sorts = .ok c) (kind : FilterKind) :
    compile (kind.without filters) sorts = .ok (c.without kind) := by
  obtain ⟨filtered, hfilters, hterms, hsorts⟩ := compile_eq_ok h
  have hfiltered := foldlM_without hfilters kind
  have hempty : empty.without kind = empty := rfl
  rw [hempty] at hfiltered
  have hwithout := foldlM_withSort_terms sorts filtered (filtered.without kind).terms
  rw [hsorts] at hwithout
  have hsorted : sorts.foldlM withSort (filtered.without kind) = .ok (c.without kind) := by
    rw [without, without, hterms]
    exact hwithout
  unfold compile
  rw [hfiltered]
  exact hsorted

/-! ## What is left without a kind -/

/-- The values of other kinds are left. -/
theorem values_without_of_ne {kind other : FilterKind} (h : other ≠ kind) (c : Criteria) :
    (c.without kind).values other = c.values other := by
  have hterm : (c.without kind).term? other = c.term? other := by
    rw [term?, without, List.find?_filter]
    refine congrArg (List.find? · c.terms) (funext fun term => ?_)
    by_cases hkind : term.kind = other <;> simp [hkind, h]
  rw [values, hterm, values]

/-- No value of the kind is left. -/
theorem values_without_self (c : Criteria) (kind : FilterKind) : (c.without kind).values kind = [] := by
  have hterm : (c.without kind).term? kind = none := by
    rw [term?, without, List.find?_eq_none]
    intro term hterm hkind
    simp [beq_iff_eq.1 hkind] at hterm
  rw [values, hterm]
  rfl

/-- Where the kind looks at no field, all that is demanded of documents is left. -/
theorem documentPredicate_without {kind : FilterKind} (c : Criteria) {collection : Collection}
    (hpath : path? collection kind = none) :
    (c.without kind).documentPredicate collection = c.documentPredicate collection := by
  have hterms : (c.without kind).terms.filterMap
      (fun term => (path? collection term.kind).map fun path => termPredicate path term) =
      c.terms.filterMap fun term => (path? collection term.kind).map fun path => termPredicate path term := by
    rw [without, List.filterMap_filter]
    refine List.filterMap_congr fun term _ => ?_
    by_cases hkind : term.kind = kind <;> simp [hkind, hpath]
  rw [documentPredicate, hterms]
  rfl

end Criteria

end FeedQuery
