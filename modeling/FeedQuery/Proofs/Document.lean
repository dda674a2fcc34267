import FeedQuery.Pipeline

/-!
# Reading documents after writing them

Writing or removing a top-level field changes what is read below its name and nothing else (`Document.get?_set_field`,
`Document.get?_erase_field`). Most steps of a pipeline write a few fields whose names are known; `Document.AgreesApart`
says that two documents are read alike under every other name.
-/

namespace FeedQuery

namespace Fields

/-- A written field has the new value; the other fields are as they were. -/
theorem get?_set {α : Type} (name other : String) (value : α) (fields : Fields α) :
    Fields.get? other (Fields.set name value fields) = if other =
      name then some value else Fields.get? other fields := by
  induction fields with
  | nil => simp only [Fields.set, Fields.get?, eq_comm]
  | cons field rest ih =>
    obtain ⟨key, old⟩ := field
    by_cases hk : key = name
    · by_cases ho : other = name
      · simp [Fields.set, Fields.get?, hk, ho]
      · simp [Fields.set, Fields.get?, hk, ho, Ne.symm ho]
    · by_cases ho : key = other
      · subst ho
        simp [Fields.set, Fields.get?, hk]
      · simp [Fields.set, Fields.get?, hk, ho, ih]

/-- A removed field is not there; the other fields are as they were. -/
theorem get?_erase {α : Type} (name other : String) (fields : Fields α) :
    Fields.get? other (Fields.erase name fields) = if other = name then none else Fields.get? other fields := by
  induction fields with
  | nil => simp [Fields.erase, Fields.get?]
  | cons field rest ih =>
    obtain ⟨key, old⟩ := field
    simp only [Fields.erase] at ih ⊢
    by_cases hk : key = name
    · subst hk
      by_cases ho : other = key
      · simpa [ho] using ih
      · simpa [Fields.get?, ho, Ne.symm ho] using ih
    · by_cases ho : key = other
      · subst ho
        simp [Fields.get?, hk]
      · simpa [Fields.get?, hk, ho] using ih

/-- A field that is passed over may be written before. -/
theorem filter_set {α : Type} {p : String → Bool} {name : String} (value : α) (fields : Fields α) (h : p name = false) :
    (Fields.set name value fields).filter (fun field => p field.1) = fields.filter fun field => p field.1 := by
  induction fields with
  | nil => simp [Fields.set, h]
  | cons field rest ih =>
    obtain ⟨key, old⟩ := field
    by_cases hk : key = name
    · simp [Fields.set, hk, h]
    · simp [Fields.set, hk, List.filter_cons, ih]

end Fields

namespace Document

/-- After a top-level field is written, paths through it follow the new value. -/
theorem get?_set_field (d : Document) (name : String) (value : Json) (p : Path) :
    (d.set (.field name) value).get? p = if p.first = name then Path.follow p.nested value else d.get? p := by
  simp only [Document.get?, Document.set, Path.toText, Path.field, List.foldl_nil, Fields.get?_set]
  split <;> rfl

/-- After a top-level field is removed, nothing is read through it. -/
theorem get?_erase_field (d : Document) (name : String) (p : Path) :
    (d.erase (.field name)).get? p = if p.first = name then none else d.get? p := by
  simp only [Document.get?, Document.erase, Path.toText, Path.field, List.foldl_nil, Fields.get?_erase]
  split <;> rfl

/-- A top-level field has the value that was written. -/
@[simp] theorem get?_set_self (d : Document) (name : String) (value : Json) :
    (d.set (.field name) value).get? (.field name) = some value := by
  rw [get?_set_field]
  simp [Path.field, Path.follow]

/-- What is written and then removed leaves no trace. -/
theorem erase_set_field (d : Document) (name : String) (value : Json) :
    (d.set (.field name) value).erase (.field name) = d.erase (.field name) :=
  congrArg Document.mk
    (Fields.filter_set value d.fields (p := fun key => key != name) (by simp [Path.field, Path.toText]))

/-- Taking fields away keeps the fields of other names. -/
theorem unset_eq (paths : List Path) (d : Document) :
    d.unset paths = ⟨d.fields.filter fun field => !(paths.map Path.toText).contains field.1⟩ := by
  unfold unset
  induction paths generalizing d with
  | nil => exact congrArg Document.mk (List.filter_eq_self.2 fun _ _ => rfl).symm
  | cons path rest ih =>
    rw [List.foldl_cons, ih, erase, Fields.erase, List.filter_filter, List.map_cons]
    simp only [List.contains_cons, Bool.not_or, Bool.and_comm, bne]

/-- Documents that are read alike at the paths that are carried from carry the same. -/
theorem carryInto_congr {a b : Document} {carry : List (Path × Path)} (h : ∀ c ∈ carry, a.get? c.1 = b.get? c.1)
    (root : Document) : a.carryInto carry root = b.carryInto carry root := by
  unfold carryInto
  induction carry generalizing root with
  | nil => rfl
  | cons c rest ih =>
    rw [List.foldl_cons, List.foldl_cons, h c List.mem_cons_self]
    exact ih (fun c hc => h c (List.mem_cons_of_mem _ hc)) _

/-- The two documents are read alike, but for the fields named. -/
def AgreesApart (names : List String) (a b : Document) : Prop := ∀ p : Path, p.first ∉ names → b.get? p = a.get? p

namespace AgreesApart

theorem refl (names : List String) (d : Document) : AgreesApart names d d := fun _ _ => rfl

theorem trans {names : List String} {a b c : Document} (h : AgreesApart names a b) (h' : AgreesApart names b c) :
    AgreesApart names a c :=
  fun p hp => (h' p hp).trans (h p hp)

theorem mono {names more : List String} {a b : Document} (h : AgreesApart names a b) (hs : names ⊆ more) :
    AgreesApart more a b :=
  fun p hp => h p fun hm => hp (hs hm)

/-- The identifier is the same unless `_id` is one of the fields. -/
theorem id?_eq {names : List String} {a b : Document} (h : AgreesApart names a b) (hn : "_id" ∉ names) :
    b.id? = a.id? := by
  unfold Document.id?
  rw [h .id hn]

end AgreesApart

theorem agreesApart_set {names : List String} {name : String} (hn : name ∈ names) (d : Document) (value : Json) :
    AgreesApart names d (d.set (.field name) value) := by
  intro p hp
  rw [get?_set_field, if_neg]
  rintro rfl
  exact hp hn

theorem agreesApart_erase {names : List String} {name : String} (hn : name ∈ names) (d : Document) :
    AgreesApart names d (d.erase (.field name)) := by
  intro p hp
  rw [get?_erase_field, if_neg]
  rintro rfl
  exact hp hn

/-- Documents that agree apart from some fields still do when the same is written into both. -/
theorem AgreesApart.set {names : List String} {a b : Document} (h : AgreesApart names a b) (name : String)
    (value : Json) :
    AgreesApart names (a.set (.field name) value) (b.set (.field name) value) := by
  intro p hp
  rw [get?_set_field, get?_set_field, h p hp]

theorem AgreesApart.erase {names : List String} {a b : Document} (h : AgreesApart names a b) (name : String) :
    AgreesApart names (a.erase (.field name)) (b.erase (.field name)) := by
  intro p hp
  rw [get?_erase_field, get?_erase_field, h p hp]

/-- Scoring writes the field of the score, if anything. -/
theorem agreesApart_score (name : String) (scores : Scores) (d : Document) :
    AgreesApart [name] d (d.score (.field name) scores) := by
  unfold Document.score
  split
  · exact agreesApart_set (by simp) d _
  · exact .refl _ d

/-- Flagging writes the flag and removes the field that it sums up. -/
theorem agreesApart_flag (name source : String) (d : Document) :
    AgreesApart [name, source] d (d.flag (.field name) (.field source)) := by
  unfold Document.flag
  exact (agreesApart_erase (by simp) d).trans (agreesApart_set (by simp) _ _)

/-- Carrying writes the fields that are carried to. -/
theorem agreesApart_carryInto (d : Document) (carry : List (Path × String)) (root : Document) :
    AgreesApart (carry.map Prod.snd) root (d.carryInto (carry.map fun c => (c.1, .field c.2)) root) := by
  unfold Document.carryInto
  induction carry generalizing root with
  | nil => exact .refl _ root
  | cons c rest ih =>
    rw [List.map_cons, List.map_cons, List.foldl_cons]
    have hrest := fun root => (ih root).mono (List.subset_cons_self c.2 (rest.map Prod.snd))
    cases d.get? c.1 with
    | none => exact hrest root
    | some value => exact (agreesApart_set (by simp) root value).trans (hrest _)

end Document

end FeedQuery
