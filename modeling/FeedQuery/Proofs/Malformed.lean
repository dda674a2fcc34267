import FeedQuery.Proofs.StoreFault
import FeedQuery.Proofs.Tokens

/-!
# Malformed requests

What is wrong with a request can be read off the request alone: its collection, its numbers, its cursor, and each of its
tokens for itself (`FeedRequest.IsMalformed`, `ListRequest.IsMalformed`). A token is read the same whatever was read
before it, so that a list of tokens is refused exactly if one of them is (`Criteria.isOk_compile`). Nothing is asked for
a request that is refused (`malformed_exactly_refused`).
-/

namespace FeedQuery

/-! ## Steps that may refuse -/

@[simp] theorem isOk_ok {ε α : Type} (a : α) : (Except.ok a : Except ε α).isOk = true := rfl

@[simp] theorem isOk_error {ε α : Type} (e : ε) : (Except.error e : Except ε α).isOk = false := rfl

/-- Steps one after the other are passed if each is, where the second does not depend on what the first gives. -/
theorem isOk_bind {ε α β : Type} {x : Except ε α} {next : α → Except ε β} {p : Prop}
    (h : ∀ a, (next a).isOk = true ↔ p) :
    (x >>= next).isOk = true ↔ x.isOk = true ∧ p := by
  cases x with
  | error e => exact ⟨fun h => (Bool.false_ne_true h).elim, fun h => h.1⟩
  | ok a => exact ⟨fun hnext => ⟨rfl, (h a).1 hnext⟩, fun hp => (h a).2 hp.2⟩

theorem isOk_mapError {ε ε' α : Type} (x : Except ε α) (f : ε → ε') : (x.mapError f).isOk = x.isOk := by
  cases x <;> rfl

/-- All elements of a list are passed if each is, where a step does not depend on the ones before. -/
theorem isOk_foldlM {ε α β : Type} {step : β → α → Except ε β} {bad : α → Prop}
    (h : ∀ b a, (step b a).isOk = true ↔ ¬bad a) (elements : List α) (b : β) :
    (elements.foldlM step b).isOk = true ↔ ∀ a ∈ elements, ¬bad a := by
  induction elements generalizing b with
  | nil => exact ⟨fun _ a ha => absurd ha List.not_mem_nil, fun _ => rfl⟩
  | cons a rest ih => rw [List.foldlM_cons, isOk_bind ih, h, List.forall_mem_cons]

/-- Elements that a step passes over may be left out. -/
theorem foldlM_filter_of_idle {ε α β : Type} {step : β → α → Except ε β} {speaks : α → Bool}
    (h : ∀ b a, speaks a = false → step b a = .ok b)
    (elements : List α) (b : β) : (elements.filter speaks).foldlM step b = elements.foldlM step b := by
  induction elements generalizing b with
  | nil => rfl
  | cons a rest ih =>
    rw [List.filter_cons, List.foldlM_cons]
    cases hspeaks : speaks a with
    | false =>
      rw [if_neg (by simp), h b a hspeaks]
      exact ih b
    | true =>
      rw [if_pos rfl, List.foldlM_cons]
      exact congrArg (step b a >>= ·) (funext ih)

/-! ## Tokens -/

/-- The values that a kind of filter takes: the text of an identifier; a date or a number of seconds; a word for a
visibility; a finite number; any text but the empty one. -/
def FilterKind.Takes (kind : FilterKind) (raw : String) : Prop :=
  match kind with
  | .owner | .agent | .task | .collection | .concept | .similar | .likedBy => ∃ id, Uuid.ofText? raw = some id
  | .minDate | .maxDate => (∃ date, Instant.ofText? raw = some date) ∨
    ∃ seconds date, Decimal.readInteger? (-2 ^ 63) (2 ^ 63 - 1) raw.toList = some seconds ∧
      Instant.ofSeconds? seconds = some date
  | .visibility => Text.lower raw ∈ ["true", "1", "public", "false", "0", "private"]
  | .minLikes => ∃ number, Double.ofText? raw = some number ∧ number.isFinite = true
  | .search | .name | .baseModel => raw ≠ ""

/-- A filter token of a field that is known, with a value that its kind does not take. -/
def FilterKind.IsMalformed (token : String) : Prop :=
  ∃ field raw kind, Text.splitOnce? ';' token = some (field, raw) ∧ ofField? (Text.trim field) = some kind ∧
    ¬kind.Takes (Text.trim raw)

/-- A sort token of a field that is known, with a direction that does not exist. -/
def SortField.IsMalformed (token : String) : Prop :=
  ∃ field raw sortField, Text.splitOnce? ';' token = some (field, raw) ∧ ofField? (Text.trim field) = some sortField ∧
    Direction.ofText? raw = none

/-- The field that a sort token is for, if it is known. Without a separator the whole token names it. -/
def SortField.ofToken? (token : String) : Option SortField :=
  ofField? (Text.trim ((Text.splitOnce? ';' token).getD (token, "-1")).1)

theorem FilterKind.exists_readDate? (raw : String) : (∃ date, readDate? raw = some date) ↔ minDate.Takes raw := by
  unfold readDate? Takes
  cases Instant.ofText? raw with
  | some date => simp
  | none =>
    simp only [Option.bind_eq_some_iff, reduceCtorEq, exists_false, false_or]
    exact exists_comm

theorem FilterKind.exists_readVisibility? (raw : String) :
    (∃ isPublic, readVisibility? raw = some isPublic) ↔ visibility.Takes raw := by
  unfold readVisibility? Takes
  split <;> simp_all

/-- A value is read if its kind takes it. -/
theorem FilterKind.isOk_read (kind : FilterKind) (raw : String) : (kind.read raw).isOk = true ↔ kind.Takes raw := by
  cases kind with
  | owner | agent | task | collection | concept | similar | likedBy =>
    unfold read Takes
    cases Uuid.ofText? raw <;> simp
  | minDate | maxDate =>
    refine Iff.trans ?_ (exists_readDate? raw)
    unfold read
    cases readDate? raw <;> simp
  | visibility =>
    refine Iff.trans ?_ (exists_readVisibility? raw)
    unfold read
    cases readVisibility? raw <;> simp
  | minLikes =>
    unfold read Takes
    simp only [← Option.filter_eq_some_iff]
    cases (Double.ofText? raw).filter Double.isFinite <;> simp
  | search | name | baseModel =>
    unfold read Takes
    by_cases h : raw = "" <;> simp [h]

namespace Criteria

/-- A filter token is refused by all criteria or by none. -/
theorem isOk_withFilter (c : Criteria) (token : String) :
    (c.withFilter token).isOk = true ↔ ¬FilterKind.IsMalformed token := by
  unfold withFilter FilterKind.IsMalformed
  cases hsplit : Text.splitOnce? ';' token with
  | none => simp
  | some parts =>
    obtain ⟨field, raw⟩ := parts
    cases hkind : FilterKind.ofField? (Text.trim field) with
    | none => simp [hkind]
    | some kind =>
      have hread := kind.isOk_read (Text.trim raw)
      cases h : kind.read (Text.trim raw) <;> simp_all

/-- So is a sort token. -/
theorem isOk_withSort (c : Criteria) (token : String) :
    (c.withSort token).isOk = true ↔ ¬SortField.IsMalformed token := by
  have hdefault : Direction.ofText? "-1" = some .descending := by decide
  unfold withSort SortField.IsMalformed
  cases hsplit : Text.splitOnce? ';' token with
  | none =>
    dsimp only [Option.getD_none]
    rw [hdefault]
    cases SortField.ofField? (Text.trim token) <;> simp
  | some parts =>
    obtain ⟨field, raw⟩ := parts
    dsimp only [Option.getD_some]
    cases hfield : SortField.ofField? (Text.trim field) with
    | none => simp [hfield]
    | some sortField => cases hdirection : Direction.ofText? raw <;> simp [hfield, hdirection]

/-- A filter token without a separator, or of a field that is not known, says nothing. -/
theorem withFilter_idle (c : Criteria) {token : String} (h : (FilterKind.ofToken? token).isSome = false) :
    c.withFilter token = .ok c := by
  unfold FilterKind.ofToken? at h
  unfold withFilter
  cases hsplit : Text.splitOnce? ';' token with
  | none => rfl
  | some parts =>
    have hkind : FilterKind.ofField? (Text.trim parts.1) = none := by simpa [hsplit] using h
    simp only [hkind]

/-- A sort token of a field that is not known says nothing. -/
theorem withSort_idle (c : Criteria) {token : String} (h : (SortField.ofToken? token).isSome = false) :
    c.withSort token = .ok c := by
  have hfield : SortField.ofField? (Text.trim ((Text.splitOnce? ';' token).getD (token, "-1")).1) = none :=
    Option.isNone_iff_eq_none.1 (Option.isSome_eq_false_iff.1 h)
  unfold withSort
  simp only [hfield]

/-- Tokens are refused if one of them is malformed, whatever becomes of it. -/
theorem isOk_compile (filters sorts : List String) : (compile filters sorts).isOk = true ↔
    (∀ token ∈ filters, ¬FilterKind.IsMalformed token) ∧ ∀ token ∈ sorts, ¬SortField.IsMalformed token := by
  rw [compile, isOk_bind (isOk_foldlM isOk_withSort sorts), isOk_foldlM isOk_withFilter]

/-- A visibility that a later token replaces is refused, and so is the direction of an order that does not count. -/
example : (compile ["public;maybe", "public;true"] []).isOk = false ∧
    (compile [] ["likeCount;1", "createdAt;up"]).isOk = false := by decide

/-- Tokens of fields that are not known may be left out, and filter tokens without a separator. -/
theorem compile_idle (filters sorts : List String) :
    compile (filters.filter fun token => (FilterKind.ofToken? token).isSome)
      (sorts.filter fun token => (SortField.ofToken? token).isSome) =
      compile filters sorts := by
  unfold compile
  rw [foldlM_filter_of_idle fun c _ => withFilter_idle c]
  exact congrArg (_ >>= ·) (funext fun c => foldlM_filter_of_idle (fun c _ => withSort_idle c) sorts c)

end Criteria

/-! ## Cursors -/

/-- A cursor that is given and is not the text of an identifier, or comes with a value that is given and is not the text
of a finite number. -/
def Cursor.IsMalformed (cursor nextValue : Option String) : Prop :=
  ∃ raw, given? cursor = some raw ∧ (Uuid.ofText? raw = none ∨
    ∃ value, given? nextValue = some value ∧ ¬∃ number, Double.ofText? value = some number ∧ number.isFinite = true)

theorem Cursor.isOk_readValue (raw : String) :
    (readValue raw).isOk = true ↔ ∃ number, Double.ofText? raw = some number ∧ number.isFinite = true := by
  unfold readValue
  cases Double.ofText? raw with
  | none => simp
  | some number => cases hfinite : number.isFinite <;> simp [hfinite]

theorem Cursor.isOk_read (cursor nextValue : Option String) :
    (read cursor nextValue).isOk = true ↔ ¬IsMalformed cursor nextValue := by
  unfold read IsMalformed
  cases given? cursor with
  | none => simp
  | some raw =>
    cases hid : Uuid.ofText? raw with
    | none => simp [hid]
    | some id =>
      cases given? nextValue with
      | none => simp [hid]
      | some value =>
        have hvalue := isOk_readValue value
        cases hread : readValue value <;> simp_all [Except.map]

/-! ## Requests -/

/-- What can be wrong with a request for a page of a feed. -/
inductive FeedRequest.IsMalformed (r : FeedRequest) : Prop where
  | collection : r.collection ∉ Collection.feeds → IsMalformed r
  | limit : r.limit = some 0 → IsMalformed r
  | cursor : Cursor.IsMalformed r.cursor r.nextValue → IsMalformed r
  | filter {token : String} : token ∈ r.filters → FilterKind.IsMalformed token → IsMalformed r
  | sort {token : String} : token ∈ r.sorts → SortField.IsMalformed token → IsMalformed r

/-- What can be wrong with a request for a page of a listing. -/
inductive ListRequest.IsMalformed (r : ListRequest) : Prop where
  | collection : r.collection ∉ Collection.feeds → IsMalformed r
  | page : r.page = some 0 → IsMalformed r
  | pageSize : r.pageSize = some 0 → IsMalformed r
  | filter {token : String} : token ∈ r.filters → FilterKind.IsMalformed token → IsMalformed r
  | sort {token : String} : token ∈ r.sorts → SortField.IsMalformed token → IsMalformed r

namespace Service

theorem isOk_checkFeed (collection : Collection) :
    (checkFeed collection).isOk = true ↔ collection ∈ Collection.feeds := by
  unfold checkFeed Collection.isFeed
  by_cases h : collection ∈ Collection.feeds <;> simp [h]

theorem isOk_pageSize (settings : Settings) (requested : Option Nat) :
    (pageSize settings requested).isOk = true ↔ requested ≠ some 0 := by
  unfold pageSize
  split <;> simp_all

theorem isOk_pageNumber (requested : Option Nat) : (pageNumber requested).isOk = true ↔ requested ≠ some 0 := by
  unfold pageNumber
  split <;> simp_all

/-- A request for a page of a feed is passed if nothing is wrong with it. -/
theorem isOk_feed (settings : Settings) (r : FeedRequest) : (feed settings r).isOk = true ↔ ¬r.IsMalformed := by
  unfold feed
  rw [isOk_bind fun _ => isOk_bind fun _ => isOk_bind fun _ => isOk_bind fun _ => iff_true_intro rfl]
  rw [isOk_checkFeed, isOk_pageSize, isOk_mapError, Cursor.isOk_read, isOk_mapError, Criteria.isOk_compile]
  constructor
  · rintro ⟨hcollection, hlimit, hcursor, ⟨hfilters, hsorts⟩, -⟩ hmalformed
    cases hmalformed with
    | collection h => exact h hcollection
    | limit h => exact hlimit h
    | cursor h => exact hcursor h
    | filter htoken h => exact hfilters _ htoken h
    | sort htoken h => exact hsorts _ htoken h
  · intro h
    exact ⟨not_not.1 fun hcollection => h (.collection hcollection), fun hlimit => h (.limit hlimit),
      fun hcursor => h (.cursor hcursor),
      ⟨fun _ htoken hfilter => h (.filter htoken hfilter), fun _ htoken hsort => h (.sort htoken hsort)⟩, trivial⟩

/-- So is a request for a listing. -/
theorem isOk_list (settings : Settings) (r : ListRequest) : (list settings r).isOk = true ↔ ¬r.IsMalformed := by
  unfold list
  rw [isOk_bind fun _ => isOk_bind fun _ => isOk_bind fun _ => isOk_bind fun _ => iff_true_intro rfl]
  rw [isOk_checkFeed, isOk_pageNumber, isOk_pageSize, isOk_mapError, Criteria.isOk_compile]
  constructor
  · rintro ⟨hcollection, hpage, hsize, ⟨hfilters, hsorts⟩, -⟩ hmalformed
    cases hmalformed with
    | collection h => exact h hcollection
    | page h => exact hpage h
    | pageSize h => exact hsize h
    | filter htoken h => exact hfilters _ htoken h
    | sort htoken h => exact hsorts _ htoken h
  · intro h
    exact ⟨not_not.1 fun hcollection => h (.collection hcollection), fun hpage => h (.page hpage),
      fun hsize => h (.pageSize hsize),
      ⟨fun _ htoken hfilter => h (.filter htoken hfilter), fun _ htoken hsort => h (.sort htoken hsort)⟩, trivial⟩

/-- Refusing, if at all, as an invalid request. -/
def RefusesInvalid {α : Type} (x : Except ServiceError α) : Prop :=
  ∀ error, x = .error error → ∃ message, error = .invalidRequest message

namespace RefusesInvalid

variable {α β : Type}

theorem ok (a : α) : RefusesInvalid (.ok a) := nofun

theorem invalid (message : String) : RefusesInvalid (.error (.invalidRequest message) : Except ServiceError α) :=
  fun _ h => ⟨message, (Except.error.inj h).symm⟩

theorem bind {x : Except ServiceError α} {next : α → Except ServiceError β} (hx : RefusesInvalid x)
    (hnext : ∀ a, RefusesInvalid (next a)) :
    RefusesInvalid (x >>= next) := by
  cases x with
  | error error => exact fun _ h => hx _ (congrArg Except.error (Except.error.inj h))
  | ok a => exact hnext a

/-- A rejection is told as an invalid request. -/
theorem mapError {ε : Type} (x : Except ε α) (reject : ε → Rejection) :
    RefusesInvalid (x.mapError fun e => .ofRejection (reject e)) := by
  cases x with
  | error e => exact invalid _
  | ok a => exact ok a

theorem checkFeed (collection : Collection) : RefusesInvalid (Service.checkFeed collection) := by
  unfold Service.checkFeed
  split
  · exact ok _
  · exact invalid _

theorem pageSize (settings : Settings) (requested : Option Nat) :
    RefusesInvalid (Service.pageSize settings requested) := by
  unfold Service.pageSize
  split
  · exact ok _
  · exact invalid _
  · exact ok _

theorem pageNumber (requested : Option Nat) : RefusesInvalid (Service.pageNumber requested) := by
  unfold Service.pageNumber
  split
  · exact ok _
  · exact invalid _
  · exact ok _

theorem feed (settings : Settings) (r : FeedRequest) : RefusesInvalid (Service.feed settings r) :=
  (checkFeed _).bind fun _ => (pageSize _ _).bind fun _ => (mapError _ Rejection.cursor).bind fun _ =>
    (mapError _ id).bind fun _ => ok _

theorem list (settings : Settings) (r : ListRequest) : RefusesInvalid (Service.list settings r) :=
  (checkFeed _).bind fun _ => (pageNumber _).bind fun _ => (pageSize _ _).bind fun _ =>
    (mapError _ id).bind fun _ => ok _

end RefusesInvalid

/-- A request is refused if and only if it is malformed: then nobody is asked anything, whatever the store would do, and
it is told so as an invalid request. Else a store that does not fail answers it with a page. -/
structure RefusesExactly {α : Type} (request : Except ServiceError (Exchange α)) (malformed : Prop) : Prop where
  refused_iff : ∀ store others,
    (∃ message, (respond store others none request).2 = .error (.invalidRequest message)) ↔ malformed
  unasked : malformed → ∃ message, ∀ store others fault, respond store others fault request =
    ([], .error (.invalidRequest message))
  answered : ¬malformed → ∀ store others, ∃ page, (respond store others none request).2 = .ok page

theorem RefusesExactly.of_isOk {α : Type} {request : Except ServiceError (Exchange α)} {malformed : Prop}
    (hok : request.isOk = true ↔ ¬malformed) (hinvalid : RefusesInvalid request) :
    RefusesExactly request malformed := by
  cases request with
  | ok answer =>
    have hpage (store : Store) (others : Collaborators) : (respond store others none (.ok answer)).2 =
        .ok (answer.run store others) :=
      (respond_none_eq_ok store others _).2 ⟨answer, rfl, rfl⟩
    have hformed : ¬malformed := hok.1 rfl
    refine ⟨fun store others => ⟨fun ⟨_, h⟩ => ?_, fun h => absurd h hformed⟩, fun h => absurd h hformed,
      fun _ store others => ⟨_, hpage store others⟩⟩
    rw [hpage] at h
    nomatch h
  | error error =>
    obtain ⟨message, rfl⟩ := hinvalid error rfl
    have hmalformed : malformed := not_not.1 fun h => Bool.false_ne_true (hok.2 h)
    exact ⟨fun _ _ => ⟨fun _ => hmalformed, fun _ => ⟨message, rfl⟩⟩, fun _ => ⟨message, fun _ _ _ => rfl⟩,
      fun h => absurd hmalformed h⟩

end Service

/-- A request for a page of a feed or of a listing is refused if and only if something is wrong with it, one token being
enough whatever would become of it, and it is refused before anybody is asked anything. Tokens of fields that are not
known, and filter tokens without a separator, are never what is wrong: without them the same is asked and the same is
answered. -/
theorem malformed_exactly_refused (settings : Settings) :
    (∀ r, Service.RefusesExactly (Service.feed settings r) r.IsMalformed) ∧
    (∀ r, Service.RefusesExactly (Service.list settings r) r.IsMalformed) ∧
    (∀ r : FeedRequest, Service.feed settings { r with
        filters := r.filters.filter fun token => (FilterKind.ofToken? token).isSome
        sorts := r.sorts.filter fun token => (SortField.ofToken? token).isSome } = Service.feed settings r) ∧
    ∀ r : ListRequest, Service.list settings { r with
        filters := r.filters.filter fun token => (FilterKind.ofToken? token).isSome
        sorts := r.sorts.filter fun token => (SortField.ofToken? token).isSome } = Service.list settings r := by
  refine ⟨fun r => .of_isOk (Service.isOk_feed settings r) (.feed settings r),
    fun r => .of_isOk (Service.isOk_list settings r) (.list settings r),
    fun r => ?_, fun r => ?_⟩
  · simp only [Service.feed, Criteria.compile_idle]
  · simp only [Service.list, Criteria.compile_idle]

end FeedQuery
