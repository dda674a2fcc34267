import FeedQuery.Proofs.Interpretation
import FeedQuery.Proofs.Soundness

/-!
# When the store fails

`Service.respond` is what a request comes to: the questions that are asked for it, in their order, and a page or an
error. A store that fails at one of them changes nothing before that question and makes an end of everything after it
(`Interrupts`): this holds of one question and then of any conversation, whatever is asked in it and however that
depends on the answers (`Exchange.perform_interrupts`). So no request is answered with a part of a page
(`no_partial_pages`).
-/

namespace FeedQuery

/-- How often the store is asked. -/
def Question.countStored (asked : List Question) : Nat := asked.countP isStored

/-- With a fault, things go as they go without it: to their end if the store is asked too seldom to fail, and else up to
the question that it fails at, which is the last one, and the failure is what comes of it. -/
structure Interrupts {ε α : Type} (clean : List Question × Except ε α) (after : Nat) (error : ε)
    (faulty : List Question × Except ε α) :
    Prop where
  unreached : Question.countStored clean.1 ≤ after → faulty = clean
  reached : after < Question.countStored clean.1 → ∃ before question rest, clean.1 = before ++ question :: rest ∧
    question.isStored = true ∧ Question.countStored before = after ∧ faulty = (before ++ [question], .error error)

namespace Interrupts

variable {ε α : Type} {error : ε} {clean faulty : List Question × Except ε α} {after : Nat}

/-- What does not ask the store goes as it goes. -/
theorem done (result : Except ε α) : Interrupts ([], result) after error ([], result) :=
  ⟨fun _ => rfl, fun h => absurd h (Nat.not_lt_zero _)⟩

/-- The store fails at the first question to it. -/
theorem now {question : Question} (hstored : question.isStored = true) (asked : List Question) (result : Except ε α) :
    Interrupts (question :: asked, result) 0 error ([question], .error error) := by
  constructor
  · intro h
    simp [Question.countStored, hstored] at h
  · exact fun _ => ⟨[], question, asked, rfl, hstored, rfl, rfl⟩

/-- A question that is answered brings the fault one nearer if it goes to the store. -/
theorem cons (question : Question) (h : Interrupts clean after error faulty) :
    Interrupts (question :: clean.1, clean.2) (after + Question.countStored [question]) error
      (question :: faulty.1, faulty.2) := by
  have hcount (asked : List Question) :
      Question.countStored (question :: asked) = Question.countStored asked + Question.countStored [question] := by
    simp [Question.countStored, List.countP_cons]
  constructor
  · intro hle
    rw [h.unreached (by rw [hcount clean.1] at hle; omega)]
  · intro hlt
    obtain ⟨before, last, rest, hclean, hlast, hbefore, hfaulty⟩ := h.reached (by rw [hcount clean.1] at hlt; omega)
    exact ⟨question :: before, last, rest, by rw [hclean]; rfl,
      hlast, by rw [hcount before, hbefore], by rw [hfaulty]; rfl⟩

/-- Errors may be told in other words. -/
theorem mapError {ε' : Type} (tell : ε → ε') (h : Interrupts clean after error faulty) :
    Interrupts (clean.1, clean.2.mapError tell) after (tell error) (faulty.1, faulty.2.mapError tell) := by
  constructor
  · intro hle
    rw [h.unreached hle]
  · intro hlt
    obtain ⟨before, last, rest, hclean, hlast, hbefore, hfaulty⟩ := h.reached hlt
    exact ⟨before, last, rest, hclean, hlast, hbefore, by rw [hfaulty]; rfl⟩

end Interrupts

/-- A conversation is interrupted by a failing store, whatever it is about. -/
theorem Exchange.perform_interrupts {α : Type} (store : Store) (others : Collaborators) (x : Exchange α) (after : Nat)
    (error : StorageError) :
    Interrupts (x.perform store others none) after error (x.perform store others (some ⟨after, error⟩)) := by
  induction x generalizing after with
  | done result => exact .done _
  | find collection query next ih =>
    cases after with
    | zero => exact .now rfl _ _
    | succ after => exact (ih (store.find collection query) after).cons _
  | count collection predicate next ih =>
    cases after with
    | zero => exact .now rfl _ _
    | succ after => exact (ih (store.count collection predicate) after).cons _
  | similar collection reference topK next ih => exact (ih (others.similar collection reference topK) after).cons _
  | search collection text topK next ih => exact (ih (others.search collection text topK) after).cons _

namespace Service

/-- What a request comes to: the questions that are asked for it, in their order, and a page or an error. -/
def respond {α : Type} (store : Store) (others : Collaborators) (fault : Option Fault) :
    Except ServiceError (Exchange α) → List Question × Except ServiceError α
  | .error error => ([], .error error)
  | .ok answer => ((answer.perform store others fault).1, (answer.perform store others fault).2.mapError .ofStorage)

variable {α : Type} (store : Store) (others : Collaborators) (request : Except ServiceError (Exchange α))

/-- A request that is not refused is answered by a store that does not fail. -/
theorem respond_none_eq_ok {page : α} :
    (respond store others none request).2 = .ok page ↔ ∃ answer, request = .ok answer ∧
    answer.run store others = page := by
  cases request with
  | error error => simp [respond]
  | ok answer => simp [respond, Exchange.perform_none, Except.mapError]

/-- A request is interrupted by a failing store, if it is not refused before. -/
theorem respond_interrupts (after : Nat) (error : StorageError) :
    Interrupts (respond store others none request) after (.ofStorage error)
      (respond store others (some ⟨after, error⟩) request) := by
  cases request with
  | error refusal => exact .done _
  | ok answer => exact (answer.perform_interrupts store others after error).mapError ServiceError.ofStorage

end Service

/-- For every request for a page of a feed or of a listing:

1. it is answered by a store that does not fail with the page that the request is answered with;
2. if the store fails at one question to it, in whatever way, then what is asked and what comes of it are the same as
   without the fault where the store is asked too seldom to fail. Else the same is asked up to the question that fails,
   the store and the collaborators alike, nothing is asked after it, and the answer is the failure;
3. the failure is told as one of storage if the database failed, as an invalid request if the store refused an argument,
   and as one of the vector index if that failed. -/
theorem no_partial_pages (settings : Settings) (store : Store) (others : Collaborators) :
    ((∀ r page, (Service.respond store others none (Service.feed settings r)).2 = .ok page ↔
      Answers settings store others r page) ∧
      ∀ r page, (Service.respond store others none (Service.list settings r)).2 = .ok page ↔
        Lists settings store others r page) ∧
    (∀ after error,
      (∀ r, Interrupts (Service.respond store others none (Service.feed settings r)) after (.ofStorage error)
        (Service.respond store others (some ⟨after, error⟩) (Service.feed settings r))) ∧
      ∀ r, Interrupts (Service.respond store others none (Service.list settings r)) after (.ofStorage error)
        (Service.respond store others (some ⟨after, error⟩) (Service.list settings r))) ∧
    ∀ message, ServiceError.ofStorage (.database message) = .storage message ∧
      ServiceError.ofStorage (.argument message) = .invalidRequest message ∧
      ServiceError.ofStorage (.vectorIndex message) = .vectorIndex message := by
  refine ⟨⟨fun r page => ?_, fun r page => ?_⟩, fun after error => ⟨fun r => ?_, fun r => ?_⟩,
    fun message => ⟨rfl, rfl, rfl⟩⟩
  · exact Service.respond_none_eq_ok store others _
  · exact Service.respond_none_eq_ok store others _
  · exact Service.respond_interrupts store others _ after error
  · exact Service.respond_interrupts store others _ after error

end FeedQuery
