import FeedQuery.Store
import FeedQuery.Scores

/-!
# Exchanges

Answering a request takes questions to the store and to collaborators, and what is asked may depend on the answers. An
`Exchange` is such a conversation as a value: it ends with a result, or asks and goes on with the answer. `Exchange.run`
answers every question; `Exchange.perform` also keeps the record of the questions and can let one question to the store
fail, after which nothing is asked.

A failure of the store is no answer that a conversation could look at. Wherever the store is asked (by the executor of a
pipeline, for the count of a listing, for a share in a collection), a failure is passed on at once as the result, and
nothing is done with it, so what it does is said once, in `Exchange.perform`. A collaborator that fails is another
matter: that is an answer, `none`, which the service decides about.
-/

namespace FeedQuery

/-- An identifier that a collaborator named, with its relevance. -/
structure Neighbor where
  id : Uuid
  score : Double
deriving DecidableEq, Repr

/-- What collaborators answer; nothing when they have no answer, fail, or do not answer in time. -/
structure Collaborators where
  similar : Collection → Uuid → Nat → Option (List Neighbor)
  search : Collection → String → Nat → Option (List Neighbor)

/-- Without a vector index nothing is similar to anything, and no text finds anything. -/
def Collaborators.absent : Collaborators := ⟨fun _ _ _ => none, fun _ _ _ => some []⟩

/-- A conversation with the store and collaborators that ends with a result. What follows a question to the store is
only what is done with its answer: that a failure of the store returns early, with the error, is part of asking. -/
inductive Exchange (α : Type) where
  | done (result : α)
  | find (collection : Collection) (query : Query) (next : List Document → Exchange α)
  | count (collection : Collection) (predicate : Predicate) (next : Nat → Exchange α)
  | similar (collection : Collection) (reference : Uuid) (topK : Nat) (next : Option (List Neighbor) → Exchange α)
  | search (collection : Collection) (text : String) (topK : Nat) (next : Option (List Neighbor) → Exchange α)

/-- A question that was asked. -/
inductive Question where
  | find (collection : Collection) (query : Query)
  | count (collection : Collection) (predicate : Predicate)
  | similar (collection : Collection) (reference : Uuid) (topK : Nat)
  | search (collection : Collection) (text : String) (topK : Nat)
deriving Repr

/-- Whether the question goes to the store. -/
def Question.isStored : Question → Bool
  | .find .. | .count .. => true
  | _ => false

/-- A failure of the store: the question to it that fails, counted from zero, and how. -/
structure Fault where
  after : Nat
  error : StorageError
deriving DecidableEq, Repr

namespace Exchange

/-- Goes on with the result. -/
def bind {α β : Type} : Exchange α → (α → Exchange β) → Exchange β
  | .done result, f => f result
  | .find collection query next, f => .find collection query fun docs => (next docs).bind f
  | .count collection predicate next, f => .count collection predicate fun n => (next n).bind f
  | .similar collection reference topK next, f => .similar collection reference topK fun reply => (next reply).bind f
  | .search collection text topK next, f => .search collection text topK fun reply => (next reply).bind f

instance : Monad Exchange where
  pure := .done
  bind := bind

/-- The result, when every question is answered. -/
def run {α : Type} (store : Store) (others : Collaborators) : Exchange α → α
  | .done result => result
  | .find collection query next => (next (store.find collection query)).run store others
  | .count collection predicate next => (next (store.count collection predicate)).run store others
  | .similar collection reference topK next => (next (others.similar collection reference topK)).run store others
  | .search collection text topK next => (next (others.search collection text topK)).run store others

/-- What a fault does to a question to the store: it fails now, or is one question nearer. -/
def Fault.step : Option Fault → Except StorageError (Option Fault)
  | none => .ok none
  | some ⟨0, error⟩ => .error error
  | some ⟨after + 1, error⟩ => .ok (some ⟨after, error⟩)

/-- The questions in the order in which they are asked, and the result or the failure of the store. -/
def perform {α : Type} (store : Store) (others : Collaborators) (fault : Option Fault) :
    Exchange α → List Question × Except StorageError α
  | .done result => ([], .ok result)
  | .find collection query next =>
    match Fault.step fault with
    | .error error => ([.find collection query], .error error)
    | .ok fault =>
      let (asked, result) := (next (store.find collection query)).perform store others fault
      (.find collection query :: asked, result)
  | .count collection predicate next =>
    match Fault.step fault with
    | .error error => ([.count collection predicate], .error error)
    | .ok fault =>
      let (asked, result) := (next (store.count collection predicate)).perform store others fault
      (.count collection predicate :: asked, result)
  | .similar collection reference topK next =>
    let (asked, result) := (next (others.similar collection reference topK)).perform store others fault
    (.similar collection reference topK :: asked, result)
  | .search collection text topK next =>
    let (asked, result) := (next (others.search collection text topK)).perform store others fault
    (.search collection text topK :: asked, result)

end Exchange

end FeedQuery
