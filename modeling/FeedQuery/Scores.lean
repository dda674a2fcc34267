import FeedQuery.Predicate

/-!
# Scores

What a collaborator answers is a set of identifiers with a score each, kept in the order of the identifiers. It says
which documents a request may return (`Scores.predicate`) and how they are ordered by similarity.
-/

namespace FeedQuery

/-- Scores by identifier, in ascending order of the identifiers. -/
structure Scores where
  entries : List (Uuid × Double)
deriving DecidableEq, Repr, Inhabited

namespace Scores

/-- Puts a score among entries in ascending order; an identifier that is there gets the new score. -/
def insertEntry (id : Uuid) (score : Double) : List (Uuid × Double) → List (Uuid × Double)
  | [] => [(id, score)]
  | (other, old) :: rest =>
    match compare id other with
    | .lt => (id, score) :: (other, old) :: rest
    | .eq => (id, score) :: rest
    | .gt => (other, old) :: insertEntry id score rest

/-- No scores at all. -/
def empty : Scores := ⟨[]⟩

/-- Gives an identifier a score. -/
def insert (s : Scores) (id : Uuid) (score : Double) : Scores := ⟨insertEntry id score s.entries⟩

/-- The scores of a list; of two scores for one identifier the last counts. -/
def ofList (scores : List (Uuid × Double)) : Scores :=
  scores.foldl (fun s entry => s.insert entry.1 entry.2) empty

/-- The score of an identifier. -/
def get? (s : Scores) (id : Uuid) : Option Double := (s.entries.find? fun entry => entry.1 == id).map Prod.snd

/-- Whether the identifier has a score. -/
def contains (s : Scores) (id : Uuid) : Bool := s.entries.any fun entry => entry.1 == id

/-- Whether no identifier has a score. -/
def isEmpty (s : Scores) : Bool := s.entries.isEmpty

/-- The identifiers, in ascending order. -/
def ids (s : Scores) : List Uuid := s.entries.map Prod.fst

/-- The identifiers that have a score in both, with the scores of the first. -/
def intersect (s other : Scores) : Scores := ⟨s.entries.filter fun entry => other.contains entry.1⟩

/-- Accepts the documents whose identifier has a score. -/
def predicate (s : Scores) : Predicate :=
  if s.isEmpty then .never else .oneOf .id (s.ids.map .id)

end Scores

end FeedQuery
