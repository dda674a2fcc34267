import FeedQuery.Criteria

/-!
# Strategies

How the documents of a request are reached. The criteria may hint at several ways; the first of them in the order of
`Strategy.select` is taken.
-/

namespace FeedQuery

/-- A way to reach documents. -/
inductive Strategy where
  /-- The members of a collection. -/
  | membership (collection : Uuid)
  /-- What the tasks for a concept made. -/
  | taskOutput (concept : Uuid)
  /-- What the accounts made that someone follows. -/
  | graphFanOut (follower : Option Uuid)
  /-- What someone liked. -/
  | reactionFanOut (liker : Option Uuid)
  | direct
deriving DecidableEq, Repr

namespace Strategy

/-- The name of a strategy. -/
def name : Strategy → String
  | .membership _ => "membership"
  | .taskOutput _ => "task_output"
  | .graphFanOut _ => "graph_fan_out"
  | .reactionFanOut _ => "reaction_fan_out"
  | .direct => "direct"

/-- The first way that the criteria hint at. -/
def select (c : Criteria) (viewer : Option Uuid) : Strategy :=
  match c.hints.membership, c.hints.taskOutput with
  | some collection, _ => .membership collection
  | none, some concept => .taskOutput concept
  | none, none =>
    if c.hints.graphFanOut then .graphFanOut viewer
    else if c.hints.reactionFanOut then .reactionFanOut (c.likedBy?.or viewer)
    else .direct

/-- Whether documents are reached through likes. -/
def isReactionFanOut : Strategy → Bool
  | .reactionFanOut _ => true
  | _ => false

end Strategy

end FeedQuery
