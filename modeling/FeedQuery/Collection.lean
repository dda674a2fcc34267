/-!
# Collections

Documents live in eight collections. Five of them can be asked for as feeds; the others support them.
-/

namespace FeedQuery

/-- A collection of documents. -/
inductive Collection where
  | creations
  | models
  | agents
  | collections
  | creators
  | tasks
  | reactions
  | follows
deriving DecidableEq, Repr, Inhabited

namespace Collection

/-- All collections. -/
def every : List Collection :=
  [.creations, .models, .agents, .collections, .creators, .tasks, .reactions, .follows]

/-- The collections that can be asked for as feeds. -/
def feeds : List Collection := [.creations, .models, .agents, .collections, .creators]

/-- The name of a collection in paths and statements. -/
def name : Collection → String
  | .creations => "creations"
  | .models => "models"
  | .agents => "agents"
  | .collections => "collections"
  | .creators => "creators"
  | .tasks => "tasks"
  | .reactions => "reactions"
  | .follows => "follows"

/-- The collection with a name. -/
def ofName? (name : String) : Option Collection := every.find? fun c => c.name == name

/-- The feed with a name; a collection that is no feed has none. -/
def ofFeedName? (name : String) : Option Collection := feeds.find? fun c => c.name == name

/-- Whether the collection can be asked for as a feed. -/
def isFeed (c : Collection) : Bool := feeds.contains c

/-- The word for one document of the collection, as reactions spell it. -/
def entityType : Collection → String
  | .creations => "creation"
  | .models => "model"
  | .agents => "agent"
  | .collections => "collection"
  | .creators => "creator"
  | .tasks => "task"
  | .reactions => "reaction"
  | .follows => "follow"

/-- Whether its documents name the agent that made them. -/
def hasAgent (c : Collection) : Bool := c == .creations

/-- Whether its documents name the task that made them. -/
def hasTask (c : Collection) : Bool := c == .creations

end Collection

end FeedQuery
