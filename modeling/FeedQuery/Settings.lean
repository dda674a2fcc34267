/-!
# Settings of the feed
-/

namespace FeedQuery

/-- The bounds that requests are served within. -/
structure Settings where
  /-- The page size of a request that names none. -/
  defaultLimit : Nat := 100
  maxLimit : Nat := 1000
  /-- How many documents of each followed account are considered; never fewer than a page holds. -/
  followingCap : Nat := 100
  similarityTopK : Nat := 500
  searchTopK : Nat := 500
  /-- How long a collaborator may take, in milliseconds. -/
  collaboratorTimeout : Nat := 3000
deriving DecidableEq, Repr, Inhabited

end FeedQuery
