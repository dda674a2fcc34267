import FeedQuery.Settings
import FeedQuery.Text.Blank
import FeedQuery.Toml.Reader

/-!
# Configuration

What the server is started with. A configuration is read from JSON or from the text of a TOML file: names that mean
nothing are passed over, the section on the feed and each of its entries may be left out, and a section may be given as
a list of its values in order where that is allowed. `Config.check` names the first thing that is wrong with a
configuration.
-/

namespace FeedQuery

namespace Config

/-- Where requests are taken, and how much is logged. -/
structure Listener where
  bind : String
  logLevel : String
deriving DecidableEq, Repr

/-- The database of the documents. -/
structure Database where
  dsn : String
  maxConnections : Nat
deriving DecidableEq, Repr

/-- The vector index of the documents. -/
structure VectorIndex where
  url : String
  collection : String
  dimensions : Nat
deriving DecidableEq, Repr

/-- The service that turns texts into vectors. -/
structure Embedding where
  providerId : String
  apiBase : String
  apiKey : String
  path : String
  model : String
  dimensions : Nat
  /-- How long it may take, in milliseconds. -/
  timeout : Nat
  /-- Headers that every request to it has. -/
  defaultHeaders : Fields Json
deriving Repr

end Config

/-- A configuration. -/
structure Config where
  listener : Config.Listener
  database : Config.Database
  vectorIndex : Config.VectorIndex
  embedding : Config.Embedding
  feed : Settings
deriving Repr

namespace Config

/-! ## Reading and writing -/

/-- The values of a section under their names. With `positional` the section may also be a list of values in the order
of the names. -/
def section? (positional : Bool) (names : List String) : Json → Option (Fields Json)
  | .object fields => some fields
  | .array items => if positional && items.length ≤ names.length then some (names.zip items) else none
  | _ => none

/-- The text under a name. -/
def text? (fields : Fields Json) (name : String) : Option String := (fields.get? name).bind Json.string?

/-- The count of the given number of bits under a name. -/
def count? (bits : Nat) (fields : Fields Json) (name : String) : Option Nat :=
  (fields.get? name).bind (Json.count? (Nat.pow 2 bits - 1))

/-- What is under a name, read, or the default if nothing is. -/
def orDefault {α : Type} (read : Fields Json → String → Option α) (fields : Fields Json) (name : String)
    (default : α) : Option α :=
  if (fields.get? name).isSome then read fields name else some default

def readListener? (positional : Bool) (value : Json) : Option Listener := do
  let fields ← section? positional ["http_bind", "log_level"] value
  some ⟨← text? fields "http_bind", ← text? fields "log_level"⟩

def readDatabase? (positional : Bool) (value : Json) : Option Database := do
  let fields ← section? positional ["dsn", "pool_max_conns"] value
  some ⟨← text? fields "dsn", ← count? 32 fields "pool_max_conns"⟩

def readVectorIndex? (positional : Bool) (value : Json) : Option VectorIndex := do
  let fields ← section? positional ["url", "collection", "vector_dim"] value
  some ⟨← text? fields "url", ← text? fields "collection", ← count? 32 fields "vector_dim"⟩

def readEmbedding? (positional : Bool) (value : Json) : Option Embedding := do
  let fields ← section? positional
    ["provider_id", "api_base", "api_key", "path", "model", "dimensions", "timeout_ms", "default_headers"] value
  some {
    providerId := ← text? fields "provider_id"
    apiBase := ← text? fields "api_base"
    apiKey := ← text? fields "api_key"
    path := ← text? fields "path"
    model := ← text? fields "model"
    dimensions := ← count? 32 fields "dimensions"
    timeout := ← count? 64 fields "timeout_ms"
    defaultHeaders :=
      ← orDefault (fun fields name => (fields.get? name).bind Json.object?) fields "default_headers" [] }

def readFeed? (positional : Bool) (value : Json) : Option Settings := do
  let fields ← section? positional
    ["default_limit", "max_limit", "following_cap", "similarity_top_k", "search_top_k", "collaborator_timeout_ms"] value
  let default : Settings := {}
  some {
    defaultLimit := ← orDefault (count? 32) fields "default_limit" default.defaultLimit
    maxLimit := ← orDefault (count? 32) fields "max_limit" default.maxLimit
    followingCap := ← orDefault (count? 32) fields "following_cap" default.followingCap
    similarityTopK := ← orDefault (count? 32) fields "similarity_top_k" default.similarityTopK
    searchTopK := ← orDefault (count? 32) fields "search_top_k" default.searchTopK
    collaboratorTimeout := ← orDefault (count? 64) fields "collaborator_timeout_ms" default.collaboratorTimeout }

/-- Reads a configuration. -/
def ofJson? (positional : Bool) (value : Json) : Option Config := do
  let fields ← section? positional ["service", "storage", "providers", "feed"] value
  let storage ← section? positional ["postgres", "qdrant"] (← fields.get? "storage")
  let providers ← section? positional ["embedding"] (← fields.get? "providers")
  some {
    listener := ← readListener? positional (← fields.get? "service")
    database := ← readDatabase? positional (← storage.get? "postgres")
    vectorIndex := ← readVectorIndex? positional (← storage.get? "qdrant")
    embedding := ← readEmbedding? positional (← providers.get? "embedding")
    feed := ← orDefault (fun fields name => (fields.get? name).bind (readFeed? positional)) fields "feed" {} }

/-- The configuration with all its entries. -/
def toJson (c : Config) : Json :=
  .object [
    ("service", .object [("http_bind", .string c.listener.bind), ("log_level", .string c.listener.logLevel)]),
    ("storage", .object [
      ("postgres", .object [("dsn", .string c.database.dsn), ("pool_max_conns", .ofNat c.database.maxConnections)]),
      ("qdrant", .object [("url", .string c.vectorIndex.url), ("collection", .string c.vectorIndex.collection),
        ("vector_dim", .ofNat c.vectorIndex.dimensions)])]),
    ("providers", .object [("embedding", .object [
      ("provider_id", .string c.embedding.providerId), ("api_base", .string c.embedding.apiBase),
      ("api_key", .string c.embedding.apiKey), ("path", .string c.embedding.path), ("model", .string c.embedding.model),
      ("dimensions", .ofNat c.embedding.dimensions), ("timeout_ms", .ofNat c.embedding.timeout),
      ("default_headers", .object c.embedding.defaultHeaders)])]),
    ("feed", .object [
      ("default_limit", .ofNat c.feed.defaultLimit), ("max_limit", .ofNat c.feed.maxLimit),
      ("following_cap", .ofNat c.feed.followingCap), ("similarity_top_k", .ofNat c.feed.similarityTopK),
      ("search_top_k", .ofNat c.feed.searchTopK), ("collaborator_timeout_ms", .ofNat c.feed.collaboratorTimeout)])]

/-! ## Checking -/

/-- What is wrong with a configuration. -/
inductive Problem where
  /-- An entry has nothing in it. -/
  | empty (entry : String)
  /-- An entry is zero. -/
  | zero (entry : String)
  /-- The vectors of the embedding are not those of the index. -/
  | dimensions
  /-- The default page is larger than the largest page. -/
  | limits
deriving DecidableEq, Repr

/-- The message of a problem. -/
def Problem.message : Problem → String
  | .empty entry => entry ++ " must be non-empty."
  | .zero entry => entry ++ " must be greater than zero."
  | .dimensions => "providers.embedding.dimensions must match storage.qdrant.vector_dim."
  | .limits => "feed.default_limit must not exceed feed.max_limit."

/-- Everything that is wrong with a configuration, in the order in which it is looked at. -/
def problems (c : Config) : List Problem :=
  let isBlank (text : String) : Bool := (Text.trim text).isEmpty
  [(isBlank c.listener.bind, .empty "service.http_bind"),
   (isBlank c.database.dsn, .empty "storage.postgres.dsn"),
   (c.database.maxConnections == 0, .zero "storage.postgres.pool_max_conns"),
   (c.vectorIndex.collection.isEmpty, .empty "storage.qdrant.collection"),
   (c.embedding.dimensions == 0, .zero "providers.embedding.dimensions"),
   (c.embedding.dimensions != c.vectorIndex.dimensions, .dimensions),
   (isBlank c.embedding.apiKey, .empty "Provider embedding api_key"),
   (c.feed.defaultLimit == 0, .zero "feed.default_limit"),
   (decide (c.feed.maxLimit < c.feed.defaultLimit), .limits),
   (c.feed.followingCap == 0, .zero "feed.following_cap"),
   (c.feed.similarityTopK == 0, .zero "feed.similarity_top_k"),
   (c.feed.searchTopK == 0, .zero "feed.search_top_k"),
   (c.feed.collaboratorTimeout == 0, .zero "feed.collaborator_timeout_ms")].filterMap fun (found, problem) =>
     if found then some problem else none

/-- Refuses a configuration with something wrong, and names the first such thing. -/
def check (c : Config) : Except Problem Config :=
  match c.problems with
  | [] => .ok c
  | problem :: _ => .error problem

/-- Takes the blanks off the name of the index's collection, and puts a log level where there is none. -/
def normalize (c : Config) : Config :=
  { c with
    vectorIndex := { c.vectorIndex with collection := Text.trim c.vectorIndex.collection }
    listener :=
      { c.listener with logLevel := if (Text.trim c.listener.logLevel).isEmpty then "info" else c.listener.logLevel } }

/-- Why a configuration file is not taken. -/
inductive LoadError where
  /-- There is no such file, or it holds no text. -/
  | missing
  /-- It is no TOML, or not of the shape of a configuration. -/
  | malformed
  | invalid (problem : Problem)
deriving DecidableEq, Repr

/-- The configuration that the text of a file holds. -/
def load : Option String → Except LoadError Config
  | none => .error .missing
  | some text =>
    match (Toml.ofText? text).bind (ofJson? false) with
    | none => .error .malformed
    | some c => c.normalize.check.mapError .invalid

end Config

end FeedQuery
