import FeedQuery.Config
import FeedQuery.Http.Headers

/-!
# Embeddings

A text is turned into a vector by a service that is asked over HTTP: `Embedding.request` is what is asked, and
`Embedding.read` is what its answer says. The answer holds a list of embeddings, of which the first counts.
-/

namespace FeedQuery.Embedding

/-- What is asked of the service; always by POST. -/
structure Request where
  url : String
  headers : Http.Headers
  body : Json
deriving Repr

/-- Why there is no vector. -/
inductive Failure where
  | header (error : Http.HeaderError)
  /-- The service cannot be reached, refuses the request, or does not answer with JSON. -/
  | transport
  /-- The answer has no embedding. -/
  | missing
  /-- The embedding has another number of dimensions than it should. -/
  | dimensions (found expected : Nat)
  /-- The embedding holds something else than numbers. -/
  | notNumeric
deriving DecidableEq, Repr

/-- The message of a failure. -/
def Failure.message : Failure → String
  | .header error => error.message
  | .transport => "The embedding service did not answer."
  | .missing => "Embedding response is missing data[0].embedding."
  | .dimensions found expected => "Embedding has " ++ toString found ++ " dimensions, expected " ++
      toString expected ++ "."
  | .notNumeric => "Embedding value must be numeric."

/-- What is asked to turn a text into a vector. -/
def request (config : Config.Embedding) (text : String) : Except Failure Request := do
  let headers ← (Http.Headers.authorized config.apiKey config.defaultHeaders).mapError .header
  let headers := if (headers.get? "content-type").isSome then headers else headers.set "content-type" "application/json"
  pure {
    url := config.apiBase ++ config.path
    headers := headers
    body :=
      .object [("model", .string config.model), ("input", .array [.string text]),
      ("dimensions", .ofNat config.dimensions)] }

/-- The values of the first embedding of an answer. -/
def first? (answer : Json) : Option (List Json) := do
  let data ← (← answer.field? "data").array?
  (← (← data.head?).field? "embedding").array?

/-- Reads the vector that an answer holds. -/
def read (config : Config.Embedding) (answer : Json) : Except Failure (List Single) :=
  match first? answer with
  | none => .error .missing
  | some values =>
    if values.length != config.dimensions then .error (.dimensions values.length config.dimensions)
    else match values.mapM Json.double? with
      | some vector => .ok (vector.map Single.ofDouble)
      | none => .error .notNumeric

/-- The answer of the service to a request: JSON, or nothing when there is none. -/
abbrev Service := Request → Option Json

/-- Turns a text into a vector: what was asked, and the vector. -/
def embed (service : Service) (config : Config.Embedding) (text : String) :
    List Request × Except Failure (List Single) :=
  match request config text with
  | .error failure => ([], .error failure)
  | .ok request =>
    match service request with
    | some answer => ([request], read config answer)
    | none => ([request], .error .transport)

end FeedQuery.Embedding
