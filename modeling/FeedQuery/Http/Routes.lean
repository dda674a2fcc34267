import FeedQuery.Http.Target
import FeedQuery.Service

/-!
# Serving over HTTP

Three paths are served: `/health`, `/v1/feed/{kind}` and `/v1/list/{kind}`, each by GET and HEAD. `Http.route` reads a
request as far as that goes without asking anything; what is left is an exchange, and `Http.answer` puts the whole
together, given how exchanges are carried out.
-/

namespace FeedQuery.Http

/-- A request, its headers in the order in which they came. -/
structure Request where
  method : String
  target : Target
  headers : List (String × String)
deriving Repr

/-- What a response carries. -/
inductive Body where
  | text (text : String)
  | json (value : Json)
deriving Repr

/-- A response. -/
structure Response where
  status : Nat
  body : Body
deriving Repr

namespace Response

/-- A status alone. -/
def bare (status : Nat) : Response := ⟨status, .text ""⟩

/-- An error with its code and message, and the parts of the request it is about. -/
def error (status : Nat) (code message : String) (fields : Option (List String)) : Response :=
  ⟨status, .json (.object ([("error_code", .string code), ("message", .string message)] ++
    (fields.map fun names => ("fields", .array (names.map .string))).toList))⟩

/-- A request that cannot be read. -/
def invalid (message field : String) : Response := error 400 "INVALID_REQUEST" message (some [field])

/-- What a service error tells the caller: its message if the request is to blame, and nothing else. -/
def ofError : ServiceError → Response
  | .invalidRequest message => error 400 "INVALID_REQUEST" message none
  | _ => error 500 "INTERNAL_ERROR" "Internal error." none

/-- The response without its body. -/
def withoutBody (r : Response) : Response := bare r.status

end Response

/-- The parameters of a query. Filters and sorts collect; of the others the last counts. -/
structure Parameters where
  filters : List String
  sorts : List String
  cursor : Option String
  nextValue : Option String
  limit : Option Nat
  page : Option Nat
  pageSize : Option Nat
deriving DecidableEq, Repr

namespace Parameters

/-- No parameters. -/
def empty : Parameters := ⟨[], [], none, none, none, none, none⟩

/-- A count of 32 bits; blanks around it do not count. -/
def readCount (name raw : String) : Except Response (Option Nat) :=
  match Decimal.readCount? (Nat.pow 2 32 - 1) (Text.trimList raw.toList) with
  | some n => .ok (some n)
  | none => .error (.invalid (name ++ " must be a non-negative integer.") ("$." ++ name))

/-- Takes up one pair; a name that means nothing is passed over. -/
def add (p : Parameters) : String × String → Except Response Parameters
  | ("filter", value) => .ok { p with filters := p.filters ++ [value] }
  | ("sort", value) => .ok { p with sorts := p.sorts ++ [value] }
  | ("cursor", value) => .ok { p with cursor := some value }
  | ("nextValue", value) => .ok { p with nextValue := some value }
  | ("limit", value) => (readCount "limit" value).map fun n => { p with limit := n }
  | ("page", value) => (readCount "page" value).map fun n => { p with page := n }
  | ("pageSize", value) => (readCount "pageSize" value).map fun n => { p with pageSize := n }
  | _ => .ok p

/-- Reads the pairs of a query; the first count that is none refuses the request. -/
def read (pairs : List (String × String)) : Except Response Parameters := pairs.foldlM add empty

end Parameters

/-- The header that names the viewer, set once the viewer is known for certain. -/
def viewerHeader : String := "X-Feed-Viewer-Id"

/-- The viewer that the headers name. -/
def readViewer (headers : List (String × String)) : Except Response (Option Uuid) :=
  match headers.find? fun header => Text.lower header.1 == Text.lower viewerHeader with
  | none => .ok none
  | some (_, raw) =>
    let isVisible (c : Char) : Bool := (0x20 ≤ c.toNat && c.toNat < 0x7f) || c == '\t'
    match if raw.toList.all isVisible then Uuid.ofList? (Text.trimList raw.toList) else none with
    | some viewer => .ok (some viewer)
    | none => .error (.invalid (viewerHeader ++ " must be a UUID.") viewerHeader)

/-- The feed that a path segment names. -/
def readFeed (segment : String) : Except Response Collection :=
  match Collection.ofFeedName? segment with
  | some collection => .ok collection
  | none => .error (.invalid ("Unknown feed kind " ++ Text.quoted segment ++ ".") "$.kind")

/-- What a path leads to. -/
inductive Route where
  | health
  | feed (segment : List Char)
  | list (segment : List Char)
deriving DecidableEq, Repr

/-- The route of a path, if it leads anywhere. -/
def Route.ofPath? (path : List Char) : Option Route :=
  match (Text.splitList '/' path).map String.ofList with
  | ["", "health"] => some .health
  | ["", "v1", "feed", segment] => if segment.isEmpty then none else some (.feed segment.toList)
  | ["", "v1", "list", segment] => if segment.isEmpty then none else some (.list segment.toList)
  | _ => none

/-- The text of a path segment. -/
def readSegment (segment : List Char) : Except Response String :=
  match Text.Utf8.read? (percentDecode segment) with
  | some text => .ok (String.ofList text)
  | none => .error ⟨400, .text "Invalid URL: Invalid UTF-8 in \x60kind\x60"⟩

/-- A page of a feed, or what is wrong with the request. -/
def feed (settings : Settings) (segment : List Char) (r : Request) : Except Response (Exchange Response) := do
  let collection ← readFeed (← readSegment segment)
  let viewer ← readViewer r.headers
  let p ← Parameters.read r.target.pairs
  let page ← (Service.feed settings
    ⟨collection, viewer, p.filters, p.sorts, p.cursor, p.nextValue, p.limit, .exclude⟩).mapError Response.ofError
  pure do
    let page ← page
    pure ⟨200, .json page.toJson⟩

/-- A page of a listing, or what is wrong with the request. -/
def list (settings : Settings) (segment : List Char) (r : Request) : Except Response (Exchange Response) := do
  let collection ← readFeed (← readSegment segment)
  let viewer ← readViewer r.headers
  let p ← Parameters.read r.target.pairs
  let page ← (Service.list settings
    ⟨collection, viewer, p.filters, p.sorts, p.page, p.pageSize.or p.limit, .exclude⟩).mapError Response.ofError
  pure do
    let page ← page
    pure ⟨200, .json page.toJson⟩

/-- Reads a request: a response, or the exchange that ends with one. -/
def route (settings : Settings) (r : Request) : Except Response (Exchange Response) :=
  match Route.ofPath? r.target.path with
  | none => .error (.bare 404)
  | some found =>
    if r.method != "GET" && r.method != "HEAD" then .error (.bare 405)
    else match found with
      | .health => .error (.bare 200)
      | .feed segment => feed settings segment r
      | .list segment => list settings segment r

/-- The response to a request, given how an exchange is carried out. A HEAD request gets no body. -/
def answer (settings : Settings) (perform : Exchange Response → Except StorageError Response)
    (r : Request) : Response :=
  let response := match route settings r with
    | .error response => response
    | .ok exchange => match perform exchange with
      | .ok response => response
      | .error error => .ofError (.ofStorage error)
  if r.method == "HEAD" then response.withoutBody else response

end FeedQuery.Http
