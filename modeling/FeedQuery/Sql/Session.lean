import FeedQuery.Sql.Access
import FeedQuery.Sql.Schema
import FeedQuery.Store

/-!
# Sessions with a database

A client of the database sends commands one after another and stops at the first that is refused. Each operation gives
the commands that it sent, in order, and its result. A database that cannot be reached is sent nothing.
-/

namespace FeedQuery.Sql

/-- What a client sends. -/
inductive Command where
  /-- A command without values, which begins or ends a transaction. -/
  | plain (text : String)
  | prepared (statement : Statement)
deriving Repr

/-- Why a database does not do what it is asked. -/
inductive Failure where
  /-- It cannot be reached. -/
  | unreachable (reason : String)
  /-- It refused a command. -/
  | refused (message : String)
  /-- It answered with a row that is not what was asked for. -/
  | unreadable
deriving DecidableEq, Repr

namespace Failure

/-- The message of a failure. -/
def message : Failure → String
  | .unreachable reason => "error communicating with database: " ++ reason
  | .refused message => "error returned from database: " ++ message
  | .unreadable => "unexpected row"

/-- What a failure means for whoever asked the store. -/
def toStorageError (f : Failure) : StorageError := .database f.message

end Failure

/-- What a database answers to a command: rows of one value each, or why it refuses the command. -/
abbrev Server := Command → Except String (List Json)

/-- A database as its clients see it. -/
inductive Database where
  | unreachable (reason : String)
  | serving (server : Server)

/-- Connects to a database. -/
def Database.connect : Database → Except Failure Server
  | .unreachable reason => .error (.unreachable reason)
  | .serving server => .ok server

namespace Server

/-- Sends commands until one is refused: those that were sent, and the rows that the last one gave. -/
def send (server : Server) : List Command → List Command × Except Failure (List Json)
  | [] => ([], .ok [])
  | command :: rest =>
    match server command with
    | .error message => ([command], .error (.refused message))
    | .ok rows =>
      if rest.isEmpty then ([command], .ok rows)
      else
        let (sent, result) := send server rest
        (command :: sent, result)

/-- The documents that rows hold. -/
def readDocuments (rows : List Json) : Except Failure (List Document) :=
  rows.mapM fun row => match Document.ofJson? row with
    | some doc => .ok doc
    | none => .error .unreadable

/-- The count that a row holds; there is never less than nothing. -/
def readCount : List Json → Except Failure Nat
  | .number (.integer n _) :: _ => .ok n.toNat
  | _ => .error .unreadable

/-- Finds documents. -/
def find (server : Server) (collection : Collection) (query : Query) : List Command × Except Failure (List Document) :=
  let (sent, rows) := server.send [.prepared (.select collection query)]
  (sent, rows.bind readDocuments)

/-- Counts documents. -/
def count (server : Server) (collection : Collection) (predicate : Predicate) : List Command × Except Failure Nat :=
  let (sent, rows) := server.send [.prepared (.count collection predicate)]
  (sent, rows.bind readCount)

/-- Writes a document; one without an identifier is refused before anything is sent. -/
def insert (server : Server) (collection : Collection) (doc : Document) : List Command × Except StorageError Unit :=
  match doc.storeId with
  | .error error => ([], .error error)
  | .ok id =>
    let (sent, rows) := server.send [.prepared (.upsert collection id doc)]
    (sent, (rows.map fun _ => ()).mapError Failure.toStorageError)

/-- The lock that keeps two clients from applying the schema at one time. -/
def schemaLock : Int := 4611202

/-- The commands that apply the schema: one transaction, which holds the lock until it ends. -/
def schemaCommands : List Command :=
  [.plain "BEGIN", .prepared ⟨[.text "SELECT pg_advisory_xact_lock(", .bind (.integer schemaLock), .text ")"]⟩] ++
    schemaStatements.map (fun text => .prepared (.ofText text)) ++ [.plain "COMMIT"]

/-- Applies the schema. -/
def ensureSchema (server : Server) : List Command × Except Failure Unit :=
  let (sent, rows) := server.send schemaCommands
  (sent, rows.map fun _ => ())

end Server

end FeedQuery.Sql
