import FeedQuery.CommandLine
import FeedQuery.Config
import FeedQuery.Http.Routes
import FeedQuery.Json.Printer
import FeedQuery.Json.Reader

/-!
# The server

Started with a configuration file, the server reads one request per line from its input, a method and a target with a
blank between them, and writes the status and the body of each response. The method `INSERT` writes a document instead:
the target is the name of a collection, and the document follows after another blank.
-/

namespace FeedQuery.Main

/-- How the program is called. -/
def usage : String := "Usage: feed-query --config <FILE>"

/-- The version of the program. -/
def version : String := "0.1.0"

/-- The text of a response. -/
def responseText (r : Http.Response) : String :=
  match r.body with
  | .text text => toString r.status ++ " " ++ text
  | .json value => toString r.status ++ " " ++ value.toText

/-- Writes the document of an `INSERT` line. -/
def insert (store : Store) (collection document : String) : Store × String :=
  match Collection.ofName? collection, (Json.ofText? document).bind Document.ofJson? with
  | some collection, some doc =>
    match store.insert collection doc with
    | .ok store => (store, "inserted")
    | .error error => (store, error.message)
  | _, _ => (store, "not a document of a collection")

/-- Answers one line. -/
def answerLine (settings : Settings) (store : Store) (line : String) : Store × String :=
  match Text.splitOnce? ' ' line with
  | some ("INSERT", rest) =>
    match Text.splitOnce? ' ' rest with
    | some (collection, document) => insert store collection document
    | none => (store, "not a document of a collection")
  | some (method, target) =>
    let perform (exchange : Exchange Http.Response) := (exchange.perform store .absent none).2
    (store, responseText (Http.answer settings perform ⟨method, .ofText target, []⟩))
  | none => (store, "not a request")

/-- Answers lines until there are no more. -/
partial def serve (settings : Settings) (store : Store) : IO Unit := do
  let line ← (← IO.getStdin).getLine
  if line.isEmpty then return
  let (store, answer) := answerLine settings store (Text.trim line)
  IO.println answer
  serve settings store

/-- The text of a file, if there is such a file and it holds text. -/
def readText (path : String) : IO (Option String) := do
  try
    return some (← IO.FS.readFile path)
  catch _ =>
    return none

/-- What the caller is told when the arguments name no file, and the exit code. -/
def refuse : CommandLine.Refusal → String × UInt32
  | .help => (usage, 0)
  | .version => ("feed-query " ++ version, 0)
  | _ => (usage, 2)

/-- What the caller is told when the file is not taken. -/
def loadMessage (path : String) : Config.LoadError → String
  | .missing => "Failed to read config file at " ++ Text.quoted path ++ "."
  | .malformed => "Failed to parse config file at " ++ Text.quoted path ++ "."
  | .invalid problem => problem.message

end FeedQuery.Main

open FeedQuery in
def main (arguments : List String) : IO UInt32 := do
  match CommandLine.read arguments with
  | .error refusal =>
    let (text, code) := Main.refuse refusal
    if code == 0 then IO.println text else IO.eprintln text
    return code
  | .ok path =>
    match Config.load (← Main.readText path) with
    | .error error =>
      IO.eprintln (Main.loadMessage path error)
      return 1
    | .ok config =>
      Main.serve config.feed .empty
      return 0
