import FeedQuery.Json

/-!
# Tables in TOML

A table is built from parts that stand in different places of a text: the keys under its own header, keys with dots, and
the headers of tables inside it. `Table.put?` and `Table.under?` add such a part and refuse one that would define
something a second time. Each remembers how a table came to be, because that decides what may still be added to it.
-/

namespace FeedQuery.Toml

/-- How a table came to be. -/
inductive Origin where
  /-- By a header of its own. -/
  | header
  /-- By the header of a table inside it. -/
  | implied
  /-- By a key with dots. -/
  | dotted
deriving DecidableEq, Repr

/-- What stands under a name. -/
inductive Node where
  | value (value : Json)
  | table (origin : Origin) (entries : List (String × Node))
  /-- Tables that have one header in common, one for each time it stands in the text. -/
  | tables (items : List (List (String × Node)))

/-- The entries of a table. -/
abbrev Table := Fields Node

namespace Table

/-- Puts a value under a key with dots. A name may stand once; a table that a header made takes no keys from
elsewhere. -/
def put? (value : Json) : List String → Table → Option Table
  | [], _ => none
  | [name], t => if (t.get? name).isSome then none else some (t.set name (.value value))
  | name :: next :: rest, t =>
    match t.get? name with
    | none => (put? value (next :: rest) []).map fun inner => t.set name (.table .dotted inner)
    | some (.table .dotted inner) => (put? value (next :: rest) inner).map fun inner =>
        t.set name (.table .dotted inner)
    | some (.table .implied inner) =>
      if rest.isEmpty then none
      else (put? value (next :: rest) inner).map fun inner => t.set name (.table .implied inner)
    | some (.tables items) =>
      if rest.isEmpty then none
      else items.getLast?.bind fun last =>
        (put? value (next :: rest) last).map fun last => t.set name (.tables (items.dropLast ++ [last]))
    | some (.table .header _) | some (.value _) => none

/-- Fills in the table under a header. A header stands once, unless it is one of several with a table each (`repeated`),
and it leads through tables however they came to be, and through the last of several. -/
def under? (repeated : Bool) (fill : Table → Option Table) : List String → Table → Option Table
  | [], _ => none
  | [name], t =>
    match t.get? name, repeated with
    | none, false => (fill []).map fun inner => t.set name (.table .header inner)
    | none, true => (fill []).map fun inner => t.set name (.tables [inner])
    | some (.table .implied inner), false => (fill inner).map fun inner => t.set name (.table .header inner)
    | some (.tables items), true => (fill []).map fun inner => t.set name (.tables (items ++ [inner]))
    | _, _ => none
  | name :: next :: rest, t =>
    match t.get? name with
    | none => (under? repeated fill (next :: rest) []).map fun inner => t.set name (.table .implied inner)
    | some (.table origin inner) => (under? repeated fill (next :: rest) inner).map fun inner =>
        t.set name (.table origin inner)
    | some (.tables items) =>
      items.getLast?.bind fun last =>
        (under? repeated fill (next :: rest) last).map fun last => t.set name (.tables (items.dropLast ++ [last]))
    | some (.value _) => none

/-- Puts values under keys, one after the other. -/
def putAll? (entries : List (List String × Json)) (t : Table) : Option Table :=
  entries.foldlM (fun t entry => t.put? entry.2 entry.1) t

end Table

mutual

/-- The value that stands under a name. -/
def Node.toJson : Node → Json
  | .value value => value
  | .table _ entries => .object (entryFields entries)
  | .tables items => .array (tableValues items)

/-- The fields of a table. -/
def entryFields : List (String × Node) → List (String × Json)
  | [] => []
  | (name, node) :: rest => (name, node.toJson) :: entryFields rest

/-- The values of several tables. -/
def tableValues : List (List (String × Node)) → List Json
  | [] => []
  | entries :: rest => .object (entryFields entries) :: tableValues rest

end

/-- The object that a table is. -/
def Table.toJson (t : Table) : Json := .object (entryFields t)

end FeedQuery.Toml
