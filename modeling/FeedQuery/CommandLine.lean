/-!
# The command line

The server takes one option, the configuration file, as `-c FILE` or `--config FILE`; the value may also follow in the
same argument, after an equals sign or, for `-c`, at once. The arguments are read one after the other, and the first
that ends the reading decides: `-h` and `-V` end it too. An option whose value is in the next argument is settled only
when the argument after that is an option again or there are no more.
-/

namespace FeedQuery.CommandLine

/-- Why the arguments do not name a configuration file. -/
inductive Refusal where
  /-- No file is named. -/
  | missing
  /-- The option has no value, or an empty one. -/
  | value
  /-- A flag has a value. -/
  | flagValue
  /-- An argument means nothing. -/
  | unknown
  /-- The option is there twice. -/
  | repeated
  /-- The caller asks how the program is called. -/
  | help
  /-- The caller asks for the version. -/
  | version
deriving DecidableEq, Repr

/-- How an argument reads. -/
inductive Argument where
  /-- Two dashes: what follows is no option. -/
  | separator
  /-- The option, with the value that is in the same argument. -/
  | file (value : Option String)
  /-- A flag, which ends the reading. -/
  | flag (refusal : Refusal)
  /-- A flag with a value. -/
  | flagWithValue
  /-- What looks like an option and is none. -/
  | unknown
  | plain (text : String)
deriving DecidableEq, Repr

/-- An argument after two dashes. -/
def Argument.long (text : List Char) : Argument :=
  let name := String.ofList (text.takeWhile (· != '='))
  let value := match text.dropWhile (· != '=') with
    | _ :: rest => some (String.ofList rest)
    | [] => none
  match name with
  | "config" => .file value
  | "help" => if value.isSome then .flagWithValue else .flag .help
  | "version" => if value.isSome then .flagWithValue else .flag .version
  | _ => .unknown

/-- An argument after one dash: the first letter decides, because every option ends the argument. -/
def Argument.short : List Char → Argument
  | 'c' :: '=' :: value => .file (some (String.ofList value))
  | ['c'] => .file none
  | 'c' :: value => .file (some (String.ofList value))
  | 'h' :: _ => .flag .help
  | 'V' :: _ => .flag .version
  | _ => .unknown

/-- Reads an argument. One dash alone is no option. -/
def Argument.ofText (text : String) : Argument :=
  match text.toList with
  | ['-', '-'] => .separator
  | '-' :: '-' :: rest => .long rest
  | ['-'] => .plain text
  | '-' :: rest => .short rest
  | _ => .plain text

/-- What the arguments so far have said. -/
structure Progress where
  /-- The file that was named. -/
  file : Option String
  /-- An option that is not settled yet, with the value that it has so far. -/
  pending : Option (Option String)
deriving DecidableEq, Repr

namespace Progress

/-- Nothing was said yet. -/
def start : Progress := ⟨none, none⟩

/-- Takes up the value of an option. -/
def take (p : Progress) : Option String → Except Refusal Progress
  | none => .error .value
  | some value =>
    if p.file.isSome then .error .repeated
    else if value.isEmpty then .error .value
    else .ok ⟨some value, none⟩

/-- Settles the option that is not settled. -/
def settle (p : Progress) : Except Refusal Progress :=
  match p.pending with
  | none => .ok p
  | some value => { p with pending := none }.take value

/-- Takes up an argument. -/
def add (p : Progress) : Argument → Except Refusal Progress
  | .separator => .ok p
  | .file (some value) => p.settle.bind fun p => p.take (some value)
  | .file none => p.settle.map fun p => { p with pending := some none }
  | .flag refusal => p.settle.bind fun _ => .error refusal
  | .flagWithValue => .error .flagValue
  | .unknown => .error .unknown
  | .plain text =>
    match p.pending with
    | some none => .ok { p with pending := some (some text) }
    | _ => .error .unknown

/-- The file that was named. -/
def finish (p : Progress) : Except Refusal String :=
  p.settle.bind fun p => match p.file with
    | some file => .ok file
    | none => .error .missing

/-- Takes up arguments in order. After two dashes nothing more may follow. -/
def addAll (p : Progress) : List String → Except Refusal Progress
  | [] => .ok p
  | argument :: rest =>
    match Argument.ofText argument with
    | .separator => if rest.isEmpty then .ok p else .error .unknown
    | found => (p.add found).bind fun p => p.addAll rest

end Progress

/-- The configuration file that the arguments name. -/
def read (arguments : List String) : Except Refusal String :=
  (Progress.start.addAll arguments).bind Progress.finish

end FeedQuery.CommandLine
