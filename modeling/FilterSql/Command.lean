import FilterSql.Json.FilterForm
import FilterSql.Query

/-!
# The command line

The program `filterql` has two commands: `ast` prints the tree of a filter as
JSON, and `compile` prints the query of a filter, in lines or as JSON. What a
command prints and its exit code are computed here; nothing is printed yet.

Arguments are read from left to right. An option takes its value from behind an
equals sign or from the next argument, which then must not start with a hyphen;
no option may be given twice, and nothing else may stand among them.
-/

namespace FilterSql

/-- What running the program gives. -/
structure Outcome where
  /-- The exit code. -/
  exit : UInt32
  /-- What goes to standard output. -/
  stdout : String
  /-- What goes to standard error. -/
  stderr : String

/-- **A command**, with its options. -/
inductive Command where
  | ast (filter : String)
  | compile (filter dialect : String) (table : Option String) (json : Bool)
  | version
  | help

/-- The options of a command, as far as they are given. -/
structure Options where
  filter : Option String
  dialect : Option String
  table : Option String
  json : Bool

/-- Why arguments are not read as options. -/
inductive Halt where
  /-- Help is asked for. -/
  | help
  /-- The arguments are refused. -/
  | refused

namespace Options

/-- No option is given. -/
def empty : Options := ⟨none, none, none, false⟩

/-- Gives an option its value, unless it has one. Only the command `compile`
has options beside the filter. -/
def set (full : Bool) (o : Options) (key value : String) : Except Halt Options :=
  if key = "filter" ∧ o.filter.isNone then .ok { o with filter := some value }
  else if full ∧ key = "dialect" ∧ o.dialect.isNone then .ok { o with dialect := some value }
  else if full ∧ key = "table" ∧ o.table.isNone then .ok { o with table := some value }
  else .error .refused

/-- The key of a long option, and the value behind its equals sign if there is
one. -/
def split? : List Char → Option (String × Option String)
  | '-' :: '-' :: rest =>
    let key := rest.takeWhile (· ≠ '=')
    match rest.dropWhile (· ≠ '=') with
    | [] => some (String.ofList key, none)
    | _ :: value => some (String.ofList key, some (String.ofList value))
  | _ => none

/-- Whether an argument cannot be the value of an option before it. -/
def isHyphenated (arg : String) : Bool :=
  arg.toList.head? == some '-' && arg != "-"

/-- **Reads options**, those of `compile` if `full` and those of `ast`
otherwise. -/
def read (full : Bool) (o : Options) : List String → Except Halt Options
  | [] => .ok o
  | ["--"] => .ok o
  | arg :: rest =>
    match split? arg.toList with
    | none => .error (if arg.startsWith "-h" then .help else .refused)
    | some (key, some value) => do read full (← o.set full key value) rest
    | some ("help", none) => .error .help
    | some ("json", none) =>
      if full ∧ ¬o.json then read full { o with json := true } rest else .error .refused
    | some (key, none) =>
      match rest with
      | [] => .error .refused
      | value :: rest =>
        if isHyphenated value then .error .refused
        else do read full (← o.set full key value) rest

end Options

namespace Command

/-- The dialect of a query when none is named. -/
def defaultDialect : String := "sqlite"

/-- The command that options complete; the filter is required. -/
def ofOptions (complete : Options → String → Command) (o : Except Halt Options) :
    Except Halt Command := do
  let o ← o
  match o.filter with
  | none => .error .refused
  | some filter => .ok (complete o filter)

/-- **The command of the arguments.** -/
def ofArgs : List String → Except Halt Command
  | "ast" :: rest => ofOptions (fun _ filter => ast filter) (Options.empty.read false rest)
  | "compile" :: rest =>
    ofOptions (fun o filter => compile filter (o.dialect.getD defaultDialect) o.table o.json)
      (Options.empty.read true rest)
  | "help" :: _ | "--help" :: _ => .ok help
  | "--version" :: _ => .ok version
  | arg :: _ =>
    if arg.startsWith "-V" then .ok version
    else if arg.startsWith "-h" then .ok help
    else .error .refused
  | [] => .error .refused

/-- How the program is used. -/
def usage : String :=
  "Usage: filterql ast --filter <FILTER>\n" ++
    "       filterql compile --filter <FILTER> [--dialect <DIALECT>] [--table <TABLE>] [--json]\n"

/-- What is printed goes to standard output. -/
def printed (s : String) : Outcome := ⟨0, s ++ "\n", ""⟩

/-- **What is printed of an error**: a report with the line it is in, if it is
about the filter, and its full form. If the report fails, so does the program. -/
def failed (e : QueryError) : Outcome :=
  let report? := match e with
    | .parse p => p.report?.map (· ++ "\n")
    | _ => some ""
  match report? with
  | some report => ⟨1, "", report ++ "Error: " ++ e.dump ++ "\n"⟩
  | none => ⟨101, "", "Formatting argument out of range\n"⟩

/-- **Runs a command.** The dialect is looked up before the filter is read. -/
def run : Command → Outcome
  | ast filter =>
    match Filter.parse filter with
    | .error e => failed (.parse e)
    | .ok f => printed (f.elim Json.null Filter.toJson).pretty
  | compile filter dialect table json =>
    match Dialect.ofName dialect with
    | .error e => failed (.build e)
    | .ok d =>
      match (Query.ofFilter filter d table).value with
      | .error e => failed e
      | .ok q => printed (if json then q.toJson.pretty else q.lines)
  | version => printed "filterql 0.1.0"
  | help => ⟨0, usage, ""⟩

/-- **Runs the program** on its arguments. -/
def runArgs (args : List String) : Outcome :=
  match ofArgs args with
  | .ok command => command.run
  | .error .help => help.run
  | .error .refused => ⟨2, "", usage⟩

end Command

end FilterSql
