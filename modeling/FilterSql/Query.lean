import FilterSql.Compile
import FilterSql.Filter.Read
import FilterSql.Json.ValueForm
import FilterSql.Text.Escaped

/-!
# Queries

A query is what a filter becomes for one dialect: the bare WHERE clause, or a
SELECT over a table that is named. The filter is read before the table's name
is looked at, so a text that is no filter is reported first.
-/

namespace FilterSql

/-- **Why there is no query.** -/
inductive QueryError where
  /-- The text is no filter. -/
  | parse (e : ParseError)
  /-- The query cannot be put together. -/
  | build (e : BuildError)
  /-- The name is not that of a table. -/
  | invalidTable (name : String)
  deriving DecidableEq

/-- The full form of a parse error: what it is made of. -/
def ParseError.dump : ParseError → String
  | malformed expected line column snippet =>
    "Syntax \x7b message: " ++ Text.escaped expected ++ ", line: " ++ toString line ++
      ", column: " ++ toString column ++ ", source_snippet: " ++ Text.escaped snippet ++ " \x7d"
  | unexpectedToken token line column =>
    "UnexpectedToken \x7b token: " ++ Text.escaped token ++ ", line: " ++ toString line ++
      ", column: " ++ toString column ++ " \x7d"
  | incomplete what => "Incomplete(" ++ Text.escaped what ++ ")"

/-- The full form of a build error: what it is made of. -/
def BuildError.dump : BuildError → String
  | placeholderMismatch template placeholders args =>
    "PlaceholderMismatch \x7b sql: " ++ Text.escaped template ++ ", placeholders: " ++
      toString placeholders ++ ", args: " ++ toString args ++ " \x7d"
  | unknownDialect name => "UnknownDialect(" ++ Text.escaped name ++ ")"

namespace QueryError

/-- What is reported of a query error. -/
def message : QueryError → String
  | parse e => "Failed to parse the filter: " ++ e.message
  | build e => "Failed to build the query: " ++ e.message
  | invalidTable name => "Invalid table name: '" ++ name ++ "'"

/-- The full form of a query error: what it is made of. -/
def dump : QueryError → String
  | parse e => "FilterParse(" ++ e.dump ++ ")"
  | build e => "QueryBuild(" ++ e.dump ++ ")"
  | invalidTable name => "InvalidTable(" ++ Text.escaped name ++ ")"

end QueryError

/-- **A query**: SQL text in a dialect, and the values bound to its
placeholders. -/
structure Query where
  /-- The dialect. -/
  dialect : Dialect
  /-- The text. -/
  sql : String
  /-- The bound values, in the order of their placeholders. -/
  params : List Value
  deriving DecidableEq

namespace Query

/-- The query of a statement, reported. -/
def ofStatement (d : Dialect) (st : Statement) : Logged (Except QueryError Query) := do
  Logged.log (.rendered d st.sql)
  return .ok ⟨d, st.sql, st.params⟩

/-- The selection of all columns of a table under a restriction. -/
def selection (table : QualifiedName) (r : Restriction) : Select :=
  (Select.ofTable [] ⟨table, none⟩).apply r

/-- **The query of a filter**: over a table if one is named, and the WHERE
clause alone otherwise. -/
def ofFilter (input : String) (d : Dialect) (table : Option String) :
    Logged (Except QueryError Query) := do
  match ← Filter.read input with
  | .error e => return .error (.parse e)
  | .ok f =>
    let r ← Restriction.ofFilter f
    if r.isEmpty then Logged.log .keptAll
    match table with
    | none =>
      let st := r.render d
      ofStatement d ⟨Text.trimStart st.sql, st.params⟩
    | some name =>
      match QualifiedName.ofTable? name with
      | none => return .error (.invalidTable name)
      | some t => ofStatement d ((selection t r).render d)

/-! ## Showing a query -/

/-- The list of bound values as it is shown. -/
def paramsText (params : List Value) : String :=
  String.intercalate ", " (params.map Value.text)

/-- **The query in three lines.** -/
def lines (q : Query) : String :=
  "Dialect  " ++ q.dialect.name ++ "\nSQL      " ++ q.sql ++ "\nParams   [" ++
    paramsText q.params ++ "]"

/-- **The JSON form of a query.** -/
def toJson (q : Query) : Json :=
  .object [("dialect", .string q.dialect.name), ("sql", .string q.sql),
    ("params", .array (q.params.map Value.toJson))]

end Query

end FilterSql
