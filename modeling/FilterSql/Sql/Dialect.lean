import FilterSql.Text.Ascii
import FilterSql.Text.Quoted

/-!
# Dialects of SQL

A dialect decides two spellings: how a name is quoted, and what stands in the
text for a bound value. Everything else in a statement is the same in all of
them.
-/

namespace FilterSql

/-- What can go wrong while a query is put together. -/
inductive BuildError where
  /-- A raw template whose `?` markers are not as many as its arguments. -/
  | placeholderMismatch (template : String) (placeholders args : Nat)
  /-- A name, in small letters, that no dialect has. -/
  | unknownDialect (name : String)
  deriving DecidableEq

/-- What is reported of a build error. -/
def BuildError.message : BuildError → String
  | .placeholderMismatch template placeholders args =>
    "Raw expression '" ++ template ++ "' has " ++ toString placeholders ++
      " placeholder(s) but " ++ toString args ++ " argument(s)"
  | .unknownDialect name => "Unknown SQL dialect: " ++ name

/-- **A dialect of SQL.** -/
inductive Dialect where
  | postgres
  | mysql
  | sqlite
  deriving DecidableEq

namespace Dialect

/-- The dialect's own name. -/
def name : Dialect → String
  | postgres => "PostgreSQL"
  | mysql => "MySQL"
  | sqlite => "SQLite"

/-- The character that stands around a quoted name: the double quote in one
dialect, the grave accent in the others. -/
def quoteChar : Dialect → Char
  | postgres => '\x22'
  | mysql | sqlite => '\x60'

/-- A name between the dialect's quotes. -/
def quote (d : Dialect) (name : String) : String :=
  Text.quoted d.quoteChar name

/-- **The placeholder of a bound value**: numbered from one in one dialect, a
bare question mark in the others. `index` is the number of values bound
before. -/
def placeholder (d : Dialect) (index : Nat) : String :=
  match d with
  | postgres => "$" ++ toString (index + 1)
  | mysql | sqlite => "?"

/-- The dialect of a name, whatever the case of its letters. -/
def ofName (s : String) : Except BuildError Dialect :=
  let small := Text.lower s
  if small = "postgres" ∨ small = "postgresql" ∨ small = "pg" then .ok postgres
  else if small = "mysql" then .ok mysql
  else if small = "sqlite" then .ok sqlite
  else .error (.unknownDialect small)

end Dialect

end FilterSql
