import FilterSql.Filter.Match
import FilterSql.Text.Place

/-!
# Errors of reading a filter

An input that does not match the grammar is reported with the rules that were
expected at the furthest place reached, that place, and the line it is in. The
other two errors are about a match that does not have the shape of a filter.
-/

namespace FilterSql

/-- **Why a text is no filter.** -/
inductive ParseError where
  /-- The text does not match the grammar at a place. -/
  | malformed (expected : String) (line column : Nat) (snippet : String)
  /-- A part that has no place in a filter. -/
  | unexpectedToken (token : String) (line column : Nat)
  /-- A part of which something is missing. -/
  | incomplete (what : String)
  deriving DecidableEq

namespace ParseError

/-- What is reported of a parse error. -/
def message : ParseError → String
  | malformed expected line column _ =>
    s!"Syntax error at {line}:{column}: {expected}"
  | unexpectedToken token line column => s!"Unexpected token '{token}' at {line}:{column}"
  | incomplete what => s!"Incomplete {what} expression"

/-- The widest that a text can be padded to. -/
def maxWidth : Nat := 65535

/-- A caret under a column, unless that is too far to the right. -/
def caret? (column : Nat) : Option String :=
  if column ≤ maxWidth then some (String.ofList (List.replicate (column - 1) ' ' ++ ['^']))
  else none

/-- **The full report**: the message and, where there is a line to show, that
line with a caret under the column. It fails if the caret cannot be placed. -/
def report? (e : ParseError) : Option String :=
  match e with
  | malformed _ _ column snippet =>
    (caret? column).map fun caret => e.message ++ "\n" ++ snippet ++ "\n" ++ caret
  | _ => some e.message

/-- Names in a row: `A`, `A or B`, `A, B, or C`. -/
def enumerate : List String → String
  | [] => ""
  | [a] => a
  | [a, b] => a ++ " or " ++ b
  | names => String.intercalate ", " names.dropLast ++ ", or " ++ names.getLastD ""

/-- What was expected where these rules were tried in vain: each of them once,
in the order of the grammar. -/
def expectation (rules : List Rule) : String :=
  match Rule.all.filter (rules.contains ·) with
  | [] => "unknown parsing error"
  | expected => "expected " ++ enumerate (expected.map Rule.name)

/-- The error of an input on which these attempts were made in vain. -/
def ofAttempts (input : List Char) (a : Attempts) : ParseError :=
  let before := input.take a.pos
  let after := input.drop a.pos
  let (line, column) := Text.lineColumn before
  malformed (expectation a.rules) line column (String.ofList (Text.shownLine before after))

end ParseError

end FilterSql
