import FilterSql.Filter.Basic
import FilterSql.Json.Basic

/-!
# The JSON form of a filter

A node of a filter is an object with a single field, whose name says what node
it is; `null` is the bare string `"NullLiteral"`. Reading accepts more than
writing produces: fields in any order, further fields beside the expected ones,
and an object with the field `null` for a name that stands alone.
-/

namespace FilterSql

namespace Operator

/-- The JSON form of an operator. -/
def toJson (op : Operator) : Json :=
  .string op.tag

/-- The operator of a JSON form: its name, alone or as the only field of an
object, with `null` as its value. -/
def ofJson? : Json → Option Operator
  | .string s => ofTag? s
  | .object [(s, .null)] => ofTag? s
  | _ => none

@[simp] theorem ofJson?_toJson (op : Operator) : ofJson? op.toJson = some op :=
  ofTag?_tag op

end Operator

namespace Filter

/-- **The JSON form of a filter.** -/
def toJson : Filter → Json
  | binary op l r =>
    .object [("Binary",
      .object [("operator", op.toJson), ("left", l.toJson), ("right", r.toJson)])]
  | not f => .object [("Not", .object [("right", f.toJson)])]
  | identifier path => .object [("Identifier", .string path)]
  | integer digits => .object [("IntegerLiteral", .string digits)]
  | string s => .object [("StringLiteral", .string s)]
  | null => .string "NullLiteral"

mutual

/-- **The filter of a JSON form**, if it is one. It is read from a value, not from
its text. The objects of a value have each key once; where a key is repeated all
the same, the first field with it counts. -/
def ofJson? : Json → Option Filter
  | .string s => if s = "NullLiteral" then some null else none
  | .object [(tag, .string s)] =>
    if tag = "Identifier" then some (identifier s)
    else if tag = "IntegerLiteral" then some (integer s)
    else if tag = "StringLiteral" then some (string s)
    else none
  | .object [(tag, .null)] => if tag = "NullLiteral" then some null else none
  | .object [(tag, .object fields)] =>
    let operands := ofFields fields
    if tag = "Binary" then do
      let op ← (fields.lookup "operator").bind Operator.ofJson?
      return binary op (← (operands.lookup "left").join) (← (operands.lookup "right").join)
    else if tag = "Not" then (operands.lookup "right").join.map not
    else none
  | _ => none

/-- The fields of an object, each with the filter that its value is a form of,
if it is one. -/
def ofFields : List (String × Json) → List (String × Option Filter)
  | [] => []
  | (key, j) :: rest => (key, ofJson? j) :: ofFields rest

end

end Filter

end FilterSql
