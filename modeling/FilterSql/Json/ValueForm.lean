import FilterSql.Json.Scalar
import FilterSql.Value

/-!
# The JSON form of a value

A bound value is a bare scalar of JSON: its kind is not written, and reading it
back takes the first kind that can hold it. A floating-point number that is not
finite is written as `null`.
-/

namespace FilterSql.Value

/-- **The JSON form of a value.** -/
def toJson : Value → Json
  | int n => .int n.toInt
  | uint n => .int n.toNat
  | float x => .float x
  | string s => .string s
  | null => .null

/-- The value that a JSON scalar stands for. -/
def ofJson? : Json → Option Value
  | .int n =>
    match signed64? n with
    | some k => some (int k)
    | none => (unsigned64? n).map uint
  | .float x => some (float x)
  | .string s => some (string s)
  | .null => some null
  | .bool _ | .array _ | .object _ => none

/-- **Reads a value** from JSON text. -/
def ofJsonText? (s : String) : Option Value :=
  (Json.readScalar? s).bind ofJson?

end FilterSql.Value
