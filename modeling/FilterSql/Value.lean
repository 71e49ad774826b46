import FilterSql.Decimal.Layout
import FilterSql.Decimal.Numeral
import FilterSql.Text.Quoted

/-!
# Values

What a statement binds to a placeholder: an integer of 64 bits, signed or
unsigned, a floating-point number, a text, or `NULL`. The literal of a filter
becomes the first of these that can hold it.
-/

namespace FilterSql

/-- **A value bound to a placeholder.** -/
inductive Value where
  | int (n : Int64)
  | uint (n : UInt64)
  | float (x : Binary64)
  | string (s : String)
  | null
  deriving DecidableEq

namespace Value

/-- What kind of value it is, in a word. -/
def kind : Value → String
  | int _ => "int"
  | uint _ => "uint"
  | float _ => "float"
  | string _ => "string"
  | null => "null"

/-- Whether the value is `NULL`. -/
def isNull : Value → Bool
  | null => true
  | _ => false

/-- Numbers are shown without an exponent, whole ones without a point. -/
def shown : Layout := ⟨.up, fun _ => true, false⟩

/-- **The text by which a value is shown.** It is for people to read; no value
is ever written into a statement. -/
def text : Value → String
  | int n => toString n.toInt
  | uint n => toString n.toNat
  | float x => shown.write x
  | string s => Text.quoted '\'' s
  | null => "NULL"

/-- **The value of an integer literal**: signed if it fits, else unsigned, else
a floating-point number. A text that is none of these stays a text. -/
def ofDigits (digits : String) : Value :=
  match readSigned? digits with
  | some n => int n
  | none => match readUnsigned? digits with
    | some n => uint n
    | none => match readBinary64? digits with
      | some x => float x
      | none => string digits

/-- Whether two values are equal: of the same kind, and floating-point numbers
as numbers. -/
def same : Value → Value → Bool
  | float x, float y => x.sameNumber y
  | v, w => v == w

end Value

end FilterSql
