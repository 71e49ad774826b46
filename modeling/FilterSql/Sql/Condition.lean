import FilterSql.Comparator
import FilterSql.Value

/-!
# Conditions

A condition is what the text of a predicate states: comparisons, tests for
`NULL` and three-valued connectives over names, bound values, `NULL` and
numerals. Operands of one connective form one row, however many they are.
-/

namespace FilterSql

/-- **A condition.** -/
inductive Condition where
  /-- A name, by its parts. -/
  | name (parts : List String)
  /-- A bound value. -/
  | param (v : Value)
  /-- The word `NULL`. -/
  | null
  /-- A number written in the text. -/
  | numeral (n : Nat)
  | compare (left : Condition) (c : Comparator) (right : Condition)
  | isNull (e : Condition)
  | isNotNull (e : Condition)
  | and (members : List Condition)
  | or (members : List Condition)
  | not (e : Condition)
  deriving Inhabited

namespace Condition

/-! ## Names -/

mutual

/-- The names in a condition, from left to right. -/
def names : Condition → List (List String)
  | name parts => [parts]
  | param _ | null | numeral _ => []
  | compare l _ r => l.names ++ r.names
  | isNull e | isNotNull e | not e => e.names
  | and es | or es => namesAll es

/-- The names in some conditions. -/
def namesAll : List Condition → List (List String)
  | [] => []
  | e :: es => e.names ++ namesAll es

end

/-! ## Depth -/

/-- The depth of a row of operands with one more operand. A row without operands
has none. -/
def deepen (before operand : Nat) : Nat :=
  if before = 0 then operand else max before operand + 1

mutual

/-- **The depth of a condition** as a tree with two branches at most: a row of
operands is joined from the left, and the parts of a name from the right. -/
def depth : Condition → Nat
  | name parts => parts.length
  | param _ | null | numeral _ => 1
  | compare l _ r => max l.depth r.depth + 1
  | isNull e | isNotNull e | not e => e.depth + 1
  | and es | or es => depthAfter 0 es

/-- The depth of a row of operands that is `before` deep and goes on with some
conditions. -/
def depthAfter (before : Nat) : List Condition → Nat
  | [] => before
  | e :: es => depthAfter (deepen before e.depth) es

end

end Condition

end FilterSql
