import FilterSql.Filter.Operator
import FilterSql.Text.Quoted

/-!
# Filters

A filter is a tree: two filters joined by an operator, a negated filter, or a
leaf. The leaves are a column path, an integer literal, which is kept as the
digits it was written with since its numeric kind is decided only when it is
bound, a string literal, and `null`.

Beside the type stand the text form of a filter (`Filter.text`) and its number
of nodes. The number is computed from a worklist (`Filter.nodeCount`), so that
a chain of many operands, which is a tree as deep as the chain is long, does
not need a stack of that depth; `Filter.size` is the same number as a plain
recursion.
-/

namespace FilterSql

/-- **A filter tree.** -/
inductive Filter where
  /-- Two filters joined by an operator. -/
  | binary (op : Operator) (left right : Filter)
  /-- The negation of a filter. -/
  | not (operand : Filter)
  /-- A column, named by a path that may be dotted. -/
  | identifier (path : String)
  /-- An integer literal, as the digits it was written with. -/
  | integer (digits : String)
  /-- A string literal. -/
  | string (text : String)
  /-- The literal `null`. -/
  | null
  deriving DecidableEq

namespace Filter

/-! ## The text form -/

/-- The text of a filter where it is an operand: in parentheses if it is
joined by an operator, bare otherwise. -/
def enclose (f : Filter) (text : String) : String :=
  match f with
  | binary .. => "(" ++ text ++ ")"
  | _ => text

/-- **The text form of a filter.** Only an operand that is itself joined by an
operator is put in parentheses; a negated operand is not. -/
def text : Filter → String
  | binary op l r => l.enclose l.text ++ " " ++ op.keyword ++ " " ++ r.enclose r.text
  | not f => "not " ++ f.enclose f.text
  | identifier path => path
  | integer digits => digits
  | string s => Text.quoted '\'' s
  | null => "null"

/-! ## The number of nodes -/

/-- The number of nodes of a filter. -/
def size : Filter → Nat
  | binary _ l r => l.size + r.size + 1
  | not f => f.size + 1
  | identifier _ | integer _ | string _ | null => 1

theorem size_pos (f : Filter) : 0 < f.size := by
  cases f <;> simp [size]

/-- The number of nodes of all pending filters, added to those counted so
far. The filter on top is counted and its operands take its place. -/
def countFrom (count : Nat) : List Filter → Nat
  | [] => count
  | binary _ l r :: pending => countFrom (count + 1) (r :: l :: pending)
  | not f :: pending => countFrom (count + 1) (f :: pending)
  | identifier _ :: pending => countFrom (count + 1) pending
  | integer _ :: pending => countFrom (count + 1) pending
  | string _ :: pending => countFrom (count + 1) pending
  | null :: pending => countFrom (count + 1) pending
termination_by pending => pending.foldr (·.size + ·) 0
decreasing_by all_goals (simp [size]; try omega)

/-- **The number of nodes of a filter**, counted from a worklist. -/
def nodeCount (f : Filter) : Nat :=
  countFrom 0 [f]

end Filter

end FilterSql
