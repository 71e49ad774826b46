/-!
# Comparators

The six ways to compare two values. A comparator has two spellings, the
keyword a filter uses (`ge`) and the symbol SQL uses (`>=`), and a complement:
the comparator that holds exactly when it does not.
-/

namespace FilterSql

/-- **A comparator** of two values. -/
inductive Comparator where
  | eq
  | ne
  | gt
  | ge
  | lt
  | le
  deriving DecidableEq

namespace Comparator

/-- Every comparator, in the order of declaration. -/
def all : List Comparator := [eq, ne, gt, ge, lt, le]

/-- The keyword a filter uses. -/
def keyword : Comparator → String
  | eq => "eq"
  | ne => "ne"
  | gt => "gt"
  | ge => "ge"
  | lt => "lt"
  | le => "le"

/-- The symbol SQL uses. -/
def symbol : Comparator → String
  | eq => "="
  | ne => "<>"
  | gt => ">"
  | ge => ">="
  | lt => "<"
  | le => "<="

/-- The comparator written as a SQL symbol. -/
def ofSymbol? (s : String) : Option Comparator :=
  all.find? (·.symbol = s)

/-- The complement: it holds of two comparable values exactly when the
comparator does not. -/
def negate : Comparator → Comparator
  | eq => ne
  | ne => eq
  | gt => le
  | ge => lt
  | lt => ge
  | le => gt

/-- Whether the comparator holds of two values that stand in the order `o`. -/
def holds : Comparator → Ordering → Bool
  | eq, o => o.isEq
  | ne, o => o.isNe
  | gt, o => o.isGT
  | ge, o => o.isGE
  | lt, o => o.isLT
  | le, o => o.isLE

/-- Whether the comparator tests for a value being the same or not. Only these
two ask about `NULL`. -/
def isEquality : Comparator → Bool
  | eq | ne => true
  | gt | ge | lt | le => false

theorem mem_all (c : Comparator) : c ∈ all := by
  cases c <;> decide

@[simp] theorem negate_negate (c : Comparator) : c.negate.negate = c := by
  cases c <;> rfl

@[simp] theorem isEquality_negate (c : Comparator) : c.negate.isEquality = c.isEquality := by
  cases c <;> rfl

theorem isEquality_iff {c : Comparator} : c.isEquality = true ↔ c = eq ∨ c = ne := by
  cases c <;> decide

/-- **The complement is the complement**, in every order of the two values. -/
theorem holds_negate (c : Comparator) (o : Ordering) : c.negate.holds o = !c.holds o := by
  cases c <;> cases o <;> rfl

end Comparator

end FilterSql
