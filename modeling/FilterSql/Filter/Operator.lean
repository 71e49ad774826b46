import FilterSql.Comparator
import FilterSql.Text.Ascii

/-!
# Operators of the filter language

An operator joins two filters: a *connective* (`and`, `or`) or a *comparator*
(`eq`, `ne`, `gt`, `ge`, `lt`, `le`). The two kinds are kept apart in the type,
since everything downstream treats them apart.
-/

namespace FilterSql

/-- A logical connective. -/
inductive Connective where
  | and
  | or
  deriving DecidableEq

/-- The keyword a filter uses for a connective. -/
def Connective.keyword : Connective → String
  | .and => "and"
  | .or => "or"

/-- **An operator** between two filters. -/
inductive Operator where
  | logical (c : Connective)
  | comparison (c : Comparator)
  deriving DecidableEq

/-- A text that names no operator. -/
structure UnknownOperator where
  /-- The text, in small letters. -/
  text : String
  deriving DecidableEq

/-- What is reported of a text that names no operator. -/
def UnknownOperator.message (e : UnknownOperator) : String :=
  "Unknown operator: " ++ e.text

namespace Operator

/-- Every operator: the connectives, then the comparators. -/
def all : List Operator :=
  [logical .and, logical .or] ++ Comparator.all.map comparison

/-- The keyword a filter uses. -/
def keyword : Operator → String
  | logical c => c.keyword
  | comparison c => c.keyword

/-- The name that stands for the operator in the JSON form of a filter. -/
def tag : Operator → String
  | logical .and => "And"
  | logical .or => "Or"
  | comparison .eq => "Eq"
  | comparison .ne => "Ne"
  | comparison .gt => "Gt"
  | comparison .ge => "Ge"
  | comparison .lt => "Lt"
  | comparison .le => "Le"

/-- Whether the operator is a connective. -/
def isLogical : Operator → Bool
  | logical _ => true
  | comparison _ => false

/-- The operator of a keyword, whatever the case of its letters. -/
def ofKeyword (s : String) : Except UnknownOperator Operator :=
  let small := Text.lower s
  match all.find? (·.keyword = small) with
  | some op => .ok op
  | none => .error ⟨small⟩

/-- The operator of a JSON name, whose letters' case counts. -/
def ofTag? (s : String) : Option Operator :=
  all.find? (·.tag = s)

theorem mem_all (op : Operator) : op ∈ all := by
  cases op with
  | logical c => cases c <;> decide
  | comparison c => cases c <;> decide

@[simp] theorem ofTag?_tag (op : Operator) : ofTag? op.tag = some op := by
  cases op with
  | logical c => cases c <;> rfl
  | comparison c => cases c <;> rfl

end Operator

end FilterSql
