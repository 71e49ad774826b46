import FilterSql.Comparator
import FilterSql.Sql.Dialect
import FilterSql.Sql.QualifiedName
import FilterSql.Value

/-!
# SQL expressions

The expressions that predicates and statements are made of. Conjunctions and
disjunctions have any number of members, kept in order. A raw expression is a
template of SQL text with a `?` for each of its arguments; `Expr.raw?` is the
way to build one, and it checks that the two are as many.
-/

namespace FilterSql

/-- **A SQL expression.** -/
inductive Expr where
  /-- A column, or whatever else a name stands for. -/
  | name (n : QualifiedName)
  /-- A value, which is always bound and never written into the text. -/
  | value (v : Value)
  /-- A comparison. -/
  | compare (left : Expr) (c : Comparator) (right : Expr)
  /-- All of the members hold. -/
  | and (members : List Expr)
  /-- Some member holds. -/
  | or (members : List Expr)
  /-- The negation. -/
  | not (e : Expr)
  /-- SQL text with a `?` for each argument. -/
  | raw (template : String) (args : List Expr)
  deriving Inhabited

namespace Expr

/-! ## Building expressions -/

/-- The column of a dotted path. -/
def column (path : String) : Expr :=
  name (.ofPath path)

/-- The members of a conjunction; any other expression is its own only
member. -/
def conjuncts : Expr → List Expr
  | and es => es
  | e => [e]

/-- The members of a disjunction; any other expression is its own only
member. -/
def disjuncts : Expr → List Expr
  | or es => es
  | e => [e]

/-- **Both hold**, as one flat conjunction. -/
def both (l r : Expr) : Expr :=
  and (l.conjuncts ++ r.conjuncts)

/-- **Either holds**, as one flat disjunction. -/
def either (l r : Expr) : Expr :=
  or (l.disjuncts ++ r.disjuncts)

/-- The number of `?` markers of a template. -/
def placeholders (template : String) : Nat :=
  template.toList.count '?'

/-- **A raw expression**, if its template has as many markers as there are
arguments. -/
def raw? (template : String) (args : List Expr) : Except BuildError Expr :=
  if placeholders template = args.length then .ok (raw template args)
  else .error (.placeholderMismatch template (placeholders template) args.length)

/-- The template of a comparison between two arguments. -/
def comparisonTemplate (c : Comparator) : String :=
  "? " ++ c.symbol ++ " ?"

/-- A comparison of any two expressions, as a raw expression. -/
def rawComparison? (l : Expr) (c : Comparator) (r : Expr) : Except BuildError Expr :=
  raw? (comparisonTemplate c) [l, r]

/-- A bare word of SQL, as a raw expression. -/
def keyword? (word : String) : Except BuildError Expr :=
  raw? word []

/-! ## What an expression binds -/

/-- Whether the expression is the value `NULL`. -/
def isNullValue : Expr → Bool
  | value .null => true
  | _ => false

/-- Whether a comparison with this right side is a test for `NULL`, which
compares nothing and binds nothing. -/
def isNullTest (c : Comparator) (right : Expr) : Bool :=
  c.isEquality && right.isNullValue

mutual

/-- **The values an expression binds**, in the order of their placeholders. -/
def params : Expr → List Value
  | name _ => []
  | value v => [v]
  | compare l c r => l.params ++ (if isNullTest c r then [] else r.params)
  | and es => paramsAll es
  | or es => paramsAll es
  | not e => e.params
  | raw _ args => paramsAll args

/-- The values some expressions bind, one after the other. -/
def paramsAll : List Expr → List Value
  | [] => []
  | e :: es => e.params ++ paramsAll es

end

theorem paramsAll_eq_flatMap (es : List Expr) : paramsAll es = es.flatMap params := by
  induction es with
  | nil => rfl
  | cons e es ih => simp [paramsAll, ih]

/-! ## Equality -/

mutual

/-- **Whether two expressions are equal**, with floating-point numbers compared
as numbers. -/
def same : Expr → Expr → Bool
  | name m, name n => m == n
  | value v, value w => v.same w
  | compare l c r, compare l' c' r' => l.same l' && c == c' && r.same r'
  | and es, and es' => sameAll es es'
  | or es, or es' => sameAll es es'
  | not e, not e' => e.same e'
  | raw t args, raw t' args' => t == t' && sameAll args args'
  | _, _ => false

/-- Whether two lists of expressions are equal, member by member. -/
def sameAll : List Expr → List Expr → Bool
  | [], [] => true
  | e :: es, e' :: es' => e.same e' && sameAll es es'
  | _, _ => false

end

end Expr

end FilterSql
