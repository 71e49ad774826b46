import FilterSql.Sql.Cell
import FilterSql.Sql.Condition
import FilterSql.Sql.Statement

/-!
# Databases

What a condition needs of a database is an `Engine`: how the items that names,
values and conditions stand for compare, and how true they are. A condition is
then evaluated for an assignment of items to names, with Kleene's connectives,
two-valued tests for `NULL` and comparisons that are unknown where a side is
missing.

A `Database` is one that holds cells. How it compares them, the affinity of their
columns included, and which of them are true is its own affair; all that is asked
is that integers of one affinity are compared as integers. `Database.sqlite` is
one with a comparison that is written out. Statements beyond certain limits are
refused (`Limits.sqlite`).
-/

namespace FilterSql

/-! ## Engines -/

/-- **A database, as far as predicates need it.** The items are what names,
values and predicates stand for. -/
structure Engine (α : Type) where
  /-- Whether an item is missing. -/
  isNull : α → Bool
  /-- How two items that are not missing compare. -/
  order : α → α → Ordering
  /-- The truth value that an item stands for. -/
  truth : α → Truth
  /-- The item of a truth value. -/
  ofTruth : Truth → α
  /-- What a value is bound as. -/
  param : Value → α
  /-- The item of the word `NULL`. -/
  null : α
  /-- The item of a number in the text. -/
  numeral : Nat → α
  truth_ofTruth (t : Truth) : truth (ofTruth t) = t
  isNull_numeral (n : Nat) : isNull (numeral n) = false
  order_numeral (m n : Nat) : order (numeral m) (numeral n) = compare m n

namespace Engine

variable {α : Type}

/-- **The truth value of a comparison**: unknown where a side is missing. -/
def compare (E : Engine α) (c : Comparator) (a b : α) : Truth :=
  if E.isNull a || E.isNull b then .unknown else .ofBool (c.holds (E.order a b))

mutual

/-- **The value of a condition**, where `row` gives what names stand for. -/
def eval (E : Engine α) (row : List String → α) : Condition → α
  | .name parts => row parts
  | .param v => E.param v
  | .null => E.null
  | .numeral n => E.numeral n
  | .compare l c r => E.ofTruth (E.compare c (E.eval row l) (E.eval row r))
  | .isNull e => E.ofTruth (.ofBool (E.isNull (E.eval row e)))
  | .isNotNull e => E.ofTruth (.ofBool !(E.isNull (E.eval row e)))
  | .and es => E.ofTruth (.all (E.evalAll row es))
  | .or es => E.ofTruth (.any (E.evalAll row es))
  | .not e => E.ofTruth (E.truth (E.eval row e)).not

/-- The truth values of some conditions. -/
def evalAll (E : Engine α) (row : List String → α) : List Condition → List Truth
  | [] => []
  | e :: es => E.truth (E.eval row e) :: E.evalAll row es

end

theorem evalAll_eq_map (E : Engine α) (row : List String → α) (es : List Condition) :
    E.evalAll row es = es.map fun e => E.truth (E.eval row e) := by
  induction es with
  | nil => rw [evalAll, List.map_nil]
  | cons e es ih => rw [evalAll, ih, List.map_cons]

/-- Whether a condition holds. -/
def holds (E : Engine α) (row : List String → α) (c : Condition) : Bool :=
  E.truth (E.eval row c) = .yes

end Engine

/-! ## Databases -/

/-- **A database that holds cells.** -/
structure Database where
  /-- How two operands that are not missing compare. -/
  order : Operand → Operand → Ordering
  /-- The truth value that an operand stands for. -/
  truth : Operand → Truth
  order_integer (m n : Int) (a : Affinity) :
    order ⟨.integer m, a⟩ ⟨.integer n, a⟩ = compare m n
  truth_ofTruth (t : Truth) : truth (.plain (.ofTruth t)) = t

namespace Database

/-- How a database evaluates conditions. -/
def engine (D : Database) : Engine Operand where
  isNull a := a.cell = .null
  order := D.order
  truth := D.truth
  ofTruth t := .plain (.ofTruth t)
  param v := .plain v.cell
  null := .plain .null
  numeral n := .plain (.integer n)
  truth_ofTruth := D.truth_ofTruth
  isNull_numeral _ := rfl
  order_numeral m n := by
    rw [Operand.plain, Operand.plain, D.order_integer]
    simp only [Ord.compare, compareOfLessAndEq, Int.ofNat_lt, Int.ofNat_inj]

/-- Whether an operand may stand before another one where rows are ordered. What
is missing comes first. -/
def precedes (D : Database) (a b : Operand) : Bool :=
  a.cell = .null || (b.cell ≠ .null && D.order a b ≠ .gt)

/-- **SQLite.** -/
def sqlite : Database where
  order a b := (a.beside b).order (b.beside a)
  truth := Operand.truth
  order_integer m n a := by cases a <;> rfl
  truth_ofTruth := Cell.truth_ofTruth

end Database

/-! ## Limits -/

/-- **What a database refuses to go beyond.** -/
structure Limits where
  /-- How many bytes the text of a statement has. -/
  text : Nat
  /-- How many values are bound. -/
  params : Nat
  /-- How many bytes a bound text has. -/
  value : Nat
  /-- How deep a predicate is. -/
  depth : Nat

/-- Whether a statement is within the limits, as far as its text and its values
tell. -/
def Limits.allow (l : Limits) (st : Statement) : Bool :=
  st.sql.utf8ByteSize ≤ l.text && st.params.length ≤ l.params &&
    st.params.all fun v => v.cell.size ≤ l.value

/-- **The limits of SQLite**, unless they are changed. -/
def Limits.sqlite : Limits := ⟨1000000000, 32766, 1000000000, 1000⟩

end FilterSql
