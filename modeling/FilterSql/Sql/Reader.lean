import FilterSql.Filter.Operator
import FilterSql.Sql.Condition
import FilterSql.Sql.Select
import FilterSql.Sql.Token

/-!
# Reading statements

How the tokens of a statement are read. The grammar of predicates has five
levels: `OR` binds loosest, then `AND`, then `NOT`, then a comparison or a test
for `NULL`, which does not associate, and then an operand, which is a dotted
name, a bound value, a numeral, the word `NULL` or a predicate in parentheses.
Operands of `AND` and of `OR` form one flat row, however many they are.

Each level is a function that is given how the level below it is read, and
`read?` puts them together. A level is left five times at most between one
parenthesis and the next, and so the tokens bound how deep the levels nest.

A statement that selects a column of a table under a predicate and in an order is
read as a `Request`.
-/

namespace FilterSql.Sql

/-! ## Levels -/

/-- How tightly a part of a predicate binds. -/
inductive Level where
  /-- A row of operands of one connective. -/
  | chain (c : Connective)
  | negation
  | comparison
  | operand

/-- The level of the operands of a connective. -/
def operandLevel : Connective → Level
  | .and => .negation
  | .or => .chain .and

/-- The word for a connective. -/
def connectiveWord : Connective → Word
  | .and => .and
  | .or => .or

/-- The condition that joins others by a connective. -/
def join : Connective → List Condition → Condition
  | .and => .and
  | .or => .or

/-- The condition of a row of operands of one connective. A single operand
stands for itself. -/
def joined (k : Connective) : List Condition → Condition
  | [c] => c
  | cs => join k cs

/-! ## Predicates -/

/-- A way to read some of the tokens at a place: what they are read as, and the
tokens that are left. -/
abbrev Reader (α : Type) := List Token → Option (α × List Token)

/-- Reads a dotted name, by its parts. -/
def dotted? : Reader (List String)
  | .name s :: .dot :: ts => (dotted? ts).map fun (parts, r) => (s :: parts, r)
  | .name s :: r => some ([s], r)
  | _ => none

/-- Reads an operand. -/
def operand? (group : Reader Condition) : Reader Condition
  | .param v :: r => some (.param v, r)
  | .numeral n :: r => some (.numeral n, r)
  | .word .null :: r => some (.null, r)
  | .opening :: ts =>
    match group ts with
    | some (c, .closing :: r) => some (c, r)
    | _ => none
  | ts => (dotted? ts).map fun (parts, r) => (.name parts, r)

/-- Reads a comparison, a test for `NULL` or an operand alone. -/
def comparison? (operand : Reader Condition) : Reader Condition := fun ts =>
  match operand ts with
  | some (a, .comparator o :: us) => (operand us).map fun (b, r) => (.compare a o b, r)
  | some (a, .word .is :: .word .null :: r) => some (.isNull a, r)
  | some (a, .word .is :: .word .not :: .word .null :: r) => some (.isNotNull a, r)
  | alone => alone

/-- Reads a negation, if there is one. -/
def negation? (negation comparison : Reader Condition) : Reader Condition
  | .word .not :: ts => (negation ts).map fun (c, r) => (.not c, r)
  | ts => comparison ts

/-- Reads a row of operands with a word between them, at most `limit` of them. -/
def row? (w : Word) (operand : Reader Condition) : Nat → Reader (List Condition)
  | 0, _ => none
  | limit + 1, ts =>
    match operand ts with
    | some (c, .word w' :: us) =>
      if w' = w then (row? w operand limit us).map fun (cs, r) => (c :: cs, r)
      else some ([c], .word w' :: us)
    | some (c, r) => some ([c], r)
    | none => none

/-- **Reads at a level**, through at most so many levels nested in one
another. -/
def read? : Nat → Level → Reader Condition
  | 0, _ => fun _ => none
  | n + 1, .operand => operand? (read? n (.chain .or))
  | n + 1, .comparison => comparison? (read? n .operand)
  | n + 1, .negation => negation? (read? n .negation) (read? n .comparison)
  | n + 1, .chain k => fun ts =>
    (row? (connectiveWord k) (read? n (operandLevel k)) n ts).map fun (cs, r) => (joined k cs, r)

/-- **Reads a predicate.** -/
def predicate? : Reader Condition := fun ts =>
  read? (5 * (ts.length + 1)) (.chain .or) ts

/-! ## Statements -/

/-- **What a statement asks for**: a column of a table, by their names, of the
rows that meet a predicate, in the order of a key. -/
structure Request where
  /-- The column. -/
  column : List String
  /-- The table. -/
  table : List String
  /-- The predicate. Without one, every row is asked for. -/
  predicate : Option Condition
  /-- The key and its direction. Without a key, any order will do. -/
  order : Option (List String × Direction)

/-- Reads a word. -/
def word? (w : Word) : Reader Unit
  | .word w' :: ts => if w' = w then some ((), ts) else none
  | _ => none

/-- Reads a WHERE clause, if there is one. -/
def whereClause? : Reader (Option Condition)
  | .word .whereWord :: ts => (predicate? ts).map fun (c, r) => (some c, r)
  | ts => some (none, ts)

/-- Reads a direction. It is the ascending one if none is written. -/
def direction? : Reader Direction
  | .word .asc :: ts => some (.ascending, ts)
  | .word .desc :: ts => some (.descending, ts)
  | ts => some (.ascending, ts)

/-- Reads an ORDER BY clause, if there is one. -/
def orderClause? : Reader (Option (List String × Direction))
  | .word .order :: .word .byWord :: ts => do
    let (key, ts) ← dotted? ts
    let (d, ts) ← direction? ts
    return (some (key, d), ts)
  | ts => some (none, ts)

namespace Request

/-- The request of some tokens. -/
def ofTokens? (ts : List Token) : Option Request := do
  let ((), ts) ← word? .select ts
  let (column, ts) ← dotted? ts
  let ((), ts) ← word? .fromWord ts
  let (table, ts) ← dotted? ts
  let (predicate, ts) ← whereClause? ts
  let (order, ts) ← orderClause? ts
  if ts.isEmpty then some ⟨column, table, predicate, order⟩ else none

/-- **The request of a statement**, with its bound values put in for the
placeholders, if the statement is one of this form. -/
def ofStatement? (d : Dialect) (st : Statement) : Option Request := do
  ofTokens? (← tokens? d st.params 0 st.sql.toList)

end Request

end FilterSql.Sql
