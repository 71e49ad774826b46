import FilterSql.Sql.Dialect
import FilterSql.Sql.QualifiedName
import FilterSql.Value

/-!
# Statements

A statement is SQL text together with the values bound to its placeholders. It
is written piece by piece, and a piece is the same in every dialect: plain
text, a name, which is quoted as the dialect does, or a value, which is bound
and leaves only a placeholder in the text. The number of a placeholder is the
number of values bound before it, so pieces written one after the other into
one statement share one list of values.
-/

namespace FilterSql

/-- **A piece of a statement.** -/
inductive Piece where
  /-- Text as it stands. -/
  | text (s : String)
  /-- A name to be quoted. -/
  | name (s : String)
  /-- A value to be bound. -/
  | param (v : Value)
  deriving DecidableEq

namespace Piece

/-- Pieces between parentheses. -/
def parens (pieces : List Piece) : List Piece :=
  text "(" :: pieces ++ [text ")"]

/-- Pieces between parentheses, if they are needed. -/
def parensIf (needed : Bool) (pieces : List Piece) : List Piece :=
  if needed then parens pieces else pieces

/-- The value a piece binds, if it binds one. -/
def bound? : Piece → Option Value
  | param v => some v
  | _ => none

end Piece

/-- The pieces of a qualified name: its parts, separated by dots. -/
def QualifiedName.pieces (n : QualifiedName) : List Piece :=
  (n.parts.map Piece.name).intersperse (.text ".")

/-- **SQL text and the values bound to its placeholders.** -/
structure Statement where
  /-- The text. -/
  sql : String
  /-- The bound values, in the order of their placeholders. -/
  params : List Value
  deriving DecidableEq

namespace Statement

/-- The statement of which nothing is written yet. -/
def empty : Statement := ⟨"", []⟩

/-- **Writes a piece** at the end of a statement. -/
def push (d : Dialect) (st : Statement) : Piece → Statement
  | .text s => ⟨st.sql ++ s, st.params⟩
  | .name s => ⟨st.sql ++ d.quote s, st.params⟩
  | .param v => ⟨st.sql ++ d.placeholder st.params.length, st.params ++ [v]⟩

/-- Writes pieces at the end of a statement. -/
def write (d : Dialect) (st : Statement) (pieces : List Piece) : Statement :=
  pieces.foldl (push d) st

/-- The statement of some pieces. -/
def ofPieces (d : Dialect) (pieces : List Piece) : Statement :=
  empty.write d pieces

@[simp] theorem write_nil (d : Dialect) (st : Statement) : st.write d [] = st := rfl

@[simp] theorem write_cons (d : Dialect) (st : Statement) (p : Piece) (ps : List Piece) :
    st.write d (p :: ps) = (st.push d p).write d ps := rfl

/-- **Writing binds the values of the pieces**, in their order. -/
theorem params_write (d : Dialect) (st : Statement) (ps : List Piece) :
    (st.write d ps).params = st.params ++ ps.filterMap Piece.bound? := by
  induction ps generalizing st with
  | nil => simp
  | cons p ps ih => cases p <;> simp [ih, push, Piece.bound?, List.filterMap_cons]

end Statement

end FilterSql
