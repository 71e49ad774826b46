import FilterSql.Text.Blank
import FilterSql.Text.Dotted

/-!
# Qualified names

A column or a table is named by a name and, optionally, a qualifier in front
of it. The qualifier may itself be dotted. A column path is cut at its *last*
dot, a table name at its *first*: `a.b.c` is the column `c` of `a.b`, and the
table `b.c` of the schema `a`.
-/

namespace FilterSql

/-- **A name with an optional qualifier.** -/
structure QualifiedName where
  /-- What stands before the name, possibly dotted. -/
  qualifier : Option String
  /-- The name itself. It is taken as it stands, dots included. -/
  name : String
  deriving DecidableEq

namespace QualifiedName

/-- The column of a dotted path. A path that starts or ends with its only cut
is a name of its own. -/
def ofPath (path : String) : QualifiedName :=
  match Text.cutLast? path.toList with
  | some (q, n) =>
    if q.isEmpty || n.isEmpty then ⟨none, path⟩
    else ⟨some (String.ofList q), String.ofList n⟩
  | none => ⟨none, path⟩

/-- The table of a name. The parts around its first dot must not be empty; a
name without a dot must not be blank. -/
def ofTable? (table : String) : Option QualifiedName :=
  match Text.cutFirst? table.toList with
  | some (q, n) =>
    if q.isEmpty || n.isEmpty then none else some ⟨some (String.ofList q), String.ofList n⟩
  | none => if Text.isAllBlank table then none else some ⟨none, table⟩

/-- The parts of the name as SQL separates them: those of the qualifier, then
the name in one piece. -/
def parts (n : QualifiedName) : List String :=
  match n.qualifier with
  | none => [n.name]
  | some q => (Text.segments q.toList).map String.ofList ++ [n.name]

@[simp] theorem parts_ne_nil (n : QualifiedName) : n.parts ≠ [] := by
  unfold parts
  split <;> simp

end QualifiedName

end FilterSql
