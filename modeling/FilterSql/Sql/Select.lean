import FilterSql.Sql.Rendering

/-!
# SELECT statements

A selection is built up from its columns and its table by steps that add or
replace clauses. The clauses are written in the fixed order of SQL, whatever
the order of the steps, and so are the values they bind.
-/

namespace FilterSql

/-- **A restriction of the rows**: a predicate, or none, which keeps every
row. -/
structure Restriction where
  /-- The predicate. -/
  predicate : Option Expr
  deriving Inhabited

/-- The direction of an order. -/
inductive Direction where
  | ascending
  | descending
  deriving DecidableEq

/-- The word SQL has for a direction. -/
def Direction.keyword : Direction → String
  | .ascending => "ASC"
  | .descending => "DESC"

/-- What rows are ordered by. Without a direction, the database chooses. -/
structure OrderKey where
  /-- The expression to order by. -/
  key : Expr
  /-- The direction. -/
  direction : Option Direction

/-- The table that rows come from. -/
structure Source where
  /-- The name of the table. -/
  table : QualifiedName
  /-- Another name for it in the statement. -/
  shortName : Option String
  deriving DecidableEq

/-- **A SELECT statement.** Without columns, all columns are selected. -/
structure Select where
  /-- The columns. -/
  columns : List Expr
  /-- The table. -/
  source : Option Source
  /-- The predicate that rows must meet. -/
  predicate : Option Expr
  /-- What the rows are ordered by. -/
  order : List OrderKey
  /-- How many rows there may be. -/
  limit : Option Expr
  /-- How many rows are left out. -/
  offset : Option Expr

namespace Select

/-! ## Building a selection -/

/-- The selection of some columns, from nowhere. -/
def ofColumns (columns : List Expr) : Select :=
  ⟨columns, none, none, [], none, none⟩

/-- The selection of some columns from a table. -/
def ofTable (columns : List Expr) (source : Source) : Select :=
  { ofColumns columns with source := some source }

/-- Replaces the predicate. -/
def restrictTo (s : Select) (p : Expr) : Select :=
  { s with predicate := some p }

/-- Joins a predicate with the current one, if there is one. -/
def restrict (s : Select) (p : Expr) : Select :=
  match s.predicate with
  | none => { s with predicate := some p }
  | some q => { s with predicate := some (q.both p) }

/-- Joins a restriction with the current predicate. An empty one changes
nothing. -/
def apply (s : Select) (r : Restriction) : Select :=
  match r.predicate with
  | none => s
  | some p => s.restrict p

/-- Orders by one more key, after the current ones. -/
def orderBy (s : Select) (k : OrderKey) : Select :=
  { s with order := s.order ++ [k] }

/-- Replaces the limit. -/
def limitTo (s : Select) (e : Expr) : Select :=
  { s with limit := some e }

/-- Replaces the offset. -/
def startAt (s : Select) (e : Expr) : Select :=
  { s with offset := some e }

/-- **A step of building a selection.** -/
inductive Step where
  | restrictTo (p : Expr)
  | restrict (p : Expr)
  | apply (r : Restriction)
  | orderBy (k : OrderKey)
  | limitTo (e : Expr)
  | startAt (e : Expr)

/-- What a step makes of a selection. -/
def step (s : Select) : Step → Select
  | .restrictTo p => s.restrictTo p
  | .restrict p => s.restrict p
  | .apply r => s.apply r
  | .orderBy k => s.orderBy k
  | .limitTo e => s.limitTo e
  | .startAt e => s.startAt e

/-- What steps make of a selection, one after the other. -/
def run (s : Select) (steps : List Step) : Select :=
  steps.foldl step s

/-! ## Writing a selection -/

/-- A clause with one expression, if there is one. -/
def clausePieces (keyword : String) : Option Expr → List Piece
  | none => []
  | some e => .text keyword :: e.pieces

/-- Pieces separated by commas. -/
def listPieces (items : List (List Piece)) : List Piece :=
  [Piece.text ", "].intercalate items

/-- The pieces of a table with its other name. -/
def sourcePieces (s : Source) : List Piece :=
  .text "FROM " :: s.table.pieces ++
    match s.shortName with
    | none => []
    | some n => [.text " AS ", .name n]

/-- The pieces of an order key. -/
def keyPieces (k : OrderKey) : List Piece :=
  k.key.pieces ++
    match k.direction with
    | none => []
    | some d => [.text (" " ++ d.keyword)]

/-- **The pieces of a selection**, clause by clause. -/
def pieces (s : Select) : List Piece :=
  .text "SELECT " ::
    (if s.columns.isEmpty then [.text "*"] else listPieces (s.columns.map Expr.pieces)) ++
    (match s.source with
      | none => []
      | some source => .text " " :: sourcePieces source) ++
    clausePieces " WHERE " s.predicate ++
    (if s.order.isEmpty then [] else .text " ORDER BY " :: listPieces (s.order.map keyPieces)) ++
    clausePieces " LIMIT " s.limit ++
    clausePieces " OFFSET " s.offset

/-- **The statement of a selection.** -/
def render (d : Dialect) (s : Select) : Statement :=
  .ofPieces d s.pieces

end Select

namespace Restriction

/-- Whether every row is kept. -/
def isEmpty (r : Restriction) : Bool :=
  r.predicate.isNone

/-- **The WHERE clause of a restriction**, with a blank in front, or nothing. -/
def render (d : Dialect) (r : Restriction) : Statement :=
  match r.predicate with
  | none => .empty
  | some e =>
    let st := e.render d
    ⟨" WHERE " ++ st.sql, st.params⟩

end Restriction

end FilterSql
