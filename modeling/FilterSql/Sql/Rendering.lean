import FilterSql.Sql.Expr
import FilterSql.Sql.Statement

/-!
# Writing expressions

The pieces of SQL that an expression is written as. Four rules decide where
parentheses stand:

* a disjunction always stands in parentheses;
* a conjunction stands in parentheses where it is a member of a conjunction or
  disjunction and has more than one member itself;
* an operand of a comparison or of a template stands in parentheses unless it
  is a name, a value, a disjunction or a bare word (`Expr.needsParens`);
* what is negated stands in parentheses, except that a negated comparison is
  written as the complementary comparison.

A comparison with `NULL` for being the same or not is written `IS NULL` or
`IS NOT NULL`.
-/

namespace FilterSql.Expr

/-- Whether the expression is put in parentheses where it is an operand. A
conjunction of one member counts as that member. -/
def needsParens : Expr → Bool
  | and [e] => e.needsParens
  | and _ => true
  | not _ | compare .. => true
  | raw _ args => !args.isEmpty
  | name _ | value _ | or _ => false

/-- Whether the expression is a conjunction of more than one member. -/
def isWideAnd : Expr → Bool
  | and es => 1 < es.length
  | _ => false

/-- The pieces of a comparison, from those of its two sides as operands. -/
def comparisonPieces (left : List Piece) (c : Comparator) (r : Expr) (right : List Piece) :
    List Piece :=
  match r.isNullValue, c with
  | true, .eq => left ++ [.text " IS NULL"]
  | true, .ne => left ++ [.text " IS NOT NULL"]
  | _, _ => left ++ .text (" " ++ c.symbol ++ " ") :: right

/-- The pieces of a junction, from those of its members. -/
def junctionPieces (separator empty : String) (members : List (List Piece)) : List Piece :=
  if members.isEmpty then [.text empty] else [Piece.text separator].intercalate members

/-- The pieces of a template, each `?` replaced by the pieces of the next
argument. A `?` without an argument stays, an argument without a `?` is left
out. -/
def fill : List Char → List (List Piece) → List Piece
  | [], _ => []
  | c :: cs, args =>
    if c = '?' then
      match args with
      | [] => .text "?" :: fill cs []
      | arg :: args => arg ++ fill cs args
    else .text (String.singleton c) :: fill cs args

/-- Each of some expressions' pieces, in parentheses where they are needed. -/
def wrapped (needed : Expr → Bool) (es : List Expr) (pieces : List (List Piece)) :
    List (List Piece) :=
  List.zipWith (fun e ps => Piece.parensIf (needed e) ps) es pieces

mutual

/-- **The pieces an expression is written as.** -/
def pieces : Expr → List Piece
  | name n => n.pieces
  | value v => [.param v]
  | compare l c r =>
    comparisonPieces (Piece.parensIf l.needsParens l.pieces) c r
      (Piece.parensIf r.needsParens r.pieces)
  | and es => junctionPieces " AND " "1 = 1" (wrapped isWideAnd es (piecesAll es))
  | or es => Piece.parens (junctionPieces " OR " "1 = 0" (wrapped isWideAnd es (piecesAll es)))
  | not (compare l c r) =>
    comparisonPieces (Piece.parensIf l.needsParens l.pieces) c.negate r
      (Piece.parensIf r.needsParens r.pieces)
  | not (or es) =>
    .text "NOT " ::
      Piece.parens (junctionPieces " OR " "1 = 0" (wrapped isWideAnd es (piecesAll es)))
  | not e => .text "NOT " :: Piece.parens e.pieces
  | raw template args => fill template.toList (wrapped needsParens args (piecesAll args))

/-- The pieces of each of some expressions. -/
def piecesAll : List Expr → List (List Piece)
  | [] => []
  | e :: es => e.pieces :: piecesAll es

end

/-- Each expression is wrapped by its own need. -/
theorem wrapped_piecesAll (needed : Expr → Bool) (es : List Expr) :
    wrapped needed es (piecesAll es) = es.map fun e => Piece.parensIf (needed e) e.pieces := by
  induction es with
  | nil => rfl
  | cons e es ih => simpa [wrapped, piecesAll] using ih

/-- **The statement of an expression alone.** -/
def render (d : Dialect) (e : Expr) : Statement :=
  .ofPieces d e.pieces

end FilterSql.Expr
