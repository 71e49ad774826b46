import FilterSql.Comparator
import FilterSql.Decimal.Significant
import FilterSql.Sql.Truth
import FilterSql.Value

/-!
# Cells

What a database holds in a column of a row, and how two such cells compare.

A comparison first looks at the *affinity* of its two sides, which only columns
have. Beside a column of integers, a text that spells a number is taken as that
number; beside a column of texts, a number without affinity is taken as its text,
which has fifteen digits at most if it is a floating-point number. Then numbers
are compared by value, texts by their code points, and every number is less than
every text. A comparison with nothing is unknown.
-/

namespace FilterSql

/-- **A cell**: what a column holds in a row. -/
inductive Cell where
  | null
  | integer (n : Int)
  | real (x : Binary64)
  | text (s : String)
  deriving DecidableEq

/-- What a column is meant to hold. Anything but a column has no affinity. -/
inductive Affinity where
  | integer
  | text
  | none
  deriving DecidableEq

/-- One side of a comparison: a cell and the affinity of what it comes from. -/
structure Operand where
  /-- The cell. -/
  cell : Cell
  /-- The affinity. -/
  affinity : Affinity
  deriving DecidableEq

/-- The name of what kind of cell it is. -/
def Cell.typeName : Cell → String
  | .null => "null"
  | .integer _ => "integer"
  | .real _ => "real"
  | .text _ => "text"

/-- **The cell a value is bound as.** There are no unsigned integers among the
cells; one is bound as its digits. What is not a number is bound as nothing. -/
def Value.cell : Value → Cell
  | int n => .integer n.toInt
  | uint n => .text (toString n.toNat)
  | float .nan => .null
  | float x => .real x
  | string s => .text s
  | null => .null

/-! ## Orders -/

/-- The place of a number in the order of numbers: the number of its magnitude,
with its sign. The two zeros have one place. -/
def Binary64.place : Binary64 → Int
  | finite negative m => if negative then -(m.val : Int) else m.val
  | infinite negative => if negative then -(Magnitude.count : Int) else Magnitude.count
  | nan => 0

/-- How an integer compares with a floating-point number, exactly. -/
def compareWithReal (n : Int) : Binary64 → Ordering
  | .finite negative m => compare (n * m.den) (if negative then -(m.num : Int) else m.num)
  | .infinite negative => if negative then .gt else .lt
  | .nan => .gt

/-- The order of texts by their code points. -/
def textOrder : List Char → List Char → Ordering
  | [], [] => .eq
  | [], _ :: _ => .lt
  | _ :: _, [] => .gt
  | a :: s, b :: t => (compare a.toNat b.toNat).then (textOrder s t)

namespace Cell

/-- **The order of cells**, nothing aside: numbers by value, then texts. -/
def order : Cell → Cell → Ordering
  | integer m, integer n => compare m n
  | integer m, real y => compareWithReal m y
  | real x, integer n => (compareWithReal n x).swap
  | real x, real y => compare x.place y.place
  | text s, text t => textOrder s.toList t.toList
  | text _, _ => .gt
  | _, text _ => .lt
  | null, null => .eq
  | null, _ => .lt
  | _, null => .gt

/-- The integer that a cell is. -/
def integer? : Cell → Option Int
  | integer n => some n
  | _ => none

/-! ## Numbers in texts -/

/-- Whether a character is a blank around a number in a text. -/
def isBlank (c : Char) : Bool :=
  c == ' ' || (9 ≤ c.toNat && c.toNat ≤ 13)

/-- The cell of a numeral: an integer if it is written as one and fits 64
bits, and a floating-point number otherwise. -/
def ofNumeral (n : Numeral) : Cell :=
  let m : Int := if n.negative then -(n.coefficient : Int) else n.coefficient
  if n.whole && (signed64? m).isSome then integer m else real n.toBinary64

/-- **The number that a text spells**, if all of it, blanks at the ends aside,
is a numeral. -/
def number? (s : String) : Option Cell :=
  match Numeral.scan? (s.toList.dropWhile isBlank) with
  | some (n, rest) => if rest.all isBlank then some (ofNumeral n) else none
  | none => none

/-- A text that spells a number, as that number. -/
def numeric : Cell → Cell
  | text s => (number? s).getD (text s)
  | c => c

/-- A number as its text. -/
def textual : Cell → Cell
  | integer n => text (toString n)
  | real x => text (Layout.writeSignificant 15 x)
  | c => c

/-- How many bytes a text has. Nothing else is measured. -/
def size : Cell → Nat
  | text s => s.utf8ByteSize
  | _ => 0

/-! ## Truth -/

/-- **The truth value a cell stands for**: a number holds unless it is zero,
and a text stands for the number at its front, if there is one. -/
def truth : Cell → Truth
  | null => .unknown
  | integer n => .ofBool (n != 0)
  | real x => .ofBool !x.isZero
  | text s =>
    match Numeral.scan? (s.toList.dropWhile isBlank) with
    | some (n, _) => .ofBool !n.toBinary64.isZero
    | none => .no

/-- The cell of a truth value: one, zero or nothing. -/
def ofTruth : Truth → Cell
  | .yes => integer 1
  | .no => integer 0
  | .unknown => null

@[simp] theorem truth_ofTruth (t : Truth) : (ofTruth t).truth = t := by
  cases t <;> rfl

end Cell

namespace Operand

/-- A cell that comes from no column. -/
def plain (c : Cell) : Operand := ⟨c, .none⟩

/-- What the one side of a comparison is taken as beside the other. -/
def beside (a b : Operand) : Cell :=
  if a.affinity = .integer then a.cell
  else if b.affinity = .integer then a.cell.numeric
  else if a.affinity = .none ∧ b.affinity = .text then a.cell.textual
  else a.cell

/-- The truth value an operand stands for. -/
def truth (a : Operand) : Truth := a.cell.truth

end Operand

end FilterSql
