import FilterSql.Decimal.Shortest

/-!
# Layouts of floating-point numbers

How a number is written is decided by three things: which way a tie between two
shortest decimals goes, for which exponents the digits are written around a
point and not with an exponent behind them, and whether a whole number is
marked as floating-point by `.0`. A `Layout` is such a choice; each place that
writes numbers has one.
-/

namespace FilterSql

/-- **A way to write floating-point numbers.** -/
structure Layout where
  /-- Which of two equally near shortest decimals is taken. -/
  tie : Tie
  /-- Whether digits are written around a point for a decimal exponent, the
  exponent of the first digit. -/
  positional : Int → Bool
  /-- Whether a whole number written around a point ends in `.0`. -/
  marked : Bool

namespace Layout

/-- The digits around a point, padded with zeros on either side. -/
def around (l : Layout) (d : Decimal) : List Char :=
  let size : Int := d.digits.length
  if d.point ≤ 0 then
    '0' :: '.' :: (List.replicate (-d.point).toNat '0' ++ d.digits)
  else if size ≤ d.point then
    d.digits ++ List.replicate (d.point - size).toNat '0' ++ (if l.marked then ['.', '0'] else [])
  else
    d.digits.take d.point.toNat ++ '.' :: d.digits.drop d.point.toNat

/-- The first digit, the others behind a point, and the exponent with its
sign. -/
def scientific (d : Decimal) : List Char :=
  let e := d.point - 1
  let fraction := match d.digits.drop 1 with
    | [] => []
    | more => '.' :: more
  d.digits.take 1 ++ fraction ++
    'e' :: (if e < 0 then '-' else '+') :: Nat.toDigits 10 e.natAbs

/-- The text of a finite magnitude. -/
def magnitude (l : Layout) (m : Magnitude) : List Char :=
  if m.val = 0 then '0' :: (if l.marked then ['.', '0'] else [])
  else
    let d := m.shortest l.tie
    if l.positional (d.point - 1) then l.around d else scientific d

/-- **The text of a number.** -/
def write (l : Layout) : Binary64 → String
  | .nan => "NaN"
  | .infinite negative => if negative then "-inf" else "inf"
  | .finite negative m =>
    String.ofList ((if negative then ['-'] else []) ++ l.magnitude m)

end Layout

end FilterSql
