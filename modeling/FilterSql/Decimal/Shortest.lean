import FilterSql.Decimal.Binary64

/-!
# Shortest decimals

The decimal that stands for a floating-point number is the one with the fewest
digits among those that round to it, and among those the nearest. The decimals
that round to a number `v` fill an interval around it, whose ends belong to it
exactly when the mantissa of `v` is even. On the grid of decimals with `n`
digits, if any point lies in the interval, so does one of the two neighbours of
`v`; so it is enough to look at these two, for `n` from one upwards. Seventeen
digits always suffice.
-/

namespace FilterSql

/-- Which of two equally near decimals is taken. -/
inductive Tie where
  /-- The larger one. -/
  | up
  /-- The one whose last digit is even. -/
  | even
  deriving DecidableEq

/-- **A positive decimal**: its digits, the first and the last of them not
zero, and the place of the point. The decimal is `0.d₁d₂… · 10^point`. -/
structure Decimal where
  /-- The digits. -/
  digits : List Char
  /-- How many digits stand before the point. It may be negative, or more than
  there are digits. -/
  point : Int
  deriving DecidableEq

/-- The decimal `c · 10^k`, for a positive `c`. -/
def Decimal.ofScaled (c : Nat) (k : Int) : Decimal :=
  let digits := Nat.toDigits 10 c
  ⟨(digits.reverse.dropWhile (· == '0')).reverse, digits.length + k⟩

/-- The exponent of the greatest power of ten that is at most a positive
ratio. -/
def floorLog10 (num den : Nat) : Int :=
  if den ≤ num then (Nat.toDigits 10 (num / den)).length - 1
  else -((Nat.toDigits 10 ((num - 1 + den) / num - 1)).length : Int)

namespace Magnitude

/-- The lower end of the interval of reals that round to a positive magnitude,
in quarters of its unit. Below a power of two the next magnitude is only half
as far away. -/
def lowQuarters (x : Magnitude) : Nat :=
  if x.val % Nat.pow 2 52 = 0 ∧ 1 < x.val / Nat.pow 2 52 then 4 * x.mantissa - 1
  else 4 * x.mantissa - 2

/-- The upper end of the interval of reals that round to a magnitude, in
quarters of its unit. -/
def highQuarters (x : Magnitude) : Nat := 4 * x.mantissa + 2

/-- **The nearest decimal of `n` digits that rounds to a positive magnitude**,
if there is one. -/
def withDigits? (tie : Tie) (x : Magnitude) (n : Nat) : Option Decimal :=
  let unit : Int := x.exponent - 2
  let k : Int := floorLog10 x.num x.den + 1 - n
  -- a quarter is `quarterNum / grid` times `10^k`
  let quarterNum := Nat.pow 2 unit.toNat * Nat.pow 10 (-k).toNat
  let grid := Nat.pow 2 (-unit).toNat * Nat.pow 10 k.toNat
  let value := 4 * x.mantissa * quarterNum
  let low := x.lowQuarters * quarterNum
  let high := x.highQuarters * quarterNum
  let inside (c : Nat) : Bool :=
    if x.mantissa % 2 = 0 then low ≤ c * grid && c * grid ≤ high
    else low < c * grid && c * grid < high
  let below := value / grid
  let above := below + 1
  let rest := 2 * (value % grid)
  let preferBelow : Bool :=
    rest < grid || (rest == grid && tie == .even && below % 2 == 0)
  match inside below, inside above with
  | true, true => some (.ofScaled (if preferBelow then below else above) k)
  | true, false => some (.ofScaled below k)
  | false, true => some (.ofScaled above k)
  | false, false => none

/-- **The shortest decimal that rounds to a positive magnitude.** -/
def shortest (tie : Tie) (x : Magnitude) : Decimal :=
  ((List.range 17).findSome? fun i => x.withDigits? tie (i + 1)).getD ⟨[], 0⟩

end Magnitude

end FilterSql
