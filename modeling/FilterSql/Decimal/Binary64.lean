/-!
# Binary floating-point numbers of 64 bits

A finite number is a sign and a *magnitude*. Magnitudes are numbered by size,
from zero through the subnormal numbers to the largest finite one, and the
number of a magnitude is what its exponent and fraction bits spell: the
magnitude with number `k · 2⁵² + f` is `f · 2⁻¹⁰⁷⁴` for `k = 0` and
`(2⁵² + f) · 2^(k - 1075)` otherwise.

Every rule about these numbers here is exact arithmetic on natural numbers. A
ratio is rounded to the nearest magnitude, half to the even one
(`Magnitude.nearest?`), and that is all the rounding there is: reading a
decimal, multiplying and dividing all end in it.
-/

namespace FilterSql

/-- How many finite magnitudes there are. -/
def Magnitude.count : Nat := 2047 * Nat.pow 2 52

/-- **A finite magnitude**, by its number. -/
abbrev Magnitude := Fin Magnitude.count

/-- **A binary floating-point number of 64 bits.** Numbers that are not a
number are all alike. -/
inductive Binary64 where
  | finite (negative : Bool) (magnitude : Magnitude)
  | infinite (negative : Bool)
  | nan
  deriving DecidableEq

/-- The natural number nearest to a quotient, half to the even one. -/
def roundDiv (num den : Nat) : Nat :=
  let q := num / den
  let r := num % den
  if 2 * r < den then q
  else if den < 2 * r then q + 1
  else if q % 2 = 0 then q
  else q + 1

/-- The exponent of the greatest power of two that is at most a positive
ratio. -/
def floorLog2 (num den : Nat) : Int :=
  let e : Int := (num.log2 : Int) - den.log2
  if den * Nat.pow 2 e.toNat ≤ num * Nat.pow 2 (-e).toNat then e else e - 1

namespace Magnitude

/-- The magnitude zero. -/
def zero : Magnitude := ⟨0, by decide⟩

/-- The whole number `m` of units `2^q` that a magnitude is, with `m < 2⁵³`. -/
def mantissa (x : Magnitude) : Nat :=
  if x.val / Nat.pow 2 52 = 0 then x.val else x.val % Nat.pow 2 52 + Nat.pow 2 52

/-- The exponent `q` of the unit `2^q` of a magnitude. -/
def exponent (x : Magnitude) : Int :=
  if x.val / Nat.pow 2 52 = 0 then -1074 else (x.val / Nat.pow 2 52 : Nat) - 1075

/-- The numerator of a magnitude, over `Magnitude.den`. -/
def num (x : Magnitude) : Nat := x.mantissa * Nat.pow 2 x.exponent.toNat

/-- The denominator of a magnitude, a power of two. -/
def den (x : Magnitude) : Nat := Nat.pow 2 (-x.exponent).toNat

/-- **The magnitude nearest to a ratio**, half to the even one; none where the
ratio is too large. The unit is the one that leaves 53 binary digits, or the
smallest there is. -/
def nearest? (num den : Nat) : Option Magnitude :=
  if num = 0 then some zero
  else
    let q : Int := max (floorLog2 num den - 52) (-1074)
    let m := roundDiv (num * Nat.pow 2 (-q).toNat) (den * Nat.pow 2 q.toNat)
    let n := (q + 1074).toNat * Nat.pow 2 52 + m
    if h : n < count then some ⟨n, h⟩ else none

theorem den_pos (x : Magnitude) : 0 < x.den :=
  Nat.two_pow_pos _

end Magnitude

namespace Binary64

/-- The number nearest to a ratio with a sign. A ratio too large becomes
infinite. -/
def ofRatio (negative : Bool) (num den : Nat) : Binary64 :=
  match Magnitude.nearest? num den with
  | some m => finite negative m
  | none => infinite negative

/-- Whether two numbers are equal as numbers: the two zeros are, and what is
not a number is not equal to itself. -/
def sameNumber : Binary64 → Binary64 → Bool
  | finite s a, finite t b => a == b && (s == t || a.val == 0)
  | infinite s, infinite t => s == t
  | _, _ => false

/-- Whether the number is neither infinite nor not a number. -/
def isFinite : Binary64 → Bool
  | finite _ _ => true
  | _ => false

/-- Whether the number is zero, of either sign. -/
def isZero : Binary64 → Bool
  | finite _ m => m.val == 0
  | _ => false

end Binary64

end FilterSql
