import FilterSql.Decimal.Layout

/-!
# Significant digits

A decimal with a fixed number of digits, which need not round to the number it
was made of.
-/

namespace FilterSql

/-- **The nearest decimal of `n` digits**, at most, to a positive magnitude. A
half goes up. -/
def Magnitude.significant (x : Magnitude) (n : Nat) : Decimal :=
  let k : Int := floorLog10 x.num x.den + 1 - n
  let num := x.num * Nat.pow 10 (-k).toNat
  let den := x.den * Nat.pow 10 k.toNat
  .ofScaled ((2 * num + den) / (2 * den)) k

namespace Layout

/-- The first digit, the others behind a point, of which there is one at least,
and the exponent with its sign and at least two digits. -/
def padded (d : Decimal) : List Char :=
  let e := d.point - 1
  let exponent := Nat.toDigits 10 e.natAbs
  d.digits.take 1 ++ '.' :: (if d.digits.length ≤ 1 then ['0'] else d.digits.drop 1) ++
    'e' :: (if e < 0 then '-' else '+') ::
      (if exponent.length ≤ 1 then '0' :: exponent else exponent)

/-- **The text of a number with `n` digits**, at most. It has an exponent if the
number is less than a ten-thousandth or has more than `n` digits before the
point. -/
def writeSignificant (n : Nat) : Binary64 → String
  | .nan => "NaN"
  | .infinite negative => if negative then "-Inf" else "Inf"
  | .finite negative m =>
    if m.val = 0 then "0.0"
    else
      let d := m.significant n
      String.ofList ((if negative then ['-'] else []) ++
        if -4 < d.point ∧ d.point ≤ n then around ⟨.up, fun _ => true, true⟩ d else padded d)

end Layout

end FilterSql
