import FilterSql.Decimal.Binary64
import FilterSql.Text.Ascii

/-!
# Numerals

Reading numbers from decimal text. Three readings share the same scanner: an
integer of 64 bits with or without a sign, and a floating-point number, which
is always the one nearest to the decimal, however many digits that has.
-/

namespace FilterSql

/-- **A scanned numeral**, `± coefficient · 10^exponent`. -/
structure Numeral where
  /-- Whether a minus sign was written. -/
  negative : Bool
  /-- All digits, those after the point included. -/
  coefficient : Nat
  /-- The power of ten. -/
  exponent : Int
  /-- Whether there was neither a point nor an exponent. -/
  whole : Bool

namespace Numeral

/-- The natural number some decimal digits spell. -/
def digitsValue (digits : List Char) : Nat :=
  digits.foldl (fun n c => 10 * n + (c.toNat - '0'.toNat)) 0

/-- Takes a sign off the front: whether it is a minus sign, and the rest. -/
def takeSign : List Char → Bool × List Char
  | '-' :: rest => (true, rest)
  | '+' :: rest => (false, rest)
  | rest => (false, rest)

/-- Takes the leading digits off the front. -/
def takeDigits (s : List Char) : List Char × List Char :=
  (s.takeWhile Char.isDigit, s.dropWhile Char.isDigit)

/-- Takes a point and the digits after it off the front, if there is one. -/
def takeFraction : List Char → Option (List Char) × List Char
  | '.' :: rest => let (digits, rest) := takeDigits rest; (some digits, rest)
  | rest => (none, rest)

/-- Takes an exponent off the front, if there is one with at least one
digit. -/
def takeExponent (s : List Char) : Option Int × List Char :=
  match s with
  | mark :: after =>
    if mark = 'e' ∨ mark = 'E' then
      let (negative, after) := takeSign after
      let (digits, rest) := takeDigits after
      if digits.isEmpty then (none, s)
      else
        let n : Int := digitsValue digits
        (some (if negative then -n else n), rest)
    else (none, s)
  | [] => (none, [])

/-- **The longest numeral at the front of a text**, and the rest. It has an
optional sign, digits with an optional point among them or at either end, and
an optional exponent. -/
def scan? (s : List Char) : Option (Numeral × List Char) :=
  let (negative, s) := takeSign s
  let (digits, s) := takeDigits s
  let (fraction, s) := takeFraction s
  let decimals := fraction.getD []
  if digits.isEmpty && decimals.isEmpty then none
  else
    let (exponent, rest) := takeExponent s
    some (⟨negative, digitsValue (digits ++ decimals), exponent.getD 0 - decimals.length,
      fraction.isNone && exponent.isNone⟩, rest)

/-- **The floating-point number nearest to a numeral.** A power of ten far
outside the range is not computed. -/
def toBinary64 (n : Numeral) : Binary64 :=
  if n.coefficient = 0 then .finite n.negative .zero
  else
    let size : Int := (Nat.toDigits 10 n.coefficient).length + n.exponent
    if 310 < size then .infinite n.negative
    else if size < -330 then .finite n.negative .zero
    else .ofRatio n.negative (n.coefficient * Nat.pow 10 n.exponent.toNat)
      (Nat.pow 10 (-n.exponent).toNat)

/-- The integer that a text spells with an optional sign and digits. -/
def integer? (s : List Char) : Option Int :=
  let (negative, digits) := takeSign s
  if digits.isEmpty || !digits.all Char.isDigit then none
  else some (if negative then -(digitsValue digits : Int) else digitsValue digits)

end Numeral

/-- The signed integer of 64 bits that is `n`, if there is one. -/
def signed64? (n : Int) : Option Int64 :=
  if -Int.pow 2 63 ≤ n ∧ n < Int.pow 2 63 then some (Int64.ofInt n) else none

/-- The unsigned integer of 64 bits that is `n`, if there is one. -/
def unsigned64? (n : Int) : Option UInt64 :=
  if 0 ≤ n ∧ n < Int.pow 2 64 then some (UInt64.ofNat n.toNat) else none

/-- **Reads a signed integer** of 64 bits: an optional sign and digits. -/
def readSigned? (s : String) : Option Int64 :=
  (Numeral.integer? s.toList).bind signed64?

/-- **Reads an unsigned integer** of 64 bits: an optional plus sign and
digits. A minus sign is refused, also in front of zero. -/
def readUnsigned? (s : String) : Option UInt64 :=
  if s.toList.head? = some '-' then none
  else (Numeral.integer? s.toList).bind unsigned64?

/-- **Reads a floating-point number**: a numeral and nothing else, or one of
the words `inf`, `infinity` and `nan` in any case, with an optional sign. -/
def readBinary64? (s : String) : Option Binary64 :=
  let (negative, rest) := Numeral.takeSign s.toList
  let word := String.ofList (rest.map Char.toLower)
  if word = "inf" ∨ word = "infinity" then some (.infinite negative)
  else if word = "nan" then some .nan
  else match Numeral.scan? s.toList with
    | some (n, []) => some n.toBinary64
    | _ => none

end FilterSql
