import FilterSql.Decimal.Numeral
import FilterSql.Json.Basic

/-!
# Reading scalars of JSON

Reads the text of a number, a string or `null`, with blanks around it. Any
other text is refused, also one that is an array, an object or a truth value.

A whole number that fits 64 bits is read as it is. Any other number becomes a
floating-point number in two steps, each of which rounds: the digits are taken
as long as their number fits 64 bits, and the rest of them only count for the
power of ten; then there is one multiplication or division by that power. For
numbers of up to fifteen digits and moderate powers of ten this is the nearest
floating-point number. A number that is too large is refused.
-/

namespace FilterSql.Json

/-! ## Strings -/

/-- The value of a digit of base sixteen, in letters of any case. -/
def hexValue? (c : Char) : Option Nat :=
  if c.isDigit then some (c.toNat - '0'.toNat)
  else if 'a' ≤ c ∧ c ≤ 'f' then some (c.toNat - 'a'.toNat + 10)
  else if 'A' ≤ c ∧ c ≤ 'F' then some (c.toNat - 'A'.toNat + 10)
  else none

/-- The number that four digits of base sixteen spell. -/
def hexUnit? (a b c d : Char) : Option Nat := do
  return ((← hexValue? a) * 16 + (← hexValue? b)) * 256 + (← hexValue? c) * 16 + (← hexValue? d)

/-- The character that a backslash and a letter stand for. -/
def unescaped? : Char → Option Char
  | '\x22' => some '\x22'
  | '\\' => some '\\'
  | '/' => some '/'
  | 'b' => some '\x08'
  | 'f' => some '\x0c'
  | 'n' => some '\n'
  | 'r' => some '\r'
  | 't' => some '\t'
  | _ => none

/-- **The characters of a string up to its closing quote**, and what follows
it. Two halves of a surrogate pair are one character, and half a pair is
refused; so is a control character that is not escaped. -/
def readChars? : List Char → Option (List Char × List Char)
  | [] => none
  | '\x22' :: rest => some ([], rest)
  | '\\' :: 'u' :: a :: b :: c :: d :: rest =>
    match hexUnit? a b c d with
    | none => none
    | some high =>
      if 0xD800 ≤ high ∧ high < 0xDC00 then
        match rest with
        | '\\' :: 'u' :: a :: b :: c :: d :: rest =>
          match hexUnit? a b c d with
          | none => none
          | some low =>
            if 0xDC00 ≤ low ∧ low < 0xE000 then
              let n := 0x10000 + (high - 0xD800) * 0x400 + (low - 0xDC00)
              (readChars? rest).map fun (s, rest) => (Char.ofNat n :: s, rest)
            else none
        | _ => none
      else if 0xDC00 ≤ high ∧ high < 0xE000 then none
      else (readChars? rest).map fun (s, rest) => (Char.ofNat high :: s, rest)
  | '\\' :: e :: rest =>
    match unescaped? e with
    | none => none
    | some c => (readChars? rest).map fun (s, rest) => (c :: s, rest)
  | c :: rest =>
    if c.toNat < 32 ∨ c = '\\' then none
    else (readChars? rest).map fun (s, rest) => (c :: s, rest)

/-! ## Numbers -/

/-- Takes digits onto a number as long as it fits 64 bits: the number and the
digits left. -/
def absorb (n : Nat) : List Char → Nat × List Char
  | [] => (n, [])
  | c :: rest =>
    let m := 10 * n + (c.toNat - '0'.toNat)
    if m < Nat.pow 2 64 then absorb m rest else (n, c :: rest)

/-- The magnitude nearest to a whole number of 64 bits. -/
def wholeMagnitude (n : Nat) : Magnitude :=
  (Magnitude.nearest? n 1).getD .zero

/-- The magnitude nearest to a power of ten. -/
def power (k : Nat) : Magnitude :=
  (Magnitude.nearest? (Nat.pow 10 k) 1).getD .zero

/-- A magnitude times a power of ten, rounded; none where it is too large. -/
def times? (x : Magnitude) (k : Nat) : Option Magnitude :=
  Magnitude.nearest? (x.num * (power k).num) (x.den * (power k).den)

/-- A magnitude divided by a power of ten, rounded. -/
def over? (x : Magnitude) (k : Nat) : Option Magnitude :=
  Magnitude.nearest? (x.num * (power k).den) (x.den * (power k).num)

/-- A magnitude below `2⁶⁴` divided by a power of ten. A power beyond the
largest finite one is taken in two steps, after which nothing is left unless
the second is a small one. -/
def dividedBy? (x : Magnitude) (k : Nat) : Option Magnitude :=
  if k ≤ 308 then over? x k
  else (over? x 308).bind fun y => if k ≤ 616 then over? y (k - 308) else some .zero

/-- **A magnitude below `2⁶⁴` times a power of ten of either sign**, rounded;
none where it is too large. -/
def scaled? (x : Magnitude) (e : Int) : Option Magnitude :=
  if e < 0 then dividedBy? x e.natAbs
  else if e ≤ 308 then times? x e.natAbs
  else if x.val = 0 then some x
  else none

/-- **The number that the parts of a numeral spell.** -/
def number? (negative : Bool) (digits : List Char) (fraction : Option (List Char))
    (exponent : Option Int) : Option Json :=
  let (n, left) := absorb 0 digits
  if fraction.isNone && exponent.isNone && left.isEmpty &&
      (if negative then n != 0 && n ≤ Nat.pow 2 63 else true) then
    some (int (if negative then -n else n))
  else
    let decimals := fraction.getD []
    let (n, unused) := absorb n decimals
    let e : Int := left.length - (decimals.length - unused.length) + exponent.getD 0
    (scaled? (wholeMagnitude n) e).map fun m => float (.finite negative m)

/-- Reads a number at the front of a text: the number and what follows it. A
whole part does not start with a superfluous zero, and a point and an exponent
mark are each followed by a digit. -/
def readNumber? (s : List Char) : Option (Json × List Char) :=
  let (negative, s) := match s with
    | '-' :: rest => (true, rest)
    | rest => (false, rest)
  let (digits, s) := Numeral.takeDigits s
  if digits.isEmpty || (digits.head? == some '0' && digits.length != 1) then none
  else
    let (fraction, s) := Numeral.takeFraction s
    if fraction == some [] then none
    else
      let (exponent, rest) := Numeral.takeExponent s
      (number? negative digits fraction exponent).map (·, rest)

/-! ## Scalars -/

/-- Whether a character is a blank of JSON. -/
def isBlank (c : Char) : Bool :=
  c == ' ' || c == '\t' || c == '\n' || c == '\r'

/-- **Reads a scalar**: a number, a string or `null`, with blanks around it. -/
def readScalar? (s : String) : Option Json :=
  let body := s.toList.dropWhile isBlank
  let found : Option (Json × List Char) := match body with
    | '\x22' :: rest => (readChars? rest).map fun (cs, rest) => (string (String.ofList cs), rest)
    | 'n' :: 'u' :: 'l' :: 'l' :: rest => some (null, rest)
    | _ => readNumber? body
  match found with
  | some (j, rest) => if rest.all isBlank then some j else none
  | none => none

end FilterSql.Json
