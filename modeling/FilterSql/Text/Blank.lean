/-!
# Blanks

A blank is a character of the Unicode property `White_Space`: the blanks and
line ends of ASCII, and the spaces and separators of other scripts.
-/

namespace FilterSql.Text

/-- The ranges of code points of blanks, both ends included. -/
def blankRanges : List (Nat × Nat) :=
  [(0x9, 0xd), (0x20, 0x20), (0x85, 0x85), (0xa0, 0xa0), (0x1680, 0x1680), (0x2000, 0x200a),
    (0x2028, 0x2029), (0x202f, 0x202f), (0x205f, 0x205f), (0x3000, 0x3000)]

/-- Whether a character is a blank. -/
def isBlank (c : Char) : Bool :=
  blankRanges.any fun (first, last) => first ≤ c.toNat && c.toNat ≤ last

/-- The text without the blanks it starts with. -/
def trimStart (s : String) : String :=
  String.ofList (s.toList.dropWhile isBlank)

/-- Whether a text consists of blanks only. -/
def isAllBlank (s : String) : Bool :=
  s.toList.all isBlank

end FilterSql.Text
