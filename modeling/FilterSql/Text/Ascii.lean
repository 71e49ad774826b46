/-!
# Text in the ASCII range

Keywords, dialect names and column names are compared without regard to the
case of ASCII letters. Every other character stands for itself: `É` and `é`
are different wherever these functions are used.
-/

namespace FilterSql.Text

/-- The text with its ASCII capital letters made small. -/
def lower (s : String) : String :=
  String.ofList (s.toList.map Char.toLower)

/-- Whether two characters are the same up to the case of ASCII letters. -/
def sameLetter (a b : Char) : Bool :=
  a.toLower == b.toLower

/-- Whether a text starts with a word, up to the case of ASCII letters. -/
def startsWithWord : List Char → List Char → Bool
  | [], _ => true
  | _ :: _, [] => false
  | a :: word, b :: s => sameLetter a b && startsWithWord word s

end FilterSql.Text
