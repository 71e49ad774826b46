import FilterSql.Filter.Basic
import FilterSql.Filter.Match
import FilterSql.Proofs.Text.Runs
import Mathlib

/-!
# The language of filters

The language is given twice over. The grammar that texts are matched against
has ordered choice and takes nothing back. Here is the other one, which knows
no order: a text is a sequence of tokens with blanks between them (`Scans`), and
a sequence of tokens derives a filter by the rules of a context-free grammar
(`Derives`).

A keyword must not be followed by a character that could go on with it, and
neither must an integer. Whether the same is asked of an identifier makes a
difference: if it is not, `xor y` is the identifier `x` before the keyword `or`.
Which tokens must end where a word ends is therefore a parameter of `Scans`.
-/

namespace FilterSql.Filter

open Text

/-! ## Words -/

/-- Whether a character may stand in an identifier. -/
def isIdentChar (c : Char) : Bool :=
  c.isAlphanum || c == '_' || c == '.'

/-- Whether an identifier may start with the character. -/
def isIdentStart (c : Char) : Bool :=
  c.isAlpha || c == '_'

/-- **The keywords.** -/
inductive Keyword where
  | connective (k : Connective)
  | not
  | null
  | comparator (c : Comparator)
  deriving DecidableEq

namespace Keyword

/-- The keyword in small letters. -/
def text : Keyword → String
  | connective k => k.keyword
  | not => "not"
  | null => "null"
  | comparator c => c.keyword

/-- The letters of a keyword, as small ones. -/
def letters (k : Keyword) : List Char :=
  k.text.toList

/-- Every keyword. -/
def all : List Keyword :=
  [connective .and, connective .or, not, null] ++ Comparator.all.map comparator

theorem mem_all (k : Keyword) : k ∈ all := by
  cases k with
  | connective k => cases k <;> decide
  | not => decide
  | null => decide
  | comparator c => cases c <;> decide

/-- No keyword goes on where another one ends. -/
theorem eq_of_letters_prefix {k k' : Keyword} (h : k.letters <+: k'.letters) : k = k' := by
  have hall : ∀ k ∈ all, ∀ k' ∈ all, k.letters <+: k'.letters → k = k' := by decide
  exact hall k (mem_all k) k' (mem_all k') h

theorem letters_injective : Function.Injective letters := by
  intro k k' h
  exact eq_of_letters_prefix (h ▸ List.prefix_refl _)

/-- A keyword is made of small letters. -/
theorem isLower_of_mem_letters {k : Keyword} {a : Char} (h : a ∈ k.letters) :
    a.isLower = true := by
  have hall : ∀ k ∈ all, k.letters.all Char.isLower = true := by decide
  exact List.all_eq_true.1 (hall k (mem_all k)) a h

theorem letters_ne_nil (k : Keyword) : k.letters ≠ [] := by
  have hall : ∀ k ∈ all, k.letters ≠ [] := by decide
  exact hall k (mem_all k)

end Keyword

/-- Whether a word is a keyword, whatever the case of its letters. -/
def IsReserved (w : List Char) : Prop :=
  ∃ k : Keyword, w.map Char.toLower = k.letters

instance (w : List Char) : Decidable (IsReserved w) :=
  decidable_of_iff (∃ k ∈ Keyword.all, w.map Char.toLower = k.letters)
    ⟨fun ⟨k, _, h⟩ => ⟨k, h⟩, fun ⟨k, h⟩ => ⟨k, k.mem_all, h⟩⟩

/-- **The words that are identifiers**: a letter or an underscore, then letters,
digits, underscores and dots, and no keyword. -/
structure IsIdentifier (w : List Char) : Prop where
  head : w.head?.any isIdentStart = true
  chars : ∀ c ∈ w, isIdentChar c = true
  notReserved : ¬ IsReserved w

instance (w : List Char) : Decidable (IsIdentifier w) :=
  decidable_of_iff
    (w.head?.any isIdentStart = true ∧ w.all isIdentChar = true ∧ ¬ IsReserved w)
    ⟨fun ⟨h, h', h''⟩ => ⟨h, List.all_eq_true.1 h', h''⟩,
      fun ⟨h, h', h''⟩ => ⟨h, List.all_eq_true.2 h', h''⟩⟩

/-- **The words that are integers**: digits, and at least one. -/
structure IsInteger (w : List Char) : Prop where
  ne_nil : w ≠ []
  digits : ∀ c ∈ w, c.isDigit = true

instance (w : List Char) : Decidable (IsInteger w) :=
  decidable_of_iff (w ≠ [] ∧ w.all Char.isDigit = true)
    ⟨fun ⟨h, h'⟩ => ⟨h, List.all_eq_true.1 h'⟩, fun ⟨h, h'⟩ => ⟨h, List.all_eq_true.2 h'⟩⟩

/-! ## Tokens -/

/-- **A token.** -/
inductive Token where
  | keyword (k : Keyword)
  | identifier (path : String)
  | integer (digits : String)
  | string (s : String)
  | opening
  | closing
  deriving DecidableEq

namespace Token

/-- **The spellings of a token.** -/
def Spells : Token → List Char → Prop
  | keyword k, w => w.map Char.toLower = k.letters
  | identifier path, w => w = path.toList ∧ IsIdentifier w
  | integer digits, w => w = digits.toList ∧ IsInteger w
  | string s, w => w = '\'' :: doubled '\'' s.toList ++ ['\'']
  | opening, w => w = ['(']
  | closing, w => w = [')']

/-- Whether a token is made of the characters of words. -/
def isWord : Token → Bool
  | keyword _ | identifier _ | integer _ => true
  | string _ | opening | closing => false

/-- Whether a token is a word other than an identifier. -/
def isFixedWord : Token → Bool
  | keyword _ | integer _ => true
  | identifier _ | string _ | opening | closing => false

end Token

/-- **A text is a sequence of tokens**, up to a remainder. Blanks may stand
anywhere between tokens. A token that is to be bounded is not followed by a
character of an identifier. -/
inductive Scans (bounded : Token → Bool) : List Char → List Token → List Char → Prop
  | done (s : List Char) : Scans bounded s [] s
  | blank {c : Char} {s s' : List Char} {ts : List Token} (hc : Cursor.isBlank c = true)
      (h : Scans bounded s ts s') : Scans bounded (c :: s) ts s'
  | token {tok : Token} {t w s s' : List Char} {ts : List Token} (ht : t = w ++ s)
      (hw : tok.Spells w) (hb : bounded tok = true → NoneAhead isIdentChar s)
      (h : Scans bounded s ts s') : Scans bounded t (tok :: ts) s'

/-! ## Derivations -/

/-- The levels of the grammar, from the loosest to the tightest. -/
inductive Level where
  /-- Operands joined by a connective. -/
  | chain (k : Connective)
  | negation
  | comparison
  | operand
  | group
  deriving DecidableEq

/-- The level of the operands of a connective: `or` joins what `and` joins, and
`and` joins negations. -/
def operandLevel : Connective → Level
  | .or => .chain .and
  | .and => .negation

/-- **The derivations of the language.** -/
inductive Derives : Level → List Token → Filter → Prop
  | one {k : Connective} {ts : List Token} {f : Filter} (h : Derives (operandLevel k) ts f) :
      Derives (.chain k) ts f
  | join {k : Connective} {ts us : List Token} {l r : Filter} (hl : Derives (.chain k) ts l)
      (hr : Derives (operandLevel k) us r) :
      Derives (.chain k) (ts ++ .keyword (.connective k) :: us) (.binary (.logical k) l r)
  | not {ts : List Token} {f : Filter} (h : Derives .negation ts f) :
      Derives .negation (.keyword .not :: ts) (.not f)
  | positive {ts : List Token} {f : Filter} (h : Derives .comparison ts f) :
      Derives .negation ts f
  | compare {c : Comparator} {ts us : List Token} {l r : Filter} (hl : Derives .operand ts l)
      (hr : Derives .operand us r) :
      Derives .comparison (ts ++ .keyword (.comparator c) :: us) (.binary (.comparison c) l r)
  | alone {ts : List Token} {f : Filter} (h : Derives .operand ts f) : Derives .comparison ts f
  | null : Derives .operand [.keyword .null] .null
  | identifier (path : String) : Derives .operand [.identifier path] (.identifier path)
  | integer (digits : String) : Derives .operand [.integer digits] (.integer digits)
  | string (s : String) : Derives .operand [.string s] (.string s)
  | grouped {ts : List Token} {f : Filter} (h : Derives .group ts f) : Derives .operand ts f
  | parens {ts : List Token} {f : Filter} (h : Derives (.chain .or) ts f) :
      Derives .group (Token.opening :: ts ++ [Token.closing]) f

/-- **A text has a derivation of a filter**, with `bounded` tokens. -/
def HasDerivation (bounded : Token → Bool) (s : List Char) (f : Filter) : Prop :=
  ∃ ts, Scans bounded s ts [] ∧ Derives (.chain .or) ts f

end FilterSql.Filter
