import FilterSql.Comparator
import FilterSql.Sql.Dialect
import FilterSql.Value

/-!
# The tokens of a statement

The text of a statement is a row of tokens: names between the quotes of the
dialect, dots, placeholders, numerals, words, comparators and parentheses, with
any number of blanks around them. `tokens?` cuts a text into its tokens. It puts
for every placeholder the value bound to it: a placeholder with a number stands
for the value of that number, a bare one for the next value in turn.

The spellings are those of SQL and are written out here. Nothing is taken from
the side that writes statements.
-/

namespace FilterSql.Sql

/-! ## Tokens -/

/-- A word of the language of statements. -/
inductive Word where
  | and
  | or
  | not
  | is
  | null
  | select
  | fromWord
  | whereWord
  | order
  | byWord
  | asc
  | desc
  deriving DecidableEq

namespace Word

/-- The small letters of a word. A text may spell it in any case. -/
def letters : Word → List Char
  | and => ['a', 'n', 'd']
  | or => ['o', 'r']
  | not => ['n', 'o', 't']
  | is => ['i', 's']
  | null => ['n', 'u', 'l', 'l']
  | select => ['s', 'e', 'l', 'e', 'c', 't']
  | fromWord => ['f', 'r', 'o', 'm']
  | whereWord => ['w', 'h', 'e', 'r', 'e']
  | order => ['o', 'r', 'd', 'e', 'r']
  | byWord => ['b', 'y']
  | asc => ['a', 's', 'c']
  | desc => ['d', 'e', 's', 'c']

/-- Every word. -/
def all : List Word :=
  [and, or, not, is, null, select, fromWord, whereWord, order, byWord, asc, desc]

/-- The word that characters spell. -/
def ofChars? (w : List Char) : Option Word :=
  all.find? (·.letters = w.map Char.toLower)

end Word

/-- **A token of a statement.** -/
inductive Token where
  /-- One quoted part of a name. -/
  | name (s : String)
  | dot
  /-- A placeholder, as the value bound to it. -/
  | param (v : Value)
  | numeral (n : Nat)
  | word (w : Word)
  | comparator (c : Comparator)
  | opening
  | closing
  deriving DecidableEq

/-- The number of placeholders up to and including a token. -/
def Token.after (k : Nat) : Token → Nat
  | param _ => k + 1
  | _ => k

/-! ## The characters of tokens -/

/-- A character that goes on with a word, a numeral or a placeholder. -/
def isWordChar (c : Char) : Bool :=
  c.isAlphanum || c == '_'

/-- A character of which comparators are made. -/
def isSymbolChar (c : Char) : Bool :=
  c == '<' || c == '=' || c == '>'

/-- The character around a name. -/
def mark : Dialect → Char
  | .postgres => '\x22'
  | .mysql | .sqlite => '\x60'

/-- The character that a placeholder starts with. -/
def sign : Dialect → Char
  | .postgres => '$'
  | .mysql | .sqlite => '?'

/-- The comparator that characters spell. -/
def comparatorOf? : List Char → Option Comparator
  | ['='] => some .eq
  | ['<', '>'] => some .ne
  | ['>'] => some .gt
  | ['>', '='] => some .ge
  | ['<'] => some .lt
  | ['<', '='] => some .le
  | _ => none

/-- The number that characters spell, if they are digits. -/
def numberOf? (w : List Char) : Option Nat :=
  if w ≠ [] ∧ w.all Char.isDigit then some (Numeral.digitsValue w) else none

/-- The value of a placeholder that goes on with some characters, where `k`
placeholders stand before it. -/
def valueOf? (d : Dialect) (params : List Value) (k : Nat) (w : List Char) : Option Value :=
  match d with
  | .postgres =>
    match numberOf? w with
    | some (i + 1) => params[i]?
    | _ => none
  | .mysql | .sqlite => if w = [] then params[k]? else none

/-! ## Cutting a text into tokens -/

/-- The kinds of tokens. -/
inductive Kind where
  | name
  | dot
  | param
  | numeral
  | word
  | comparator
  | opening
  | closing

/-- **The kind of the tokens that start with a character.** -/
def kindAt? (d : Dialect) (c : Char) : Option Kind :=
  if c = mark d then some .name
  else if c = '.' then some .dot
  else if c = sign d then some .param
  else if c.isDigit then some .numeral
  else if c.isAlpha then some .word
  else if isSymbolChar c then some .comparator
  else if c = '(' then some .opening
  else if c = ')' then some .closing
  else none

/-- The text up to the quote that closes it, and what follows. A quote that is
written twice stands for itself. -/
def closed? (q : Char) : List Char → Option (List Char × List Char)
  | [] => none
  | [c] => if c = q then some ([], []) else none
  | c :: c' :: s =>
    if c = q then
      if c' = q then (closed? q s).map fun (x, r) => (q :: x, r) else some ([], c' :: s)
    else (closed? q (c' :: s)).map fun (x, r) => (c :: x, r)

/-- A token of all characters of a class that stand ahead, and what follows. -/
def ofRun? (p : Char → Bool) (make : List Char → Option Token) (s : List Char) :
    Option (Token × List Char) :=
  (make (s.takeWhile p)).map (·, s.dropWhile p)

/-- **The token that starts with a character**, and what follows it. -/
def next? (d : Dialect) (params : List Value) (k : Nat) (c : Char) (s : List Char) :
    Option (Token × List Char) :=
  match kindAt? d c with
  | some .name => (closed? c s).map fun (x, r) => (.name (String.ofList x), r)
  | some .dot => some (.dot, s)
  | some .param => ofRun? isWordChar (fun w => (valueOf? d params k w).map .param) s
  | some .numeral => ofRun? isWordChar (fun w => (numberOf? (c :: w)).map .numeral) s
  | some .word => ofRun? isWordChar (fun w => (Word.ofChars? (c :: w)).map .word) s
  | some .comparator => ofRun? isSymbolChar (fun w => (comparatorOf? (c :: w)).map .comparator) s
  | some .opening => some (.opening, s)
  | some .closing => some (.closing, s)
  | none => none

theorem length_le_of_closed? {q : Char} {s x r : List Char} (h : closed? q s = some (x, r)) :
    r.length ≤ s.length := by
  fun_induction closed? q s generalizing x with
  | case1 => cases h
  | case2 => cases h; simp
  | case3 => cases h
  | case4 s ih =>
    obtain ⟨⟨x', r'⟩, hx, heq⟩ := Option.map_eq_some_iff.1 h
    cases heq
    exact Nat.le_trans (ih hx) (Nat.le_add_right s.length 2)
  | case5 => cases h; simp
  | case6 c c' s hc ih =>
    obtain ⟨⟨x', r'⟩, hx, heq⟩ := Option.map_eq_some_iff.1 h
    cases heq
    exact Nat.le_trans (ih hx) (Nat.le_add_right (c' :: s).length 1)

theorem length_le_of_ofRun? {p : Char → Bool} {make : List Char → Option Token} {s r : List Char}
    {tok : Token} (h : ofRun? p make s = some (tok, r)) : r.length ≤ s.length := by
  obtain ⟨tok', -, heq⟩ := Option.map_eq_some_iff.1 h
  cases heq
  exact (List.dropWhile_suffix p).length_le

/-- What follows a token is shorter than the text. -/
theorem length_le_of_next? {d : Dialect} {params : List Value} {k : Nat} {c : Char}
    {s r : List Char} {tok : Token} (h : next? d params k c s = some (tok, r)) :
    r.length ≤ s.length := by
  unfold next? at h
  split at h
  · obtain ⟨⟨x, r'⟩, hx, heq⟩ := Option.map_eq_some_iff.1 h
    cases heq
    exact length_le_of_closed? hx
  · cases h; exact Nat.le_refl _
  · exact length_le_of_ofRun? h
  · exact length_le_of_ofRun? h
  · exact length_le_of_ofRun? h
  · exact length_le_of_ofRun? h
  · cases h; exact Nat.le_refl _
  · cases h; exact Nat.le_refl _
  · cases h

/-- **The tokens of a text**, where `params` are the bound values and `k`
placeholders stand before the text. -/
def tokens? (d : Dialect) (params : List Value) (k : Nat) : List Char → Option (List Token)
  | [] => some []
  | c :: s =>
    if c.isWhitespace then tokens? d params k s
    else
      match h : next? d params k c s with
      | none => none
      | some (tok, r) =>
        have : r.length ≤ s.length := length_le_of_next? h
        (tokens? d params (tok.after k) r).map (tok :: ·)
  termination_by s => s.length

end FilterSql.Sql
