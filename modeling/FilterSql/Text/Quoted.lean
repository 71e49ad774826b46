/-!
# Text between quotes

A quoted text stands between two quote characters, and each quote character
inside it is written twice. Names in SQL, string literals of filters and the
shown form of string values all follow this rule and differ only in the quote
character, which is why it is a parameter throughout.

The main statement is `halved_doubled`: writing every quote twice loses
nothing.
-/

namespace FilterSql.Text

/-- Every occurrence of the quote character `q` written twice. -/
def doubled (q : Char) : List Char → List Char
  | [] => []
  | c :: cs => if c = q then q :: q :: doubled q cs else c :: doubled q cs

/-- **The inner text of a quoted one**: every two neighbouring quote
characters stand for one, taken from the left. -/
def halved (q : Char) : List Char → List Char
  | [] => []
  | [c] => [c]
  | c :: d :: cs => if c = q ∧ d = q then q :: halved q cs else c :: halved q (d :: cs)

/-- The text between quotes, its own quote characters doubled. -/
def quoted (q : Char) (s : String) : String :=
  String.ofList (q :: doubled q s.toList ++ [q])

@[simp] theorem doubled_nil (q : Char) : doubled q [] = [] := rfl

theorem doubled_cons_self (q : Char) (cs : List Char) :
    doubled q (q :: cs) = q :: q :: doubled q cs := by
  simp [doubled]

theorem doubled_cons_of_ne {q c : Char} (h : c ≠ q) (cs : List Char) :
    doubled q (c :: cs) = c :: doubled q cs := by
  simp [doubled, h]

/-- A character other than the quote stands for itself. -/
theorem halved_cons_of_ne {q c : Char} (h : c ≠ q) (cs : List Char) :
    halved q (c :: cs) = c :: halved q cs := by
  cases cs with
  | nil => rfl
  | cons d cs => simp [halved, h]

/-- **Doubling loses nothing**: halving gives the text back. -/
theorem halved_doubled (q : Char) (s : List Char) : halved q (doubled q s) = s := by
  induction s with
  | nil => rfl
  | cons c s ih =>
    by_cases h : c = q
    · subst h
      rw [doubled_cons_self]
      simp [halved, ih]
    · rw [doubled_cons_of_ne h, halved_cons_of_ne h, ih]

end FilterSql.Text
