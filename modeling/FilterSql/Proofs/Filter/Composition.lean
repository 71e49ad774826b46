import FilterSql.Proofs.Filter.TextForm
import Mathlib

/-!
# Filters put together as texts

Whoever builds a filter from others does so with texts: both in parentheses and
an operator between them. That this is safe is not obvious of a grammar without
a scanner. Each repetition takes as much as it can, each word looks at the
character behind it, and a string ends at the first quote that is not doubled,
so what follows a filter might well change how it is read.

What follows makes no difference as long as it cannot go on with a word
(`Scans.followed`), and a parenthesis cannot. So a text that is read as a filter
is an operand when it stands in parentheses, wherever that is
(`HasDerivation.exists_operand`), and texts compose as filters do, whatever
blanks, strings and parentheses are in them. The main statement is
`parse_composed`.

Composing texts all the way up from the leaves gives a text for every filter
(`grouped`). It has more parentheses than the text form, and it loses nothing:
every filter whose leaves are words of the language is read from it
(`hasDerivation_grouped`), comparisons with negated sides included.
-/

namespace FilterSql.Filter

open Text

variable {ts us : List Token} {f g : Filter}

/-! ## What follows a text -/

/-- **What follows a text makes no difference to its tokens**, if it cannot go on
with a word. -/
theorem Scans.followed {bounded : Token → Bool} {s s' t : List Char} (h : Scans bounded s ts s')
    (ht : NoneAhead isIdentChar t) : Scans bounded (s ++ t) ts (s' ++ t) := by
  induction h with
  | done s => exact .done (s ++ t)
  | blank hc _ ih => exact .blank hc ih
  | token hsplit hw hb _ ih =>
    refine .token ?_ hw (fun htok => (hb htok).append ht) ih
    rw [hsplit, List.append_assoc]

/-- **A text in parentheses is an operand**, whatever follows it. -/
theorem HasDerivation.exists_operand {s : List Char} (h : HasDerivation Token.isWord s f) :
    ∃ ts, Derives .operand ts f ∧ ∀ t, Reads ('(' :: (s ++ ')' :: t)) ts t := by
  obtain ⟨ts, hts, hderives⟩ := h
  refine ⟨_, .grouped (.parens hderives), fun t => ?_⟩
  have hinner : Reads (s ++ ')' :: t) ts (')' :: t) :=
    hts.followed ((noneAhead_cons isIdentChar ')' t).2 (by decide))
  have hclosing : Reads (')' :: t) [.closing] t :=
    .token (w := [')']) rfl rfl (by simp [Token.isWord]) (.done t)
  exact .token (w := ['(']) rfl rfl (by simp [Token.isWord]) (hinner.append hclosing)

/-! ## Operands put together -/

/-- **Two operands with an operator between them are a filter**, whatever the
level of the operator. -/
theorem Derives.binary (op : Operator) (hf : Derives .operand ts f) (hg : Derives .operand us g) :
    Derives (.chain .or) (ts ++ .keyword (.ofOperator op) :: us) (Filter.binary op f g) := by
  cases op with
  | logical k =>
    have hf : Derives .negation ts f := .positive (.alone hf)
    have hg : Derives .negation us g := .positive (.alone hg)
    cases k with
    | and => exact .one (.join (k := .and) (.one hf) hg)
    | or => exact .join (k := .or) (.one (.one hf)) (.one hg)
  | comparison c => exact .one (.one (.positive (.compare hf hg)))

section Texts

variable {s t : String}

theorem HasDerivation.parens (h : HasDerivation Token.isWord s.toList f) :
    HasDerivation Token.isWord ("(" ++ s ++ ")").toList f := by
  have hchars : ("(" ++ s ++ ")").toList = '(' :: (s.toList ++ [')']) := by
    simp
  obtain ⟨ts, hf, hread⟩ := h.exists_operand
  rw [hchars]
  exact ⟨ts, hread [], hf.filter⟩

theorem HasDerivation.not (h : HasDerivation Token.isWord s.toList f) :
    HasDerivation Token.isWord ("not (" ++ s ++ ")").toList (Filter.not f) := by
  have hchars : ("not (" ++ s ++ ")").toList
      = Keyword.not.letters ++ ' ' :: '(' :: (s.toList ++ [')']) := by
    simp [Keyword.letters, Keyword.text]
  obtain ⟨ts, hf, hread⟩ := h.exists_operand
  rw [hchars]
  refine ⟨.keyword .not :: ts, ?_, .one (.one (.not (.positive (.alone hf))))⟩
  exact reads_keyword .not ((noneAhead_cons isIdentChar ' ' _).2 (by decide)) (.blank rfl (hread []))

/-- **Two texts in parentheses with an operator between them**, spelled in
letters of any case. -/
theorem HasDerivation.binary (hf : HasDerivation Token.isWord s.toList f)
    (hg : HasDerivation Token.isWord t.toList g) (op : Operator) {word : String}
    (hword : word.toList.map Char.toLower = op.keyword.toList) :
    HasDerivation Token.isWord ("(" ++ s ++ ") " ++ word ++ " (" ++ t ++ ")").toList
      (Filter.binary op f g) := by
  have hchars : ("(" ++ s ++ ") " ++ word ++ " (" ++ t ++ ")").toList
      = '(' :: (s.toList ++ ')' :: ' ' :: (word.toList ++ ' ' :: '(' :: (t.toList ++ [')']))) := by
    simp
  have hspells : (Token.keyword (.ofOperator op)).Spells word.toList := by
    rw [Token.Spells, hword, Keyword.toList_keyword]
  obtain ⟨ts, hf, hread⟩ := hf.exists_operand
  obtain ⟨us, hg, hread'⟩ := hg.exists_operand
  rw [hchars]
  refine ⟨ts ++ .keyword (.ofOperator op) :: us, ?_, .binary op hf hg⟩
  -- the operator stands between blanks, which end the word
  refine (hread _).append (.blank rfl ?_)
  refine .token rfl hspells (fun _ => ?_) (.blank rfl (hread' []))
  exact (noneAhead_cons isIdentChar ' ' _).2 (by decide)

end Texts

/-- **Filters compose as texts.** If two texts are read as filters, then both in
parentheses and an operator between them, spelled in letters of any case, are
read as the two filters joined by the operator; `not` before the parentheses
negates the filter; and the parentheses alone make no difference. -/
theorem parse_composed {s t : String} {f g : Filter} (hs : parse s = .ok (some f))
    (ht : parse t = .ok (some g)) :
    (∀ (op : Operator) (word : String), Text.lower word = op.keyword →
        parse ("(" ++ s ++ ") " ++ word ++ " (" ++ t ++ ")") = .ok (some (binary op f g)))
      ∧ parse ("not (" ++ s ++ ")") = .ok (some (not f))
      ∧ parse ("(" ++ s ++ ")") = .ok (some f) := by
  rw [parse, parseChars_eq_some_iff] at hs ht
  refine ⟨fun op word hword => ?_, ?_, ?_⟩
  · have hletters : word.toList.map Char.toLower = op.keyword.toList := by
      rw [← hword, Text.lower, String.toList_ofList]
    exact (parseChars_eq_some_iff _ _).2 (hs.binary ht op hletters)
  · exact (parseChars_eq_some_iff _ _).2 hs.not
  · exact (parseChars_eq_some_iff _ _).2 hs.parens

/-- Strings with parentheses, doubled quotes and keywords in them, blanks of every
kind, and an operator in mixed letters. -/
theorem parse_composed_strings :
    ∃ f g, parse "\tname eq ') or (''not'\r\n" = .ok (some f)
      ∧ parse " not(a NE b)" = .ok (some g)
      ∧ parse "(\tname eq ') or (''not'\r\n) lT ( not(a NE b))"
          = .ok (some (binary (.comparison .lt) f g))
      ∧ parse "not (\tname eq ') or (''not'\r\n)" = .ok (some (not f))
      ∧ parse "(\tname eq ') or (''not'\r\n)" = .ok (some f) := by
  have hs : parse "\tname eq ') or (''not'\r\n"
      = .ok (some (binary (.comparison .eq) (identifier "name") (string ") or ('not"))) := rfl
  have ht : parse " not(a NE b)"
      = .ok (some (not (binary (.comparison .ne) (identifier "a") (identifier "b")))) := rfl
  obtain ⟨hbinary, hnot, hparens⟩ := parse_composed hs ht
  exact ⟨_, _, hs, ht, hbinary (.comparison .lt) "lT" (by decide), hnot, hparens⟩

/-! ## A text for every filter -/

/-- **The text of a filter with every operand in parentheses.** -/
def grouped : Filter → String
  | binary op l r => "(" ++ l.grouped ++ ") " ++ op.keyword ++ " (" ++ r.grouped ++ ")"
  | not f => "not (" ++ f.grouped ++ ")"
  | identifier path => path
  | integer digits => digits
  | string s => quoted '\'' s
  | null => "null"

/-- **Every legible filter is read from its text with all parentheses.** -/
theorem hasDerivation_grouped (hf : f.Every Legible) :
    HasDerivation Token.isWord f.grouped.toList f := by
  induction f with
  | binary op l r ihl ihr =>
    obtain ⟨-, hl, hr⟩ := every_binary.1 hf
    have hletters : op.keyword.toList.map Char.toLower = op.keyword.toList := by
      rw [Keyword.toList_keyword, Keyword.map_toLower_letters]
    exact (ihl hl).binary (ihr hr) op hletters
  | not f ih => exact (ih (every_not.1 hf).2).not
  | identifier path => exact hasDerivation_text (f := identifier path) hf (.filter (.identifier path))
  | integer digits => exact hasDerivation_text (f := integer digits) hf (.filter (.integer digits))
  | string s => exact hasDerivation_text (f := string s) hf (.filter (.string s))
  | null => exact hasDerivation_text (f := null) hf (.filter .null)

end FilterSql.Filter
