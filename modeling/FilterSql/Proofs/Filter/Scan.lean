import FilterSql.Proofs.Filter.Strings
import Mathlib

/-!
# Scanning and matching tokens

A text that is a sequence of tokens, all of whose words end where they end,
shows what its first token is: the word ahead is the token's spelling, or the
first character is a quote or a parenthesis. So the rule of a token matches
where that token comes next and takes exactly its spelling, and no other rule
matches there. Conversely, what a rule of a token takes is a spelling of it.
-/

namespace FilterSql.Filter

open Text

/-- A text as a sequence of tokens whose words end where they end. -/
abbrev Reads : List Char → List Token → List Char → Prop :=
  Scans Token.isWord

/-! ## Sequences of tokens -/

namespace Scans

variable {bounded : Token → Bool} {s s' s'' : List Char} {ts us : List Token} {tok : Token}

theorem append (h : Scans bounded s ts s') (h' : Scans bounded s' us s'') :
    Scans bounded s (ts ++ us) s'' := by
  induction h with
  | done s => exact h'
  | blank hc _ ih => exact .blank hc (ih h')
  | token ht hw hb _ ih => exact .token ht hw hb (ih h')

/-- Blanks before a token may be taken. -/
theorem skip (s : List Char) : Scans bounded s [] (s.dropWhile Cursor.isBlank) := by
  induction s with
  | nil => exact .done []
  | cons c s ih =>
    rw [List.dropWhile_cons]
    split
    · rename_i hc
      exact .blank hc ih
    · exact .done _

end Scans

/-! ## Spellings -/

theorem IsInteger.exists_cons {w : List Char} (h : IsInteger w) :
    ∃ d v, w = d :: v ∧ d.isDigit = true ∧ d.isAlpha = false := by
  obtain ⟨d, v, rfl⟩ := List.exists_cons_of_ne_nil h.ne_nil
  have hd := h.digits d List.mem_cons_self
  exact ⟨d, v, rfl, hd, isAlpha_eq_false_of_isDigit hd⟩

theorem IsInteger.not_isIdentifier {w : List Char} (h : IsInteger w) : ¬ IsIdentifier w := by
  intro hident
  obtain ⟨d, v, rfl, hdigit, halpha⟩ := h.exists_cons
  have hstart : isIdentStart d = true := hident.head
  rw [isIdentStart, halpha, Bool.false_or, beq_iff_eq] at hstart
  rw [hstart] at hdigit
  exact absurd hdigit (by decide)

namespace Token.Spells

variable {tok : Token} {w : List Char}

theorem isAlpha_of_keyword {k : Keyword} (h : (Token.keyword k).Spells w) {c : Char} (hc : c ∈ w) :
    c.isAlpha = true := by
  refine isAlpha_of_isLower_toLower (Keyword.isLower_of_mem_letters (k := k) ?_)
  rw [← show w.map Char.toLower = k.letters from h]
  exact List.mem_map_of_mem hc

/-- **A word spells one token.** -/
theorem unique_of_isWord {tok' : Token} (h : tok.Spells w) (h' : tok'.Spells w)
    (htok : tok.isWord = true) (htok' : tok'.isWord = true) : tok = tok' := by
  have hkeyword : ∀ {k : Keyword}, (Token.keyword k).Spells w → ¬ IsInteger w := by
    intro k hk hint
    obtain ⟨d, v, rfl, -, hd⟩ := hint.exists_cons
    rw [hk.isAlpha_of_keyword List.mem_cons_self] at hd
    cases hd
  match tok, tok', htok, htok' with
  | .keyword k, .keyword k', _, _ =>
    exact congrArg _ (Keyword.letters_injective ((show _ = _ from h).symm.trans h'))
  | .keyword k, .identifier _, _, _ => exact absurd ⟨k, h⟩ h'.2.notReserved
  | .keyword _, .integer _, _, _ => exact absurd h'.2 (hkeyword h)
  | .identifier _, .keyword k, _, _ => exact absurd ⟨k, h'⟩ h.2.notReserved
  | .identifier _, .identifier _, _, _ =>
    exact congrArg _ (String.toList_injective (h.1.symm.trans h'.1))
  | .identifier _, .integer _, _, _ => exact absurd h.2 h'.2.not_isIdentifier
  | .integer _, .keyword _, _, _ => exact absurd h.2 (hkeyword h')
  | .integer _, .identifier _, _, _ => exact absurd h'.2 h.2.not_isIdentifier
  | .integer _, .integer _, _, _ =>
    exact congrArg _ (String.toList_injective (h.1.symm.trans h'.1))

/-- A word is made of characters of words. -/
theorem isIdentChar (h : tok.Spells w) (htok : tok.isWord = true) {c : Char} (hc : c ∈ w) :
    Filter.isIdentChar c = true := by
  match tok, htok with
  | .keyword _, _ => exact isIdentChar_of_isAlpha (h.isAlpha_of_keyword hc)
  | .identifier _, _ => exact h.2.chars c hc
  | .integer _, _ => exact isIdentChar_of_isDigit (h.2.digits c hc)

theorem ne_nil (h : tok.Spells w) : w ≠ [] := by
  rintro rfl
  match tok with
  | .keyword k => exact k.letters_ne_nil (show [] = k.letters from h).symm
  | .identifier _ => exact absurd h.2.head (by simp)
  | .integer _ => exact h.2.ne_nil rfl
  | .string _ | .opening | .closing => exact absurd h (by simp [Spells])

/-- What the first character of a token is. -/
theorem exists_cons (h : tok.Spells w) : ∃ a v, w = a :: v ∧ Filter.isIdentChar a = tok.isWord
    ∧ (a = '\'' ↔ ∃ s, tok = .string s) ∧ (a = '(' ↔ tok = .opening)
    ∧ (a = ')' ↔ tok = .closing) := by
  obtain ⟨a, v, rfl⟩ := List.exists_cons_of_ne_nil h.ne_nil
  refine ⟨a, v, rfl, ?_⟩
  cases htok : tok.isWord with
  | true =>
    have ha := h.isIdentChar htok List.mem_cons_self
    refine ⟨ha, ?_⟩
    have hne : ∀ b, Filter.isIdentChar b = false → a ≠ b := by
      rintro b hb rfl
      rw [ha] at hb
      cases hb
    rw [eq_false (hne '\'' (by decide)), eq_false (hne '(' (by decide)),
      eq_false (hne ')' (by decide))]
    match tok, htok with
    | .keyword _, _ | .identifier _, _ | .integer _, _ => simp
  | false =>
    match tok, htok with
    | .string s, _ =>
      obtain rfl : a = '\'' := (List.cons.inj h).1
      simp
      decide
    | .opening, _ =>
      obtain rfl : a = '(' := (List.cons.inj h).1
      simp
      decide
    | .closing, _ =>
      obtain rfl : a = ')' := (List.cons.inj h).1
      simp
      decide

end Token.Spells

/-! ## The first token of a text -/

theorem isBlank_eq_false_of_isIdentChar {c : Char} (h : isIdentChar c = true) :
    Cursor.isBlank c = false := by
  by_contra hc
  simp only [Bool.not_eq_false, Cursor.isBlank, Bool.or_eq_true, beq_iff_eq] at hc
  rcases hc with ((rfl | rfl) | rfl) | rfl <;> exact absurd h (by decide)

theorem Token.Spells.noneAhead_isBlank {tok : Token} {w : List Char} (h : tok.Spells w)
    (s : List Char) : NoneAhead Cursor.isBlank (w ++ s) := by
  obtain ⟨a, v, rfl, hident, -⟩ := h.exists_cons
  rw [List.cons_append, noneAhead_cons]
  match tok with
  | .keyword _ | .identifier _ | .integer _ => exact isBlank_eq_false_of_isIdentChar hident
  | .string _ | .opening | .closing =>
    obtain ⟨rfl, -⟩ := List.cons.inj h
    decide

namespace Scans

variable {bounded : Token → Bool} {s s' : List Char} {ts : List Token} {tok : Token}

/-- Blanks at the start make no difference. -/
theorem dropWhile_isBlank (h : Scans bounded s ts []) :
    Scans bounded (s.dropWhile Cursor.isBlank) ts [] := by
  generalize hend : ([] : List Char) = e at h
  induction h with
  | done s =>
    subst hend
    exact .done []
  | blank hc _ ih =>
    rw [List.dropWhile_cons, if_pos hc]
    exact ih hend
  | @token tok t w s s' ts ht hw hb h ih =>
    subst hend ht
    have hhead := hw.noneAhead_isBlank s
    obtain ⟨a, v, rfl⟩ := List.exists_cons_of_ne_nil hw.ne_nil
    rw [List.cons_append, noneAhead_cons] at hhead
    rw [List.cons_append, List.dropWhile_cons, hhead]
    exact .token rfl hw hb h

theorem eq_nil (h : Scans bounded s [] []) (hs : NoneAhead Cursor.isBlank s) : s = [] := by
  cases h with
  | done => rfl
  | blank hc _ =>
    rw [noneAhead_cons, hc] at hs
    cases hs

/-- Where no blank stands ahead, the text starts with the first token. -/
theorem exists_spells (h : Scans bounded s (tok :: ts) s') (hs : NoneAhead Cursor.isBlank s) :
    ∃ w t, s = w ++ t ∧ tok.Spells w ∧ (bounded tok = true → NoneAhead isIdentChar t)
      ∧ Scans bounded t ts s' := by
  cases h with
  | blank hc _ =>
    rw [noneAhead_cons, hc] at hs
    cases hs
  | token ht hw hb h => exact ⟨_, _, ht, hw, hb, h⟩

/-- A quote starts nothing but a string. -/
theorem noneAhead_quote (h : Scans bounded s ts [])
    (hts : ∀ s, ts.head? ≠ some (.string s)) : NoneAhead (· == '\'') s := by
  cases h with
  | done => exact noneAhead_nil _
  | blank hc _ =>
    rw [noneAhead_cons, beq_eq_false_iff_ne]
    rintro rfl
    exact absurd hc (by decide)
  | token ht hw _ _ =>
    obtain ⟨a, v, rfl, -, hquote, -⟩ := hw.exists_cons
    rw [ht, List.cons_append, noneAhead_cons, beq_eq_false_iff_ne]
    intro ha
    obtain ⟨s, rfl⟩ := hquote.1 ha
    exact hts s rfl

/-- There is a character for every token. -/
theorem length_add_length_le (h : Scans bounded s ts s') :
    ts.length + s'.length ≤ s.length := by
  induction h with
  | done s => simp
  | blank _ _ ih =>
    rw [List.length_cons]
    omega
  | token ht hw _ _ ih =>
    have := List.length_pos_iff.2 hw.ne_nil
    rw [ht, List.length_append, List.length_cons]
    omega

/-- **The first token shows in the word ahead.** -/
theorem wordAhead_cases (h : Reads s (tok :: ts) s') (hs : NoneAhead Cursor.isBlank s) :
    if tok.isWord then tok.Spells (wordAhead s) ∧ Reads (s.drop (wordAhead s).length) ts s'
    else wordAhead s = [] := by
  obtain ⟨w, t, rfl, hw, hb, h⟩ := h.exists_spells hs
  split
  · rename_i hword
    rw [wordAhead_append (fun c => hw.isIdentChar hword) (hb hword), List.drop_left]
    exact ⟨hw, h⟩
  · rename_i hword
    obtain ⟨a, v, rfl, ha, -⟩ := hw.exists_cons
    rw [List.cons_append, wordAhead_cons, ha, if_neg hword]

end Scans

/-- **A keyword stands ahead if and only if it is the first token.** -/
theorem Reads.map_toLower_wordAhead_iff {s : List Char} {ts : List Token} (h : Reads s ts [])
    (hs : NoneAhead Cursor.isBlank s) (k : Keyword) :
    (wordAhead s).map Char.toLower = k.letters ↔ ts.head? = some (.keyword k) := by
  match ts with
  | [] =>
    rw [h.eq_nil hs]
    refine iff_of_false (fun hnil => ?_) (by simp)
    exact k.letters_ne_nil hnil.symm
  | tok :: ts =>
    have hcases := h.wordAhead_cases hs
    rw [List.head?_cons, Option.some_inj]
    split at hcases
    · rename_i hword
      refine ⟨fun hk => hcases.1.unique_of_isWord hk hword rfl, ?_⟩
      rintro rfl
      exact hcases.1
    · rename_i hword
      rw [hcases]
      refine iff_of_false (fun hk => k.letters_ne_nil hk.symm) ?_
      rintro rfl
      exact hword rfl

/-! ## Blanks between parts -/

theorem reads_skipBlanks (c : Cursor) : Reads c.rest [] c.skipBlanks.rest := by
  rw [Cursor.rest_skipBlanks]
  exact Scans.skip c.rest

theorem Scans.skipBlanks {c : Cursor} {ts : List Token} (h : Reads c.rest ts []) :
    Reads c.skipBlanks.rest ts [] := by
  rw [Cursor.rest_skipBlanks]
  exact h.dropWhile_isBlank

/-! ## Rules of tokens -/

section Rules

variable {c c' : Cursor} {ns : List Node} {us : List Token}

/-- The rule of a keyword takes it where it comes next. -/
theorem exists_matched?_keyword {k : Keyword} (hc : NoneAhead Cursor.isBlank c.rest)
    (h : Reads c.rest (.keyword k :: us) []) (depth : Nat) :
    ∃ c' w, k.rule.matched? (depth + 2) .initial c = some (c', [.token k.rule c.pos w])
      ∧ Reads c'.rest us [] := by
  have hword := (h.map_toLower_wordAhead_iff hc k).2 rfl
  refine ⟨c.advance (wordAhead c.rest).length, wordAhead c.rest, ?_, (h.wordAhead_cases hc).2⟩
  rw [Rule.matched?_keyword, if_pos hword]
  rfl

/-- The rule of a keyword takes nothing else. -/
theorem matched?_keyword_eq_none {k : Keyword} (hc : NoneAhead Cursor.isBlank c.rest)
    (h : Reads c.rest us []) (hus : us.head? ≠ some (.keyword k)) (depth : Nat) (m : Mode) :
    k.rule.matched? (depth + 2) m c = none := by
  rw [Rule.matched?_keyword, if_neg (mt (h.map_toLower_wordAhead_iff hc k).1 hus)]

/-- What stands before a place that a word was taken from is that word. -/
theorem reads_wordAhead {tok : Token} (hw : tok.Spells (wordAhead c.rest)) :
    Reads c.rest [tok] (c.advance (wordAhead c.rest).length).rest := by
  have hsplit : c.rest = wordAhead c.rest ++ c.rest.drop (wordAhead c.rest).length := by
    rw [wordAhead, drop_length_takeWhile]
    exact List.takeWhile_append_dropWhile.symm
  exact .token hsplit hw (fun _ => noneAhead_drop_wordAhead c.rest) (.done _)

/-- What the rule of a keyword takes is a spelling of it. -/
theorem reads_of_matched?_keyword {k : Keyword} {depth : Nat}
    (h : k.rule.matched? (depth + 2) .initial c = some (c', ns)) :
    Reads c.rest [.keyword k] c'.rest ∧ ∃ w, ns = [.token k.rule c.pos w] := by
  rw [Rule.matched?_keyword] at h
  split at h
  · rename_i hword
    obtain ⟨rfl, rfl⟩ := Prod.mk.inj (Option.some.inj h)
    exact ⟨reads_wordAhead hword, _, rfl⟩
  · cases h

/-- **The rule takes a word of a class**: the word ahead, if it is of the class,
and `tok` is the token that the word then spells. -/
structure TakesWord (rule : Rule) (depth : Nat) (p : List Char → Prop) [DecidablePred p]
    (tok : String → Token) : Prop where
  isWord : ∀ text, (tok text).isWord = true
  spells_iff : ∀ text w, (tok text).Spells w ↔ w = text.toList ∧ p w
  matched? : ∀ c, rule.matched? depth .initial c
    = if p (wordAhead c.rest) then
        some (c.advance (wordAhead c.rest).length, [.token rule c.pos (wordAhead c.rest)])
      else none

theorem takesWord_identifier (depth : Nat) :
    TakesWord .identifier (depth + 3) IsIdentifier .identifier where
  isWord _ := rfl
  spells_iff _ _ := Iff.rfl
  matched? := Rule.matched?_identifier depth .initial

theorem takesWord_integer (depth : Nat) :
    TakesWord .integer (depth + 2) IsInteger .integer where
  isWord _ := rfl
  spells_iff _ _ := Iff.rfl
  matched? := Rule.matched?_integer depth .initial

namespace TakesWord

variable {rule : Rule} {depth : Nat} {p : List Char → Prop} [DecidablePred p]
  {tok : String → Token}

theorem exists_matched? (hrule : TakesWord rule depth p tok) {text : String}
    (hc : NoneAhead Cursor.isBlank c.rest) (h : Reads c.rest (tok text :: us) []) :
    ∃ c', rule.matched? depth .initial c = some (c', [.token rule c.pos text.toList])
      ∧ Reads c'.rest us [] := by
  have hcases := h.wordAhead_cases hc
  rw [if_pos (hrule.isWord text), hrule.spells_iff] at hcases
  obtain ⟨⟨htext, hp⟩, hrest⟩ := hcases
  refine ⟨c.advance (wordAhead c.rest).length, ?_, hrest⟩
  rw [hrule.matched?, if_pos hp, htext]

theorem reads (hrule : TakesWord rule depth p tok)
    (h : rule.matched? depth .initial c = some (c', ns)) :
    ∃ text : String, Reads c.rest [tok text] c'.rest
      ∧ ns = [.token rule c.pos text.toList] := by
  rw [hrule.matched?] at h
  split at h
  · rename_i hp
    obtain ⟨rfl, rfl⟩ := Prod.mk.inj (Option.some.inj h)
    refine ⟨String.ofList (wordAhead c.rest), reads_wordAhead ((hrule.spells_iff _ _).2 ⟨?_, hp⟩), ?_⟩
    · rw [String.toList_ofList]
    · rw [String.toList_ofList]
  · cases h

end TakesWord

/-- The rule of strings takes one where it comes next, unless another string
follows it. -/
theorem exists_matched?_string {s : String} (hc : NoneAhead Cursor.isBlank c.rest)
    (h : Reads c.rest (.string s :: us) []) (hus : ∀ s, us.head? ≠ some (.string s))
    (depth : Nat) :
    ∃ c' stop, Rule.string.matched? (depth + 2) .initial c
        = some (c', [.branch .string c.pos stop
            [.token .stringInner (c.pos + 1) (doubled '\'' s.toList)]])
      ∧ Reads c'.rest us [] := by
  obtain ⟨w, t, hrest, hw, -, ht⟩ := h.exists_spells hc
  have hchars : c.rest = '\'' :: (doubled '\'' s.toList ++ '\'' :: t) := by
    rw [hrest, show w = _ from hw]
    simp
  have hinner := innerAhead_doubled (ht.noneAhead_quote hus) s.toList
  refine ⟨c.advance ((doubled '\'' s.toList).length + 2),
    c.pos + (doubled '\'' s.toList).length + 2, ?_, ?_⟩
  · rw [Rule.matched?_string, hchars]
    simp only [hinner, List.drop_left, List.take_left, List.head?_cons, if_true]
  · rw [Cursor.rest_advance, hchars, List.drop_succ_cons, ← List.drop_drop, List.drop_left]
    exact ht

theorem reads_of_matched?_string {depth : Nat}
    (h : Rule.string.matched? (depth + 2) .initial c = some (c', ns)) :
    ∃ (s : String) (stop : Nat), Reads c.rest [.string s] c'.rest
      ∧ ns = [.branch .string c.pos stop
          [.token .stringInner (c.pos + 1) (doubled '\'' s.toList)]] := by
  rw [Rule.matched?_string] at h
  split at h
  · rename_i s hrest
    split at h
    · rename_i hclose
      obtain ⟨rfl, rfl⟩ := Prod.mk.inj (Option.some.inj h)
      obtain ⟨a, t, ha, hs⟩ := exists_innerAhead_append s
      have ht : s.drop (innerAhead s).length = t := by
        nth_rewrite 2 [hs]
        exact List.drop_left
      obtain ⟨t, rfl⟩ : ∃ t', t = '\'' :: t' := by
        rw [ht] at hclose
        exact List.head?_eq_some_iff.1 hclose
      have hend : (c.advance ((innerAhead s).length + 2)).rest = t := by
        rw [Cursor.rest_advance, hrest, List.drop_succ_cons, ← List.drop_drop, ht]
        rfl
      have htake : s.take (innerAhead s).length = doubled '\'' a := by
        nth_rewrite 2 [hs]
        rw [List.take_left, ha]
      refine ⟨String.ofList a, c.pos + (innerAhead s).length + 2, ?_, ?_⟩
      · rw [hend]
        refine .token (w := '\'' :: doubled '\'' a ++ ['\'']) ?_ ?_ (by simp [Token.isWord]) (.done t)
        · rw [hrest, hs, ha]
          simp
        · rw [Token.Spells, String.toList_ofList]
      · rw [String.toList_ofList, htake]
    · cases h
  · cases h

end Rules

end FilterSql.Filter
