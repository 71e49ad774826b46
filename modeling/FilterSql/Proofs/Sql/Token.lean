import FilterSql.Proofs.Text.Runs
import FilterSql.Sql.Token
import Mathlib

/-!
# The tokens that a text spells

`Tokens` says which tokens a text spells, without a scanner: a token ends where it
cannot go on, a word before a character that is no letter or digit, a name before
a character that is not the quote, a comparator before a character that occurs in
no comparator.

This is what `tokens?` computes (`tokens?_eq_some_iff`), and so a text determines
its tokens (`Tokens.unique`). The reason is local: the first character tells the
kind of the token, and within one kind the end of the token is the end of a run.
-/

namespace FilterSql.Sql

open Text

variable {d : Dialect} {params : List Value} {k : Nat}

/-! ## Tokens and their spellings -/

namespace Token

/-- **How a token is spelled** where `k` placeholders stand before it. -/
def Spelled (d : Dialect) (params : List Value) (k : Nat) : Token → List Char → Prop
  | name s, w => w = mark d :: (doubled (mark d) s.toList ++ [mark d])
  | dot, w => w = ['.']
  | param v, w => ∃ w', w = sign d :: w' ∧ valueOf? d params k w' = some v
  | numeral n, w => numberOf? w = some n
  | word x, w => w.map Char.toLower = x.letters
  | comparator c, w => comparatorOf? w = some c
  | opening, w => w = ['(']
  | closing, w => w = [')']

/-- The characters that would go on with a token, so that none of them may
follow it. -/
def glues (d : Dialect) : Token → Char → Bool
  | name _, c => c == mark d
  | param _, c | numeral _, c | word _, c => isWordChar c
  | comparator _, c => isSymbolChar c
  | dot, _ | opening, _ | closing, _ => false

/-- The kind of a token. -/
def kind : Token → Kind
  | name _ => .name
  | dot => .dot
  | param _ => .param
  | numeral _ => .numeral
  | word _ => .word
  | comparator _ => .comparator
  | opening => .opening
  | closing => .closing

end Token

/-- **The tokens that a text spells**, where `params` are the bound values and
`k` placeholders stand before the text. -/
inductive Tokens (d : Dialect) (params : List Value) : Nat → List Char → List Token → Prop
  | done {k : Nat} : Tokens d params k [] []
  | blank {k : Nat} {c : Char} {s : List Char} {ts : List Token} (hc : c.isWhitespace = true)
      (h : Tokens d params k s ts) : Tokens d params k (c :: s) ts
  | token {k : Nat} {t w s : List Char} {tok : Token} {ts : List Token}
      (ht : t = w ++ s) (hw : tok.Spelled d params k w) (hs : NoneAhead (tok.glues d) s)
      (h : Tokens d params (tok.after k) s ts) : Tokens d params k t (tok :: ts)

/-! ## The first character tells the kind -/

/-- No token starts with a blank. -/
theorem kindAt?_of_isWhitespace (d : Dialect) {c : Char} (hc : c.isWhitespace = true) :
    kindAt? d c = none := by
  have hcases : c = ' ' ∨ c = '\t' ∨ c = '\r' ∨ c = '\n' := by
    simpa [Char.isWhitespace, or_assoc] using hc
  rcases hcases with rfl | rfl | rfl | rfl <;> cases d <;> decide

theorem kindAt?_of_isDigit (d : Dialect) {c : Char} (hc : c.isDigit = true) :
    kindAt? d c = some .numeral := by
  have hne : ∀ x : Char, x.isDigit = false → c ≠ x := by
    rintro x hx rfl
    exact absurd hc (by simp [hx])
  unfold kindAt?
  rw [if_neg (hne _ (by cases d <;> decide)), if_neg (hne _ (by decide)),
    if_neg (hne _ (by cases d <;> decide)), if_pos hc]

theorem kindAt?_of_isAlpha (d : Dialect) {c : Char} (hc : c.isAlpha = true) :
    kindAt? d c = some .word := by
  have hne : ∀ x : Char, x.isAlpha = false → c ≠ x := by
    rintro x hx rfl
    exact absurd hc (by simp [hx])
  have hdigit : ¬ c.isDigit = true := by
    intro hd
    rw [isAlpha_eq_false_of_isDigit hd] at hc
    cases hc
  unfold kindAt?
  rw [if_neg (hne _ (by cases d <;> decide)), if_neg (hne _ (by decide)),
    if_neg (hne _ (by cases d <;> decide)), if_neg hdigit, if_pos hc]

/-- The kinds whose tokens start with one character only. -/
theorem eq_of_kindAt? {c : Char} {x : Kind} (h : kindAt? d c = some x) :
    (x = .name → c = mark d) ∧ (x = .dot → c = '.') ∧ (x = .param → c = sign d)
      ∧ (x = .opening → c = '(') ∧ (x = .closing → c = ')') := by
  unfold kindAt? at h
  split_ifs at h <;> cases h <;> simp_all

/-! ## Characters of a spelling -/

theorem isWordChar_of_isDigit {c : Char} (h : c.isDigit = true) : isWordChar c = true := by
  simp [isWordChar, Char.isAlphanum, h]

theorem isWordChar_of_isAlpha {c : Char} (h : c.isAlpha = true) : isWordChar c = true := by
  simp [isWordChar, Char.isAlphanum, h]

theorem numberOf?_eq_some_iff {w : List Char} {n : Nat} :
    numberOf? w = some n
      ↔ w ≠ [] ∧ (∀ c ∈ w, c.isDigit = true) ∧ Numeral.digitsValue w = n := by
  simp [numberOf?, and_assoc]

theorem isWordChar_of_numberOf? {w : List Char} {n : Nat} (h : numberOf? w = some n) :
    ∀ c ∈ w, isWordChar c = true :=
  fun c hc => isWordChar_of_isDigit ((numberOf?_eq_some_iff.1 h).2.1 c hc)

theorem isWordChar_of_valueOf? {w : List Char} {v : Value} (h : valueOf? d params k w = some v) :
    ∀ c ∈ w, isWordChar c = true := by
  have hbare : (if w = [] then params[k]? else none) = some v → ∀ c ∈ w, isWordChar c = true := by
    intro h
    split at h
    · rename_i hw
      simp [hw]
    · cases h
  cases d with
  | postgres =>
    simp only [valueOf?] at h
    split at h
    · rename_i hnumber
      exact isWordChar_of_numberOf? hnumber
    · cases h
  | mysql => exact hbare h
  | sqlite => exact hbare h

/-- A spelling of a word consists of letters. -/
theorem isAlpha_of_mem_word {x : Word} {w : List Char} (hw : w.map Char.toLower = x.letters)
    {c : Char} (hc : c ∈ w) : c.isAlpha = true := by
  have hletters : ∀ l ∈ x.letters, l.isAlpha = true := by
    cases x <;> simp [Word.letters]
  rw [← Char.isAlpha_toLower_eq_isAlpha]
  exact hletters _ (hw ▸ List.mem_map_of_mem hc)

/-- **The letters of a word determine it.** -/
theorem Word.ofChars?_eq_some_iff {w : List Char} {x : Word} :
    ofChars? w = some x ↔ w.map Char.toLower = x.letters := by
  constructor
  · intro h
    exact (by simpa using List.find?_some h : x.letters = _).symm
  · intro h
    rw [ofChars?, h]
    cases x <;> decide

theorem isSymbolChar_of_comparatorOf? {w : List Char} {o : Comparator}
    (h : comparatorOf? w = some o) : ∀ c ∈ w, isSymbolChar c = true := by
  unfold comparatorOf? at h
  split at h <;> cases h <;> simp [isSymbolChar]

/-- **The first character of a token tells its kind.** -/
theorem Token.Spelled.kindAt? {tok : Token} {w : List Char} (h : tok.Spelled d params k w) :
    ∃ c w', w = c :: w' ∧ Sql.kindAt? d c = some tok.kind := by
  cases tok with
  | name s => exact ⟨_, _, h, if_pos rfl⟩
  | dot => exact ⟨_, _, h, by cases d <;> rfl⟩
  | param v =>
    obtain ⟨w', rfl, -⟩ := h
    exact ⟨_, _, rfl, by cases d <;> rfl⟩
  | numeral n =>
    obtain ⟨hne, hdigits, -⟩ := numberOf?_eq_some_iff.1 h
    obtain ⟨c, w', rfl⟩ := List.exists_cons_of_ne_nil hne
    exact ⟨c, w', rfl, kindAt?_of_isDigit d (hdigits c List.mem_cons_self)⟩
  | word x =>
    have hne : w ≠ [] := by
      rintro rfl
      cases x <;> cases (show [] = Word.letters _ from h)
    obtain ⟨c, w', rfl⟩ := List.exists_cons_of_ne_nil hne
    exact ⟨c, w', rfl, kindAt?_of_isAlpha d (isAlpha_of_mem_word h List.mem_cons_self)⟩
  | comparator o =>
    simp only [Spelled] at h
    unfold comparatorOf? at h
    split at h <;> cases h <;> exact ⟨_, _, rfl, by cases d <;> rfl⟩
  | opening => exact ⟨_, _, h, by cases d <;> rfl⟩
  | closing => exact ⟨_, _, h, by cases d <;> rfl⟩

/-- A token is not empty, and it does not start with a blank. -/
theorem Token.Spelled.append_ne {tok : Token} {w : List Char} (h : tok.Spelled d params k w)
    (s : List Char) : w ++ s ≠ [] ∧ ∀ c t, w ++ s = c :: t → c.isWhitespace = false := by
  obtain ⟨c, v, rfl, hc⟩ := h.kindAt?
  refine ⟨List.cons_ne_nil _ _, fun c' t heq => ?_⟩
  obtain ⟨rfl, -⟩ := List.cons.inj heq
  cases hblank : c.isWhitespace with
  | false => rfl
  | true =>
    rw [kindAt?_of_isWhitespace d hblank] at hc
    cases hc

/-! ## One token -/

/-- **A quoted text ends at the first quote that is not written twice.** -/
theorem closed?_eq_some_iff {q : Char} {s x r : List Char} :
    closed? q s = some (x, r) ↔ s = doubled q x ++ q :: r ∧ NoneAhead (· == q) r := by
  constructor
  · intro h
    fun_induction closed? q s generalizing x with
    | case1 => cases h
    | case2 => cases h; simp
    | case3 => cases h
    | case4 s ih =>
      obtain ⟨⟨x', r'⟩, hx, heq⟩ := Option.map_eq_some_iff.1 h
      cases heq
      obtain ⟨rfl, hr⟩ := ih hx
      rw [doubled_cons_self]
      exact ⟨rfl, hr⟩
    | case5 c' s hne => cases h; simpa using hne
    | case6 c c' s hc ih =>
      obtain ⟨⟨x', r'⟩, hx, heq⟩ := Option.map_eq_some_iff.1 h
      cases heq
      obtain ⟨hsplit, hr⟩ := ih hx
      rw [doubled_cons_of_ne hc, List.cons_append, ← hsplit]
      exact ⟨rfl, hr⟩
  · rintro ⟨rfl, hr⟩
    induction x with
    | nil =>
      cases r with
      | nil => simp [closed?]
      | cons c r =>
        have hc : c ≠ q := by simpa using hr
        simp [closed?, hc]
    | cons c x ih =>
      by_cases hc : c = q
      · subst hc
        rw [doubled_cons_self, List.cons_append, List.cons_append, closed?, if_pos rfl, if_pos rfl,
          ih, Option.map_some]
      · obtain ⟨c', s, hs⟩ : ∃ c' s, doubled q x ++ q :: r = c' :: s :=
          List.exists_cons_of_ne_nil (by simp)
        rw [doubled_cons_of_ne hc, List.cons_append, hs, closed?, if_neg hc, ← hs, ih,
          Option.map_some]

/-- **A token of a run ends where the run does.** -/
theorem ofRun?_eq_some_iff {p : Char → Bool} {make : List Char → Option Token} {s r : List Char}
    {tok : Token} :
    ofRun? p make s = some (tok, r)
      ↔ ∃ w, s = w ++ r ∧ (∀ c ∈ w, p c = true) ∧ NoneAhead p r ∧ make w = some tok := by
  constructor
  · intro h
    obtain ⟨tok', hmake, heq⟩ := Option.map_eq_some_iff.1 h
    cases heq
    exact ⟨_, List.takeWhile_append_dropWhile.symm, fun c hc => List.mem_takeWhile_imp hc,
      noneAhead_dropWhile p s, hmake⟩
  · rintro ⟨w, rfl, hw, hr, hmake⟩
    have hrun := takeWhile_append_of_noneAhead hw hr
    have hrest : (w ++ r).dropWhile p = r := by
      rw [← drop_length_takeWhile, hrun, List.drop_left]
    rw [ofRun?, hrun, hrest, hmake, Option.map_some]

/-- **What is taken off the front of a text** is a token that is spelled there and cannot
go on. -/
theorem exists_spelled_of_next? {c : Char} {s r : List Char} {tok : Token}
    (h : next? d params k c s = some (tok, r)) :
    ∃ w, c :: s = w ++ r ∧ tok.Spelled d params k w ∧ NoneAhead (tok.glues d) r := by
  unfold next? at h
  split at h
  · rename_i hkind
    obtain ⟨⟨x, r'⟩, hx, heq⟩ := Option.map_eq_some_iff.1 h
    cases heq
    obtain rfl := (eq_of_kindAt? hkind).1 rfl
    obtain ⟨rfl, hr⟩ := closed?_eq_some_iff.1 hx
    refine ⟨mark d :: (doubled (mark d) x ++ [mark d]), by simp, ?_, hr⟩
    rw [Token.Spelled, String.toList_ofList]
  · rename_i hkind
    cases h
    exact ⟨['.'], by rw [(eq_of_kindAt? hkind).2.1 rfl]; rfl, rfl,
      by simp [NoneAhead, Token.glues]⟩
  · rename_i hkind
    obtain ⟨w, rfl, hw, hr, hmake⟩ := ofRun?_eq_some_iff.1 h
    obtain ⟨v, hv, rfl⟩ := Option.map_eq_some_iff.1 hmake
    obtain rfl := (eq_of_kindAt? hkind).2.2.1 rfl
    exact ⟨sign d :: w, rfl, ⟨w, rfl, hv⟩, hr⟩
  · obtain ⟨w, rfl, hw, hr, hmake⟩ := ofRun?_eq_some_iff.1 h
    obtain ⟨n, hn, rfl⟩ := Option.map_eq_some_iff.1 hmake
    exact ⟨c :: w, rfl, hn, hr⟩
  · obtain ⟨w, rfl, hw, hr, hmake⟩ := ofRun?_eq_some_iff.1 h
    obtain ⟨x, hx, rfl⟩ := Option.map_eq_some_iff.1 hmake
    exact ⟨c :: w, rfl, Word.ofChars?_eq_some_iff.1 hx, hr⟩
  · obtain ⟨w, rfl, hw, hr, hmake⟩ := ofRun?_eq_some_iff.1 h
    obtain ⟨o, ho, rfl⟩ := Option.map_eq_some_iff.1 hmake
    exact ⟨c :: w, rfl, ho, hr⟩
  · rename_i hkind
    cases h
    exact ⟨['('], by rw [(eq_of_kindAt? hkind).2.2.2.1 rfl]; rfl, rfl,
      by simp [NoneAhead, Token.glues]⟩
  · rename_i hkind
    cases h
    exact ⟨[')'], by rw [(eq_of_kindAt? hkind).2.2.2.2 rfl]; rfl, rfl,
      by simp [NoneAhead, Token.glues]⟩
  · cases h

/-- A token that is spelled at the front of a text and cannot go on is taken off. -/
theorem Token.Spelled.next? {c : Char} {w s r : List Char} {tok : Token}
    (hw : tok.Spelled d params k w) (hsplit : c :: s = w ++ r) (hr : NoneAhead (tok.glues d) r) :
    Sql.next? d params k c s = some (tok, r) := by
  obtain ⟨c', w', rfl, hkind⟩ := hw.kindAt?
  rw [List.cons_append] at hsplit
  obtain ⟨rfl, rfl⟩ := List.cons.inj hsplit
  unfold Sql.next?
  rw [hkind]
  cases tok with
  | name x =>
    obtain ⟨rfl, rfl⟩ := List.cons.inj hw
    have hclosed : closed? (mark d) (doubled (mark d) x.toList ++ mark d :: r)
        = some (x.toList, r) := closed?_eq_some_iff.2 ⟨rfl, hr⟩
    rw [List.append_assoc, List.singleton_append]
    simp only [Token.kind]
    rw [hclosed, Option.map_some, String.ofList_toList]
  | param v =>
    obtain ⟨w, heq, hv⟩ := hw
    obtain ⟨rfl, rfl⟩ := List.cons.inj heq
    exact ofRun?_eq_some_iff.2 ⟨_, rfl, isWordChar_of_valueOf? hv, hr, by rw [hv]; rfl⟩
  | numeral n =>
    have hword := isWordChar_of_numberOf? hw
    exact ofRun?_eq_some_iff.2 ⟨_, rfl, fun c hc => hword c (List.mem_cons_of_mem _ hc), hr,
      by rw [show numberOf? _ = some n from hw]; rfl⟩
  | word x =>
    exact ofRun?_eq_some_iff.2 ⟨_, rfl,
      fun c hc => isWordChar_of_isAlpha (isAlpha_of_mem_word hw (List.mem_cons_of_mem _ hc)), hr,
      by rw [Word.ofChars?_eq_some_iff.2 hw]; rfl⟩
  | comparator o =>
    have hsymbol := isSymbolChar_of_comparatorOf? hw
    exact ofRun?_eq_some_iff.2 ⟨_, rfl, fun c hc => hsymbol c (List.mem_cons_of_mem _ hc), hr,
      by rw [show comparatorOf? _ = some o from hw]; rfl⟩
  | dot | opening | closing =>
    obtain ⟨-, rfl⟩ := List.cons.inj hw
    rfl

/-- **One token is determined by the text it starts**, and so is the rest. -/
theorem Token.Spelled.unique {tok tok' : Token} {w w' s s' : List Char}
    (h : tok.Spelled d params k w) (h' : tok'.Spelled d params k w')
    (hs : NoneAhead (tok.glues d) s) (hs' : NoneAhead (tok'.glues d) s')
    (heq : w ++ s = w' ++ s') : tok = tok' ∧ s = s' := by
  obtain ⟨c, v, rfl, -⟩ := id h.kindAt?
  exact Prod.mk.inj (Option.some.inj ((h.next? rfl hs).symm.trans (h'.next? heq hs')))

/-! ## The tokens of a text -/

/-- **Cutting a text gives the tokens that it spells.** -/
theorem tokens?_eq_some_iff {s : List Char} {ts : List Token} :
    tokens? d params k s = some ts ↔ Tokens d params k s ts := by
  constructor
  · intro h
    fun_induction tokens? d params k s generalizing ts with
    | case1 => cases h; exact .done
    | case2 k c s hc ih => exact .blank hc (ih h)
    | case3 => cases h
    | case4 k c s hc tok r hnext hlength ih =>
      obtain ⟨us, hus, rfl⟩ := Option.map_eq_some_iff.1 h
      obtain ⟨w, hsplit, hw, hr⟩ := exists_spelled_of_next? hnext
      exact .token hsplit hw hr (ih hus)
  · intro h
    induction h with
    | done => rw [tokens?]
    | blank hc _ ih => rw [tokens?, if_pos hc, ih]
    | @token k t w s tok ts ht hw hs _ ih =>
      obtain ⟨c, w', rfl, -⟩ := id hw.kindAt?
      subst ht
      have hnext := hw.next? rfl hs
      have hblank : ¬ c.isWhitespace = true := by
        simp [(hw.append_ne s).2 c (w' ++ s) rfl]
      rw [List.cons_append, tokens?, if_neg hblank]
      split
      · rename_i hnone
        cases hnone.symm.trans hnext
      · rename_i tok' r hsome
        obtain ⟨rfl, rfl⟩ := Prod.mk.inj (Option.some.inj (hsome.symm.trans hnext))
        rw [ih, Option.map_some]

/-- **A text spells one row of tokens at most.** -/
theorem Tokens.unique {s : List Char} {ts ts' : List Token} (h : Tokens d params k s ts)
    (h' : Tokens d params k s ts') : ts = ts' :=
  Option.some.inj ((tokens?_eq_some_iff.2 h).symm.trans (tokens?_eq_some_iff.2 h'))

/-! ## What statements are written with -/

/-- A name is written between the marks of the dialect. -/
theorem spelled_quote (s : String) : (Token.name s).Spelled d params k (d.quote s).toList := by
  rw [Dialect.quote, quoted, String.toList_ofList]
  cases d <;> rfl

/-- The digits of a number spell it. -/
theorem numberOf?_toString (n : Nat) : numberOf? (toString n).toList = some n := by
  have hdigits : (toString n).toList = Nat.toDigits 10 n := Nat.toList_repr
  rw [hdigits]
  exact numberOf?_eq_some_iff.2 ⟨Nat.toDigits_ne_nil,
    fun c hc => Nat.isDigit_of_mem_toDigits (by decide) (by decide) hc,
    Nat.ofDigitChars_ten_toDigits⟩

theorem toString_toList_inj {m n : Nat} (h : (toString m).toList = (toString n).toList) :
    m = n := by
  have hm := numberOf?_toString m
  rw [h, numberOf?_toString] at hm
  exact (Option.some.inj hm).symm

/-- A placeholder stands for the value that is bound next. -/
theorem spelled_placeholder {v : Value} (hv : params[k]? = some v) :
    (Token.param v).Spelled d params k (d.placeholder k).toList := by
  cases d with
  | postgres =>
    refine ⟨(toString (k + 1)).toList, ?_, ?_⟩
    · rw [Dialect.placeholder, String.toList_append]
      rfl
    · simp only [valueOf?, numberOf?_toString]
      exact hv
  | mysql => exact ⟨[], by simp [Dialect.placeholder, sign], hv⟩
  | sqlite => exact ⟨[], by simp [Dialect.placeholder, sign], hv⟩

/-- **The symbol of a comparator is the one that SQL has for it.** -/
theorem comparatorOf?_symbol (o : Comparator) : comparatorOf? o.symbol.toList = some o := by
  cases o <;> rfl

theorem symbol_toList_inj {a b : Comparator} (h : a.symbol.toList = b.symbol.toList) :
    a = b := by
  have ha := comparatorOf?_symbol a
  rw [h, comparatorOf?_symbol] at ha
  exact (Option.some.inj ha).symm

end FilterSql.Sql
