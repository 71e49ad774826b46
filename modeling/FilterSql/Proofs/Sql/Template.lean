import FilterSql.Proofs.Sql.Placeholders
import Mathlib

/-!
# Templates that are predicates

The text of a raw expression is its template, with the text of an argument for
each mark. Whether that can be read at all is up to the template. Here it is a
predicate of its own: `Template d s ts` says that the template `s` spells the
tokens `ts`, where each mark is a token that stands for a bound value, and
`Expr.Templated` asks that these tokens can be read as a predicate.

Arguments are then put in for tokens, and no token runs into another: the text
of an argument starts and ends with a token that is no comparator (`Sealed`), a
mark touches no name, no word and no numeral, and a comparator may stand next to
it. So every expression with such templates spells tokens, wherever it is
written (`Expr.phrase_pieces`), and how it is read does not depend on the
statement around it.
-/

namespace FilterSql

open Text

namespace Sql

variable {d : Dialect} {params : List Value} {k : Nat}

/-! ## Blanks that can be left out -/

theorem glues_blank (tok : Token) : tok.glues d ' ' = false := by
  cases h : tok.glues d ' ' with
  | false => rfl
  | true => exact absurd (runsOn_of_glues tok h) (by simp)

/-- **A blank can be left out** where what follows does not run on from the last
token. -/
theorem Tokens.without_blank {x s : List Char} {ts us : List Token} (hx : Tokens d params k x ts)
    (h : Tokens d params k (x ++ ' ' :: s) (ts ++ us))
    (hlast : ∀ t ∈ ts.getLast?, NoneAhead (t.glues d) s) :
    Tokens d params k (x ++ s) (ts ++ us) := by
  induction hx with
  | done =>
    cases h with
    | blank _ h => exact h
    | token ht hw _ _ => exact absurd ((hw.append_ne _).2 _ _ ht.symm) (by decide)
  | @blank k c x ts hc _ ih =>
    refine .blank hc (ih ?_ hlast)
    generalize ts ++ us = all at h
    cases h with
    | blank _ h => exact h
    | token ht hw _ _ => exact absurd hc (by simp [(hw.append_ne _).2 _ _ ht.symm])
  | @token k t w x tok ts ht hw hs hx ih =>
    subst ht
    have hedge : NoneAhead (tok.glues d) (x ++ ' ' :: s) := by
      cases x with
      | nil => simp [glues_blank]
      | cons c x => simpa using hs
    have hrest : Tokens d params (tok.after k) (x ++ ' ' :: s) (ts ++ us) := by
      rw [List.append_assoc] at h
      generalize htext : w ++ (x ++ ' ' :: s) = text at h
      cases h with
      | blank hc _ => exact absurd hc (by simp [(hw.append_ne _).2 _ _ htext])
      | token ht' hw' hs' h =>
        obtain ⟨-, rfl⟩ := hw.unique hw' hedge hs' (htext.trans ht')
        exact h
    rw [List.append_assoc]
    refine .token rfl hw ?_ (ih hrest fun t ht => hlast t ?_)
    · cases x with
      | nil =>
        obtain rfl : ts = [] := hx.unique .done
        exact hlast tok rfl
      | cons c x => simpa using hs
    · rw [List.getLast?_cons, Option.mem_def.1 ht]
      rfl

/-- Pieces may be followed by whatever does not run on from their last token. -/
theorem Spells.tight {ps : List Piece} {ts us : List Token} {s : List Char} (h : Spells d ps ts)
    (hb : bound ps <+: params.drop k) (hlast : ∀ t ∈ ts.getLast?, NoneAhead (t.glues d) s)
    (hs : Tokens d params (k + (bound ps).length) s us) :
    Tokens d params k (chars d k ps ++ s) (ts ++ us) :=
  (h.tokens hb).without_blank (h params k (' ' :: s) us hb (by simp) (.blank rfl hs)) hlast

/-- Pieces one after the other, of which the second do not run on from the last
token of the first. -/
theorem Spells.append_tight {ps qs : List Piece} {ts us : List Token} (hp : Spells d ps ts)
    (hq : Spells d qs us)
    (hedge : ∀ k s, NoneAhead (runsOn d) s →
      ∀ t ∈ ts.getLast?, NoneAhead (t.glues d) (chars d k qs ++ s)) :
    Spells d (ps ++ qs) (ts ++ us) := by
  intro params k s vs hb hs h
  obtain ⟨hbp, hbq⟩ := bound_append_prefix hb
  rw [bound_append, List.length_append, ← Nat.add_assoc] at h
  rw [chars_append, List.append_assoc, List.append_assoc]
  exact hp.tight hbp (hedge _ _ hs) (hq _ _ _ _ hbq hs h)

/-! ## Tokens with no comparator at their ends -/

/-- Whether a token is a comparator. -/
def Token.isComparator : Token → Bool
  | comparator _ => true
  | _ => false

/-- **There are tokens, and no comparator stands at their ends.** -/
def Sealed (ts : List Token) : Prop :=
  ts.head?.any (!·.isComparator) ∧ ts.getLast?.any (!·.isComparator)

theorem Sealed.between {ts us : List Token} (h : Sealed ts) (mid : List Token) (h' : Sealed us) :
    Sealed (ts ++ (mid ++ us)) := by
  obtain ⟨t, ht, hfirst⟩ := (Option.any_eq_true _ _).1 h.1
  obtain ⟨u, hu, hlast⟩ := (Option.any_eq_true _ _).1 h'.2
  exact ⟨by simp [ht, hfirst], by simp [hu, hlast]⟩

theorem Sealed.append {ts us : List Token} (h : Sealed ts) (h' : Sealed us) : Sealed (ts ++ us) :=
  h.between [] h'

theorem Dotted.exists_sealed {ts r : List Token} {parts : List String} (h : Dotted ts parts r) :
    ∃ us, ts = us ++ r ∧ Sealed us := by
  induction h with
  | @last s r => exact ⟨[.name s], rfl, rfl, rfl⟩
  | @more s ts r parts _ ih =>
    obtain ⟨us, rfl, hus⟩ := ih
    exact ⟨[.name s] ++ ([.dot] ++ us), rfl, Sealed.between ⟨rfl, rfl⟩ _ hus⟩

mutual

/-- **What is read has no comparator at its ends.** -/
theorem Reads.exists_sealed {l : Level} {ts r : List Token} {c : Condition} :
    Reads l ts c r → ∃ us, ts = us ++ r ∧ Sealed us
  | .name h => h.exists_sealed
  | .param | .numeral | .null => ⟨[_], rfl, rfl, rfl⟩
  | .group h => by
    obtain ⟨us, rfl, hus⟩ := h.exists_sealed
    exact ⟨[.opening] ++ (us ++ [.closing]), by simp,
      Sealed.append ⟨rfl, rfl⟩ (hus.append ⟨rfl, rfl⟩)⟩
  | .lone h | .plain h => h.exists_sealed
  | .compare (o := o) ha hb => by
    obtain ⟨us, rfl, hus⟩ := ha.exists_sealed
    obtain ⟨vs, rfl, hvs⟩ := hb.exists_sealed
    exact ⟨us ++ ([.comparator o] ++ vs), by simp, hus.between _ hvs⟩
  | .isNull h => by
    obtain ⟨us, rfl, hus⟩ := h.exists_sealed
    exact ⟨us ++ [.word .is, .word .null], by simp, hus.append ⟨rfl, rfl⟩⟩
  | .isNotNull h => by
    obtain ⟨us, rfl, hus⟩ := h.exists_sealed
    exact ⟨us ++ [.word .is, .word .not, .word .null], by simp, hus.append ⟨rfl, rfl⟩⟩
  | .not h => by
    obtain ⟨us, rfl, hus⟩ := h.exists_sealed
    exact ⟨[.word .not] ++ us, rfl, Sealed.append ⟨rfl, rfl⟩ hus⟩
  | .chain h => h.exists_sealed

theorem Chain.exists_sealed {k : Connective} {ts r : List Token} {cs : List Condition} :
    Chain k ts cs r → ∃ us, ts = us ++ r ∧ Sealed us
  | .one h => h.exists_sealed
  | .more h hs => by
    obtain ⟨us, rfl, hus⟩ := h.exists_sealed
    obtain ⟨vs, rfl, hvs⟩ := hs.exists_sealed
    exact ⟨us ++ ([.word (connectiveWord k)] ++ vs), by simp, hus.between _ hvs⟩

end

theorem Reads.sealed {l : Level} {ts : List Token} {c : Condition} (h : Reads l ts c []) :
    Sealed ts := by
  obtain ⟨us, hts, hus⟩ := h.exists_sealed
  rwa [hts, List.append_nil]

/-- A text whose first token is no comparator starts with no character of one. -/
theorem Tokens.noneAhead_symbol {s : List Char} {ts : List Token} (h : Tokens d params k s ts)
    (hfirst : ts.head?.any (!·.isComparator)) : NoneAhead isSymbolChar s := by
  have hkind : ∀ c, isSymbolChar c = true → kindAt? d c = some .comparator := by
    intro c hc
    have hcases : c = '<' ∨ c = '=' ∨ c = '>' := by
      simpa [isSymbolChar, or_assoc] using hc
    rcases hcases with rfl | rfl | rfl <;> cases d <;> rfl
  intro c hc
  cases hsymbol : isSymbolChar c with
  | false => rfl
  | true =>
    cases h with
    | done => cases hc
    | blank hblank _ =>
      cases hc
      have hnone := kindAt?_of_isWhitespace d hblank
      rw [hkind _ hsymbol] at hnone
      cases hnone
    | @token _ _ w _ tok _ ht hw _ _ =>
      obtain ⟨c', w', rfl, hc'⟩ := hw.kindAt?
      subst ht
      cases hc
      rw [hkind _ hsymbol] at hc'
      cases tok <;> cases hc'
      cases hfirst

/-! ## The tokens of a template -/

/-- The characters that could run on from an operand. -/
def operandRunsOn (d : Dialect) (c : Char) : Bool :=
  isWordChar c || c == mark d

theorem operandRunsOn_of_glues {tok : Token} (htok : !tok.isComparator) {c : Char}
    (h : tok.glues d c = true) : operandRunsOn d c = true := by
  cases tok with
  | name s => exact Bool.or_eq_true_iff.2 (.inr h)
  | param v | numeral n | word w => exact Bool.or_eq_true_iff.2 (.inl h)
  | comparator o => cases htok
  | dot | opening | closing => cases h

theorem runsOn_of_operandRunsOn {c : Char} (h : operandRunsOn d c = true) : runsOn d c = true := by
  simp only [operandRunsOn, runsOn, Bool.or_eq_true] at h ⊢
  exact h.imp_left .inl

/-- Whether an operand may follow a token without a blank. -/
def Token.meetsOperand : Token → Bool
  | comparator _ | opening => true
  | _ => false

/-- **The tokens that a template spells**, where a mark is a token of its own and
stands for some bound value. -/
inductive Template (d : Dialect) : List Char → List Token → Prop
  | done : Template d [] []
  | blank {c : Char} {s : List Char} {ts : List Token} (hc : c.isWhitespace = true)
      (h : Template d s ts) : Template d (c :: s) ts
  | mark {v : Value} {s : List Char} {ts : List Token} (hmark : s.head? ≠ some '?')
      (hs : NoneAhead (operandRunsOn d) s) (h : Template d s ts) :
      Template d ('?' :: s) (.param v :: ts)
  | token {t w s : List Char} {tok : Token} {ts : List Token} (ht : t = w ++ s)
      (hw : tok.Spelled d [] 0 w) (hunmarked : '?' ∉ w) (hs : NoneAhead (tok.glues d) s)
      (hmark : s.head? = some '?' → tok.meetsOperand) (h : Template d s ts) :
      Template d t (tok :: ts)

/-- A template that starts with a mark has the token for it in front. -/
theorem Template.head_of_mark {s : List Char} {ts : List Token} (h : Template d s ts)
    (hs : s.head? = some '?') : ts.head?.any (!·.isComparator) := by
  cases h with
  | done => cases hs
  | blank hc _ =>
    cases hs
    exact absurd hc (by decide)
  | mark _ _ _ => rfl
  | token ht hw hunmarked _ _ _ =>
    obtain ⟨c, w', rfl, -⟩ := hw.kindAt?
    subst ht
    cases hs
    exact absurd List.mem_cons_self hunmarked

/-- Without bound values no placeholder has one. -/
theorem valueOf?_nil_ne (d : Dialect) (w : List Char) (v : Value) : valueOf? d [] 0 w ≠ some v := by
  cases d with
  | postgres =>
    simp only [valueOf?]
    split <;> simp
  | mysql | sqlite =>
    simp only [valueOf?]
    split <;> simp

/-- A token that is spelled without bound values is spelled so wherever it stands,
and binds none. -/
theorem Token.Spelled.of_nil {tok : Token} {w : List Char} (h : tok.Spelled d [] 0 w)
    (params : List Value) (k : Nat) : tok.Spelled d params k w ∧ tok.after k = k := by
  cases tok with
  | param v =>
    obtain ⟨w', -, hv⟩ := h
    exact absurd hv (valueOf?_nil_ne d w' v)
  | _ => exact ⟨h, rfl⟩

/-- **Tokens of a template with others put in for the marks.** -/
inductive Fills (P : List Token → Prop) : List Token → List Token → Prop
  | nil : Fills P [] []
  | token {t : Token} {ts us : List Token} (h : Fills P ts us) : Fills P (t :: ts) (t :: us)
  | mark {v : Value} {ts us xs : List Token} (hxs : P xs) (h : Fills P ts us) :
      Fills P (.param v :: ts) (xs ++ us)

/-- What is put in for a mark is found at the place of the mark. -/
theorem Fills.head {P : List Token → Prop} (hP : ∀ xs, P xs → Sealed xs) {ts us : List Token}
    (h : Fills P ts us) (hts : ts.head?.any (!·.isComparator)) :
    us.head?.any (!·.isComparator) := by
  cases h with
  | nil => cases hts
  | token _ => exact hts
  | mark hxs _ =>
    obtain ⟨x, hx, hfirst⟩ := (Option.any_eq_true _ _).1 (hP _ hxs).1
    simp [hx, hfirst]

theorem Fills.sealed {P : List Token → Prop} (hP : ∀ xs, P xs → Sealed xs) {ts us : List Token}
    (h : Fills P ts us) (hts : Sealed ts) : Sealed us := by
  refine ⟨h.head hP hts.1, ?_⟩
  have hlast := hts.2
  clear hts
  induction h with
  | nil => exact hlast
  | @token t ts us h ih =>
    rw [List.getLast?_cons] at hlast ⊢
    cases hts : ts.getLast? with
    | none =>
      obtain rfl := List.getLast?_eq_none_iff.1 hts
      cases h
      exact hlast
    | some x =>
      rw [hts] at hlast ih
      obtain ⟨y, hy, hkept⟩ := (Option.any_eq_true _ _).1 (ih hlast)
      rw [hy]
      exact hkept
  | @mark v ts us xs hxs h ih =>
    rw [List.getLast?_append]
    cases hts : ts.getLast? with
    | none =>
      obtain rfl := List.getLast?_eq_none_iff.1 hts
      cases h
      exact (hP xs hxs).2
    | some x =>
      rw [List.getLast?_cons, hts] at hlast
      rw [hts] at ih
      obtain ⟨y, hy, hkept⟩ := (Option.any_eq_true _ _).1 (ih hlast)
      rw [hy]
      exact hkept

theorem fill_append_of_notMem {w : List Char} (hw : '?' ∉ w) (s : List Char)
    (pss : List (List Piece)) (k : Nat) :
    chars d k (Expr.fill (w ++ s) pss) = w ++ chars d k (Expr.fill s pss)
      ∧ bound (Expr.fill (w ++ s) pss) = bound (Expr.fill s pss) := by
  induction w with
  | nil => exact ⟨rfl, rfl⟩
  | cons c w ih =>
    obtain ⟨hc, hw⟩ := not_or.1 (mt List.mem_cons.2 hw)
    obtain ⟨hchars, hbound⟩ := ih hw
    rw [List.cons_append, fill_cons_of_ne (Ne.symm hc)]
    exact ⟨by simp [chars, hchars], hbound⟩

/-- What is written for a template without a mark in front starts as the
template does. -/
theorem noneAhead_fill {p : Char → Bool} {s rest : List Char} (hmark : s.head? ≠ some '?')
    (hs : NoneAhead p s) (hrest : NoneAhead p rest) (pss : List (List Piece)) (k : Nat) :
    NoneAhead p (chars d k (Expr.fill s pss) ++ rest) := by
  cases s with
  | nil => exact hrest
  | cons c s =>
    rw [fill_cons_of_ne (by simpa using hmark)]
    simpa [chars] using hs

/-- **A template with arguments for its marks spells its tokens**, with those of
the arguments for the marks. -/
theorem Template.exists_spells_fill {P : List Token → Prop} (hP : ∀ xs, P xs → Sealed xs)
    {s : List Char} {ts : List Token} (h : Template d s ts) {pss : List (List Piece)}
    (hcount : s.count '?' = pss.length) (hpss : ∀ ps ∈ pss, ∃ xs, P xs ∧ Spells d ps xs) :
    ∃ us, Fills P ts us ∧ Spells d (Expr.fill s pss) us := by
  induction h generalizing pss with
  | done => exact ⟨[], .nil, spells_nil⟩
  | @blank c s ts hc _ ih =>
    have hne : c ≠ '?' := by
      rintro rfl
      exact absurd hc (by decide)
    obtain ⟨us, hfills, hspells⟩ := ih (by rwa [List.count_cons_of_ne hne] at hcount) hpss
    refine ⟨us, hfills, fun params k rest vs hb hrest htokens => ?_⟩
    rw [fill_cons_of_ne hne] at hb htokens ⊢
    rw [chars, String.toList_singleton]
    exact .blank hc (hspells params k rest vs hb hrest htokens)
  | @mark v s ts hmark hs _ ih =>
    obtain ⟨ps, pss, rfl⟩ : ∃ ps pss', pss = ps :: pss' :=
      List.exists_cons_of_ne_nil (by rintro rfl; simp at hcount)
    obtain ⟨⟨xs, hxs, hps⟩, hpss⟩ := List.forall_mem_cons.1 hpss
    obtain ⟨us, hfills, hspells⟩ := ih (by simpa using hcount) hpss
    refine ⟨xs ++ us, .mark hxs hfills, hps.append_tight hspells fun k rest hrest t ht => ?_⟩
    obtain ⟨t', ht', hlast⟩ := (Option.any_eq_true _ _).1 (hP xs hxs).2
    obtain rfl : t = t' := Option.some.inj (ht.symm.trans ht')
    refine (noneAhead_fill hmark hs (hrest.mono fun c hc => ?_) pss k).mono fun c =>
      operandRunsOn_of_glues hlast
    exact runsOn_of_operandRunsOn hc
  | @token t w s tok ts ht hw hunmarked hs hmark h ih =>
    subst ht
    have hcount' : s.count '?' = pss.length := by
      rwa [List.count_append, List.count_eq_zero.2 hunmarked, Nat.zero_add] at hcount
    obtain ⟨us, hfills, hspells⟩ := ih hcount' hpss
    refine ⟨tok :: us, .token hfills, fun params k rest vs hb hrest htokens => ?_⟩
    obtain ⟨hchars, hbound⟩ := fill_append_of_notMem hunmarked s pss k
    rw [hbound] at hb htokens
    have hafter := hspells params k rest vs hb hrest htokens
    rw [hchars, List.append_assoc]
    obtain ⟨hspelled, hplace⟩ := hw.of_nil params k
    refine .token rfl hspelled ?_ (by rwa [hplace])
    by_cases hfirst : s.head? = some '?'
    · -- an operand follows, and it does not start with a comparator
      have hoperand : us.head?.any (!·.isComparator) := hfills.head hP (h.head_of_mark hfirst)
      obtain ⟨u, hu, hnot⟩ := (Option.any_eq_true _ _).1 hoperand
      have hsymbol := hafter.noneAhead_symbol (by simp [hu, hnot])
      have hmeets := hmark hfirst
      cases tok with
      | comparator o => exact hsymbol
      | opening => exact hsymbol.mono (by simp [Token.glues])
      | _ => cases hmeets
    · exact noneAhead_fill hfirst hs (hrest.mono fun c => runsOn_of_glues tok) pss k

/-! ## Phrases -/

/-- **Pieces are a phrase**: they spell tokens, wherever they are written, with no
comparator at the ends. -/
def Phrase (d : Dialect) (ps : List Piece) : Prop :=
  ∃ ts, Sealed ts ∧ Spells d ps ts

variable {ps qs : List Piece}

theorem Writes.phrase {l : Level} {c : Condition} (h : Writes d ps l c) : Phrase d ps := by
  obtain ⟨ts, hts, hread⟩ := h
  exact ⟨ts, Reads.sealed (by simpa using hread []), hts⟩

theorem Phrase.text_cons {text : String} {ts : List Token} (h : Phrase d ps)
    (hsep : Separates d text ts) (hts : Sealed ts) : Phrase d (.text text :: ps) := by
  obtain ⟨us, hus, hspells⟩ := h
  exact ⟨ts ++ us, hts.append hus, hspells.text_cons hsep⟩

/-- Phrases with a text between them that starts with a blank. -/
theorem Phrase.separated {text : String} {cs : List Char} {ts : List Token} (hp : Phrase d ps)
    (hsep : Separates d text ts) (htext : text.toList = ' ' :: cs) (hq : Phrase d qs) :
    Phrase d (ps ++ .text text :: qs) := by
  obtain ⟨us, hus, hps⟩ := hp
  obtain ⟨vs, hvs, hqs⟩ := hq
  exact ⟨us ++ (ts ++ vs), hus.between ts hvs, hps.separated hsep htext (runsOn_blank d) hqs⟩

theorem Phrase.append_text {text : String} {cs : List Char} {ts : List Token} (h : Phrase d ps)
    (hspells : Spells d [.text text] ts) (hts : Sealed ts) (htext : text.toList = ' ' :: cs) :
    Phrase d (ps ++ [.text text]) := by
  obtain ⟨us, hus, hps⟩ := h
  refine ⟨us ++ ts, hus.append hts, hps.append hspells fun k s _ => ?_⟩
  rw [chars, htext]
  exact (noneAhead_cons _ _ _).2 (runsOn_blank d)

theorem Phrase.parens (h : Phrase d ps) : Phrase d (Piece.parens ps) := by
  obtain ⟨ts, hts, hps⟩ := h
  exact ⟨[.opening] ++ (ts ++ ([.closing] ++ [])), Sealed.append ⟨rfl, rfl⟩ (hts.append ⟨rfl, rfl⟩),
    (hps.separated separates_closing rfl (runsOn_closing d) spells_nil).text_cons
      separates_opening⟩

theorem Phrase.parensIf (h : Phrase d ps) (needed : Bool) :
    Phrase d (Piece.parensIf needed ps) := by
  cases needed with
  | true => exact h.parens
  | false => exact h

theorem Phrase.comparisonPieces (hp : Phrase d ps) (o : Comparator) (r : Expr)
    (hq : Phrase d qs) : Phrase d (Expr.comparisonPieces ps o r qs) := by
  have hplain : ∀ o : Comparator, Phrase d (ps ++ .text (" " ++ o.symbol ++ " ") :: qs) :=
    fun o => hp.separated (separates_comparator o) (toList_comparator o) hq
  unfold Expr.comparisonPieces
  cases r.isNullValue with
  | false => cases o <;> exact hplain _
  | true =>
    cases o with
    | eq => exact hp.append_text spells_isNull ⟨rfl, rfl⟩ rfl
    | ne => exact hp.append_text spells_isNotNull ⟨rfl, rfl⟩ rfl
    | _ => exact hplain _

theorem phrase_intercalate (k : Connective) {pss : List (List Piece)} (hne : pss ≠ [])
    (h : ∀ ps ∈ pss, Phrase d ps) : Phrase d ([Piece.text (separator k)].intercalate pss) := by
  induction pss with
  | nil => exact absurd rfl hne
  | cons ps pss ih =>
    obtain ⟨hps, hpss⟩ := List.forall_mem_cons.1 h
    cases pss with
    | nil => simpa using hps
    | cons qs pss =>
      obtain ⟨cs, hcs⟩ := separator_toList k
      exact hps.separated (separates_separator k) hcs (ih (List.cons_ne_nil _ _) hpss)

end Sql

/-! ## Expressions with such templates -/

namespace Expr

open Sql

/-- **The template of a raw expression is a predicate of its marks**, of which it
has as many as arguments. -/
def Templated (d : Dialect) : Expr → Prop
  | raw template args =>
    placeholders template = args.length
      ∧ ∃ ts c, Template d template.toList ts ∧ Reads (.chain .or) ts c []
  | _ => True

variable {d : Dialect}

theorem phrase_junctionPieces (k : Connective) {empty : String} {c : Condition} {es : List Expr}
    (hempty : Writes d [.text empty] .comparison c) (h : ∀ e ∈ es, Phrase d e.pieces) :
    Phrase d (junctionPieces (separator k) empty
      (es.map fun e => Piece.parensIf e.isWideAnd e.pieces)) := by
  cases es with
  | nil => exact hempty.phrase
  | cons e es =>
    refine phrase_intercalate k (List.cons_ne_nil _ _) ?_
    exact List.forall_mem_map.2 fun e he => (h e he).parensIf _

theorem phrase_not {e : Expr} (he : ∀ l o r, e ≠ .compare l o r) (h : Phrase d e.pieces) :
    Phrase d (Expr.not e).pieces := by
  have hnot : ∀ {ps}, Phrase d ps → Phrase d (.text "NOT " :: ps) :=
    fun hps => hps.text_cons separates_not ⟨rfl, rfl⟩
  cases e with
  | compare l o r => exact absurd rfl (he l o r)
  | or es => exact hnot h
  | name n | value v | and es | not e | raw t args => exact hnot h.parens

/-- **An expression is a phrase** if its templates are predicates. -/
theorem phrase_pieces {e : Expr} (he : e.Every (Templated d)) : Phrase d e.pieces := by
  induction e using writtenInduction with
  | name n => exact (writes_name n).phrase
  | value v => exact (writes_param v).phrase
  | compare l o r ihl ihr =>
    obtain ⟨-, hl, hr⟩ := every_compare.1 he
    exact ((ihl hl).parensIf _).comparisonPieces o r ((ihr hr).parensIf _)
  | and es ih =>
    rw [pieces_and]
    exact phrase_junctionPieces .and writes_one_eq_one fun e hmem =>
      ih e hmem ((every_and.1 he).2 e hmem)
  | or es ih =>
    rw [pieces_or]
    exact (phrase_junctionPieces .or writes_one_eq_zero fun e hmem =>
      ih e hmem ((every_or.1 he).2 e hmem)).parens
  | not_compare l o r ihl ihr =>
    obtain ⟨-, hl, hr⟩ := every_compare.1 (every_not.1 he).2
    exact ((ihl hl).parensIf _).comparisonPieces o.negate r ((ihr hr).parensIf _)
  | not e hne ih => exact phrase_not hne (ih (every_not.1 he).2)
  | raw template args ih =>
    obtain ⟨⟨hcount, ts, c, htemplate, hread⟩, hargs⟩ := every_raw.1 he
    rw [pieces_raw]
    have hphrases : ∀ ps ∈ args.map fun e => Piece.parensIf e.needsParens e.pieces, Phrase d ps :=
      List.forall_mem_map.2 fun e hmem => (ih e hmem (hargs e hmem)).parensIf _
    obtain ⟨us, hfills, hspells⟩ := htemplate.exists_spells_fill (fun _ hxs => hxs)
      (hcount.trans (List.length_map _).symm) hphrases
    exact ⟨us, hfills.sealed (fun _ hxs => hxs) hread.sealed, hspells⟩

end Expr

end FilterSql
