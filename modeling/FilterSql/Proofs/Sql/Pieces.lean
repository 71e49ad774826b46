import FilterSql.Proofs.Sql.Predicate
import Mathlib

/-!
# What pieces are read as

A statement is written piece by piece, and it is read token by token. This
module joins the two: `Writes d ps l c` says that the pieces `ps`, wherever they
are written in a statement of the dialect, spell tokens that are read as the
condition `c` at the level `l` of the grammar.

Every way in which pieces are put together has one lemma here. Pieces between
parentheses are an operand, whatever they were before; two operands with a
comparator between them are a comparison; pieces with the word for a connective
between them are a row of operands. What is written for an expression is then
read by following how it was put together, and nothing below looks at
characters again.

The one thing to watch is that no token runs into the next. Pieces may be
followed only by a character that runs on from no token (`runsOn`), and what is
written between operands starts with such a character.
-/

namespace FilterSql.Sql

open Text

variable {d : Dialect}

/-! ## The text of pieces -/

/-- The values that pieces bind. -/
def bound (ps : List Piece) : List Value :=
  ps.filterMap Piece.bound?

/-- **The text of pieces** that are written when `k` values are bound
already. -/
def chars (d : Dialect) : Nat → List Piece → List Char
  | _, [] => []
  | k, .text s :: ps => s.toList ++ chars d k ps
  | k, .name s :: ps => (d.quote s).toList ++ chars d k ps
  | k, .param _ :: ps => (d.placeholder k).toList ++ chars d (k + 1) ps

@[simp] theorem bound_nil : bound [] = [] := rfl

@[simp] theorem bound_append (ps qs : List Piece) : bound (ps ++ qs) = bound ps ++ bound qs :=
  List.filterMap_append

@[simp] theorem bound_text (s : String) (ps : List Piece) : bound (.text s :: ps) = bound ps :=
  rfl

@[simp] theorem bound_name (s : String) (ps : List Piece) : bound (.name s :: ps) = bound ps :=
  rfl

@[simp] theorem bound_param (v : Value) (ps : List Piece) :
    bound (.param v :: ps) = v :: bound ps :=
  rfl

theorem chars_append (d : Dialect) (k : Nat) (ps qs : List Piece) :
    chars d k (ps ++ qs) = chars d k ps ++ chars d (k + (bound ps).length) qs := by
  induction ps generalizing k with
  | nil => rfl
  | cons p ps ih =>
    cases p with
    | text s | name s => simp [chars, ih]
    | param v =>
      simp only [List.cons_append, chars, ih, bound_param, List.length_cons, List.append_assoc]
      rw [Nat.add_assoc, Nat.add_comm 1]

/-- **Writing appends the text of the pieces.** -/
theorem toList_sql_write (d : Dialect) (st : Statement) (ps : List Piece) :
    (st.write d ps).sql.toList = st.sql.toList ++ chars d st.params.length ps := by
  induction ps generalizing st with
  | nil => simp [chars]
  | cons p ps ih => cases p <;> simp [ih, Statement.push, chars, String.toList_append]

theorem toList_sql_ofPieces (d : Dialect) (ps : List Piece) :
    (Statement.ofPieces d ps).sql.toList = chars d 0 ps := by
  rw [Statement.ofPieces, toList_sql_write]
  rfl

theorem params_ofPieces (d : Dialect) (ps : List Piece) :
    (Statement.ofPieces d ps).params = bound ps := by
  rw [Statement.ofPieces, Statement.params_write]
  rfl

/-- **The statement of pieces** is their text and the values that they bind. -/
theorem ofPieces_eq (d : Dialect) (ps : List Piece) :
    Statement.ofPieces d ps = ⟨String.ofList (chars d 0 ps), bound ps⟩ := by
  rw [← toList_sql_ofPieces, ← params_ofPieces d, String.ofList_toList]

/-! ## The tokens of pieces -/

/-- Whether a character could run on from some token. -/
def runsOn (d : Dialect) (c : Char) : Bool :=
  isWordChar c || isSymbolChar c || c == mark d

theorem runsOn_of_glues (tok : Token) {c : Char} (h : tok.glues d c = true) :
    runsOn d c = true := by
  cases tok with
  | name s => exact Bool.or_eq_true_iff.2 (.inr h)
  | param v | numeral n | word w =>
    exact Bool.or_eq_true_iff.2 (.inl (Bool.or_eq_true_iff.2 (.inl h)))
  | comparator o => exact Bool.or_eq_true_iff.2 (.inl (Bool.or_eq_true_iff.2 (.inr h)))
  | dot | opening | closing => cases h

@[simp] theorem runsOn_blank (d : Dialect) : runsOn d ' ' = false := by
  cases d <;> decide

@[simp] theorem runsOn_dot (d : Dialect) : runsOn d '.' = false := by
  cases d <;> decide

@[simp] theorem runsOn_closing (d : Dialect) : runsOn d ')' = false := by
  cases d <;> decide

/-- **Pieces spell tokens**, wherever they are written: the values they bind
stand in the list of bound values at their place, and what follows does not run
on from the last token. -/
def Spells (d : Dialect) (ps : List Piece) (ts : List Token) : Prop :=
  ∀ params k s us, bound ps <+: params.drop k → NoneAhead (runsOn d) s →
    Tokens d params (k + (bound ps).length) s us → Tokens d params k (chars d k ps ++ s) (ts ++ us)

/-- The tokens of pieces are those of their text, where they are the last. -/
theorem Spells.tokens {params : List Value} {k : Nat} {ps : List Piece} {ts : List Token}
    (h : Spells d ps ts) (hb : bound ps <+: params.drop k) :
    Tokens d params k (chars d k ps) ts := by
  simpa using h params k [] [] hb (noneAhead_nil _) .done

/-- **A text separates**: it spells tokens whatever follows it. -/
def Separates (d : Dialect) (text : String) (ts : List Token) : Prop :=
  ∀ params k s us, Tokens d params k s us → Tokens d params k (text.toList ++ s) (ts ++ us)

theorem spells_nil : Spells d [] [] :=
  fun _ _ _ _ _ _ h => h

/-- The values of pieces one after the other stand at their places if those of the
first do, and those of the second behind them. -/
theorem bound_append_prefix {ps qs : List Piece} {params : List Value} {k : Nat}
    (h : bound (ps ++ qs) <+: params.drop k) :
    bound ps <+: params.drop k ∧ bound qs <+: params.drop (k + (bound ps).length) := by
  rw [bound_append] at h
  refine ⟨(List.prefix_append _ _).trans h, ?_⟩
  obtain ⟨t, ht⟩ := h
  rw [← List.drop_drop, ← ht, List.append_assoc, List.drop_left]
  exact List.prefix_append _ _

/-- Pieces one after the other, of which the second do not run on from the
first. -/
theorem Spells.append {ps qs : List Piece} {ts us : List Token} (hp : Spells d ps ts)
    (hq : Spells d qs us)
    (hedge : ∀ k s, NoneAhead (runsOn d) s → NoneAhead (runsOn d) (chars d k qs ++ s)) :
    Spells d (ps ++ qs) (ts ++ us) := by
  intro params k s vs hb hs h
  obtain ⟨hbp, hbq⟩ := bound_append_prefix hb
  rw [bound_append, List.length_append, ← Nat.add_assoc] at h
  rw [chars_append, List.append_assoc, List.append_assoc]
  exact hp _ _ _ _ hbp (hedge _ _ hs) (hq _ _ _ _ hbq hs h)

theorem Spells.text_cons {text : String} {ps : List Piece} {ts us : List Token}
    (hsep : Separates d text ts) (hp : Spells d ps us) :
    Spells d (.text text :: ps) (ts ++ us) := by
  intro params k s vs hb hs h
  rw [chars, List.append_assoc, List.append_assoc]
  exact hsep _ _ _ _ (hp _ _ _ _ hb hs h)

/-- Pieces with a separating text between them. -/
theorem Spells.separated {text : String} {c : Char} {cs : List Char} {ps qs : List Piece}
    {ts us vs : List Token} (hp : Spells d ps ts) (hsep : Separates d text us)
    (htext : text.toList = c :: cs) (hc : runsOn d c = false) (hq : Spells d qs vs) :
    Spells d (ps ++ .text text :: qs) (ts ++ (us ++ vs)) := by
  refine hp.append (hq.text_cons hsep) (fun k s _ => ?_)
  rw [chars, htext]
  exact (noneAhead_cons _ _ _).2 hc

theorem spells_name (s : String) : Spells d [.name s] [.name s] := by
  intro params k rest us _ hrest h
  rw [chars, chars, List.append_nil]
  exact .token rfl (spelled_quote s) (hrest.mono fun _ => runsOn_of_glues (.name s)) h

theorem spells_param (v : Value) : Spells d [.param v] [.param v] := by
  intro params k rest us hb hrest h
  rw [chars, chars, List.append_nil]
  have hv : params[k]? = some v := by
    obtain ⟨t, ht⟩ := hb
    rw [← Nat.add_zero k, ← List.getElem?_drop, ← ht]
    rfl
  exact .token rfl (spelled_placeholder hv)
    (hrest.mono fun _ => runsOn_of_glues (.param v)) h

/-! ## The fixed texts -/

theorem separates_opening : Separates d "(" [.opening] :=
  fun _ _ _ _ h => .token rfl rfl (by simp [NoneAhead, Token.glues]) h

theorem separates_closing : Separates d ")" [.closing] :=
  fun _ _ _ _ h => .token rfl rfl (by simp [NoneAhead, Token.glues]) h

theorem separates_dot : Separates d "." [.dot] :=
  fun _ _ _ _ h => .token rfl rfl (by simp [NoneAhead, Token.glues]) h

/-- A word that is followed by a blank. -/
theorem Tokens.word {params : List Value} {k : Nat} {x : Word} {w s : List Char}
    {us : List Token} (hw : w.map Char.toLower = x.letters) (h : Tokens d params k s us) :
    Tokens d params k (w ++ ' ' :: s) (.word x :: us) :=
  .token rfl hw (by simp [Token.glues, isWordChar]) (.blank rfl h)

theorem separates_not : Separates d "NOT " [.word .not] :=
  fun _ _ _ _ h => .word (w := ['N', 'O', 'T']) (by decide) h

theorem separates_and : Separates d " AND " [.word .and] :=
  fun _ _ _ _ h => .blank rfl (.word (w := ['A', 'N', 'D']) (by decide) h)

theorem separates_or : Separates d " OR " [.word .or] :=
  fun _ _ _ _ h => .blank rfl (.word (w := ['O', 'R']) (by decide) h)

/-- The text that is written between the operands of a comparison. -/
theorem separates_comparator (o : Comparator) :
    Separates d (" " ++ o.symbol ++ " ") [.comparator o] := by
  intro params k s us h
  rw [String.toList_append, String.toList_append, List.append_assoc, List.append_assoc]
  exact .blank rfl (.token (w := o.symbol.toList) rfl (comparatorOf?_symbol o)
    (by simp [Token.glues, isSymbolChar]) (.blank rfl h))

theorem toList_comparator (o : Comparator) :
    (" " ++ o.symbol ++ " ").toList = ' ' :: (o.symbol ++ " ").toList := by
  rw [String.append_assoc, String.toList_append]
  rfl

/-- A word that may be the last of what is written. -/
theorem Tokens.lastWord {params : List Value} {k : Nat} {x : Word} {w s : List Char}
    {us : List Token} (hw : w.map Char.toLower = x.letters) (hs : NoneAhead (runsOn d) s)
    (h : Tokens d params k s us) : Tokens d params k (w ++ s) (.word x :: us) :=
  .token rfl hw (hs.mono fun _ => runsOn_of_glues (.word x)) h

theorem spells_null : Spells d [.text "NULL"] [.word .null] :=
  fun _ _ _ _ _ hs h => .lastWord (w := ['N', 'U', 'L', 'L']) (by decide) hs h

theorem spells_isNull : Spells d [.text " IS NULL"] [.word .is, .word .null] :=
  fun _ _ _ _ _ hs h => .blank rfl (.word (w := ['I', 'S']) (by decide)
    (.lastWord (w := ['N', 'U', 'L', 'L']) (by decide) hs h))

theorem spells_isNotNull :
    Spells d [.text " IS NOT NULL"] [.word .is, .word .not, .word .null] :=
  fun _ _ _ _ _ hs h => .blank rfl (.word (w := ['I', 'S']) (by decide)
    (.word (w := ['N', 'O', 'T']) (by decide)
      (.lastWord (w := ['N', 'U', 'L', 'L']) (by decide) hs h)))

/-- A numeral that is compared with a numeral. -/
theorem Tokens.numerals {params : List Value} {k m n : Nat} {s : List Char} {us : List Token}
    (hs : NoneAhead (runsOn d) s) (h : Tokens d params k s us) :
    Tokens d params k ((toString m).toList ++ ' ' :: '=' :: ' ' :: ((toString n).toList ++ s))
      (.numeral m :: .comparator .eq :: .numeral n :: us) :=
  .token rfl (numberOf?_toString m) (by simp [Token.glues, isWordChar]) (.blank rfl
    (.token (w := ['=']) rfl rfl (by simp [Token.glues, isSymbolChar]) (.blank rfl
      (.token rfl (numberOf?_toString n) (hs.mono fun _ => runsOn_of_glues (.numeral n)) h))))

theorem spells_one_eq_one :
    Spells d [.text "1 = 1"] [.numeral 1, .comparator .eq, .numeral 1] :=
  fun _ _ _ _ _ hs h => Tokens.numerals (m := 1) (n := 1) hs h

theorem spells_one_eq_zero :
    Spells d [.text "1 = 0"] [.numeral 1, .comparator .eq, .numeral 0] :=
  fun _ _ _ _ _ hs h => Tokens.numerals (m := 1) (n := 0) hs h

/-- What pieces spell depends on their text and on the values they bind. -/
theorem Spells.congr {ps qs : List Piece} {ts : List Token} (hp : Spells d ps ts)
    (hchars : ∀ k, chars d k ps = chars d k qs) (hbound : bound ps = bound qs) :
    Spells d qs ts := by
  intro params k s us hb hs h
  rw [← hbound] at hb h
  rw [← hchars]
  exact hp params k s us hb hs h

/-! ## What pieces are read as -/

/-- **Pieces write a condition** at a level: they spell tokens that are read as
the condition, and no token of what follows is needed for it. -/
def Writes (d : Dialect) (ps : List Piece) (l : Level) (c : Condition) : Prop :=
  ∃ ts, Spells d ps ts ∧ ∀ r, Reads l (ts ++ r) c r

variable {ps qs : List Piece} {a b c : Condition}

theorem Writes.congr {l : Level} (h : Writes d ps l c)
    (hchars : ∀ k, chars d k ps = chars d k qs) (hbound : bound ps = bound qs) :
    Writes d qs l c := by
  obtain ⟨ts, hts, hread⟩ := h
  exact ⟨ts, hts.congr hchars hbound, hread⟩

theorem Writes.comparison (h : Writes d ps .operand c) : Writes d ps .comparison c := by
  obtain ⟨ts, hts, hread⟩ := h
  exact ⟨ts, hts, fun r => .lone (hread r)⟩

theorem Writes.negation (h : Writes d ps .comparison c) : Writes d ps .negation c := by
  obtain ⟨ts, hts, hread⟩ := h
  exact ⟨ts, hts, fun r => .plain (hread r)⟩

/-- A single operand is a row of operands. -/
theorem Writes.chain {k : Connective} (h : Writes d ps (operandLevel k) c) :
    Writes d ps (.chain k) c := by
  obtain ⟨ts, hts, hread⟩ := h
  exact ⟨ts, hts, fun r => .chain (.one (hread r))⟩

/-- **Parentheses make an operand of anything.** -/
theorem Writes.parens (h : Writes d ps (.chain .or) c) :
    Writes d (Piece.parens ps) .operand c := by
  obtain ⟨ts, hts, hread⟩ := h
  refine ⟨_, (hts.separated separates_closing rfl (runsOn_closing d) spells_nil).text_cons
    separates_opening, fun r => ?_⟩
  rw [List.append_nil, List.singleton_append, List.cons_append, List.append_assoc]
  exact .group (hread _)

theorem writes_param (v : Value) : Writes d [.param v] .operand (.param v) :=
  ⟨_, spells_param v, fun _ => .param⟩

theorem writes_null : Writes d [.text "NULL"] .operand .null :=
  ⟨_, spells_null, fun _ => .null⟩

/-- A dotted name is written part by part. -/
theorem exists_spells_dotted (n : QualifiedName) :
    ∃ ts, Spells d n.pieces ts ∧ ∀ r, Dotted (ts ++ r) n.parts r := by
  have hparts : ∀ parts : List String, parts ≠ [] → ∃ ts,
      Spells d ((parts.map Piece.name).intersperse (.text ".")) ts
        ∧ ∀ r, Dotted (ts ++ r) parts r := by
    intro parts hne
    induction parts with
    | nil => exact absurd rfl hne
    | cons s parts ih =>
      cases parts with
      | nil => exact ⟨_, spells_name s, fun _ => .last⟩
      | cons s' parts =>
        obtain ⟨ts, hts, hread⟩ := ih (List.cons_ne_nil _ _)
        exact ⟨_, (spells_name s).separated separates_dot rfl (runsOn_dot d) hts,
          fun r => .more (hread r)⟩
  exact hparts n.parts n.parts_ne_nil

theorem writes_name (n : QualifiedName) : Writes d n.pieces .operand (.name n.parts) := by
  obtain ⟨ts, hts, hread⟩ := exists_spells_dotted n
  exact ⟨ts, hts, fun r => .name (hread r)⟩

theorem Writes.compare (ha : Writes d ps .operand a) (o : Comparator)
    (hb : Writes d qs .operand b) :
    Writes d (ps ++ .text (" " ++ o.symbol ++ " ") :: qs) .comparison (.compare a o b) := by
  obtain ⟨ts, hts, hread⟩ := ha
  obtain ⟨us, hus, hread'⟩ := hb
  refine ⟨_, hts.separated (separates_comparator o) (toList_comparator o) (runsOn_blank d) hus,
    fun r => ?_⟩
  rw [List.append_assoc]
  exact .compare (hread _) (hread' r)

theorem Writes.isNull (h : Writes d ps .operand c) :
    Writes d (ps ++ [Piece.text " IS NULL"]) .comparison (.isNull c) := by
  obtain ⟨ts, hts, hread⟩ := h
  refine ⟨_, hts.append spells_isNull (fun k s _ => (noneAhead_cons _ _ _).2 (runsOn_blank d)),
    fun r => ?_⟩
  rw [List.append_assoc]
  exact .isNull (hread _)

theorem Writes.isNotNull (h : Writes d ps .operand c) :
    Writes d (ps ++ [Piece.text " IS NOT NULL"]) .comparison (.isNotNull c) := by
  obtain ⟨ts, hts, hread⟩ := h
  refine ⟨_, hts.append spells_isNotNull
    (fun k s _ => (noneAhead_cons _ _ _).2 (runsOn_blank d)), fun r => ?_⟩
  rw [List.append_assoc]
  exact .isNotNull (hread _)

theorem Writes.not (h : Writes d ps .operand c) :
    Writes d (.text "NOT " :: ps) .negation (.not c) := by
  obtain ⟨ts, hts, hread⟩ := h.comparison.negation
  exact ⟨_, hts.text_cons separates_not, fun r => .not (hread r)⟩

theorem writes_one_eq_one :
    Writes d [.text "1 = 1"] .comparison (.compare (.numeral 1) .eq (.numeral 1)) :=
  ⟨_, spells_one_eq_one, fun _ => .compare .numeral .numeral⟩

theorem writes_one_eq_zero :
    Writes d [.text "1 = 0"] .comparison (.compare (.numeral 1) .eq (.numeral 0)) :=
  ⟨_, spells_one_eq_zero, fun _ => .compare .numeral .numeral⟩

/-- The text between the operands of a connective. -/
def separator : Connective → String
  | .and => " AND "
  | .or => " OR "

theorem separates_separator (k : Connective) :
    Separates d (separator k) [.word (connectiveWord k)] := by
  cases k with
  | and => exact separates_and
  | or => exact separates_or

theorem separator_toList (k : Connective) : ∃ cs, (separator k).toList = ' ' :: cs := by
  cases k with
  | and => exact ⟨_, rfl⟩
  | or => exact ⟨_, rfl⟩

/-- **Operands with the word for a connective between them** are read as one
row of operands. -/
theorem writes_chain (k : Connective) {pss : List (List Piece)} {cs : List Condition}
    (h : List.Forall₂ (fun ps c => Writes d ps (operandLevel k) c) pss cs) (hne : pss ≠ []) :
    Writes d ([Piece.text (separator k)].intercalate pss) (.chain k) (joined k cs) := by
  have hchain : ∃ ts, Spells d ([Piece.text (separator k)].intercalate pss) ts
      ∧ ∀ r, Chain k (ts ++ r) cs r := by
    induction h with
    | nil => exact absurd rfl hne
    | @cons ps c pss cs hps hpss ih =>
      obtain ⟨ts, hts, hread⟩ := hps
      cases hpss with
      | nil => exact ⟨ts, by simpa using hts, fun r => .one (hread r)⟩
      | cons hps' hpss' =>
        obtain ⟨us, hus, hread'⟩ := ih (List.cons_ne_nil _ _)
        obtain ⟨cs', hcs'⟩ := separator_toList k
        refine ⟨_, hts.separated (separates_separator k) hcs' (runsOn_blank d) hus,
          fun r => ?_⟩
        rw [List.append_assoc]
        exact .more (hread _) (hread' r)
  obtain ⟨ts, hts, hread⟩ := hchain
  exact ⟨ts, hts, fun r => .chain (hread r)⟩

/-- **A statement is read as what its pieces write.** -/
theorem Writes.readsAs (h : Writes d ps (.chain .or) c) :
    ReadsAs d (Statement.ofPieces d ps) c := by
  obtain ⟨ts, hts, hread⟩ := h
  refine ⟨ts, ?_, by simpa using hread []⟩
  rw [toList_sql_ofPieces, params_ofPieces]
  exact hts.tokens (List.prefix_rfl)

end FilterSql.Sql
