import FilterSql.Proofs.Filter.Parse
import Mathlib

/-!
# What the text form of a filter carries

The text form puts an operand in parentheses only if it is joined by an
operator. A negated operand stands bare, and where it is a side of a comparison
the parser does not read it as one: before the comparison, `not` reaches over
the whole of it, and after the comparator it is an error.

That is all that is lost. Whatever the leaves, the text form is a sequence of
tokens (`tokens`), provided that every leaf is a word of the language
(`Legible`). If no right side is negated, the tokens derive the filter in which
every negated left side has handed its `not` to the comparison (`reread`), and
this filter is the original if and only if no left side is negated.

The main statement is `parse_text_iff`.
-/

namespace FilterSql.Filter

open Text

/-! ## The nodes of a filter -/

/-- **The nodes of a filter**, each before its operands. -/
def nodes : Filter → List Filter
  | binary op l r => binary op l r :: (l.nodes ++ r.nodes)
  | not f => not f :: f.nodes
  | identifier path => [identifier path]
  | integer digits => [integer digits]
  | string s => [string s]
  | null => [null]

/-- Every node of a filter is so. -/
def Every (p : Filter → Prop) (f : Filter) : Prop :=
  ∀ g ∈ f.nodes, p g

section Every

variable {p : Filter → Prop} {op : Operator} {l r f : Filter}

theorem every_binary :
    (binary op l r).Every p ↔ p (binary op l r) ∧ l.Every p ∧ r.Every p := by
  show (∀ g ∈ binary op l r :: (l.nodes ++ r.nodes), p g) ↔ _
  rw [List.forall_mem_cons, List.forall_mem_append]
  rfl

theorem every_not : (not f).Every p ↔ p (not f) ∧ f.Every p :=
  List.forall_mem_cons

theorem every_of_nodes_eq (hf : f.nodes = [f]) : f.Every p ↔ p f := by
  unfold Every
  rw [hf, List.forall_mem_singleton]

end Every

/-- Whether a filter is a negation. -/
def isNot : Filter → Bool
  | not _ => true
  | _ => false

/-- **A leaf is a word of the language**: a path is an identifier, and an integer
has digits only. Any text is the text of some string. -/
def Legible : Filter → Prop
  | identifier path => IsIdentifier path.toList
  | integer digits => IsInteger digits.toList
  | _ => True

/-- The two sides are so related, if the filter is a comparison. -/
def Sides (p : Filter → Filter → Prop) : Filter → Prop
  | binary (.comparison _) l r => p l r
  | _ => True

theorem every_sides_and {p q : Filter → Filter → Prop} {f : Filter} :
    f.Every (Sides fun l r => p l r ∧ q l r) ↔ f.Every (Sides p) ∧ f.Every (Sides q) := by
  have hnode : ∀ g, Sides (fun l r => p l r ∧ q l r) g ↔ Sides p g ∧ Sides q g := by
    intro g
    match g with
    | binary (.comparison _) _ _ => exact Iff.rfl
    | binary (.logical _) _ _ | not _ | identifier _ | integer _ | string _ | null =>
      exact (and_self_iff (a := True)).symm
  unfold Every
  simp only [hnode, forall_and]

/-! ## The tokens of the text form -/

/-- The keyword of an operator. -/
def Keyword.ofOperator : Operator → Keyword
  | .logical k => .connective k
  | .comparison c => .comparator c

/-- The tokens of a filter where it is an operand. -/
def encloseTokens (f : Filter) (ts : List Token) : List Token :=
  match f with
  | binary .. => Token.opening :: ts ++ [Token.closing]
  | _ => ts

/-- **The tokens of the text form.** -/
def tokens : Filter → List Token
  | binary op l r =>
    l.encloseTokens l.tokens ++ .keyword (.ofOperator op) :: r.encloseTokens r.tokens
  | not f => .keyword .not :: f.encloseTokens f.tokens
  | identifier path => [.identifier path]
  | integer digits => [.integer digits]
  | string s => [.string s]
  | null => [.keyword .null]

theorem Keyword.toList_keyword (op : Operator) :
    op.keyword.toList = (Keyword.ofOperator op).letters := by
  cases op <;> rfl

theorem reads_keyword (k : Keyword) {s s' : List Char} {ts : List Token}
    (hs : NoneAhead isIdentChar s) (h : Reads s ts s') :
    Reads (k.letters ++ s) (.keyword k :: ts) s' :=
  .token rfl k.map_toLower_letters (fun _ => hs) h

theorem reads_enclose (f : Filter) {text : String} {ts : List Token}
    (h : ∀ s, NoneAhead isIdentChar s → Reads (text.toList ++ s) ts s) {s : List Char}
    (hs : NoneAhead isIdentChar s) :
    Reads ((f.enclose text).toList ++ s) (f.encloseTokens ts) s := by
  cases f with
  | binary op l r =>
    have hchars : (("(" ++ text ++ ")").toList ++ s) = '(' :: (text.toList ++ ')' :: s) := by
      simp
    show Reads (("(" ++ text ++ ")").toList ++ s) (Token.opening :: (ts ++ [Token.closing])) s
    rw [hchars]
    refine .token (w := ['(']) rfl rfl (by simp [Token.isWord]) ?_
    refine (h (')' :: s) (by simp; decide)).append ?_
    exact .token (w := [')']) rfl rfl (by simp [Token.isWord]) (.done s)
  | _ => exact h s hs

/-- **The text form of a legible filter is the sequence of its tokens**, before
anything that cannot go on with a word. -/
theorem reads_text {f : Filter} (hf : f.Every Legible) {s : List Char} (hs : NoneAhead isIdentChar s) :
    Reads (f.text.toList ++ s) f.tokens s := by
  have hblank : ∀ s : List Char, NoneAhead isIdentChar (' ' :: s) := by
    intro s
    rw [noneAhead_cons]
    decide
  induction f generalizing s with
  | binary op l r ihl ihr =>
    obtain ⟨-, hl, hr⟩ := every_binary.1 hf
    have hchars : (binary op l r).text.toList ++ s = (l.enclose l.text).toList
        ++ ' ' :: ((Keyword.ofOperator op).letters ++ ' ' :: ((r.enclose r.text).toList ++ s)) := by
      simp [text, Keyword.toList_keyword]
    rw [hchars, tokens]
    refine (reads_enclose l (fun s => ihl hl) (hblank _)).append (.blank rfl ?_)
    refine reads_keyword (.ofOperator op) (hblank _) (.blank rfl ?_)
    exact reads_enclose r (fun s => ihr hr) hs
  | not f ih =>
    have hchars : (not f).text.toList ++ s
        = Keyword.not.letters ++ ' ' :: ((f.enclose f.text).toList ++ s) := by
      simp [text, Keyword.letters, Keyword.text]
    rw [hchars, tokens]
    refine reads_keyword .not (hblank _) (.blank rfl ?_)
    exact reads_enclose f (fun s => ih (every_not.1 hf).2) hs
  | identifier path =>
    exact .token rfl ⟨rfl, (every_of_nodes_eq rfl).1 hf⟩ (fun _ => hs) (.done s)
  | integer digits =>
    exact .token rfl ⟨rfl, (every_of_nodes_eq rfl).1 hf⟩ (fun _ => hs) (.done s)
  | string t =>
    refine .token rfl ?_ (by simp [Token.isWord]) (.done s)
    show (quoted '\'' t).toList = _
    rw [quoted, String.toList_ofList]
  | null => exact reads_keyword .null hs (.done s)

/-! ## What a derivation says of its tokens -/

theorem Scans.exists_spells_of_mem {bounded : Token → Bool} {s s' : List Char} {ts : List Token}
    (h : Scans bounded s ts s') : ∀ tok ∈ ts, ∃ w, tok.Spells w := by
  induction h with
  | done s => simp
  | blank _ _ ih => exact ih
  | token _ hw _ _ ih => exact List.forall_mem_cons.2 ⟨⟨_, hw⟩, ih⟩

/-- The leaves of a filter that tokens derive are among the tokens. -/
theorem Derives.legible {ℓ : Level} {ts : List Token} {f : Filter} (h : Derives ℓ ts f)
    (hts : ∀ tok ∈ ts, ∃ w, tok.Spells w) : f.Every Legible := by
  induction h with
  | one _ ih | positive _ ih | alone _ ih | grouped _ ih => exact ih hts
  | join _ _ ihl ihr | compare _ _ ihl ihr =>
    rw [List.forall_mem_append, List.forall_mem_cons] at hts
    exact every_binary.2 ⟨trivial, ihl hts.1, ihr hts.2.2⟩
  | not _ ih => exact every_not.2 ⟨trivial, ih (List.forall_mem_cons.1 hts).2⟩
  | null | string _ => exact (every_of_nodes_eq rfl).2 trivial
  | identifier path =>
    obtain ⟨w, rfl, hw⟩ := hts _ List.mem_cons_self
    exact (every_of_nodes_eq rfl).2 hw
  | integer digits =>
    obtain ⟨w, rfl, hw⟩ := hts _ List.mem_cons_self
    exact (every_of_nodes_eq rfl).2 hw
  | parens _ ih => exact ih fun tok htok => hts tok (by simp [htok])

theorem HasDerivation.legible {bounded : Token → Bool} {s : List Char} {f : Filter}
    (h : HasDerivation bounded s f) : f.Every Legible := by
  obtain ⟨ts, hts, hderives⟩ := h
  exact hderives.legible hts.exists_spells_of_mem

/-- Whether a token is a string. -/
def Token.isString : Token → Bool
  | .string _ => true
  | _ => false

/-- Whether a token is a comparator. -/
def Token.isComparator : Token → Bool
  | .keyword (.comparator _) => true
  | _ => false

/-- Not both of two tokens are strings. -/
def Token.StringsApart (a b : Token) : Prop :=
  a.isString = true → b.isString = false

/-- **What may stand side by side** in a derivation: not two strings, and not a
comparator before `not`. -/
structure Token.MayPrecede (a b : Token) : Prop where
  stringsApart : a.StringsApart b
  ne_not : a.isComparator = true → b ≠ .keyword .not

theorem isChain_append_cons {R : Token → Token → Prop} {ts us : List Token} {tok : Token}
    (hbefore : ∀ a, R a tok) :
    (ts ++ tok :: us).IsChain R
      ↔ ts.IsChain R ∧ (∀ b ∈ us.head?, R tok b) ∧ us.IsChain R := by
  rw [List.isChain_append, List.isChain_cons]
  simp [hbefore]

theorem Token.mayPrecede_of_ne_not (a : Token) {b : Token} (hb : b.isString = false)
    (hnot : b ≠ .keyword .not) : a.MayPrecede b :=
  ⟨fun _ => hb, fun _ => hnot⟩

theorem Token.mayPrecede_of_not_isComparator {a : Token} (ha : a.isString = false)
    (hcomparator : a.isComparator = false) (b : Token) : a.MayPrecede b :=
  ⟨by simp [Token.StringsApart, ha], by simp [hcomparator]⟩

theorem Derives.isChain {ℓ : Level} {ts : List Token} {f : Filter} (h : Derives ℓ ts f) :
    ts.IsChain Token.MayPrecede := by
  induction h with
  | one _ ih | positive _ ih | alone _ ih | grouped _ ih => exact ih
  | join _ _ ihl ihr =>
    refine (isChain_append_cons fun a => a.mayPrecede_of_ne_not rfl (by simp)).2 ⟨ihl, ?_, ihr⟩
    exact fun b _ => Token.mayPrecede_of_not_isComparator rfl rfl b
  | not _ ih =>
    exact List.isChain_cons.2 ⟨fun b _ => Token.mayPrecede_of_not_isComparator rfl rfl b, ih⟩
  | @compare c ts us l r hl hr ihl ihr =>
    refine (isChain_append_cons fun a => a.mayPrecede_of_ne_not rfl (by simp)).2 ⟨ihl, ?_, ihr⟩
    -- the right side starts as an operand does, hence not with a negation
    obtain ⟨tok, us, rfl, htok⟩ := hr.exists_head (by simp)
    rintro b ⟨⟩
    refine ⟨by simp [Token.StringsApart, Token.isString], ?_⟩
    rintro - rfl
    cases htok
  | null | identifier _ | integer _ | string _ => exact List.isChain_singleton _
  | parens _ ih =>
    refine List.isChain_cons.2 ⟨fun b _ => Token.mayPrecede_of_not_isComparator rfl rfl b, ?_⟩
    exact (isChain_append_cons fun a => a.mayPrecede_of_ne_not rfl (by simp)).2
      ⟨ih, by simp, by simp⟩

/-! ## A text has one sequence of tokens -/

/-- A token that is no word is determined by the text it stands in, a string
unless another one follows. -/
theorem Token.Spells.unique_of_not_isWord {tok tok' : Token} {w w' t t' : List Char}
    (hw : tok.Spells w) (hw' : tok'.Spells w') (htok : tok.isWord = false)
    (htok' : tok'.isWord = false) (ht : tok.isString = true → NoneAhead (· == '\'') t)
    (ht' : tok'.isString = true → NoneAhead (· == '\'') t') (h : w ++ t = w' ++ t') :
    tok = tok' ∧ t = t' := by
  match tok, tok', htok, htok' with
  | .string a, .string b, _, _ =>
    obtain rfl : w = _ := hw
    obtain rfl : w' = _ := hw'
    obtain ⟨hab, rfl⟩ := doubled_append_inj (ht rfl) (ht' rfl) (by simpa using h)
    exact ⟨congrArg _ (String.toList_injective hab), rfl⟩
  | .opening, .opening, _, _ | .closing, .closing, _, _ =>
    obtain rfl : w = _ := hw
    obtain rfl : w' = _ := hw'
    exact ⟨rfl, List.append_cancel_left h⟩
  | .string _, .opening, _, _ | .string _, .closing, _, _ | .opening, .string _, _, _
  | .opening, .closing, _, _ | .closing, .string _, _, _ | .closing, .opening, _, _ =>
    obtain rfl : w = _ := hw
    obtain rfl : w' = _ := hw'
    exact absurd (List.cons.inj h).1 (by decide)

theorem Scans.noneAhead_quote_of_stringsApart {bounded : Token → Bool} {t : List Char}
    {tok : Token} {ts : List Token} (h : Scans bounded t ts [])
    (hapart : ∀ b ∈ ts.head?, tok.StringsApart b) (htok : tok.isString = true) :
    NoneAhead (· == '\'') t := by
  refine h.noneAhead_quote fun s hs => ?_
  exact absurd (hapart _ hs htok) (by simp [Token.isString])

/-- The first token of a text is determined, and so is what follows it. -/
theorem Reads.first_unique {s : List Char} {tok tok' : Token} {ts us : List Token}
    (hs : NoneAhead Cursor.isBlank s) (h : Reads s (tok :: ts) []) (h' : Reads s (tok' :: us) [])
    (hapart : ∀ b ∈ ts.head?, tok.StringsApart b)
    (hapart' : ∀ b ∈ us.head?, tok'.StringsApart b) :
    tok = tok' ∧ ∃ t, Reads t ts [] ∧ Reads t us [] := by
  have hcases := h.wordAhead_cases hs
  have hcases' := h'.wordAhead_cases hs
  -- the word ahead is empty for both tokens or for none
  cases hword : tok.isWord <;> cases hword' : tok'.isWord <;>
    simp only [hword, hword', if_true, Bool.false_eq_true, if_false] at hcases hcases'
  · obtain ⟨w, t, rfl, hw, -, ht⟩ := h.exists_spells hs
    obtain ⟨w', t', heq, hw', -, ht'⟩ := h'.exists_spells hs
    obtain ⟨rfl, rfl⟩ := hw.unique_of_not_isWord hw' hword hword'
      (ht.noneAhead_quote_of_stringsApart hapart) (ht'.noneAhead_quote_of_stringsApart hapart') heq
    exact ⟨rfl, t, ht, ht'⟩
  · exact absurd hcases hcases'.1.ne_nil
  · exact absurd hcases' hcases.1.ne_nil
  · exact ⟨hcases.1.unique_of_isWord hcases'.1 hword hword', _, hcases.2, hcases'.2⟩

/-- **A text is one sequence of tokens** in which no two strings stand side by
side. -/
theorem Reads.unique {s : List Char} {ts us : List Token} (h : Reads s ts [])
    (h' : Reads s us []) (hts : ts.IsChain Token.StringsApart)
    (hus : us.IsChain Token.StringsApart) : ts = us := by
  induction ts generalizing s us with
  | nil =>
    have hnil := h.dropWhile_isBlank.eq_nil (noneAhead_dropWhile _ _)
    have hlength := h'.dropWhile_isBlank.length_add_length_le
    rw [hnil] at hlength
    exact (List.length_eq_zero_iff.1 (by simpa using hlength)).symm
  | cons tok ts ih =>
    match us with
    | [] =>
      have hnil := h'.dropWhile_isBlank.eq_nil (noneAhead_dropWhile _ _)
      have hlength := h.dropWhile_isBlank.length_add_length_le
      rw [hnil] at hlength
      simp at hlength
    | tok' :: us =>
      rw [List.isChain_cons] at hts hus
      obtain ⟨rfl, t, ht, ht'⟩ := Reads.first_unique (noneAhead_dropWhile _ _)
        h.dropWhile_isBlank h'.dropWhile_isBlank hts.1 hus.1
      rw [ih ht ht' hts.2 hus.2]

theorem isChain_encloseTokens {R : Token → Token → Prop} {f : Filter} {ts : List Token}
    (hopening : ∀ b, R .opening b) (hclosing : ∀ a, R a .closing) :
    (f.encloseTokens ts).IsChain R ↔ ts.IsChain R := by
  cases f with
  | binary op l r =>
    show (Token.opening :: (ts ++ [Token.closing])).IsChain R ↔ _
    rw [List.isChain_cons, isChain_append_cons hclosing]
    simp [hopening]
  | _ => exact Iff.rfl

/-- In the text form, there is always an operator between two strings. -/
theorem isChain_tokens (f : Filter) : f.tokens.IsChain Token.StringsApart := by
  have henclose : ∀ (f : Filter) {ts : List Token},
      (f.encloseTokens ts).IsChain Token.StringsApart ↔ ts.IsChain Token.StringsApart :=
    fun f => isChain_encloseTokens (fun _ => nofun) (fun _ _ => rfl)
  induction f with
  | binary op l r ihl ihr =>
    exact (isChain_append_cons fun _ _ => rfl).2
      ⟨(henclose l).2 ihl, fun _ _ => nofun, (henclose r).2 ihr⟩
  | not f ih => exact List.isChain_cons.2 ⟨fun _ _ => nofun, (henclose f).2 ih⟩
  | identifier _ | integer _ | string _ | null => exact List.isChain_singleton _

/-- **A negated right side shows in the tokens**, as a comparator before `not`. -/
theorem every_sides_of_isChain {f : Filter} (h : f.tokens.IsChain Token.MayPrecede) :
    f.Every (Sides fun _ r => r.isNot = false) := by
  have henclose : ∀ {f : Filter} {ts : List Token},
      (f.encloseTokens ts).IsChain Token.MayPrecede → ts.IsChain Token.MayPrecede :=
    (isChain_encloseTokens (fun b => Token.mayPrecede_of_not_isComparator rfl rfl b)
      (fun a => a.mayPrecede_of_ne_not rfl (by simp))).1
  induction f with
  | binary op l r ihl ihr =>
    have hop : Token.keyword (.ofOperator op) ≠ .keyword .not := by
      cases op <;> simp [Keyword.ofOperator]
    rw [tokens, isChain_append_cons fun a => a.mayPrecede_of_ne_not rfl hop] at h
    obtain ⟨hl, hhead, hr⟩ := h
    cases op with
    | logical k => exact every_binary.2 ⟨trivial, ihl (henclose hl), ihr (henclose hr)⟩
    | comparison c =>
      refine every_binary.2 ⟨?_, ihl (henclose hl), ihr (henclose hr)⟩
      cases r with
      | not r => exact absurd rfl ((hhead _ rfl).ne_not rfl)
      | _ => rfl
  | not f ih => exact every_not.2 ⟨trivial, ih (henclose (List.isChain_cons.1 h).2)⟩
  | identifier _ | integer _ | string _ | null => exact (every_of_nodes_eq rfl).2 trivial

/-! ## What the tokens derive -/

/-- What is read of the text form of a filter at a place where `k` is then made
of what is not negated: each `not` ahead is kept outside. -/
def rereadIn (k : Filter → Filter) : Filter → Filter
  | binary (.logical j) l r => k (binary (.logical j) (rereadIn id l) (rereadIn id r))
  | binary (.comparison c) l r =>
    k (rereadIn (fun l => binary (.comparison c) l (rereadIn id r)) l)
  | not f => not (rereadIn k f)
  | identifier path => k (identifier path)
  | integer digits => k (integer digits)
  | string s => k (string s)
  | null => k null

/-- **The filter that the text form of a filter is read as**, if it is read: the
negation of the left side of a comparison becomes one of the comparison. -/
def reread (f : Filter) : Filter :=
  rereadIn id f

theorem rereadIn_of_isNot_eq_false {f : Filter} (h : f.isNot = false) (k : Filter → Filter) :
    rereadIn k f = k f.reread := by
  match f with
  | binary (.logical _) _ _ | binary (.comparison _) _ _ | identifier _ | integer _ | string _
  | null => rfl

/-- **A filter is read as itself if and only if no left side of a comparison in
it is negated.** -/
theorem reread_eq_self_iff {f : Filter} :
    f.reread = f ↔ f.Every (Sides fun l _ => l.isNot = false) := by
  induction f with
  | binary op l r ihl ihr =>
    cases op with
    | logical k =>
      rw [every_binary, ← ihl, ← ihr]
      show binary (.logical k) l.reread r.reread = _ ↔ True ∧ _
      simp
    | comparison c =>
      rw [every_binary, ← ihl, ← ihr]
      show rereadIn (fun l => binary (.comparison c) l r.reread) l = _ ↔ l.isNot = false ∧ _
      cases hl : l.isNot with
      | false =>
        rw [rereadIn_of_isNot_eq_false hl]
        simp
      | true =>
        obtain ⟨l, rfl⟩ : ∃ l', l = .not l' := by
          cases l with
          | not l => exact ⟨l, rfl⟩
          | _ => cases hl
        simp [rereadIn]
  | not f ih =>
    rw [every_not, ← ih]
    show not f.reread = _ ↔ True ∧ _
    simp
  | identifier _ | integer _ | string _ | null =>
    exact iff_of_true rfl ((every_of_nodes_eq rfl).2 trivial)

/-- An operand alone is a filter. -/
theorem Derives.filter {ts : List Token} {f : Filter} (h : Derives .operand ts f) :
    Derives (.chain .or) ts f :=
  .one (.one (.positive (.alone h)))

/-- **What is derived by the tokens of the text form**, at each level where they
may stand. -/
structure Rereads (f : Filter) : Prop where
  filter : Derives (.chain .or) f.tokens f.reread
  operand : f.isNot = false → Derives .operand (f.encloseTokens f.tokens) f.reread
  negation : Derives .negation (f.encloseTokens f.tokens) f.reread
  compare : ∀ (c : Comparator) {us : List Token} {g : Filter}, Derives .operand us g →
    Derives .negation (f.encloseTokens f.tokens ++ .keyword (.comparator c) :: us)
      (rereadIn (fun l => binary (.comparison c) l g) f)

theorem Rereads.of_operand {f : Filter} (hnot : f.isNot = false)
    (hfilter : Derives (.chain .or) f.tokens f.reread)
    (hoperand : Derives .operand (f.encloseTokens f.tokens) f.reread) : f.Rereads where
  filter := hfilter
  operand _ := hoperand
  negation := .positive (.alone hoperand)
  compare c us g hg := by
    rw [rereadIn_of_isNot_eq_false hnot]
    exact .positive (.compare hoperand hg)

theorem Rereads.of_binary {op : Operator} {l r : Filter}
    (h : Derives (.chain .or) (binary op l r).tokens (binary op l r).reread) :
    (binary op l r).Rereads :=
  .of_operand rfl h (.grouped (.parens h))

theorem Rereads.of_leaf {f : Filter} (hnot : f.isNot = false)
    (hbare : f.encloseTokens f.tokens = f.tokens) (h : Derives .operand f.tokens f.reread) :
    f.Rereads :=
  .of_operand hnot h.filter (hbare.symm ▸ h)

/-- **If no right side of a comparison is negated, then the tokens of the text
form derive a filter.** -/
theorem rereads {f : Filter} (h : f.Every (Sides fun _ r => r.isNot = false)) : f.Rereads := by
  induction f with
  | binary op l r ihl ihr =>
    cases op with
    | logical k =>
      obtain ⟨-, hl, hr⟩ := every_binary.1 h
      refine .of_binary ?_
      have hl := (ihl hl).negation
      have hr := (ihr hr).negation
      cases k with
      | and => exact .one (.join (k := .and) (.one hl) hr)
      | or => exact .join (k := .or) (.one (.one hl)) (.one hr)
    | comparison c =>
      obtain ⟨hnot, hl, hr⟩ := every_binary.1 h
      exact .of_binary (.one (.one ((ihl hl).compare c ((ihr hr).operand hnot))))
  | not f ih =>
    have hf := ih (every_not.1 h).2
    exact {
      filter := .one (.one (.not hf.negation))
      operand := nofun
      negation := .not hf.negation
      compare := fun c us g hg => .not (hf.compare c hg) }
  | identifier path => exact .of_leaf rfl rfl (.identifier path)
  | integer digits => exact .of_leaf rfl rfl (.integer digits)
  | string s => exact .of_leaf rfl rfl (.string s)
  | null => exact .of_leaf rfl rfl .null

/-! ## The round trip -/

theorem hasDerivation_text {f g : Filter} (hf : f.Every Legible)
    (h : Derives (.chain .or) f.tokens g) : HasDerivation Token.isWord f.text.toList g := by
  have hreads := reads_text hf (noneAhead_nil isIdentChar)
  rw [List.append_nil] at hreads
  exact ⟨f.tokens, hreads, h⟩

/-- The text form of a filter has no other derivation than from its tokens. -/
theorem derives_tokens_of_hasDerivation {f g : Filter} (hf : f.Every Legible)
    (h : HasDerivation Token.isWord f.text.toList g) : Derives (.chain .or) f.tokens g := by
  obtain ⟨ts, hts, hderives⟩ := h
  have hreads := reads_text hf (noneAhead_nil isIdentChar)
  rw [List.append_nil] at hreads
  have hapart := hderives.isChain.imp fun _ _ => Token.MayPrecede.stringsApart
  obtain rfl := Reads.unique hts hreads hapart (isChain_tokens f)
  exact hderives

/-- **The text form carries exactly the legible filters whose comparisons have
no negated side.** A filter is read back from its text form if and only if every
path in it is an identifier, every integer has digits only, and neither side of
a comparison in it is a negation. So what the parser has read is not always read
back: not if it is, or has in it, a comparison with a negated group. -/
theorem parse_text_iff (f : Filter) :
    (parse f.text = .ok (some f)
        ↔ f.Every Legible ∧ f.Every (Sides fun l r => l.isNot = false ∧ r.isNot = false))
      ∧ ∀ (s : String) (c : Comparator) (l r : Filter), parse s = .ok (some f) →
        binary (.comparison c) l r ∈ f.nodes → (l.isNot = true ∨ r.isNot = true) →
        parse f.text ≠ .ok (some f) := by
  have hiff : parse f.text = .ok (some f)
      ↔ f.Every Legible ∧ f.Every (Sides fun l r => l.isNot = false ∧ r.isNot = false) := by
    rw [parse, parseChars_eq_some_iff, every_sides_and, ← reread_eq_self_iff]
    constructor
    · intro h
      have hlegible : f.Every Legible := by
        obtain ⟨ts, hts, hderives⟩ := h
        exact hderives.legible hts.exists_spells_of_mem
      have hrights := every_sides_of_isChain (derives_tokens_of_hasDerivation hlegible h).isChain
      exact ⟨hlegible, (hasDerivation_text hlegible (rereads hrights).filter).unique h, hrights⟩
    · rintro ⟨hlegible, hself, hrights⟩
      have hfilter := (rereads hrights).filter
      rw [hself] at hfilter
      exact hasDerivation_text hlegible hfilter
  refine ⟨hiff, fun s c l r _ hmem hnot hparse => ?_⟩
  obtain ⟨hl, hr⟩ : l.isNot = false ∧ r.isNot = false := (hiff.1 hparse).2 _ hmem
  simp [hl, hr] at hnot

/-- The filter of `(not a) eq b` has the text form `not a eq b`, which is the
negation of a comparison. -/
theorem parse_text_ne_of_negated_side :
    parse "(not a) eq b" = .ok (some (binary (.comparison .eq) (not (identifier "a")) (identifier "b")))
      ∧ parse (binary (.comparison .eq) (not (identifier "a")) (identifier "b")).text
        ≠ .ok (some (binary (.comparison .eq) (not (identifier "a")) (identifier "b"))) :=
  ⟨rfl, (parse_text_iff _).2 "(not a) eq b" .eq _ _ rfl List.mem_cons_self (.inl rfl)⟩

end FilterSql.Filter
