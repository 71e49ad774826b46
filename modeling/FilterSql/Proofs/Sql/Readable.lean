import FilterSql.Proofs.Compile
import FilterSql.Proofs.Sql.Template
import FilterSql.Sql.Engine
import Mathlib

/-!
# Expressions that can be read

The text of an expression with templates may be read otherwise than the
expression is built, since a template stands without parentheses in a junction.
But it can be read. What was read of a template with marks is read in the same
way with operands in their places (`Reads.filled`), and two predicates with a
connective between them are a predicate, whatever they are: with `OR` between
them their disjuncts form one row, and with `AND` between them the last disjunct
of the one is conjoined with the first of the other (`Chain.conjoin`).

The only thing to ask beside the templates is that an operand is one. A template
without arguments gets no parentheses where it stands as an operand, so it has to
be an operand by itself (`Expr.Seated`). Then every expression can be read, alone
and in every place (`Expr.stands`).
-/

namespace FilterSql

namespace Sql

/-! ## Rows of operands -/

theorem Dotted.frame {ts r : List Token} {parts : List String} (h : Dotted ts parts r)
    (s : List Token) : Dotted (ts ++ s) parts (r ++ s) := by
  induction h with
  | last => exact .last
  | more _ ih => exact .more ih

mutual

/-- **What is read does not depend on what is left.** -/
theorem Reads.frame {l : Level} {ts r : List Token} {c : Condition} (s : List Token) :
    Reads l ts c r → Reads l (ts ++ s) c (r ++ s)
  | .name h => .name (h.frame s)
  | .param => .param
  | .numeral => .numeral
  | .null => .null
  | .group h => .group (h.frame s)
  | .lone h => .lone (h.frame s)
  | .compare ha hb => .compare (ha.frame s) (hb.frame s)
  | .isNull h => .isNull (h.frame s)
  | .isNotNull h => .isNotNull (h.frame s)
  | .plain h => .plain (h.frame s)
  | .not h => .not (h.frame s)
  | .chain h => .chain (h.frame s)

theorem Chain.frame {k : Connective} {ts r : List Token} {cs : List Condition} (s : List Token) :
    Chain k ts cs r → Chain k (ts ++ s) cs (r ++ s)
  | .one h => .one (h.frame s)
  | .more h hs => .more (h.frame s) (hs.frame s)

end

theorem Chain.operands_ne_nil {k : Connective} {ts r : List Token} {cs : List Condition}
    (h : Chain k ts cs r) : cs ≠ [] := by
  cases h <;> exact List.cons_ne_nil _ _

/-- **Two rows of operands of one connective** are one row, with the word for it
between them. -/
theorem Chain.append {k : Connective} {us r : List Token} {ys : List Condition}
    (hys : Chain k us ys r) {ts : List Token} {xs : List Condition} (hxs : Chain k ts xs []) :
    Chain k (ts ++ .word (connectiveWord k) :: us) (xs ++ ys) r := by
  induction xs generalizing ts with
  | nil => cases hxs
  | cons x xs ih =>
    cases hxs with
    | one h => exact .more (h.frame _) hys
    | more h hs => exact .more (h.frame _) (ih hs)

/-- A row of operands is as true as the connective makes them. -/
theorem truth_eval_joined {α : Type} (E : Engine α) (row : List String → α) (k : Connective)
    {cs : List Condition} (hne : cs ≠ []) :
    E.truth (E.eval row (joined k cs)) = k.truths (cs.map fun c => E.truth (E.eval row c)) := by
  match cs with
  | [] => exact absurd rfl hne
  | [c] => simp [joined]
  | c :: d :: cs =>
    rw [← E.evalAll_eq_map]
    cases k <;> simp only [joined, join, Engine.eval, Connective.truths, E.truth_ofTruth]

/-- **A condition is the conjunction of two others**, in every database. -/
def Conjoins (c a b : Condition) : Prop :=
  ∀ (α : Type) (E : Engine α) (row : List String → α),
    E.truth (E.eval row c) = (E.truth (E.eval row a)).and (E.truth (E.eval row b))

theorem conjoins_joined {xs ys : List Condition} (hxs : xs ≠ []) (hys : ys ≠ []) :
    Conjoins (joined .and (xs ++ ys)) (joined .and xs) (joined .and ys) := by
  intro α E row
  rw [truth_eval_joined E row .and (by simp [hxs]), truth_eval_joined E row .and hxs,
    truth_eval_joined E row .and hys, List.map_append, Connective.truths_append]
  rfl

/-- **Two rows of disjuncts with `AND` between them**: the last of the one and the
first of the other are conjoined, and all others stay. -/
theorem Chain.conjoin {us : List Token} {b : Condition} {bs : List Condition}
    (hbs : Chain .or us (b :: bs) []) {ts : List Token} {as : List Condition} {a : Condition}
    (has : Chain .or ts (as ++ [a]) []) :
    ∃ c : Condition, Conjoins c a b
      ∧ Chain .or (ts ++ .word .and :: us) (as ++ c :: bs) [] := by
  induction as generalizing ts with
  | nil =>
    obtain ⟨xs, ha, rfl⟩ : ∃ xs, Chain .and ts xs [] ∧ a = joined .and xs := by
      cases has with
      | one h =>
        cases h with
        | chain h => exact ⟨_, h, rfl⟩
      | more _ hs => cases hs
    have hjoin : ∀ {r}, Reads (.chain .and) us b r → ∃ c : Condition,
        Conjoins c (joined .and xs) b ∧ Reads (.chain .and) (ts ++ .word .and :: us) c r := by
      intro r hb
      cases hb with
      | @chain _ _ _ ys hb =>
        exact ⟨joined .and (xs ++ ys), conjoins_joined ha.operands_ne_nil hb.operands_ne_nil,
          .chain (hb.append ha)⟩
    cases hbs with
    | one hb =>
      obtain ⟨c, hc, hread⟩ := hjoin hb
      exact ⟨c, hc, .one hread⟩
    | more hb hs =>
      obtain ⟨c, hc, hread⟩ := hjoin hb
      exact ⟨c, hc, .more hread hs⟩
  | cons x as ih =>
    generalize hrow : x :: as ++ [a] = row at has
    cases has with
    | one h => cases as <;> cases hrow
    | more h hs =>
      obtain ⟨rfl, rfl⟩ := List.cons.inj hrow
      obtain ⟨c, hc, hread⟩ := ih hs
      exact ⟨c, hc, .more (h.frame _) hread⟩

/-! ## Operands in the places of marks -/

/-- **Tokens are an operand.** -/
def IsOperand (ts : List Token) : Prop :=
  ∃ c, Reads .operand ts c []

theorem Dotted.filled {P : List Token → Prop} {ts us r : List Token} {parts : List String}
    (h : Dotted ts parts r) (hf : Fills P ts us) : ∃ s, Dotted us parts s ∧ Fills P r s := by
  induction h generalizing us with
  | last =>
    cases hf with
    | token hf => exact ⟨_, .last, hf⟩
  | more _ ih =>
    cases hf with
    | token hf =>
      cases hf with
      | token hf =>
        obtain ⟨s, hs, hf⟩ := ih hf
        exact ⟨s, .more hs, hf⟩

mutual

/-- **What is read with marks can be read with operands in their places.** -/
theorem Reads.filled {l : Level} {ts r us : List Token} {c : Condition} :
    Reads l ts c r → Fills IsOperand ts us → ∃ c' s, Reads l us c' s ∧ Fills IsOperand r s
  | .name h, hf => by
    obtain ⟨s, hs, hf⟩ := h.filled hf
    exact ⟨_, s, .name hs, hf⟩
  | .param, hf => by
    cases hf with
    | token hf => exact ⟨_, _, .param, hf⟩
    | @mark _ _ us _ hxs hf =>
      obtain ⟨c, hc⟩ := hxs
      exact ⟨c, us, hc.frame us, hf⟩
  | .numeral, hf => by
    cases hf with
    | token hf => exact ⟨_, _, .numeral, hf⟩
  | .null, hf => by
    cases hf with
    | token hf => exact ⟨_, _, .null, hf⟩
  | .group h, hf => by
    cases hf with
    | token hf =>
      obtain ⟨c', s, hread, hs⟩ := h.filled hf
      cases hs with
      | token hs => exact ⟨c', _, .group hread, hs⟩
  | .lone h, hf => by
    obtain ⟨c', s, hread, hs⟩ := h.filled hf
    exact ⟨c', s, .lone hread, hs⟩
  | .compare ha hb, hf => by
    obtain ⟨a', s, hreada, hs⟩ := ha.filled hf
    cases hs with
    | token hs =>
      obtain ⟨b', s, hreadb, hs⟩ := hb.filled hs
      exact ⟨_, s, .compare hreada hreadb, hs⟩
  | .isNull h, hf => by
    obtain ⟨c', s, hread, hs⟩ := h.filled hf
    cases hs with
    | token hs =>
      cases hs with
      | token hs => exact ⟨_, _, .isNull hread, hs⟩
  | .isNotNull h, hf => by
    obtain ⟨c', s, hread, hs⟩ := h.filled hf
    cases hs with
    | token hs =>
      cases hs with
      | token hs =>
        cases hs with
        | token hs => exact ⟨_, _, .isNotNull hread, hs⟩
  | .plain h, hf => by
    obtain ⟨c', s, hread, hs⟩ := h.filled hf
    exact ⟨c', s, .plain hread, hs⟩
  | .not h, hf => by
    cases hf with
    | token hf =>
      obtain ⟨c', s, hread, hs⟩ := h.filled hf
      exact ⟨_, s, .not hread, hs⟩
  | .chain h, hf => by
    obtain ⟨cs, s, hread, hs⟩ := h.filled hf
    exact ⟨_, s, .chain hread, hs⟩

theorem Chain.filled {k : Connective} {ts r us : List Token} {cs : List Condition} :
    Chain k ts cs r → Fills IsOperand ts us → ∃ cs' s, Chain k us cs' s ∧ Fills IsOperand r s
  | .one h, hf => by
    obtain ⟨c', s, hread, hs⟩ := h.filled hf
    exact ⟨_, s, .one hread, hs⟩
  | .more h hrow, hf => by
    obtain ⟨c', s, hread, hs⟩ := h.filled hf
    cases hs with
    | token hs =>
      obtain ⟨cs', s, hreads, hs⟩ := hrow.filled hs
      exact ⟨_, s, .more hread hreads, hs⟩

end

/-! ## Predicates -/

variable {d : Dialect}

theorem Spells.writes {ps : List Piece} {ts : List Token} {l : Level} {c : Condition}
    (hts : Spells d ps ts) (h : Reads l ts c []) : Writes d ps l c :=
  ⟨ts, hts, fun r => h.frame r⟩

/-- **Pieces can be read as a predicate.** -/
def Readable (d : Dialect) (ps : List Piece) : Prop :=
  ∃ c, Writes d ps (.chain .or) c

theorem Writes.readable {ps : List Piece} {c : Condition} (h : Writes d ps .negation c) :
    Readable d ps :=
  ⟨c, h.chain.chain⟩

/-- Rows of disjuncts with the word for a connective between them are a row of
disjuncts. -/
theorem Chain.exists_join (k : Connective) {ts us : List Token} {xs ys : List Condition}
    (hxs : Chain .or ts xs []) (hys : Chain .or us ys []) :
    ∃ zs, Chain .or (ts ++ .word (connectiveWord k) :: us) zs [] := by
  cases k with
  | or => exact ⟨xs ++ ys, hys.append hxs⟩
  | and =>
    obtain ⟨as, a, rfl⟩ := (List.eq_nil_or_concat xs).resolve_left hxs.operands_ne_nil
    rw [List.concat_eq_append] at hxs
    obtain ⟨b, bs, rfl⟩ := List.exists_cons_of_ne_nil hys.operands_ne_nil
    obtain ⟨c, -, hread⟩ := hys.conjoin hxs
    exact ⟨_, hread⟩

/-- Predicates with the word for a connective between them can be read as one. -/
theorem readable_intercalate (k : Connective) {pss : List (List Piece)} (hne : pss ≠ [])
    (h : ∀ ps ∈ pss, Readable d ps) : Readable d ([Piece.text (separator k)].intercalate pss) := by
  have hrow : ∃ ts cs, Spells d ([Piece.text (separator k)].intercalate pss) ts
      ∧ Chain .or ts cs [] := by
    induction pss with
    | nil => exact absurd rfl hne
    | cons ps pss ih =>
      obtain ⟨⟨c, ts, hts, hread⟩, hpss⟩ := List.forall_mem_cons.1 h
      obtain ⟨xs, hxs⟩ : ∃ xs, Chain .or ts xs [] := by
        have hread := hread []
        rw [List.append_nil] at hread
        cases hread with
        | chain h => exact ⟨_, h⟩
      cases pss with
      | nil => exact ⟨ts, xs, by simpa using hts, hxs⟩
      | cons qs pss =>
        obtain ⟨us, ys, hus, hys⟩ := ih (List.cons_ne_nil _ _) hpss
        obtain ⟨cs, hcs⟩ := separator_toList k
        obtain ⟨zs, hzs⟩ := hxs.exists_join k hys
        exact ⟨_, zs, hts.separated (separates_separator k) hcs (runsOn_blank d) hus, hzs⟩
  obtain ⟨ts, cs, hts, hcs⟩ := hrow
  exact ⟨_, hts.writes (.chain hcs)⟩

theorem Readable.parens {ps : List Piece} (h : Readable d ps) :
    ∃ c, Writes d (Piece.parens ps) .operand c := by
  obtain ⟨c, hc⟩ := h
  exact ⟨c, hc.parens⟩

end Sql

/-! ## Where an expression can stand -/

namespace Expr

open Sql

/-- The template of an expression that is written as a template without arguments,
alone or as the only member of conjunctions. -/
def bareWord? : Expr → Option String
  | raw template [] => some template
  | and [e] => e.bareWord?
  | _ => none

/-- The operands of an expression: the sides of a comparison, and the arguments of
a template. -/
def operands : Expr → List Expr
  | compare l _ r => [l, r]
  | raw _ args => args
  | _ => []

/-- A template without arguments that the expression is written as is an operand. -/
def Worded (d : Dialect) (e : Expr) : Prop :=
  ∀ t ∈ e.bareWord?, ∃ ts, Template d t.toList ts ∧ IsOperand ts

/-- **Every operand is one by its text**: a template without arguments, which gets
no parentheses, has to be an operand of its own. -/
def Seated (d : Dialect) (e : Expr) : Prop :=
  ∀ x ∈ e.operands, x.Worded d

/-- **An expression can be read**, alone and as an operand. -/
structure Stands (d : Dialect) (e : Expr) : Prop where
  alone : Readable d e.pieces
  operand (h : e.Worded d) : ∃ c, Writes d (Piece.parensIf e.needsParens e.pieces) .operand c

variable {d : Dialect} {e : Expr}

theorem Stands.ofOperand {c : Condition} (hn : e.needsParens = false)
    (h : Writes d e.pieces .operand c) : e.Stands d where
  alone := h.comparison.negation.readable
  operand _ := by
    rw [hn]
    exact ⟨c, h⟩

theorem Stands.ofReadable (hn : e.needsParens = true) (h : Readable d e.pieces) : e.Stands d where
  alone := h
  operand _ := by
    rw [hn]
    exact h.parens

/-- A member of a junction can be read, in parentheses or without. -/
theorem Stands.member (h : e.Stands d) : Readable d (Piece.parensIf e.isWideAnd e.pieces) := by
  cases e.isWideAnd with
  | true =>
    obtain ⟨c, hc⟩ := h.alone.parens
    exact hc.comparison.negation.readable
  | false => exact h.alone

theorem readable_junctionPieces (k : Connective) {empty : String} {c : Condition} {es : List Expr}
    (hempty : Writes d [.text empty] .comparison c) (h : ∀ e ∈ es, e.Stands d) :
    Readable d (junctionPieces (separator k) empty
      (es.map fun e => Piece.parensIf e.isWideAnd e.pieces)) := by
  cases es with
  | nil => exact hempty.negation.readable
  | cons e es =>
    exact readable_intercalate k (List.cons_ne_nil _ _)
      (List.forall_mem_map.2 fun e he => (h e he).member)

theorem Stands.and_singleton (h : e.Stands d) : (Expr.and [e]).Stands d where
  alone := by
    rw [pieces_and]
    exact readable_junctionPieces .and writes_one_eq_one (by simpa using h)
  operand hw := by
    have hpieces : (Expr.and [e]).pieces = Piece.parensIf e.isWideAnd e.pieces := by
      rw [pieces_and]
      simp [junctionPieces]
    have hparens : (Expr.and [e]).needsParens = e.needsParens := by rw [needsParens]
    rw [hpieces, hparens]
    cases hn : e.needsParens with
    | true => exact h.member.parens
    | false =>
      have hoperand := h.operand (by rwa [Worded, bareWord?] at hw)
      rw [hn] at hoperand
      rwa [isWideAnd_eq_false_of_needsParens hn]

theorem Stands.and {es : List Expr} (h : ∀ e ∈ es, e.Stands d) : (Expr.and es).Stands d := by
  have hreadable : Readable d (Expr.and es).pieces := by
    rw [pieces_and]
    exact readable_junctionPieces .and writes_one_eq_one h
  match es with
  | [] | _ :: _ :: _ => exact .ofReadable (by simp [needsParens]) hreadable
  | [e] => exact (h e List.mem_cons_self).and_singleton

theorem Stands.or {es : List Expr} (h : ∀ e ∈ es, e.Stands d) : (Expr.or es).Stands d := by
  obtain ⟨c, hc⟩ := (readable_junctionPieces .or writes_one_eq_zero h).parens
  exact .ofOperand rfl (by rwa [pieces_or])

theorem Stands.not (he : ∀ l o r, e ≠ .compare l o r) (h : e.Stands d) :
    (Expr.not e).Stands d := by
  have hnot : ∀ {ps}, (∃ c, Writes d ps .operand c) → Readable d (.text "NOT " :: ps) := by
    rintro ps ⟨c, hc⟩
    exact hc.not.readable
  refine .ofReadable rfl ?_
  cases e with
  | compare l o r => exact absurd rfl (he l o r)
  | or es => exact hnot (h.operand (by simp [Worded, bareWord?]))
  | name n | value v | and es | not e | raw t args => exact hnot h.alone.parens

/-- A template with operands for its marks can be read at the level at which the
template can. -/
theorem exists_writes_fill {s : List Char} {ts : List Token} {l : Sql.Level} {c : Condition}
    {pss : List (List Piece)} (htemplate : Template d s ts) (hread : Reads l ts c [])
    (hcount : s.count '?' = pss.length)
    (hpss : ∀ ps ∈ pss, ∃ c, Writes d ps .operand c) : ∃ c, Writes d (fill s pss) l c := by
  have hsealed : ∀ xs, IsOperand xs → Sealed xs := fun xs ⟨_, hxs⟩ => hxs.sealed
  obtain ⟨us, hfills, hus⟩ := htemplate.exists_spells_fill hsealed hcount fun ps hmem => by
    obtain ⟨c, xs, hxs, hreads⟩ := hpss ps hmem
    exact ⟨xs, ⟨c, by simpa using hreads []⟩, hxs⟩
  obtain ⟨c', s, hread', hrest⟩ := hread.filled hfills
  cases hrest
  exact ⟨c', hus.writes hread'⟩

theorem Stands.raw {template : String} {args : List Expr}
    (ht : (Expr.raw template args).Templated d) (hs : (Expr.raw template args).Seated d)
    (h : ∀ e ∈ args, e.Stands d) : (Expr.raw template args).Stands d := by
  obtain ⟨hcount, ts, c, htemplate, hread⟩ := ht
  have hargs : ∀ ps ∈ args.map fun e => Piece.parensIf e.needsParens e.pieces,
      ∃ c, Writes d ps .operand c :=
    List.forall_mem_map.2 fun e he => (h e he).operand (hs e he)
  have hreadable : Readable d (Expr.raw template args).pieces := by
    rw [pieces_raw]
    exact exists_writes_fill htemplate hread (hcount.trans (List.length_map _).symm) hargs
  cases args with
  | cons e es => exact .ofReadable rfl hreadable
  | nil =>
    refine ⟨hreadable, fun hw => ?_⟩
    obtain ⟨us, htemplate, c, hread⟩ := hw template rfl
    show ∃ c, Writes d (Expr.raw template []).pieces .operand c
    rw [pieces_raw]
    exact exists_writes_fill htemplate hread hcount hargs

/-- **An expression can be read** if its templates are predicates and its bare words
operands. -/
theorem stands (ht : e.Every (Templated d)) (hs : e.Every (Seated d)) : e.Stands d := by
  induction e using writtenInduction with
  | name n => exact .ofOperand rfl (writes_name n)
  | value v => exact .ofOperand rfl (writes_param v)
  | compare l o r ihl ihr =>
    obtain ⟨-, htl, htr⟩ := every_compare.1 ht
    obtain ⟨hnode, hsl, hsr⟩ := every_compare.1 hs
    obtain ⟨a, ha⟩ := (ihl htl hsl).operand (hnode l (by simp [operands]))
    obtain ⟨b, hb⟩ := (ihr htr hsr).operand (hnode r (by simp [operands]))
    exact .ofReadable rfl (writes_comparisonPieces ha o hb).negation.readable
  | and es ih =>
    exact .and fun e he => ih e he ((every_and.1 ht).2 e he) ((every_and.1 hs).2 e he)
  | or es ih =>
    exact .or fun e he => ih e he ((every_or.1 ht).2 e he) ((every_or.1 hs).2 e he)
  | not_compare l o r ihl ihr =>
    obtain ⟨-, htl, htr⟩ := every_compare.1 (every_not.1 ht).2
    obtain ⟨hnode, hsl, hsr⟩ := every_compare.1 (every_not.1 hs).2
    obtain ⟨a, ha⟩ := (ihl htl hsl).operand (hnode l (by simp [operands]))
    obtain ⟨b, hb⟩ := (ihr htr hsr).operand (hnode r (by simp [operands]))
    exact .ofReadable rfl (writes_comparisonPieces ha o.negate hb).negation.readable
  | not e hne ih => exact (ih (every_not.1 ht).2 (every_not.1 hs).2).not hne
  | raw template args ih =>
    obtain ⟨htnode, htargs⟩ := every_raw.1 ht
    obtain ⟨hsnode, hsargs⟩ := every_raw.1 hs
    exact .raw htnode hsnode fun e he => ih e he (htargs e he) (hsargs e he)

end Expr

end FilterSql
