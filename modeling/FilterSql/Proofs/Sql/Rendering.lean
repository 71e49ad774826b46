import FilterSql.Proofs.Sql.Names
import FilterSql.Proofs.Sql.Pieces
import Mathlib

/-!
# The text of an expression has one reading

Parentheses are decided in four places: a disjunction always brings its own, a
conjunction gets them as a member of a junction if it has more than one member,
an operand of a comparison gets them by `Expr.needsParens`, which looks through
conjunctions of one member, and a negation puts them around what it negates
unless that is a comparison or a disjunction. That these decisions fit together
in every nesting is what `Expr.Written` says of an expression. It has one field
for each place in which an expression can stand: alone, as a member of a
junction, and as an operand.

The main statement is `reads_render_iff`: what is rendered for an expression
can be read as a predicate in exactly one way, in every dialect, and that
reading is the condition of the expression. No name can disturb it, whatever
characters it is made of.
-/

namespace FilterSql

open Sql Condition

/-! ## What the text of an expression states -/

namespace Condition

/-- A comparison, which is a test for `NULL` if its right side is that value. -/
def comparison (left : Condition) (c : Comparator) (r : Expr) (right : Condition) : Condition :=
  match r.isNullValue, c with
  | true, .eq => isNull left
  | true, .ne => isNotNull left
  | _, _ => compare left c right

/-- A junction: none of its members is a comparison of numerals, and a single
one stands for itself. -/
def junction (join : List Condition → Condition) (empty : Condition) :
    List Condition → Condition
  | [] => empty
  | [e] => e
  | es => join es

/-- What a template states of its arguments. -/
def ofTemplate? (template : String) : List Condition → Option Condition
  | [] => if template = "NULL" then some null else none
  | [l, r] =>
    (Comparator.all.find? (Expr.comparisonTemplate · = template)).map (compare l · r)
  | _ => none

end Condition

namespace Expr

mutual

/-- **The condition that the text of an expression states**, if it is one. -/
def condition? : Expr → Option Condition
  | name n => some (.name n.parts)
  | value v => some (.param v)
  | compare l c r => do return comparison (← l.condition?) c r (← r.condition?)
  | and es =>
    (conditions? es).map (junction .and (.compare (.numeral 1) .eq (.numeral 1)))
  | or es =>
    (conditions? es).map (junction .or (.compare (.numeral 1) .eq (.numeral 0)))
  | not (compare l c r) => do return comparison (← l.condition?) c.negate r (← r.condition?)
  | not e => e.condition?.map .not
  | raw template args => (conditions? args).bind (ofTemplate? template)

/-- The conditions of some expressions, if all of them state one. -/
def conditions? : List Expr → Option (List Condition)
  | [] => some []
  | e :: es => do return (← e.condition?) :: (← conditions? es)

end

/-! ## Plain expressions -/

/-- **The expressions whose text is a predicate**: those made of names, values,
comparisons, junctions and negations, with raw comparisons and the word `NULL`
as the only raw expressions. -/
inductive Plain : Expr → Prop
  | name (n : QualifiedName) : Plain (.name n)
  | value (v : Value) : Plain (.value v)
  | compare {l r : Expr} (o : Comparator) (hl : Plain l) (hr : Plain r) : Plain (.compare l o r)
  | and {es : List Expr} (hs : ∀ e ∈ es, Plain e) : Plain (.and es)
  | or {es : List Expr} (hs : ∀ e ∈ es, Plain e) : Plain (.or es)
  | not {e : Expr} (h : Plain e) : Plain (.not e)
  | rawComparison {l r e : Expr} {o : Comparator} (hl : Plain l) (hr : Plain r)
      (h : rawComparison? l o r = .ok e) : Plain e
  | null {e : Expr} (h : keyword? "NULL" = .ok e) : Plain e

/-- A raw comparison passes the check of its template. -/
theorem rawComparison?_eq (l : Expr) (o : Comparator) (r : Expr) :
    rawComparison? l o r = .ok (.raw (comparisonTemplate o) [l, r]) := by
  cases o <;> rfl

/-- So does the word `NULL`. -/
theorem keyword?_null : keyword? "NULL" = .ok (.raw "NULL" []) := rfl

theorem condition?_not {e : Expr} (he : ∀ l o r, e ≠ .compare l o r) :
    condition? (.not e) = e.condition?.map .not := by
  cases e with
  | compare l o r => exact absurd rfl (he l o r)
  | _ => simp only [condition?]

/-- A negated comparison states what the complementary one does. -/
theorem condition?_not_compare (l : Expr) (o : Comparator) (r : Expr) :
    condition? (.not (.compare l o r)) = condition? (.compare l o.negate r) := by
  simp only [condition?]

theorem exists_of_condition?_compare {l r : Expr} {o : Comparator} {c : Condition}
    (h : condition? (.compare l o r) = some c) :
    ∃ a b, l.condition? = some a ∧ r.condition? = some b ∧ comparison a o r b = c := by
  simp only [condition?, Option.pure_def, Option.bind_eq_bind, Option.bind_eq_some_iff,
    Option.some.injEq] at h
  obtain ⟨a, ha, b, hb, hc⟩ := h
  exact ⟨a, b, ha, hb, hc⟩

theorem exists_of_conditions?_cons {e : Expr} {es : List Expr} {cs : List Condition}
    (h : conditions? (e :: es) = some cs) :
    ∃ d ds, e.condition? = some d ∧ conditions? es = some ds ∧ d :: ds = cs := by
  simp only [conditions?, Option.pure_def, Option.bind_eq_bind, Option.bind_eq_some_iff,
    Option.some.injEq] at h
  obtain ⟨d, hd, ds, hds, hcs⟩ := h
  exact ⟨d, ds, hd, hds, hcs⟩

theorem conditions?_eq_some {es : List Expr} {cs : List Condition}
    (h : List.Forall₂ (fun e c => e.condition? = some c) es cs) : conditions? es = some cs := by
  induction h with
  | nil => rfl
  | cons he _ ih => simp [conditions?, he, ih]

theorem ofTemplate?_comparison (o : Comparator) (a b : Condition) :
    ofTemplate? (comparisonTemplate o) [a, b] = some (.compare a o b) := by
  cases o <;> rfl

/-- A junction of some members is the row of their conditions. -/
theorem junction_eq_joined (k : Connective) (empty : Condition) {cs : List Condition}
    (hne : cs ≠ []) : junction (join k) empty cs = joined k cs := by
  match cs with
  | [] => exact absurd rfl hne
  | [_] => rfl
  | _ :: _ :: _ => rfl

/-! ## Where an expression can stand -/

/-- **An expression is written as its condition**, wherever it stands. -/
structure Written (d : Dialect) (e : Expr) (c : Condition) : Prop where
  condition : e.condition? = some c
  alone : Writes d e.pieces (.chain .and) c
  member : Writes d (Piece.parensIf e.isWideAnd e.pieces) .negation c
  operand : Writes d (Piece.parensIf e.needsParens e.pieces) .operand c

variable {d : Dialect} {e l r : Expr} {es : List Expr} {a b c : Condition}

/-- What stands bare as an operand stands bare everywhere. -/
theorem Written.ofOperand (hc : e.condition? = some c) (hn : e.needsParens = false)
    (hw : e.isWideAnd = false) (h : Writes d e.pieces .operand c) : e.Written d c where
  condition := hc
  alone := h.comparison.negation.chain
  member := by
    rw [hw]
    exact h.comparison.negation
  operand := by
    rw [hn]
    exact h

/-- What is no operand of its own gets parentheses where it is one. -/
theorem Written.ofNegation (hc : e.condition? = some c) (hn : e.needsParens = true)
    (hw : e.isWideAnd = false) (h : Writes d e.pieces .negation c) : e.Written d c where
  condition := hc
  alone := h.chain
  member := by
    rw [hw]
    exact h
  operand := by
    rw [hn]
    exact h.chain.chain.parens

theorem writes_comparisonPieces {ps qs : List Piece} (ha : Writes d ps .operand a)
    (o : Comparator) (hb : Writes d qs .operand b) :
    Writes d (comparisonPieces ps o r qs) .comparison (comparison a o r b) := by
  unfold comparisonPieces comparison
  cases hnull : r.isNullValue with
  | false => cases o <;> exact ha.compare _ hb
  | true =>
    cases o with
    | eq => exact ha.isNull
    | ne => exact ha.isNotNull
    | _ => exact ha.compare _ hb

theorem Written.compare (hl : l.Written d a) (o : Comparator) (hr : r.Written d b) :
    (Expr.compare l o r).Written d (comparison a o r b) := by
  refine .ofNegation ?_ rfl rfl ?_
  · simp [condition?, hl.condition, hr.condition]
  · exact (writes_comparisonPieces hl.operand o hr.operand).negation

/-- **A negated comparison is written as the complementary one.** -/
theorem Written.not_compare (hl : l.Written d a) (o : Comparator) (hr : r.Written d b) :
    (Expr.not (.compare l o r)).Written d (comparison a o.negate r b) := by
  refine .ofNegation ?_ rfl rfl ?_
  · simp [condition?, hl.condition, hr.condition]
  · exact (writes_comparisonPieces hl.operand o.negate hr.operand).negation

/-- Any other negation is the word and what is negated in parentheses. -/
theorem Written.not (he : ∀ l o r, e ≠ .compare l o r) (h : e.Written d c) :
    (Expr.not e).Written d (.not c) := by
  refine .ofNegation ?_ rfl rfl ?_
  · rw [condition?_not he, h.condition]
    rfl
  · cases e with
    | compare l o r => exact absurd rfl (he l o r)
    | or es =>
      -- a disjunction brings its own parentheses
      show Writes d (.text "NOT " :: (Expr.or es).pieces) .negation c.not
      exact h.operand.not
    | name n | value v | and es | not e | raw t args => exact h.alone.chain.parens.not

theorem pieces_and (es : List Expr) :
    (Expr.and es).pieces
      = junctionPieces " AND " "1 = 1" (es.map fun e => Piece.parensIf e.isWideAnd e.pieces) := by
  rw [← wrapped_piecesAll]
  rfl

theorem pieces_or (es : List Expr) :
    (Expr.or es).pieces = Piece.parens
      (junctionPieces " OR " "1 = 0" (es.map fun e => Piece.parensIf e.isWideAnd e.pieces)) := by
  rw [← wrapped_piecesAll]
  rfl

theorem pieces_raw (template : String) (args : List Expr) :
    (Expr.raw template args).pieces
      = fill template.toList (args.map fun e => Piece.parensIf e.needsParens e.pieces) := by
  rw [← wrapped_piecesAll]
  rfl

/-- The pieces of members, at the level of the members of a connective. -/
theorem forall₂_member (k : Connective) {cs : List Condition}
    (h : List.Forall₂ (Written d) es cs) :
    List.Forall₂ (fun ps c => Writes d ps (operandLevel k) c)
      (es.map fun e => Piece.parensIf e.isWideAnd e.pieces) cs := by
  rw [List.forall₂_map_left_iff]
  refine h.imp (fun e c he => ?_)
  cases k with
  | and => exact he.member
  | or => exact he.member.chain

theorem isWideAnd_eq_false_of_needsParens (h : e.needsParens = false) : e.isWideAnd = false := by
  cases e with
  | and es =>
    match es with
    | [] | [_] => rfl
    | _ :: _ :: _ => simp [needsParens] at h
  | _ => rfl

/-- **A conjunction of one member stands wherever the member does.** -/
theorem Written.and_singleton (h : e.Written d c) : (Expr.and [e]).Written d c := by
  have hpieces : (Expr.and [e]).pieces = Piece.parensIf e.isWideAnd e.pieces := by
    rw [pieces_and]
    simp [junctionPieces]
  have hparens : (Expr.and [e]).needsParens = e.needsParens := by rw [needsParens]
  refine ⟨?_, ?_, ?_, ?_⟩
  · simp [condition?, conditions?, h.condition, junction]
  · rw [hpieces]
    exact h.member.chain
  · rw [hpieces]
    exact h.member
  · rw [hparens, hpieces]
    cases hn : e.needsParens with
    | true => exact h.member.chain.chain.parens
    | false =>
      -- the member is not parenthesised twice, nor is it parenthesised at all
      have hoperand := h.operand
      rw [hn] at hoperand
      rw [isWideAnd_eq_false_of_needsParens hn]
      exact hoperand

theorem Written.and {cs : List Condition} (h : List.Forall₂ (Written d) es cs) :
    (Expr.and es).Written d (junction .and (.compare (.numeral 1) .eq (.numeral 1)) cs) := by
  have hcs : conditions? es = some cs := conditions?_eq_some (h.imp fun _ _ he => he.condition)
  have hcondition : (Expr.and es).condition?
      = some (junction .and (.compare (.numeral 1) .eq (.numeral 1)) cs) := by
    simp [condition?, hcs]
  match es, cs, h with
  | _, _, .nil =>
    refine .ofNegation hcondition rfl rfl ?_
    rw [pieces_and]
    exact writes_one_eq_one.negation
  | _, _, .cons he .nil => exact he.and_singleton
  | e :: e' :: es, c :: c' :: cs, .cons he (.cons he' hes) =>
    have hwrites : Writes d (Expr.and (e :: e' :: es)).pieces (.chain .and)
        (joined .and (c :: c' :: cs)) := by
      rw [pieces_and]
      exact writes_chain .and (forall₂_member .and (.cons he (.cons he' hes)))
        (List.cons_ne_nil _ _)
    exact ⟨hcondition, hwrites, hwrites.chain.parens.comparison.negation, hwrites.chain.parens⟩

theorem Written.or {cs : List Condition} (h : List.Forall₂ (Written d) es cs) :
    (Expr.or es).Written d (junction .or (.compare (.numeral 1) .eq (.numeral 0)) cs) := by
  have hcs : conditions? es = some cs := conditions?_eq_some (h.imp fun _ _ he => he.condition)
  refine .ofOperand ?_ rfl rfl ?_
  · simp [condition?, hcs]
  · rw [pieces_or]
    refine Writes.parens ?_
    cases h with
    | nil => exact writes_one_eq_zero.negation.chain.chain
    | cons he hes =>
      rw [show Condition.or = join .or from rfl, junction_eq_joined .or _ (List.cons_ne_nil _ _)]
      exact writes_chain .or (forall₂_member .or (.cons he hes)) (List.cons_ne_nil _ _)

/-- **A raw comparison is written as the comparison** of its arguments. -/
theorem Written.rawComparison (hl : l.Written d a) (o : Comparator) (hr : r.Written d b) :
    (Expr.raw (comparisonTemplate o) [l, r]).Written d (.compare a o b) := by
  refine .ofNegation ?_ rfl rfl ?_
  · simp [condition?, conditions?, hl.condition, hr.condition, ofTemplate?_comparison]
  · rw [pieces_raw]
    refine ((hl.operand.compare o hr.operand).congr (fun k => ?_) ?_).negation
    · cases o <;> simp [comparisonTemplate, Comparator.symbol, fill, chars_append, chars]
    · cases o <;> simp [comparisonTemplate, Comparator.symbol, fill]

theorem written_null : (Expr.raw "NULL" []).Written d .null := by
  refine .ofOperand rfl rfl rfl ?_
  rw [pieces_raw]
  exact writes_null.congr (fun k => rfl) rfl

/-- A choice for each member of a list is a list of choices. -/
theorem exists_forall₂ {R : Expr → Condition → Prop} (h : ∀ e ∈ es, ∃ c, R e c) :
    ∃ cs, List.Forall₂ R es cs := by
  induction es with
  | nil => exact ⟨[], .nil⟩
  | cons e es ih =>
    obtain ⟨c, hc⟩ := h e List.mem_cons_self
    obtain ⟨cs, hcs⟩ := ih fun e he => h e (List.mem_cons_of_mem _ he)
    exact ⟨c :: cs, .cons hc hcs⟩

/-- **Every plain expression is written as its condition**, and so is its
negation. The negation goes along in the induction since a negated comparison
is made of the sides of the comparison and not of the comparison itself. -/
theorem Plain.written (he : e.Plain) (d : Dialect) :
    (∃ c, e.Written d c) ∧ ∃ c, (Expr.not e).Written d c := by
  induction he with
  | name n =>
    have h : (Expr.name n).Written d _ := .ofOperand rfl rfl rfl (writes_name n)
    exact ⟨⟨_, h⟩, _, h.not (by simp)⟩
  | value v =>
    have h : (Expr.value v).Written d _ := .ofOperand rfl rfl rfl (writes_param v)
    exact ⟨⟨_, h⟩, _, h.not (by simp)⟩
  | compare o _ _ ihl ihr =>
    obtain ⟨⟨a, ha⟩, -⟩ := ihl
    obtain ⟨⟨b, hb⟩, -⟩ := ihr
    exact ⟨⟨_, ha.compare o hb⟩, _, ha.not_compare o hb⟩
  | and _ ih =>
    obtain ⟨cs, hcs⟩ := exists_forall₂ fun e he => (ih e he).1
    exact ⟨⟨_, .and hcs⟩, _, (Written.and hcs).not (by simp)⟩
  | or _ ih =>
    obtain ⟨cs, hcs⟩ := exists_forall₂ fun e he => (ih e he).1
    exact ⟨⟨_, .or hcs⟩, _, (Written.or hcs).not (by simp)⟩
  | not _ ih =>
    obtain ⟨-, c, hc⟩ := ih
    exact ⟨⟨c, hc⟩, _, hc.not (by simp)⟩
  | rawComparison _ _ h ihl ihr =>
    rw [rawComparison?_eq] at h
    cases h
    obtain ⟨⟨a, ha⟩, -⟩ := ihl
    obtain ⟨⟨b, hb⟩, -⟩ := ihr
    exact ⟨⟨_, ha.rawComparison _ hb⟩, _, (ha.rawComparison _ hb).not (by simp)⟩
  | null h =>
    rw [keyword?_null] at h
    cases h
    exact ⟨⟨_, written_null⟩, _, written_null.not (by simp)⟩

end Expr

/-! ## One reading -/

/-- The tokens of an expression's text are read as its condition. -/
theorem Expr.Written.readsAs {d : Dialect} {e : Expr} {c : Condition} (h : e.Written d c) :
    ReadsAs d (e.render d) c :=
  h.alone.chain.readsAs

/-- **The text of a plain expression has exactly one reading as a predicate**,
and that is the condition of the expression. The condition holds every name by
its parts, and these determine the name. -/
theorem reads_render_iff (d : Dialect) {e : Expr} (he : e.Plain) :
    (∃ c, e.condition? = some c ∧ ∀ c', ReadsAs d (e.render d) c' ↔ c' = c)
      ∧ Function.Injective QualifiedName.parts := by
  obtain ⟨⟨c, hc⟩, -⟩ := he.written d
  refine ⟨⟨c, hc.condition, fun c' => ⟨fun h => h.unique hc.readsAs, ?_⟩⟩,
    QualifiedName.parts_injective⟩
  rintro rfl
  exact hc.readsAs

/-- A disjunction of a conjunction of one member with a negated empty
conjunction, about a name that holds a quote and a placeholder. -/
theorem reads_render_quoted_name :
    (Expr.or [.and [.compare (.name ⟨some "u.v", "a\"?"⟩) .eq (.value .null)],
        .not (.and [])]).Plain
      ∧ ∀ c', ReadsAs .postgres ⟨"(\"u\".\"v\".\"a\"\"?\" IS NULL OR NOT (1 = 1))", []⟩ c'
        ↔ c' = .or [.isNull (.name ["u", "v", "a\"?"]),
            .not (.compare (.numeral 1) .eq (.numeral 1))] := by
  have he : (Expr.or [.and [.compare (.name ⟨some "u.v", "a\"?"⟩) .eq (.value .null)],
      .not (.and [])]).Plain := by
    refine .or (fun e he => ?_)
    rcases List.mem_pair.1 he with rfl | rfl
    · refine .and (fun e he => ?_)
      rw [List.mem_singleton.1 he]
      exact .compare _ (.name _) (.value _)
    · exact .not (.and (by simp))
  refine ⟨he, ?_⟩
  obtain ⟨⟨c, hc, hread⟩, -⟩ := reads_render_iff .postgres he
  cases hc
  exact hread

end FilterSql
