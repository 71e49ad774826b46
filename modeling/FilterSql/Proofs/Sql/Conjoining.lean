import FilterSql.Proofs.Sql.Readable
import Mathlib

/-!
# What a predicate that is added does

A predicate is added to a selection by writing `AND` between it and the one that
is there. That conjoins the two only if neither of them has an `OR` outside
parentheses. A disjunction brings its own parentheses, but a template is copied
as it stands, and the `OR` of a template takes its operands from both sides:
with `x OR y` added, a selection of the rows with `tenant = 1` selects the rows
with `y` of every tenant.

So the text of a predicate is read here as the row of its disjuncts, those that
stand outside parentheses (`Disjuncts`). Where the first text ends in the
disjunct `a` and the second begins with `b`, the joined text has `a AND b` in
their place and all other disjuncts as they were. From this follows exactly on
which rows the joined predicate is the conjunction, and on which it lets through
what one of the two does not. The main statement is `restrict_conjoins_iff`.
-/

namespace FilterSql

open Sql

namespace Sql

/-! ## The disjuncts of a text -/

/-- **The disjuncts of a text** are the operands of `OR` outside parentheses that it
is read as. -/
def Disjuncts (d : Dialect) (st : Statement) (cs : List Condition) : Prop :=
  ∃ ts, Tokens d st.params 0 st.sql.toList ts ∧ Chain .or ts cs []

/-- **A text has one row of disjuncts at most.** -/
theorem Disjuncts.unique {d : Dialect} {st : Statement} {cs cs' : List Condition}
    (h : Disjuncts d st cs) (h' : Disjuncts d st cs') : cs = cs' := by
  obtain ⟨ts, hts, hread⟩ := h
  obtain ⟨ts', hts', hread'⟩ := h'
  obtain rfl := hts.unique hts'
  exact (hread.unique hread' (stops_nil _) (stops_nil _)).1

/-- A text is read as the disjunction of its disjuncts. -/
theorem readsAs_iff {d : Dialect} {st : Statement} {c : Condition} :
    ReadsAs d st c ↔ ∃ cs, cs ≠ [] ∧ Disjuncts d st cs ∧ c = joined .or cs := by
  constructor
  · rintro ⟨ts, hts, hread⟩
    cases hread with
    | chain h => exact ⟨_, h.operands_ne_nil, ⟨ts, hts, h⟩, rfl⟩
  · rintro ⟨cs, -, ⟨ts, hts, h⟩, rfl⟩
    exact ⟨ts, hts, .chain h⟩

end Sql

theorem Truth.any_eq_yes_iff {ts : List Truth} : Truth.any ts = .yes ↔ .yes ∈ ts := by
  induction ts with
  | nil => simp [Truth.any]
  | cons t ts ih =>
    rw [any_cons, List.mem_cons, ← ih]
    cases t <;> cases any ts <;> decide

/-- A disjunction holds if one of its disjuncts does. -/
theorem Engine.holds_joined_or {α : Type} (E : Engine α) (row : List String → α)
    {cs : List Condition} (hne : cs ≠ []) :
    E.holds row (Sql.joined .or cs) = true ↔ ∃ c ∈ cs, E.holds row c = true := by
  simp only [holds, decide_eq_true_eq, truth_eval_joined E row .or hne, Connective.truths,
    Truth.any_eq_yes_iff, List.mem_map]

namespace Expr

/-- The disjuncts of an expression's own text. -/
theorem disjuncts_render {d : Dialect} {e : Expr} {ts : List Token} {cs : List Condition}
    (hts : Spells d e.pieces ts) : Disjuncts d (e.render d) cs ↔ Chain .or ts cs [] := by
  have htokens : Tokens d (e.render d).params 0 (e.render d).sql.toList ts := by
    rw [Expr.render, toList_sql_ofPieces, params_ofPieces]
    exact hts.tokens (List.prefix_rfl)
  constructor
  · rintro ⟨ts', hts', h⟩
    rwa [htokens.unique hts']
  · exact fun h => ⟨ts, htokens, h⟩

/-! ## The text of a conjunction -/

/-- An expression is written as its conjuncts are, if there are any. -/
theorem pieces_eq_conjuncts {p : Expr} (hp : p.conjuncts ≠ []) :
    p.pieces = [Piece.text " AND "].intercalate
      (p.conjuncts.map fun e => Piece.parensIf e.isWideAnd e.pieces) := by
  cases p with
  | and es =>
    rw [pieces_and, junctionPieces, if_neg (by simpa [conjuncts] using hp)]
    rfl
  | _ => simp [conjuncts, isWideAnd, Piece.parensIf]

theorem conjuncts_eq_nil_iff {p : Expr} : p.conjuncts = [] ↔ p = .and [] := by
  cases p <;> simp [conjuncts]

/-- **What is written for two predicates that are joined**: the one, `AND`, and the
other; of an empty conjunction, nothing. -/
theorem pieces_both (p q : Expr) :
    (p = .and [] ∧ (p.both q).pieces = q.pieces) ∨ (q = .and [] ∧ (p.both q).pieces = p.pieces)
      ∨ (p.both q).pieces = p.pieces ++ .text " AND " :: q.pieces := by
  have hboth : (p.both q).conjuncts = p.conjuncts ++ q.conjuncts := rfl
  by_cases hp : p.conjuncts = []
  · refine .inl ⟨conjuncts_eq_nil_iff.1 hp, ?_⟩
    by_cases hq : q.conjuncts = []
    · rw [both, hp, hq, conjuncts_eq_nil_iff.1 hq]
      rfl
    · rw [hp, List.nil_append] at hboth
      rw [pieces_eq_conjuncts (hboth ▸ hq), hboth, pieces_eq_conjuncts hq]
  · by_cases hq : q.conjuncts = []
    · refine .inr (.inl ⟨conjuncts_eq_nil_iff.1 hq, ?_⟩)
      rw [hq, List.append_nil] at hboth
      rw [pieces_eq_conjuncts (hboth ▸ hp), hboth, pieces_eq_conjuncts hp]
    · refine .inr (.inr ?_)
      rw [pieces_eq_conjuncts (by simp [hboth, hp]), hboth, List.map_append,
        Text.intercalate_append_of_ne_nil _ (by simpa using hp) (by simpa using hq),
        pieces_eq_conjuncts hp, pieces_eq_conjuncts hq]
      rfl

/-- An empty conjunction has one disjunct, which holds in every row. -/
theorem disjuncts_and_nil {d : Dialect} {cs : List Condition}
    (h : Disjuncts d ((Expr.and []).render d) cs) :
    cs = [.compare (.numeral 1) .eq (.numeral 1)] := by
  have hspells : Spells d (Expr.and []).pieces [.numeral 1, .comparator .eq, .numeral 1] := by
    rw [pieces_and]
    exact spells_one_eq_one
  have hread : Chain .or [.numeral 1, .comparator .eq, .numeral 1]
      [.compare (.numeral 1) .eq (.numeral 1)] [] :=
    .one (.chain (k := .and) (.one (.plain (.compare .numeral .numeral))))
  exact h.unique ((disjuncts_render hspells).2 hread)

/-- **The disjuncts of two predicates that are joined.** -/
theorem exists_disjuncts_both {d : Dialect} {p q : Expr} (hp : p.Every (Templated d))
    (hq : q.Every (Templated d)) {as bs : List Condition} {a b : Condition}
    (has : Disjuncts d (p.render d) (as ++ [a])) (hbs : Disjuncts d (q.render d) (b :: bs)) :
    ∃ (c : Condition) (ts : List Token), Conjoins c a b
      ∧ Spells d (p.both q).pieces ts ∧ Chain .or ts (as ++ c :: bs) [] := by
  obtain ⟨tp, -, htp⟩ := phrase_pieces hp
  obtain ⟨tq, -, htq⟩ := phrase_pieces hq
  have hone : ∀ (α : Type) (E : Engine α) (row : List String → α),
      E.truth (E.eval row (.compare (.numeral 1) .eq (.numeral 1))) = .yes := by
    intro α E row
    rw [Engine.eval, Engine.eval, E.truth_ofTruth, Engine.compare, E.isNull_numeral,
      E.order_numeral]
    rfl
  have hchainp := (disjuncts_render htp).1 has
  have hchainq := (disjuncts_render htq).1 hbs
  rcases pieces_both p q with ⟨rfl, hpieces⟩ | ⟨rfl, hpieces⟩ | hpieces
  · obtain ⟨rfl, rfl⟩ : as = [] ∧ a = .compare (.numeral 1) .eq (.numeral 1) := by
      simpa [List.append_eq_singleton_iff] using disjuncts_and_nil has
    refine ⟨b, tq, fun α E row => ?_, hpieces ▸ htq, hchainq⟩
    rw [hone]
    cases E.truth (E.eval row b) <;> rfl
  · obtain ⟨rfl, rfl⟩ := List.cons.inj (disjuncts_and_nil hbs)
    refine ⟨a, tp, fun α E row => ?_, hpieces ▸ htp, hchainp⟩
    rw [hone]
    cases E.truth (E.eval row a) <;> rfl
  · obtain ⟨c, hc, hchain⟩ := hchainq.conjoin hchainp
    exact ⟨c, _, hc, hpieces ▸ htp.separated separates_and rfl (runsOn_blank d) htq, hchain⟩

end Expr

/-! ## The WHERE clause of a selection -/

namespace Select

/-- The selection up to its table. -/
def opening (s : Select) : Select :=
  { s with predicate := none, order := [], limit := none, offset := none }

/-- **The WHERE clause of a statement is read as a condition**, in its place: it
follows the table, and its placeholders follow those of the columns. -/
def WhereReadsAs (d : Dialect) (s : Select) (c : Condition) : Prop :=
  ∃ (p : Expr) (text after : List Char), s.predicate = some p
    ∧ (s.render d).sql.toList
      = (s.opening.render d).sql.toList ++ (" WHERE ".toList ++ (text ++ after))
    ∧ text = chars d (s.opening.render d).params.length p.pieces
    ∧ ∃ ts, Tokens d (s.render d).params (s.opening.render d).params.length text ts
      ∧ Reads (.chain .or) ts c []

/-- The predicate is written after the table. -/
theorem exists_pieces_eq {s : Select} {p : Expr} (hs : s.predicate = some p) :
    ∃ after, s.pieces = s.opening.pieces ++ (.text " WHERE " :: (p.pieces ++ after)) := by
  refine ⟨(if s.order.isEmpty then [] else .text " ORDER BY " :: listPieces (s.order.map keyPieces))
    ++ clausePieces " LIMIT " s.limit ++ clausePieces " OFFSET " s.offset, ?_⟩
  simp [pieces, opening, hs, clausePieces]

theorem whereReadsAs_iff {d : Dialect} {s : Select} {p : Expr} {ts : List Token} {c : Condition}
    (hs : s.predicate = some p) (hts : Spells d p.pieces ts) :
    s.WhereReadsAs d c ↔ Reads (.chain .or) ts c [] := by
  obtain ⟨after, hpieces⟩ := exists_pieces_eq hs
  -- the values of the predicate stand behind those of the columns
  have hbound : bound p.pieces <+: (bound s.pieces).drop (bound s.opening.pieces).length := by
    rw [hpieces, bound_append, List.drop_left, bound_text, bound_append]
    exact List.prefix_append _ _
  have htokens := hts.tokens hbound
  constructor
  · rintro ⟨p', text, after', hs', -, rfl, ts', hts', hread⟩
    obtain rfl : p = p' := Option.some.inj (hs.symm.trans hs')
    rw [render, render, params_ofPieces, params_ofPieces] at hts'
    rwa [htokens.unique hts']
  · intro hread
    refine ⟨p, _, chars d ((bound s.opening.pieces).length + (bound p.pieces).length) after, hs, ?_,
      rfl, ts, ?_, hread⟩
    · rw [render, render, toList_sql_ofPieces, toList_sql_ofPieces, params_ofPieces, hpieces,
        chars_append, chars, chars_append, Nat.zero_add]
    · rw [render, render, params_ofPieces, params_ofPieces]
      exact htokens

end Select

/-- **On which rows a disjunction is a conjunction**, if it is made of two others by
conjoining the last disjunct of the one and the first of the other. -/
theorem holds_conjoined {as bs : List Condition} {a b c : Condition} (hc : Conjoins c a b)
    {α : Type} (E : Engine α) (row : List String → α) :
    let P := joined .or (as ++ [a])
    let Q := joined .or (b :: bs)
    let W := joined .or (as ++ c :: bs)
    (E.holds row P → E.holds row Q → E.holds row W)
      ∧ ((E.holds row W ↔ E.holds row P ∧ E.holds row Q)
        ↔ ((∃ x ∈ as, E.holds row x) → E.holds row Q)
          ∧ ((∃ x ∈ bs, E.holds row x) → E.holds row P))
      ∧ ((E.holds row W → E.holds row P) ↔ ((∃ x ∈ bs, E.holds row x) → E.holds row P)) := by
  intro P Q W
  have hboth : E.holds row c = true ↔ E.holds row a = true ∧ E.holds row b = true := by
    simp only [Engine.holds, decide_eq_true_eq, hc α E row]
    cases E.truth (E.eval row a) <;> cases E.truth (E.eval row b) <;> decide
  have hP : E.holds row P = true ↔ (∃ x ∈ as, E.holds row x = true) ∨ E.holds row a = true := by
    rw [E.holds_joined_or row (by simp)]
    simp [or_and_right, exists_or]
  have hQ : E.holds row Q = true ↔ E.holds row b = true ∨ ∃ x ∈ bs, E.holds row x = true := by
    rw [E.holds_joined_or row (by simp)]
    simp
  have hW : E.holds row W = true ↔ (∃ x ∈ as, E.holds row x = true)
      ∨ (E.holds row a = true ∧ E.holds row b = true) ∨ ∃ x ∈ bs, E.holds row x = true := by
    rw [E.holds_joined_or row (by simp)]
    simp [or_and_right, exists_or, hboth]
  rw [hP, hQ, hW]
  generalize (∃ x ∈ as, E.holds row x = true) = A
  generalize (∃ x ∈ bs, E.holds row x = true) = B
  refine ⟨?_, ?_, ?_⟩ <;> grind

/-- **What a predicate that is added does to the rows.** Every expression can be
read whose templates are predicates and whose bare words are operands. And
wherever the predicate of a selection and the added one can be read, as `P` and
`Q`, so can the WHERE clause with both, in one way `W`: the last disjunct `a` of
the one text and the first disjunct `b` of the other are conjoined, and the other
disjuncts `as` and `bs` stay. What follows holds of every row of every database. A row
that meets `P` and `Q` meets `W`. On a row, `W` is the conjunction exactly if `Q` holds
in case one of `as` does and `P` holds in case one of `bs` does; so it is on every row
if no `OR` stands outside parentheses. And `W` lets through a row that `P` does not
exactly if one of `bs` holds there. -/
theorem restrict_conjoins_iff (d : Dialect) :
    (∀ e : Expr, e.Every (Expr.Templated d) → e.Every (Expr.Seated d) →
        ∃ c, ReadsAs d (e.render d) c)
      ∧ ∀ (s : Select) (p q : Expr) (P Q : Condition), s.predicate = some p →
        p.Every (Expr.Templated d) → q.Every (Expr.Templated d) →
        ReadsAs d (p.render d) P → ReadsAs d (q.render d) Q →
        ∃ (as bs : List Condition) (a b c W : Condition),
          Disjuncts d (p.render d) (as ++ [a]) ∧ Disjuncts d (q.render d) (b :: bs)
          ∧ W = joined .or (as ++ c :: bs)
          ∧ (∀ W', (s.restrict q).WhereReadsAs d W' ↔ W' = W)
          ∧ ∀ (α : Type) (E : Engine α) (row : List String → α),
            E.truth (E.eval row c) = (E.truth (E.eval row a)).and (E.truth (E.eval row b))
            ∧ (E.holds row P → E.holds row Q → E.holds row W)
            ∧ ((E.holds row W ↔ E.holds row P ∧ E.holds row Q)
              ↔ ((∃ x ∈ as, E.holds row x) → E.holds row Q)
                ∧ ((∃ x ∈ bs, E.holds row x) → E.holds row P))
            ∧ ((E.holds row W → E.holds row P) ↔ ((∃ x ∈ bs, E.holds row x) → E.holds row P)) := by
  refine ⟨fun e ht hs => ?_, fun s p q P Q hs hp hq hP hQ => ?_⟩
  · obtain ⟨c, hc⟩ := (Expr.stands ht hs).alone
    exact ⟨c, hc.readsAs⟩
  · obtain ⟨xs, hxs, hdp, rfl⟩ := readsAs_iff.1 hP
    obtain ⟨ys, hys, hdq, rfl⟩ := readsAs_iff.1 hQ
    obtain ⟨as, a, rfl⟩ : ∃ as a, xs = as ++ [a] :=
      ⟨_, _, (List.dropLast_append_getLast hxs).symm⟩
    obtain ⟨b, bs, rfl⟩ := List.exists_cons_of_ne_nil hys
    obtain ⟨c, ts, hc, hts, hread⟩ := Expr.exists_disjuncts_both hp hq hdp hdq
    have hpredicate : (s.restrict q).predicate = some (p.both q) := by
      simp [Select.restrict, hs]
    refine ⟨as, bs, a, b, c, _, hdp, hdq, rfl, fun W' => ?_,
      fun α E row => ⟨hc α E row, holds_conjoined hc E row⟩⟩
    rw [Select.whereReadsAs_iff hpredicate hts]
    constructor
    · exact fun h => (h.unique (.chain hread) (stops_nil _) (stops_nil _)).1
    · rintro rfl
      exact .chain hread

/-- A selection of the rows of one tenant, to which a template with an `OR` is added.
The statement selects a row of another tenant. -/
theorem restrict_widens :
    ∃ (s : Select) (p q : Expr) (P Q W : Condition) (row : List String → Operand),
      s.predicate = some p ∧ p.Every (Expr.Templated .sqlite) ∧ q.Every (Expr.Templated .sqlite)
      ∧ q.Every (Expr.Seated .sqlite)
      ∧ ReadsAs .sqlite (p.render .sqlite) P ∧ ReadsAs .sqlite (q.render .sqlite) Q
      ∧ (∀ W', (s.restrict q).WhereReadsAs .sqlite W' ↔ W' = W)
      ∧ ((s.restrict q).render .sqlite).sql
        = "SELECT * FROM \x60t\x60 WHERE \x60tenant\x60 = ? AND \x60x\x60 OR \x60y\x60"
      ∧ Database.sqlite.engine.holds row W = true ∧ Database.sqlite.engine.holds row P = false := by
  let p : Expr := .compare (.name ⟨none, "tenant"⟩) .eq (.value (.int 1))
  let q : Expr := .raw "? OR ?" [.name ⟨none, "x"⟩, .name ⟨none, "y"⟩]
  let s : Select := (Select.ofTable [] ⟨⟨none, "t"⟩, none⟩).restrictTo p
  let P : Condition := .compare (.name ["tenant"]) .eq (.param (.int 1))
  let row : List String → Operand := fun parts =>
    .plain (.integer (if parts = ["tenant"] then 2 else 1))
  have hp : p.Every (Expr.Templated .sqlite) := by
    simp [p, Expr.Every, Expr.nodes, Expr.Templated]
  have hq : q.Every (Expr.Templated .sqlite) := by
    have hword : ['O', 'R'].map Char.toLower = Word.letters .or := by decide
    have htemplate : Template .sqlite "? OR ?".toList [.param .null, .word .or, .param .null] :=
      .mark (by decide) (by decide) (.blank rfl (.token (w := ['O', 'R']) rfl hword
        (by decide) (by decide) (by decide) (.blank rfl (.mark (by decide) (by decide) .done))))
    have hmark : ∀ {r}, Reads (.chain .and) (.param .null :: r) (.param .null) r :=
      .chain (k := .and) (.one (.plain (.lone .param)))
    refine Expr.every_raw.2 ⟨⟨rfl, _, _, htemplate, .chain (.more hmark (.one hmark))⟩, ?_⟩
    simp [Expr.Every, Expr.nodes, Expr.Templated]
  have hseated : q.Every (Expr.Seated .sqlite) := by
    simp [q, Expr.Every, Expr.nodes, Expr.nodesAll, Expr.Seated, Expr.operands, Expr.Worded,
      Expr.bareWord?]
  have hP : ReadsAs .sqlite (p.render .sqlite) P :=
    ((writes_name ⟨none, "tenant"⟩).compare .eq (writes_param (.int 1))).negation.chain.chain.readsAs
  have hdq : Disjuncts .sqlite (q.render .sqlite) [.name ["x"], .name ["y"]] := by
    have hspells : Spells .sqlite q.pieces [.name "x", .word .or, .name "y"] :=
      ((spells_name "x").separated separates_or rfl (runsOn_blank _) (spells_name "y")).congr
        (fun _ => rfl) rfl
    have hname : ∀ {n r}, Reads (.chain .and) (.name n :: r) (.name [n]) r :=
      .chain (k := .and) (.one (.plain (.lone (.name .last))))
    exact (Expr.disjuncts_render hspells).2 (.more hname (.one hname))
  obtain ⟨Q, hQ⟩ := (restrict_conjoins_iff .sqlite).1 q hq hseated
  obtain ⟨as, bs, a, b, c, W, -, hdq', rfl, hW, hrow⟩ :=
    (restrict_conjoins_iff .sqlite).2 s p q P Q rfl hp hq hP hQ
  obtain ⟨rfl, rfl⟩ := List.cons.inj (hdq'.unique hdq)
  have hProw : Database.sqlite.engine.holds row P = false := by decide
  refine ⟨s, p, q, P, Q, _, row, rfl, hp, hq, hseated, hP, hQ, hW, by decide +kernel, ?_, hProw⟩
  -- otherwise the tenant would have to be the right one, since `y` holds
  by_contra hclosed
  have hy : ∃ x ∈ [Condition.name ["y"]], Database.sqlite.engine.holds row x = true :=
    ⟨_, List.mem_cons_self, by decide⟩
  have hpass : Database.sqlite.engine.holds row P = true :=
    (hrow _ Database.sqlite.engine row).2.2.2.1 (fun h => absurd h hclosed) hy
  exact absurd hpass (by simp [hProw])

end FilterSql
