import FilterSql.Proofs.Sql.Rendering
import FilterSql.Sql.Select
import Mathlib

/-!
# What the statement of a selection asks for

A selection is written clause by clause, and a statement is read in the same
order: a column, a table, possibly a predicate, and the key of an order. Every
clause has one lemma here, on the tokens that it spells and on what is read from
them. `Request.ofStatement?_render` puts them together. In every dialect, the
statement of such a selection asks for exactly what the selection is made of, and
the predicate that is asked for is the condition that the expression states.
-/

namespace FilterSql.Sql

open Text

variable {d : Dialect}

/-! ## Clauses -/

/-- The word for a direction. -/
def directionWord : Direction → Word
  | .ascending => .asc
  | .descending => .desc

theorem direction?_directionWord (x : Direction) (r : List Token) :
    direction? (.word (directionWord x) :: r) = some (x, r) := by
  cases x <;> rfl

theorem spells_direction (x : Direction) :
    Spells d [.text (" " ++ x.keyword)] [.word (directionWord x)] := by
  cases x with
  | ascending =>
    exact fun _ _ _ _ _ hs h => .blank rfl (.lastWord (w := ['A', 'S', 'C']) (by decide) hs h)
  | descending =>
    exact fun _ _ _ _ _ hs h =>
      .blank rfl (.lastWord (w := ['D', 'E', 'S', 'C']) (by decide) hs h)

theorem separates_select : Separates d "SELECT " [.word .select] :=
  fun _ _ _ _ h => .word (w := ['S', 'E', 'L', 'E', 'C', 'T']) (by decide) h

theorem separates_from : Separates d "FROM " [.word .fromWord] :=
  fun _ _ _ _ h => .word (w := ['F', 'R', 'O', 'M']) (by decide) h

theorem separates_where : Separates d " WHERE " [.word .whereWord] :=
  fun _ _ _ _ h => .blank rfl (.word (w := ['W', 'H', 'E', 'R', 'E']) (by decide) h)

theorem separates_orderBy : Separates d " ORDER BY " [.word .order, .word .byWord] :=
  fun _ _ _ _ h => .blank rfl (.word (w := ['O', 'R', 'D', 'E', 'R']) (by decide)
    (.word (w := ['B', 'Y']) (by decide) h))

theorem separates_blank : Separates d " " [] :=
  fun _ _ _ _ h => .blank rfl h

/-! ## The order -/

/-- The key of an order is read with its direction. -/
theorem exists_spells_key (n : QualifiedName) (x : Direction) :
    ∃ ts, Spells d (Select.keyPieces ⟨.name n, some x⟩) ts
      ∧ orderClause? (.word .order :: .word .byWord :: ts) = some (some (n.parts, x), []) := by
  obtain ⟨ts, hts, hread⟩ := exists_spells_dotted (d := d) n
  refine ⟨ts ++ [.word (directionWord x)], ?_, ?_⟩
  · refine hts.append (spells_direction x) (fun k s _ => ?_)
    cases x <;> exact (noneAhead_cons _ _ _).2 (runsOn_blank d)
  · have hkey := dotted?_of_dotted (hread [.word (directionWord x)]) (by simp [Level.continues])
    simp [orderClause?, hkey, direction?_directionWord]

/-! ## The predicate -/

/-- **A predicate is read up to the order.** Without one, what follows the table is
the order itself. -/
theorem exists_spells_where {p : Option Expr} {q : Option Condition}
    (h : Option.Rel (fun e c => Writes d e.pieces (.chain .or) c) p q) {ks : List Piece}
    {us : List Token} (hks : Spells d ks us) :
    ∃ text rest ts vs,
      Select.clausePieces " WHERE " p ++ .text " ORDER BY " :: ks = .text text :: rest
      ∧ (∃ cs, text.toList = ' ' :: cs) ∧ Separates d text ts ∧ Spells d rest vs
      ∧ Stops .operand (ts ++ vs)
      ∧ whereClause? (ts ++ vs) = some (q, .word .order :: .word .byWord :: us) := by
  cases h with
  | none =>
    exact ⟨_, _, _, _, rfl, ⟨_, rfl⟩, separates_orderBy, hks, by simp [Level.continues], rfl⟩
  | @some e c h =>
    obtain ⟨ts, hts, hread⟩ := h
    refine ⟨_, _, _, _, rfl, ⟨_, rfl⟩, separates_where,
      hts.separated separates_orderBy rfl (runsOn_blank d) hks, by simp [Level.continues], ?_⟩
    have hpredicate := (predicate?_eq_some_iff (by simp [Level.continues])).2
      (hread (.word .order :: .word .byWord :: us))
    simp [whereClause?, hpredicate]

/-! ## The statement -/

namespace Request

/-- **The statement of a selection asks for what the selection is made of.** -/
theorem ofStatement?_render (d : Dialect) (column table key : QualifiedName) (x : Direction)
    {p : Option Expr} {q : Option Condition}
    (h : Option.Rel (fun e c => Writes d e.pieces (.chain .or) c) p q) :
    ofStatement? d (Select.render d
        ⟨[.name column], some ⟨table, none⟩, p, [⟨.name key, some x⟩], none, none⟩)
      = some ⟨column.parts, table.parts, q, some (key.parts, x)⟩ := by
  obtain ⟨us, hus, horder⟩ := exists_spells_key (d := d) key x
  obtain ⟨text, rest, ts, vs, htext, ⟨cs, hcs⟩, hsep, hrest, hstops, hwhere⟩ :=
    exists_spells_where h hus
  obtain ⟨cols, hcols, hcolumn⟩ := exists_spells_dotted (d := d) column
  obtain ⟨tabs, htabs, htable⟩ := exists_spells_dotted (d := d) table
  have hspells := (hcols.separated separates_blank rfl (runsOn_blank d)
    ((htabs.separated hsep hcs (runsOn_blank d) hrest).text_cons separates_from)).text_cons
      separates_select
  have hpieces : Select.pieces
      ⟨[.name column], some ⟨table, none⟩, p, [⟨.name key, some x⟩], none, none⟩
      = .text "SELECT " :: (column.pieces ++ .text " " :: .text "FROM " ::
        (table.pieces ++ .text text :: rest)) := by
    rw [← htext]
    simp [Select.pieces, Select.listPieces, Select.sourcePieces, Select.clausePieces, Expr.pieces]
  have hcolumn' := dotted?_of_dotted (hcolumn (.word .fromWord :: (tabs ++ (ts ++ vs))))
    (by simp [Level.continues])
  have htable' := dotted?_of_dotted (htable (ts ++ vs)) hstops
  rw [ofStatement?, Select.render, toList_sql_ofPieces, params_ofPieces, hpieces,
    tokens?_eq_some_iff.2 (hspells.tokens List.prefix_rfl)]
  simp [ofTokens?, word?, hcolumn', htable', hwhere, horder]

end Request

end FilterSql.Sql
