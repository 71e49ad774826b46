import FilterSql.Proofs.Alike
import Mathlib

/-!
# The form of compiled expressions

The type of expressions admits more than compilation ever makes of a filter:
junctions of one member or none, conjunctions inside conjunctions, comparisons
of anything with anything, the value `NULL` in any place, templates of any text.
`Expr.Canonical` says what is left of this at each node of a compiled expression.

Two things need an argument. A junction is joined of two sides that may be
junctions themselves, of the same connective or of the other one. Its members
are the expressions of the operands of the run (`Filter.members_expr`), and no
operand of a run is itself a run of the connective
(`Filter.shape_ne_of_mem_operands`), however the run is grouped. And a comparison
is raw where it is not one of SQL. Since the expression of a comparison depends
on the expressions of its sides alone (`Filter.expr_comparison`), the sides of a
raw one are never a name and a literal: no test for `NULL` is left to a template,
where it would be unknown in every row.

The main statement is `compile_canonical`.
-/

namespace FilterSql

namespace Expr

/-- **The members of a canonical junction**: two at least, and none of them is a
junction of the same connective or the value `NULL`. -/
structure CanonicalMembers (k : Connective) (es : List Expr) : Prop where
  two_le_length : 2 ≤ es.length
  shape_ne : ∀ e ∈ es, e.shape ≠ .junction k
  isNullValue : ∀ e ∈ es, e.isNullValue = false

/-- **The sides of a canonical raw comparison**: neither is the value `NULL`, and
beside a name there is no value, nor the word `NULL` to test it for. -/
structure CanonicalSides (c : Comparator) (l r : Expr) : Prop where
  left : l.isNullValue = false
  right : r.isNullValue = false
  ne_value : ∀ n v, l = name n → r ≠ value v
  ne_null : ∀ n, l = name n → r = raw "NULL" [] → c ≠ .eq ∧ c ≠ .ne

/-- **The canonical form of a node.** A comparison of SQL is between a name and a
value, and the value is `NULL` only where it is tested for; the value `NULL`
stands nowhere else. A raw expression is the word `NULL` or a comparison. -/
def Canonical : Expr → Prop
  | name _ | value _ => True
  | compare l c r => ∃ n v, l = name n ∧ r = value v ∧ (v = .null → c = .eq ∨ c = .ne)
  | and es => CanonicalMembers .and es
  | or es => CanonicalMembers .or es
  | not e => e.isNullValue = false
  | raw template args =>
    (template = "NULL" ∧ args = [])
      ∨ ∃ c l r, template = comparisonTemplate c ∧ args = [l, r] ∧ CanonicalSides c l r

theorem canonical_ofMembers {k : Connective} {es : List Expr} :
    (ofMembers k es).Canonical ↔ CanonicalMembers k es := by
  cases k <;> rfl

/-! ## Comparisons -/

/-- Where the literal is `NULL`, it is tested for. -/
theorem eq_or_ne_of_literal?_eq_null {c : Comparator} {y : Expr} (hy : y.isNullValue = false)
    (h : literal? c y = some .null) : c = .eq ∨ c = .ne := by
  unfold literal? at h
  split at h
  · obtain rfl := Option.some.inj h
    cases hy
  · split at h
    · rename_i hnull
      exact Comparator.isEquality_iff.1 hnull.2
    · cases h
  · cases h

/-- **What is no comparison of SQL has the sides of a raw one.** -/
theorem canonicalSides_of_literal? {c : Comparator} {x y : Expr} (hx : x.isNullValue = false)
    (hy : y.isNullValue = false) (h : ∀ n, x = name n → literal? c y = none) :
    CanonicalSides c x y where
  left := hx
  right := hy
  ne_value n v hn hv := by
    have hnone := h n hn
    rw [hv] at hnone
    cases hnone
  ne_null n hn hnull := by
    have hnone := h n hn
    rw [hnull, literal?] at hnone
    rw [← not_or, ← Comparator.isEquality_iff]
    intro hc
    rw [if_pos ⟨rfl, hc⟩] at hnone
    cases hnone

/-- **A comparison is canonical if its sides are.** -/
theorem every_canonical_compared (c : Comparator) {x y : Expr} (hx : x.Every Canonical)
    (hy : y.Every Canonical) (hx' : x.isNullValue = false) (hy' : y.isNullValue = false) :
    (compared c x y).Every Canonical := by
  unfold compared
  split
  · rename_i n v hv
    refine every_compare.2 ⟨⟨n, v, rfl, rfl, ?_⟩, hx, List.forall_mem_singleton.2 trivial⟩
    rintro rfl
    exact eq_or_ne_of_literal?_eq_null hy' hv
  · -- a name beside a literal was taken by the first case
    rename_i hother
    refine every_raw.2 ⟨.inr ⟨c, _, y, rfl, rfl, canonicalSides_of_literal? hx' hy' ?_⟩, ?_⟩
    · intro n hn
      rw [← Option.not_isSome_iff_eq_none, Option.isSome_iff_exists]
      rintro ⟨v, hv⟩
      exact hother n v hn hv
    · simp [hx, hy]

end Expr

/-! ## Runs -/

namespace Filter

/-- **No operand of a run is a run of the connective.** -/
theorem shape_ne_of_mem_operands {k : Connective} {f g : Filter} (h : g ∈ f.operands k) :
    g.shape ≠ .junction k := by
  induction f with
  | binary op l r ihl ihr =>
    rcases logical_or_shape_ne k (binary op l r) with ⟨l', r', heq⟩ | hshape
    · cases heq
      rw [operands_logical, List.mem_append] at h
      exact h.elim ihl ihr
    · rw [operands_of_shape_ne hshape, List.mem_singleton] at h
      rwa [h]
  | _ =>
    rw [List.mem_singleton.1 h]
    exact nofun

/-- The operands of a run compile to the members of a canonical junction. -/
theorem canonicalMembers_expr (k : Connective) (l r : Filter) :
    Expr.CanonicalMembers k (l.expr.members k ++ r.expr.members k) where
  two_le_length := by
    have hl := List.length_pos_iff.2 (l.members_expr_ne_nil k)
    have hr := List.length_pos_iff.2 (r.members_expr_ne_nil k)
    rw [List.length_append]
    omega
  shape_ne := by
    -- a side that is a run itself gives its operands, and these are no runs
    rw [members_expr, members_expr, ← List.map_append, ← operands_logical, List.forall_mem_map]
    intro g hg
    rw [shape_expr]
    exact shape_ne_of_mem_operands hg
  isNullValue := by
    rw [members_expr, members_expr, ← List.map_append, List.forall_mem_map]
    exact fun g _ => g.isNullValue_expr

/-- **Every node of the expression of a filter is canonical.** -/
theorem every_canonical_expr (f : Filter) : f.expr.Every Expr.Canonical := by
  induction f with
  | binary op l r ihl ihr =>
    cases op with
    | logical k =>
      show (Expr.ofMembers k (l.expr.members k ++ r.expr.members k)).Every _
      rw [Expr.every_ofMembers, Expr.canonical_ofMembers, List.forall_mem_append]
      exact ⟨canonicalMembers_expr k l r, fun _ => ihl.of_mem_members, fun _ => ihr.of_mem_members⟩
    | comparison c =>
      rw [expr_comparison]
      exact Expr.every_canonical_compared c ihl ihr l.isNullValue_expr r.isNullValue_expr
  | not f ih => exact Expr.every_not.2 ⟨f.isNullValue_expr, ih⟩
  | identifier path | integer digits | string s => exact List.forall_mem_singleton.2 trivial
  | null => exact Expr.every_raw.2 ⟨.inl ⟨rfl, rfl⟩, nofun⟩

end Filter

/-- **Compiled expressions are canonical.** Every filter compiles to an expression
that is not the value `NULL` and whose nodes are all canonical: its junctions are
flat and have two members at least, its comparisons are those of a name with a
value, which is `NULL` only where it is tested for, and what is raw in it is the
word `NULL` or a comparison that could be none of SQL. -/
theorem compile_canonical (f : Filter) :
    ∃ e, f.compile.value = some e ∧ e.isNullValue = false ∧ e.Every Expr.Canonical := by
  refine ⟨f.expr, ?_, f.isNullValue_expr, f.every_canonical_expr⟩
  rw [Filter.compile_eq]

end FilterSql
