import FilterSql.Proofs.Compile
import FilterSql.Proofs.Sql.Placeholders
import Mathlib

/-!
# Compilation leaves nothing out

Compilation is written so that a part without a SQL form could be left out: an
operand of a connective, a comparison, a raw expression that fails the check of
its template. Each of these would be reported, and the filter would keep more
rows than it says.

None of it ever happens. `Filter.expr` is the expression of a filter by a plain
recursion in which nothing can be missing, and `Filter.reports` are the events
of a walk in which nothing is left out. Compilation gives exactly these two
(`Filter.compile_eq`), whatever the filter. So a statement about what a filter
compiles to is a statement about `Filter.expr`, and that is a structural
induction without monad, fold or missing values.
-/

namespace FilterSql

namespace Logged

@[simp] theorem events_map {α β : Type} (g : α → β) (x : Logged α) :
    (g <$> x).events = x.events :=
  List.append_nil x.events

end Logged

namespace Expr

/-- **Two expressions as one flat junction.** -/
def joined (k : Connective) (l r : Expr) : Expr :=
  ofMembers k (l.members k ++ r.members k)

/-- A flat junction is not empty if a side of it is not. -/
theorem members_joined_ne_nil {k : Connective} {l : Expr} (h : l.members k ≠ []) (r : Expr)
    (k' : Connective) : (joined k l r).members k' ≠ [] := by
  refine members_ne_nil ?_ ?_ k' <;> cases k <;> simp [joined, ofMembers, h]

theorem plain_ofMembers_iff {k : Connective} {es : List Expr} :
    (ofMembers k es).Plain ↔ ∀ e ∈ es, e.Plain := by
  constructor
  · intro h
    generalize hx : ofMembers k es = x at h
    cases h with
    | and hs =>
      cases k <;> cases hx
      exact hs
    | or hs =>
      cases k <;> cases hx
      exact hs
    | rawComparison _ _ h =>
      rw [rawComparison?_eq] at h
      cases h
      cases k <;> cases hx
    | null h =>
      rw [keyword?_null] at h
      cases h
      cases k <;> cases hx
    | _ => cases k <;> cases hx
  · intro hs
    cases k with
    | and => exact .and hs
    | or => exact .or hs

theorem Plain.of_mem_members {e x : Expr} {k : Connective} (he : e.Plain)
    (hx : x ∈ e.members k) : x.Plain := by
  rcases members_cases k e with hjunction | hself
  · rw [hjunction, plain_ofMembers_iff] at he
    exact he x hx
  · rw [hself, List.mem_singleton] at hx
    rwa [hx]

theorem Plain.joined {l r : Expr} (hl : l.Plain) (hr : r.Plain) (k : Connective) :
    (Expr.joined k l r).Plain := by
  unfold Expr.joined
  rw [plain_ofMembers_iff, List.forall_mem_append]
  exact ⟨fun _ => hl.of_mem_members, fun _ => hr.of_mem_members⟩

section Every

variable {p : Expr → Prop} {k : Connective} {l r e x : Expr}

theorem every_ofMembers {es : List Expr} :
    (ofMembers k es).Every p ↔ p (ofMembers k es) ∧ ∀ e ∈ es, e.Every p := by
  cases k with
  | and => exact every_and
  | or => exact every_or

theorem Every.of_mem_members (he : e.Every p) (hx : x ∈ e.members k) : x.Every p := by
  rcases members_cases k e with hjunction | hself
  · rw [hjunction, every_ofMembers] at he
    exact he.2 x hx
  · rw [hself, List.mem_singleton] at hx
    rwa [hx]

/-- The nodes of a flat junction are so if those of its two sides are, and
junctions. -/
theorem Every.joined (hp : ∀ k es, p (ofMembers k es)) (hl : l.Every p) (hr : r.Every p)
    (k : Connective) : (Expr.joined k l r).Every p := by
  unfold Expr.joined
  rw [every_ofMembers, List.forall_mem_append]
  exact ⟨hp k _, fun _ => hl.of_mem_members, fun _ => hr.of_mem_members⟩

end Every

/-- The raw expressions of a plain expression pass the check of their
templates. -/
theorem Plain.every_checked {e : Expr} (he : e.Plain) : e.Every Checked := by
  induction he with
  | name n => exact List.forall_mem_singleton.2 trivial
  | value v => exact List.forall_mem_singleton.2 trivial
  | compare o _ _ ihl ihr => exact every_compare.2 ⟨trivial, ihl, ihr⟩
  | and _ ih => exact every_and.2 ⟨trivial, ih⟩
  | or _ ih => exact every_or.2 ⟨trivial, ih⟩
  | not _ ih => exact every_not.2 ⟨trivial, ih⟩
  | @rawComparison l r e o _ _ h ihl ihr =>
    rw [rawComparison?_eq] at h
    cases h
    refine every_raw.2 ⟨?_, by simp [ihl, ihr]⟩
    show placeholders (comparisonTemplate o) = 2
    cases o <;> rfl
  | null h =>
    rw [keyword?_null] at h
    cases h
    exact every_raw.2 ⟨rfl, by simp⟩

end Expr

namespace Filter

open Compile

/-! ## The expression of a filter -/

/-- No value that is bound for digits is `NULL`. -/
theorem isNullValue_ofDigits (digits : String) :
    (Expr.value (Value.ofDigits digits)).isNullValue = false := by
  unfold Value.ofDigits
  repeat' split <;> try rfl

/-- The column and the value of a comparison between a column and a literal.
The literal `null` is one only where it is tested for. -/
def columnAndValue? (c : Comparator) : Filter → Filter → Option (String × Value)
  | identifier path, integer digits => some (path, .ofDigits digits)
  | identifier path, string s => some (path, .string s)
  | identifier path, null => if c.isEquality then some (path, .null) else none
  | _, _ => none

/-- The expression of a comparison, from those of its sides: they are used
unless it is between a column and a literal. -/
def compared (c : Comparator) (l r : Filter) (x y : Expr) : Expr :=
  match columnAndValue? c l r with
  | some (path, v) => .compare (.column path) c (.value v)
  | none => .raw (Expr.comparisonTemplate c) [x, y]

/-- **The expression of a filter**, from those of its operands. -/
def expr : Filter → Expr
  | binary (.logical k) l r => .joined k l.expr r.expr
  | binary (.comparison c) l r => compared c l r l.expr r.expr
  | not f => .not f.expr
  | identifier path => .column path
  | integer digits => .value (.ofDigits digits)
  | string s => .value (.string s)
  | null => .raw "NULL" []

/-- **The events of a filter**, in the order of its leaves: the kind of each
integer literal, and after its sides each comparison that is not between a
column and a literal. -/
def reports : Filter → List Event
  | binary (.logical _) l r => l.reports ++ r.reports
  | binary (.comparison c) l r =>
    l.reports ++ r.reports ++
      if (columnAndValue? c l r).isSome then [] else [.comparedRaw l c r]
  | not f => f.reports
  | integer digits => [.bound digits (Value.ofDigits digits).kind]
  | identifier _ | string _ | null => []

theorem leaf?_eq (c : Comparator) (l r : Filter) :
    leaf? c l r = (columnAndValue? c l r).map fun (path, v) =>
      ⟨.compare (.column path) c (.value v), l.reports ++ r.reports⟩ := by
  fun_cases columnAndValue? c l r with
  | case1 path digits => rfl
  | case2 path s => rfl
  | case3 path h =>
    rw [leaf?, if_pos h]
    rfl
  | case4 path h => simp [leaf?, h]
  | case5 l r h1 h2 h3 => simp [leaf?]

/-- **Compilation gives the expression and the events of the filter.** -/
theorem compile_eq (f : Filter) : f.compile = ⟨some f.expr, f.reports⟩ := by
  induction f with
  | binary op l r ihl ihr =>
    cases op with
    | logical k =>
      rw [compile_connective, ihl, ihr]
      refine Logged.ext ?_ ?_
      · cases k <;> rfl
      · cases k <;> simp [join, reports]
    | comparison c =>
      rw [compile, leaf?_eq, expr, compared, reports]
      cases columnAndValue? c l r with
      | some leaf => exact Logged.ext rfl (by simp)
      | none =>
        rw [ihl, ihr]
        exact Logged.ext (by simp [Expr.rawComparison?_eq, built])
          (by simp [Expr.rawComparison?_eq, built])
  | not f ih =>
    rw [compile, ih]
    exact Logged.ext rfl (by simp [reports])
  | integer digits | identifier path | string s | null =>
    rw [compile]
    rfl

/-! ## What holds of every compiled filter -/

/-- **The expression of a filter is plain**: it is read as one predicate, and no
template in it fails its check. -/
theorem plain_expr (f : Filter) : f.expr.Plain := by
  induction f with
  | binary op l r ihl ihr =>
    cases op with
    | logical k => exact ihl.joined ihr k
    | comparison c =>
      rw [expr, compared]
      split
      · exact .compare c (.name _) (.value _)
      · exact .rawComparison ihl ihr (Expr.rawComparison?_eq _ _ _)
  | not f ih => exact .not ih
  | identifier path => exact .name _
  | integer digits => exact .value _
  | string s => exact .value _
  | null => exact .null Expr.keyword?_null

/-- No junction in the expression of a filter is empty. -/
theorem members_expr_ne_nil (f : Filter) (k : Connective) : f.expr.members k ≠ [] := by
  induction f generalizing k with
  | binary op l r ihl _ =>
    cases op with
    | logical k' => exact Expr.members_joined_ne_nil (ihl k') r.expr k
    | comparison c =>
      rw [expr, compared]
      split <;> exact Expr.members_ne_nil (by simp) (by simp) k
  | _ => exact Expr.members_ne_nil (by simp [expr, Expr.column]) (by simp [expr, Expr.column]) k

end Filter

/-- **The restriction of a filter** is its expression; without a filter there
is none. -/
theorem Restriction.value_ofFilter (f : Option Filter) :
    (Restriction.ofFilter f).value = ⟨f.map Filter.expr⟩ := by
  cases f with
  | none => rfl
  | some f =>
    show Restriction.mk f.compile.value = _
    rw [Filter.compile_eq]
    rfl

end FilterSql
