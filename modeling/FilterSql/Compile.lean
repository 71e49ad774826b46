import FilterSql.Event
import FilterSql.Sql.Select

/-!
# From filters to SQL

A filter becomes a SQL expression whose literals are bound values. A comparison
between a column and a literal is a comparison of SQL; `null` is such a literal
only for `eq` and `ne`, which become tests for `NULL`. Any other comparison
joins the two sides, whatever they are, by a raw template.

A run of one connective is a left spine as deep as the run is long, so it is
first laid out as the list of its operands (`Filter.spine`), which are compiled
one after the other and joined from the left. A part without a SQL form would
be left out of the run it stands in and reported.
-/

namespace FilterSql

namespace Filter

/-- **The operands of a run of one connective**, from left to right: those of
the left spine of a filter, and then `after`. -/
def spine (c : Connective) (after : List Filter) : Filter → List Filter
  | binary (.logical c') l r =>
    if c' = c then spine c (r :: after) l else binary (.logical c') l r :: after
  | f => f :: after

/-- An operand of a run is no larger than the filter the run is laid out
from, unless it comes after it. -/
theorem size_le_of_mem_spine {c : Connective} {after : List Filter} {f g : Filter}
    (h : g ∈ spine c after f) : g ∈ after ∨ g.size ≤ f.size := by
  fun_induction spine c after f with
  | case1 after l r ih =>
    rcases ih h with h | h
    · rcases List.mem_cons.1 h with rfl | h
      · exact .inr (by simp only [size]; omega)
      · exact .inl h
    · exact .inr (by simp only [size]; omega)
  | case2 after c' l r hc =>
    rcases List.mem_cons.1 h with rfl | h
    · exact .inr (Nat.le_refl _)
    · exact .inl h
  | case3 after f hf =>
    rcases List.mem_cons.1 h with rfl | h
    · exact .inr (Nat.le_refl _)
    · exact .inl h

/-- The operands of a run are smaller than the run. -/
theorem size_lt_of_mem_spine {c : Connective} {l r g : Filter} (h : g ∈ spine c [r] l) :
    g.size < (binary (.logical c) l r).size := by
  rcases size_le_of_mem_spine h with h | h
  · obtain rfl : g = r := by simpa using h
    simp only [size]
    omega
  · simp only [size]
    omega

end Filter

namespace Compile

/-- The value bound for an integer literal, reported with its kind. -/
def literal (digits : String) : Logged Value := do
  let v := Value.ofDigits digits
  Logged.log (.bound digits v.kind)
  return v

/-- The expression, or nothing and a report of why it could not be built. -/
def built : Except BuildError Expr → Logged (Option Expr)
  | .ok e => return some e
  | .error err => do
    Logged.log (.droppedRaw err)
    return none

/-- Two operands joined by a connective. An operand that is missing is
reported, and the other stands for both. -/
def join (c : Connective) : Option Expr → Option Expr → Logged (Option Expr)
  | some l, some r =>
    return some (match c with
      | .and => l.both r
      | .or => l.either r)
  | some e, none | none, some e => do
    Logged.log (.droppedOperand c)
    return some e
  | none, none => do
    Logged.log (.droppedOperands c)
    return none

/-- The comparison of a column with a literal, if the two sides are such. -/
def leaf? (c : Comparator) : Filter → Filter → Option (Logged Expr)
  | .identifier path, .integer digits => some do
    return .compare (.column path) c (.value (← literal digits))
  | .identifier path, .string s => some do
    return .compare (.column path) c (.value (.string s))
  | .identifier path, .null =>
    if c.isEquality then some do return .compare (.column path) c (.value .null) else none
  | _, _ => none

end Compile

namespace Filter

open Compile

/-- **The SQL expression of a filter**, with the events on the way to it. -/
def compile : Filter → Logged (Option Expr)
  | binary (.logical c) l r =>
    match _h : spine c [r] l with
    | [] => pure none
    | first :: rest => do
      let e ← compile first
      rest.attach.foldlM (fun acc ⟨f, _hf⟩ => do join c acc (← compile f)) e
  | binary (.comparison c) l r =>
    match leaf? c l r with
    | some leaf => do return some (← leaf)
    | none => do
      match ← compile l, ← compile r with
      | some a, some b => do
        Logged.log (.comparedRaw l c r)
        built (Expr.rawComparison? a c b)
      | _, _ => do
        Logged.log (.droppedComparison l c r)
        return none
  | not f => do return (← compile f).map Expr.not
  | identifier path => return some (.column path)
  | integer digits => do return some (.value (← literal digits))
  | string s => return some (.value (.string s))
  | null => built (Expr.keyword? "NULL")
termination_by f => f.size
decreasing_by
  · exact size_lt_of_mem_spine (_h ▸ List.mem_cons_self)
  · exact size_lt_of_mem_spine (_h ▸ List.mem_cons_of_mem _ _hf)
  · simp only [size]; omega
  · simp only [size]; omega
  · simp only [size]; omega

/-- The operands of a run, compiled one after the other and joined from the
left. -/
def compileRun (c : Connective) : List Filter → Logged (Option Expr)
  | [] => pure none
  | first :: rest => do
    let e ← compile first
    rest.foldlM (fun acc f => do join c acc (← compile f)) e

/-- **A run is compiled operand by operand.** -/
theorem compile_logical (c : Connective) (l r : Filter) :
    compile (binary (.logical c) l r) = compileRun c (spine c [r] l) := by
  rw [compile]
  split
  · rename_i h; simp [h, compileRun]
  · rename_i first rest h
    rw [h, compileRun]
    simp

end Filter

namespace Restriction

/-- **The restriction a filter stands for**, with the events on the way to it.
No filter is no restriction. -/
def ofFilter : Option Filter → Logged Restriction
  | none => return ⟨none⟩
  | some f => do return ⟨← f.compile⟩

end Restriction

end FilterSql
