import FilterSql.Compile
import FilterSql.Proofs.Sql.Rendering
import FilterSql.Sql.Truth
import Mathlib

/-!
# Compilation as a plain recursion

A run of one connective is compiled from the list of its operands. Since they
are joined from the left, and the run is a left spine, the result is the one of
the plain recursion: the two sides of a connective are compiled and then joined
(`Filter.compile_connective`), and the whole of compilation is the recursion
that takes a filter node by node (`Filter.compile_eq_compilePairwise`), in what
it gives and in what it reports. So every statement about compilation is an
induction on the filter.
-/

namespace FilterSql

/-! ## Connectives on truth values -/

namespace Connective

/-- What a connective makes of two truth values. -/
def truth : Connective → Truth → Truth → Truth
  | .and => Truth.and
  | .or => Truth.or

/-- What a connective makes of some truth values. -/
def truths : Connective → List Truth → Truth
  | .and => Truth.all
  | .or => Truth.any

theorem truth_assoc (k : Connective) (a b c : Truth) :
    k.truth (k.truth a b) c = k.truth a (k.truth b c) := by
  cases k with
  | and => exact Truth.and_assoc a b c
  | or => exact Truth.or_assoc a b c

@[simp] theorem truths_cons (k : Connective) (t : Truth) (ts : List Truth) :
    k.truths (t :: ts) = k.truth t (k.truths ts) := by
  cases k <;> rfl

/-- The connective of nothing is neutral. -/
@[simp] theorem truth_truths_nil (k : Connective) (t : Truth) : k.truth t (k.truths []) = t := by
  cases k <;> cases t <;> rfl

@[simp] theorem truths_nil_truth (k : Connective) (t : Truth) : k.truth (k.truths []) t = t := by
  cases k <;> cases t <;> rfl

theorem truths_append (k : Connective) (ts us : List Truth) :
    k.truths (ts ++ us) = k.truth (k.truths ts) (k.truths us) := by
  induction ts with
  | nil => rw [List.nil_append, truths_nil_truth]
  | cons t ts ih => rw [List.cons_append, truths_cons, ih, truths_cons, truth_assoc]

end Connective

/-! ## The paths of a filter -/

namespace Filter

/-- The paths in a filter, from left to right. -/
def paths : Filter → List String
  | binary _ l r => l.paths ++ r.paths
  | not f => f.paths
  | identifier path => [path]
  | integer _ | string _ | null => []

end Filter

/-! ## Compilation as a plain recursion -/

@[simp] theorem Logged.value_map {α β : Type} (g : α → β) (x : Logged α) :
    (g <$> x).value = g x.value := rfl

namespace Filter

open Compile

theorem compileRun_spine (k : Connective) (after : List Filter) (f : Filter) :
    compileRun k (spine k after f)
      = compile f >>= after.foldlM (fun acc g => do join k acc (← compile g)) := by
  induction f generalizing after with
  | binary op l r ihl _ =>
    cases op with
    | logical k' =>
      by_cases hk : k' = k
      · -- the spine goes on, and the last operand of the run is put aside
        subst hk
        rw [spine, if_pos rfl, ihl, compile_logical, ihl]
        simp [List.foldlM_cons]
      · rw [spine, if_neg hk]
        rfl
    | comparison c => rfl
  | _ => rfl

/-- **The two sides of a connective are compiled and joined.** -/
theorem compile_connective (k : Connective) (l r : Filter) :
    compile (binary (.logical k) l r) = (do join k (← compile l) (← compile r)) := by
  rw [compile_logical, compileRun_spine]
  simp [List.foldlM_cons]

/-- **A filter compiled node by node**: the sides of a connective are compiled,
the left one before the right one, and then joined, however long the run is that
they stand in. -/
def compilePairwise : Filter → Logged (Option Expr)
  | binary (.logical k) l r => do join k (← l.compilePairwise) (← r.compilePairwise)
  | binary (.comparison c) l r =>
    match leaf? c l r with
    | some leaf => do return some (← leaf)
    | none => do
      match ← l.compilePairwise, ← r.compilePairwise with
      | some a, some b => do
        Logged.log (.comparedRaw l c r)
        built (Expr.rawComparison? a c b)
      | _, _ => do
        Logged.log (.droppedComparison l c r)
        return none
  | not f => do return (← f.compilePairwise).map Expr.not
  | identifier path => return some (.column path)
  | integer digits => do return some (.value (← literal digits))
  | string s => return some (.value (.string s))
  | null => built (Expr.keyword? "NULL")

/-- **Laying out the runs changes nothing.** Compiling the operands of a run one
after the other gives the same expression, or none, and reports the same events
in the same order as compiling the filter node by node. -/
theorem compile_eq_compilePairwise (f : Filter) : f.compile = f.compilePairwise := by
  induction f with
  | binary op l r ihl ihr =>
    cases op with
    | logical k => rw [compile_connective, ihl, ihr, compilePairwise]
    | comparison c =>
      rw [compile, ihl, ihr]
      rfl
  | not f ih => rw [compile, ih, compilePairwise]
  | identifier path | integer digits | string s | null => rw [compile, compilePairwise]

end Filter

/-! ## Junctions and their members -/

namespace Expr

open Condition

/-- The junction of some members. -/
def ofMembers : Connective → List Expr → Expr
  | .and => and
  | .or => or

/-- The members of a junction; any other expression is its own only member. -/
def members : Connective → Expr → List Expr
  | .and => conjuncts
  | .or => disjuncts

/-- What a junction without members states. -/
def emptyJunction : Connective → Condition
  | .and => .compare (.numeral 1) .eq (.numeral 1)
  | .or => .compare (.numeral 1) .eq (.numeral 0)

theorem members_cases (k : Connective) (e : Expr) :
    e = ofMembers k (e.members k) ∨ e.members k = [e] := by
  cases k <;> cases e <;> simp [ofMembers, members, conjuncts, disjuncts]

theorem members_ne_nil {e : Expr} (hand : e ≠ and []) (hor : e ≠ or []) (k : Connective) :
    e.members k ≠ [] := by
  cases k <;> cases e <;> simp_all [members, conjuncts, disjuncts]

theorem condition?_ofMembers (k : Connective) (es : List Expr) :
    (ofMembers k es).condition? = (conditions? es).map (junction (Sql.join k) (emptyJunction k)) := by
  cases k <;> simp [ofMembers, condition?, emptyJunction, Sql.join]

end Expr

end FilterSql
