import FilterSql.Proofs.Compile
import FilterSql.Proofs.Sql.Placeholders
import FilterSql.Sql.Engine
import Mathlib

/-!
# The meaning of an expression and of its text

The text of an expression is not always the expression: a negated comparison is
written as the complementary one. With two truth values the two would plainly
be the same. With three they are the same because a comparison with a missing
value is unknown, and so is its negation; and the tests for `NULL`, which are
never unknown, are each other's complements.

Here an expression has a meaning of its own, by its tree: Kleene's connectives,
two-valued tests for `NULL`, and comparisons (`Engine.value?`). The main
statement is `value?_eq_eval`: in every database that compares values by an
order and takes a comparison with nothing as unknown, this is the value of the
condition that the text states, at every depth and in every row.

What is asked of the database is an `Engine`. The one that the table of users
runs on is among them, and what conditions are worth there can be written down
without an engine (`Engine.eval_sqlite`).
-/

namespace FilterSql

open Sql Condition

namespace Engine

variable {α : Type}

/-- The truth value of a test for `NULL`, which is never unknown. -/
def test (E : Engine α) (c : Comparator) (a : α) : Truth :=
  .ofBool (c.holds (if E.isNull a then .eq else .gt))

/-- The item of a junction: of a single member, that member. -/
def joined (E : Engine α) (k : Connective) : List α → α
  | [a] => a
  | as => E.ofTruth (k.truths (as.map E.truth))

/-! ## The meaning of an expression -/

/-- What a comparison makes of its two sides. -/
def compared (E : Engine α) (c : Comparator) (r : Expr) (a b : α) : α :=
  E.ofTruth (if Expr.isNullTest c r then E.test c a else E.compare c a b)

/-- What a template makes of its arguments, if it is that of a comparison or the
word `NULL`. -/
def ofTemplate? (E : Engine α) (template : String) : List α → Option α
  | [] => if template = "NULL" then some E.null else none
  | [a, b] => (Comparator.all.find? (Expr.comparisonTemplate · = template)).map
      fun c => E.ofTruth (E.compare c a b)
  | _ => none

mutual

/-- **The value of an expression** by its tree, where `row` gives what names
stand for. Any other template than those of comparisons has none. -/
def value? (E : Engine α) (row : QualifiedName → α) : Expr → Option α
  | .name n => some (row n)
  | .value v => some (E.param v)
  | .compare l c r => do return E.compared c r (← E.value? row l) (← E.value? row r)
  | .and es => (E.values? row es).map (E.joined .and)
  | .or es => (E.values? row es).map (E.joined .or)
  | .not e => (E.value? row e).map fun a => E.ofTruth (E.truth a).not
  | .raw template args => (E.values? row args).bind (E.ofTemplate? template)

/-- The values of some expressions, if all of them have one. -/
def values? (E : Engine α) (row : QualifiedName → α) : List Expr → Option (List α)
  | [] => some []
  | e :: es => do return (← E.value? row e) :: (← E.values? row es)

end

end Engine

/-! ## The table of users -/

/-- **The truth value of a comparison** in the table of users. -/
def Operand.compare (c : Comparator) (a b : Operand) : Truth :=
  match a.cell, b.cell with
  | .null, _ | _, .null => .unknown
  | _, _ => .ofBool (c.holds ((a.beside b).order (b.beside a)))

namespace Condition

mutual

/-- **The value of a condition** in the table of users, where `row` gives the
operands that names stand for. -/
def eval (row : List String → Operand) : Condition → Operand
  | name parts => row parts
  | param v => .plain v.cell
  | null => .plain .null
  | numeral n => .plain (.integer n)
  | compare l c r => .plain (.ofTruth (Operand.compare c (l.eval row) (r.eval row)))
  | isNull e => .plain (.ofTruth (.ofBool ((e.eval row).cell = .null)))
  | isNotNull e => .plain (.ofTruth (.ofBool ((e.eval row).cell ≠ .null)))
  | and es => .plain (.ofTruth (.all (evalAll row es)))
  | or es => .plain (.ofTruth (.any (evalAll row es)))
  | not e => .plain (.ofTruth (e.eval row).truth.not)

/-- The truth values of some conditions. -/
def evalAll (row : List String → Operand) : List Condition → List Truth
  | [] => []
  | e :: es => (e.eval row).truth :: evalAll row es

end

end Condition

namespace Engine

/-- **The database of the table of users.** -/
def sqlite : Engine Operand := Database.sqlite.engine

theorem compare_sqlite (c : Comparator) (a b : Operand) :
    sqlite.compare c a b = Operand.compare c a b := by
  have hcompare : sqlite.compare c a b = if decide (a.cell = .null) || decide (b.cell = .null)
      then .unknown else .ofBool (c.holds ((a.beside b).order (b.beside a))) := rfl
  rw [hcompare]
  match a, b with
  | ⟨.null, _⟩, _ => rfl
  | ⟨.integer _, _⟩, ⟨.null, _⟩ | ⟨.real _, _⟩, ⟨.null, _⟩ | ⟨.text _, _⟩, ⟨.null, _⟩ => rfl
  | ⟨.integer _, _⟩, ⟨.integer _, _⟩ | ⟨.integer _, _⟩, ⟨.real _, _⟩
  | ⟨.integer _, _⟩, ⟨.text _, _⟩ | ⟨.real _, _⟩, ⟨.integer _, _⟩ | ⟨.real _, _⟩, ⟨.real _, _⟩
  | ⟨.real _, _⟩, ⟨.text _, _⟩ | ⟨.text _, _⟩, ⟨.integer _, _⟩ | ⟨.text _, _⟩, ⟨.real _, _⟩
  | ⟨.text _, _⟩, ⟨.text _, _⟩ => rfl

mutual

/-- **The conditions of the table of users are evaluated in this database.** -/
theorem eval_sqlite (row : List String → Operand) (c : Condition) :
    sqlite.eval row c = c.eval row := by
  match c with
  | .name _ | .param _ | .null | .numeral _ => rfl
  | .compare l c r =>
    rw [Engine.eval, Condition.eval, compare_sqlite, eval_sqlite row l, eval_sqlite row r]
    rfl
  | .isNull e =>
    rw [Engine.eval, Condition.eval, eval_sqlite row e]
    rfl
  | .isNotNull e =>
    rw [Engine.eval, Condition.eval, eval_sqlite row e, decide_not]
    rfl
  | .and es =>
    rw [Engine.eval, Condition.eval, evalAll_sqlite row es]
    rfl
  | .or es =>
    rw [Engine.eval, Condition.eval, evalAll_sqlite row es]
    rfl
  | .not e =>
    rw [Engine.eval, Condition.eval, eval_sqlite row e]
    rfl

theorem evalAll_sqlite (row : List String → Operand) (cs : List Condition) :
    sqlite.evalAll row cs = Condition.evalAll row cs := by
  match cs with
  | [] => rw [Engine.evalAll, Condition.evalAll]
  | c :: cs =>
    rw [Engine.evalAll, Condition.evalAll, eval_sqlite row c, evalAll_sqlite row cs]
    rfl

end

/-! ## Complements and junctions -/

variable {α : Type} (E : Engine α)

/-- **The complement of a comparison has the opposite truth value**, and where
the one is unknown, so is the other. -/
theorem compare_negate (c : Comparator) (a b : α) :
    E.compare c.negate a b = (E.compare c a b).not := by
  unfold compare
  split
  · rfl
  · rw [Comparator.holds_negate, Truth.not_ofBool]

/-- **The complement of a test for `NULL` is the opposite test.** -/
theorem test_negate (c : Comparator) (a : α) : E.test c.negate a = (E.test c a).not := by
  unfold test
  rw [Comparator.holds_negate, Truth.not_ofBool]

theorem compared_negate (c : Comparator) (r : Expr) (a b : α) :
    E.compared c.negate r a b = E.ofTruth (E.truth (E.compared c r a b)).not := by
  unfold compared
  rw [truth_ofTruth, Expr.isNullTest, Comparator.isEquality_negate, ← Expr.isNullTest]
  split
  · rw [test_negate]
  · rw [compare_negate]

variable (row : List String → α)

/-- A comparison states what it compares, tests for `NULL` included. -/
theorem eval_comparison (a : Condition) (c : Comparator) (r : Expr) (b : Condition) :
    E.eval row (comparison a c r b) = E.compared c r (E.eval row a) (E.eval row b) := by
  unfold comparison compared Expr.isNullTest
  cases hnull : r.isNullValue with
  | false => cases c <;> simp [Engine.eval]
  | true =>
    cases c with
    | eq | ne =>
      simp only [Engine.eval, test, Comparator.isEquality, Comparator.holds]
      cases E.isNull (E.eval row a) <;> rfl
    | gt | ge | lt | le => simp [Engine.eval, Comparator.isEquality]

/-- **A junction states what its members make**, also if there is one or none. -/
theorem eval_junction (k : Connective) (cs : List Condition) :
    E.eval row (junction (Sql.join k) (Expr.emptyJunction k) cs)
      = E.joined k (cs.map (E.eval row)) := by
  match cs with
  | [] =>
    cases k <;>
      simp [junction, Expr.emptyJunction, Engine.eval, Engine.compare, joined, isNull_numeral,
        order_numeral] <;> rfl
  | [c] => rfl
  | c :: d :: cs =>
    show E.eval row (Sql.join k (c :: d :: cs))
      = E.ofTruth (k.truths (((c :: d :: cs).map (E.eval row)).map E.truth))
    rw [List.map_map]
    cases k <;> simp only [Sql.join, Engine.eval, Connective.truths, evalAll_eq_map] <;> rfl

theorem eval_ofTemplate {template : String} {cs : List Condition} {c : Condition}
    (h : Condition.ofTemplate? template cs = some c) :
    E.ofTemplate? template (cs.map (E.eval row)) = some (E.eval row c) := by
  match cs with
  | [] =>
    simp only [Condition.ofTemplate?] at h
    split at h
    · rename_i hnull
      obtain rfl := Option.some.inj h
      rw [List.map_nil, ofTemplate?, if_pos hnull, Engine.eval]
    · cases h
  | [a, b] =>
    obtain ⟨o, ho, rfl⟩ := Option.map_eq_some_iff.1 h
    rw [List.map_cons, List.map_cons, List.map_nil, ofTemplate?, ho, Engine.eval]
    rfl
  | [_] | _ :: _ :: _ :: _ => cases h

/-! ## The meaning of the text -/

theorem values?_of_conditions? {es : List Expr} {cs : List Condition}
    (h : ∀ e ∈ es, ∀ c, e.condition? = some c →
      E.value? (row ∘ QualifiedName.parts) e = some (E.eval row c))
    (hcs : Expr.conditions? es = some cs) :
    E.values? (row ∘ QualifiedName.parts) es = some (cs.map (E.eval row)) := by
  induction es generalizing cs with
  | nil =>
    obtain rfl : [] = cs := by simpa [Expr.conditions?] using hcs
    rfl
  | cons e es ih =>
    obtain ⟨c, ds, hc, hds, rfl⟩ := Expr.exists_of_conditions?_cons hcs
    have hrest := ih (fun e he => h e (List.mem_cons_of_mem _ he)) hds
    simp [values?, h e List.mem_cons_self c hc, hrest]

theorem value?_ofMembers (row : QualifiedName → α) (k : Connective) (es : List Expr) :
    E.value? row (Expr.ofMembers k es) = (E.values? row es).map (E.joined k) := by
  cases k <;> simp only [Expr.ofMembers, value?]

/-- **A negated comparison has the value of the complementary one**, in every
row. -/
theorem value?_not_compare (row : QualifiedName → α) (l : Expr) (o : Comparator) (r : Expr) :
    E.value? row (.not (.compare l o r)) = E.value? row (.compare l o.negate r) := by
  simp only [value?, compared_negate]
  cases E.value? row l <;> cases E.value? row r <;> rfl

/-- **An expression has the value of the condition that its text states.** The
induction is along the way in which it is written, so that a negated comparison
is met as a whole. -/
theorem value?_of_condition? {e : Expr} {c : Condition} (h : e.condition? = some c) :
    E.value? (row ∘ QualifiedName.parts) e = some (E.eval row c) := by
  have hjunction : ∀ (k : Connective) (es : List Expr), (∀ e ∈ es, ∀ c, e.condition? = some c →
      E.value? (row ∘ QualifiedName.parts) e = some (E.eval row c)) → ∀ c,
      (Expr.ofMembers k es).condition? = some c →
      E.value? (row ∘ QualifiedName.parts) (Expr.ofMembers k es) = some (E.eval row c) := by
    intro k es ih c h
    rw [Expr.condition?_ofMembers] at h
    obtain ⟨cs, hcs, rfl⟩ := Option.map_eq_some_iff.1 h
    rw [value?_ofMembers, E.values?_of_conditions? row ih hcs, eval_junction]
    rfl
  induction e using Expr.writtenInduction generalizing c with
  | name n =>
    obtain rfl := Option.some.inj h
    simp only [value?, Engine.eval, Function.comp_apply]
  | value v =>
    obtain rfl := Option.some.inj h
    simp only [value?, Engine.eval]
  | compare l o r ihl ihr =>
    obtain ⟨a, b, ha, hb, rfl⟩ := Expr.exists_of_condition?_compare h
    simp [value?, ihl ha, ihr hb, eval_comparison]
  | and es ih => exact hjunction .and es (fun e he c => ih e he) c h
  | or es ih => exact hjunction .or es (fun e he c => ih e he) c h
  | not_compare l o r ihl ihr =>
    rw [Expr.condition?_not_compare] at h
    obtain ⟨a, b, ha, hb, rfl⟩ := Expr.exists_of_condition?_compare h
    rw [value?_not_compare]
    simp [value?, ihl ha, ihr hb, eval_comparison]
  | not e hne ih =>
    rw [Expr.condition?_not hne] at h
    obtain ⟨a, ha, rfl⟩ := Option.map_eq_some_iff.1 h
    simp [value?, ih ha, Engine.eval]
  | raw template args ih =>
    simp only [Expr.condition?] at h
    obtain ⟨cs, hcs, hc⟩ := Option.bind_eq_some_iff.1 h
    rw [value?, E.values?_of_conditions? row (fun e he c => ih e he) hcs]
    exact E.eval_ofTemplate row hc

end Engine

/-- **Complements of comparisons are sound in three-valued logic.** The text of a
plain expression is read, in every dialect, as one condition. In every database
this condition has the value that the expression has by its tree, whatever its
names stand for, and every way of giving items to names is one of giving items
to their parts. The table of users is evaluated in one of these databases. -/
theorem value?_eq_eval {e : Expr} (he : e.Plain) :
    ∃ c, (∀ (d : Dialect) (c' : Condition), ReadsAs d (e.render d) c' ↔ c' = c)
      ∧ (∀ (α : Type) (E : Engine α) (row : QualifiedName → α),
          (∃ row' : List String → α, ∀ n : QualifiedName, row' n.parts = row n)
          ∧ ∀ row' : List String → α, (∀ n : QualifiedName, row' n.parts = row n) →
            E.value? row e = some (E.eval row' c))
      ∧ ∀ row : List String → Operand, Engine.sqlite.eval row c = c.eval row := by
  obtain ⟨c, hc⟩ : ∃ c, e.condition? = some c := by
    obtain ⟨⟨c, hc⟩, -⟩ := he.written .sqlite
    exact ⟨c, hc.condition⟩
  refine ⟨c, fun d c' => ⟨fun h => ?_, ?_⟩, fun α E row => ⟨?_, fun row' hrow => ?_⟩,
    fun row => Engine.eval_sqlite row c⟩
  · obtain ⟨⟨a, ha⟩, -⟩ := he.written d
    obtain rfl := Option.some.inj (hc.symm.trans ha.condition)
    exact h.unique ha.readsAs
  · rintro rfl
    obtain ⟨⟨a, ha⟩, -⟩ := he.written d
    obtain rfl := Option.some.inj (hc.symm.trans ha.condition)
    exact ha.readsAs
  · exact ⟨Function.extend QualifiedName.parts row fun _ => E.null,
      QualifiedName.parts_injective.extend_apply row _⟩
  · obtain rfl : row' ∘ QualifiedName.parts = row := funext hrow
    exact E.value?_of_condition? row' hc

/-- A negated disjunction of two negated comparisons, one of them with `NULL` and
the other a test for it that is itself compared. Where the second column is
missing, the first comparison is unknown, the test fails, and so the whole is
unknown. -/
theorem value?_eq_eval_of_missing :
    ∃ e : Expr, e.Plain ∧ ∃ c,
      (∀ c', ReadsAs .mysql
          ⟨"NOT (\x60a\x60 <= ? OR (\x60b\x60 IS NOT NULL) = ?)", [.null, .int 1]⟩ c' ↔ c' = c)
        ∧ c.eval (fun parts => if parts = ["a"] then .plain (.integer 5) else .plain .null)
          = .plain .null := by
  let e : Expr := .not (.or [.not (.compare (.name ⟨none, "a"⟩) .gt (.value .null)),
    .compare (.not (.compare (.name ⟨none, "b"⟩) .eq (.value .null))) .eq (.value (.int 1))])
  have he : e.Plain := by
    refine .not (.or fun x hx => ?_)
    rcases List.mem_pair.1 hx with rfl | rfl
    · exact .not (.compare _ (.name _) (.value _))
    · exact .compare _ (.not (.compare _ (.name _) (.value _))) (.value _)
  obtain ⟨c, hread, hvalue, hsqlite⟩ := value?_eq_eval he
  refine ⟨e, he, c, hread .mysql, ?_⟩
  let row (parts : List String) : Operand :=
    if parts = ["a"] then .plain (.integer 5) else .plain .null
  have hunknown : Engine.sqlite.value? (row ∘ QualifiedName.parts) e = some (.plain .null) := by
    decide
  rw [← hsqlite]
  exact Option.some.inj (((hvalue _ _ _).2 row fun _ => rfl).symm.trans hunknown)

end FilterSql
