import FilterSql.Proofs.Decimal.Rounding
import FilterSql.Proofs.Image
import FilterSql.Proofs.Sql.Meaning
import Mathlib

/-!
# The meaning of a compiled filter

`Filter.eval` evaluates a filter on its tree, with Kleene's connectives,
two-valued tests for `null` and comparisons that are unknown where a side is
missing. A literal stands there for the number that its digits spell
(`Literal.cell`). Between this and what the compiled text states lie the values
that are bound, the flat junctions, the comparisons that are raw and those that
are not, and the complements of negated comparisons.

The last of these is a matter of expressions and not of filters: an expression
has the value of the condition that its text states
(`Engine.value?_of_condition?`), and the names of that condition are its own
(`Expr.names_of_condition?`). So what is left to compare are two trees. The
expression of a filter has the value of the filter (`Filter.value?_expr`), and
with it the condition that the text states (`Filter.eval_of_condition?`). How a
database compares its cells plays no part in any of this.
-/

namespace FilterSql

open Sql Condition

/-! ## The names of a condition -/

namespace Condition

theorem names_junction (k : Connective) (cs : List Condition) :
    (junction (Sql.join k) (Expr.emptyJunction k) cs).names = namesAll cs := by
  match cs with
  | [] => cases k <;> simp [junction, Expr.emptyJunction, names, namesAll]
  | [c] => simp [junction, namesAll]
  | _ :: _ :: _ => cases k <;> simp [junction, Sql.join, names]

/-- A comparison has the names of its two sides. A test for `NULL` has only the
left one, but then there are no names in the other. -/
theorem names_comparison {r : Expr} {b : Condition} (hb : r.condition? = some b) (a : Condition)
    (c : Comparator) : (comparison a c r b).names = a.names ++ b.names := by
  unfold comparison
  cases hnull : r.isNullValue with
  | false => cases c <;> simp only [names]
  | true =>
    have hnone : b.names = [] := by
      unfold Expr.isNullValue at hnull
      split at hnull
      · obtain rfl := Option.some.inj hb
        rfl
      · cases hnull
    cases c <;> simp only [names, hnone, List.append_nil]

theorem names_ofTemplate {template : String} {cs : List Condition} {c : Condition}
    (h : ofTemplate? template cs = some c) : c.names = namesAll cs := by
  match cs with
  | [] =>
    simp only [ofTemplate?] at h
    split at h
    · obtain rfl := Option.some.inj h
      rfl
    · cases h
  | [a, b] =>
    obtain ⟨o, -, rfl⟩ := Option.map_eq_some_iff.1 h
    simp [names, namesAll]
  | [_] | _ :: _ :: _ :: _ => cases h

end Condition

namespace Expr

theorem namesAll_of_conditions? {es : List Expr} {cs : List Condition}
    (h : ∀ e ∈ es, ∀ c, e.condition? = some c → c.names = e.names.map QualifiedName.parts)
    (hcs : conditions? es = some cs) :
    Condition.namesAll cs = (namesAll es).map QualifiedName.parts := by
  induction es generalizing cs with
  | nil =>
    obtain rfl : [] = cs := by simpa [conditions?] using hcs
    rfl
  | cons e es ih =>
    obtain ⟨c, ds, hc, hds, rfl⟩ := exists_of_conditions?_cons hcs
    rw [Condition.namesAll, namesAll, List.map_append, h e List.mem_cons_self c hc,
      ih (fun e he => h e (List.mem_cons_of_mem _ he)) hds]

/-- **The names of the condition that an expression states are those of the
expression**, in the same order. -/
theorem names_of_condition? {e : Expr} {c : Condition} (h : e.condition? = some c) :
    c.names = e.names.map QualifiedName.parts := by
  induction e using writtenInduction generalizing c with
  | name n =>
    obtain rfl := Option.some.inj h
    rfl
  | value v =>
    obtain rfl := Option.some.inj h
    rfl
  | compare l o r ihl ihr =>
    obtain ⟨a, b, ha, hb, rfl⟩ := exists_of_condition?_compare h
    rw [names_comparison hb, ihl ha, ihr hb, names, List.map_append]
  | and es ih =>
    obtain ⟨cs, hcs, rfl⟩ := Option.map_eq_some_iff.1 (condition?_ofMembers .and es ▸ h)
    rw [names_junction, namesAll_of_conditions? (fun e he c => ih e he) hcs, names]
  | or es ih =>
    obtain ⟨cs, hcs, rfl⟩ := Option.map_eq_some_iff.1 (condition?_ofMembers .or es ▸ h)
    rw [names_junction, namesAll_of_conditions? (fun e he c => ih e he) hcs, names]
  | not_compare l o r ihl ihr =>
    rw [condition?_not_compare] at h
    obtain ⟨a, b, ha, hb, rfl⟩ := exists_of_condition?_compare h
    rw [names_comparison hb, ihl ha, ihr hb, names, names, List.map_append]
  | not e hne ih =>
    rw [condition?_not hne] at h
    obtain ⟨a, ha, rfl⟩ := Option.map_eq_some_iff.1 h
    rw [Condition.names, ih ha, names]
  | raw template args ih =>
    simp only [condition?] at h
    obtain ⟨cs, hcs, hc⟩ := Option.bind_eq_some_iff.1 h
    rw [names_ofTemplate hc, namesAll_of_conditions? (fun e he c => ih e he) hcs, names]

end Expr

/-! ## The value of a flat junction -/

namespace Engine

variable {α : Type} (E : Engine α) {row : QualifiedName → α}

/-- **A junction is as true as its connective makes its members**, also if there
is one or none. -/
theorem truth_joined (k : Connective) (as : List α) :
    E.truth (E.joined k as) = k.truths (as.map E.truth) := by
  match as with
  | [] => exact E.truth_ofTruth _
  | [a] => simp [joined]
  | _ :: _ :: _ => exact E.truth_ofTruth _

theorem values?_append (es es' : List Expr) :
    E.values? row (es ++ es') = do return (← E.values? row es) ++ (← E.values? row es') := by
  induction es with
  | nil => simp [values?]
  | cons e es ih => simp [values?, ih, Option.bind_assoc]

/-- The values of the members of an expression, taken together, are as true as
the expression. -/
theorem exists_values_members (k : Connective) {e : Expr} {a : α} (h : E.value? row e = some a)
    (hne : e.members k ≠ []) :
    ∃ x xs, E.values? row (e.members k) = some (x :: xs)
      ∧ k.truths ((x :: xs).map E.truth) = E.truth a := by
  obtain ⟨as, has, htruth⟩ : ∃ as, E.values? row (e.members k) = some as
      ∧ k.truths (as.map E.truth) = E.truth a := by
    rcases Expr.members_cases k e with hjunction | hself
    · rw [hjunction, value?_ofMembers] at h
      obtain ⟨as, has, rfl⟩ := Option.map_eq_some_iff.1 h
      exact ⟨as, has, (E.truth_joined k as).symm⟩
    · exact ⟨[a], by simp [hself, values?, h], by simp⟩
  obtain ⟨x, xs, hmembers⟩ := List.exists_cons_of_ne_nil hne
  rw [hmembers] at has ⊢
  simp only [values?, Option.pure_def, Option.bind_eq_bind, Option.bind_eq_some_iff] at has
  obtain ⟨y, hy, ys, hys, hcons⟩ := has
  obtain rfl : y :: ys = as := by simpa using hcons
  exact ⟨y, ys, by simp [values?, hy, hys], htruth⟩

/-- **A flat junction has the truth value that its connective makes of its two
sides.** A side without members would leave the other one alone, whose value need
not be a truth value. -/
theorem value?_joined (k : Connective) {l r : Expr} {a b : α} (hl : E.value? row l = some a)
    (hr : E.value? row r = some b) (hl' : l.members k ≠ []) (hr' : r.members k ≠ []) :
    E.value? row (Expr.joined k l r) = some (E.ofTruth (k.truth (E.truth a) (E.truth b))) := by
  obtain ⟨x, xs, hxs, htruth⟩ := E.exists_values_members k hl hl'
  obtain ⟨y, ys, hys, htruth'⟩ := E.exists_values_members k hr hr'
  have htwo : E.joined k ((x :: xs) ++ (y :: ys))
      = E.ofTruth (k.truths (((x :: xs) ++ (y :: ys)).map E.truth)) := by
    cases xs <;> rfl
  rw [Expr.joined, value?_ofMembers, values?_append, hxs, hys]
  show some (E.joined k ((x :: xs) ++ (y :: ys))) = _
  rw [htwo, List.map_append, Connective.truths_append, htruth, htruth']

/-- A raw comparison compares the values of its sides. -/
theorem value?_rawComparison (c : Comparator) {l r : Expr} {a b : α}
    (hl : E.value? row l = some a) (hr : E.value? row r = some b) :
    E.value? row (.raw (Expr.comparisonTemplate c) [l, r]) = some (E.ofTruth (E.compare c a b)) := by
  have hfind : Comparator.all.find?
      (Expr.comparisonTemplate · = Expr.comparisonTemplate c) = some c := by
    cases c <;> rfl
  simp [value?, values?, hl, hr, ofTemplate?, hfind]

/-- A comparison with a value that is not `NULL`. -/
theorem compared_of_not_null {v : Value} (hv : (Expr.value v).isNullValue = false) (c : Comparator)
    (a b : α) : E.compared c (.value v) a b = E.ofTruth (E.compare c a b) := by
  rw [compared, Expr.isNullTest, hv, Bool.and_false]
  rfl

/-- The two tests for `NULL`. -/
theorem test_eq_and_ne (a : α) :
    E.test .eq a = .ofBool (E.isNull a) ∧ E.test .ne a = .ofBool !(E.isNull a) := by
  cases h : E.isNull a <;> simp [test, Comparator.holds, h]

end Engine

/-! ## Literals -/

/-- **What a literal stands for in a database.** Digits are the number that they
spell, as long as it fits into 64 bits with a sign. Without a sign it is bound by
its text, and one that is larger still becomes the floating-point number nearest
to it. -/
def Literal.cell : Literal → Cell
  | integer digits =>
    let n := Numeral.placeValue digits.toList
    if n < 2 ^ 63 then .integer n
    else if n < 2 ^ 64 then .text (toString n)
    else .real (.ofRatio false n 1)
  | string s => .text s

/-- A floating-point number that was rounded to is a number. -/
theorem Value.cell_ofRatio (negative : Bool) (num den : Nat) :
    (Value.float (.ofRatio negative num den)).cell = .real (.ofRatio negative num den) := by
  unfold Binary64.ofRatio
  cases Magnitude.nearest? num den <;> rfl

namespace Literal

/-- **The value that is bound for digits stands for the number that they spell.** -/
theorem cell_value_integer {digits : String} (h : Filter.IsInteger digits.toList) :
    (integer digits).value.cell = (integer digits).cell := by
  show (Value.ofDigits digits).cell = _
  rw [Value.ofDigits_eq h, cell, ← Numeral.digitsValue_eq_placeValue]
  generalize Numeral.digitsValue digits.toList = n
  split_ifs with hsigned hunsigned
  · rw [Value.cell, Int64.toInt_ofInt_of_le (by omega) (by omega)]
  · rw [Value.cell, UInt64.toNat_ofNat_of_lt' (by norm_num; omega)]
  · rw [Numeral.toBinary64_whole (by omega), Value.cell_ofRatio]

/-- The values that are bound for the literals of a legible filter. -/
theorem cell_value_of_legible {f : Filter} (hf : f.Every Filter.Legible) {x : Literal}
    (hx : x ∈ f.literals) : x.value.cell = x.cell := by
  cases x with
  | integer digits => exact cell_value_integer ((Filter.leaves_of_legible hf).2 digits hx)
  | string s => rfl

end Literal

/-! ## The value of the expression of a filter -/

namespace Filter

/-- **The value of a filter in a database**, where `column` gives what the paths
stand for. Only `identifier eq null` and `identifier ne null` test for `NULL`;
any other comparison with it is unknown. -/
def eval (D : Database) (column : String → Operand) : Filter → Operand
  | binary (.logical k) l r =>
    .plain (.ofTruth (k.truth (D.truth (l.eval D column)) (D.truth (r.eval D column))))
  | binary (.comparison .eq) (identifier path) null =>
    .plain (.ofTruth (.ofBool ((column path).cell = .null)))
  | binary (.comparison .ne) (identifier path) null =>
    .plain (.ofTruth (.ofBool ((column path).cell ≠ .null)))
  | binary (.comparison c) l r =>
    .plain (.ofTruth (D.engine.compare c (l.eval D column) (r.eval D column)))
  | not f => .plain (.ofTruth (D.truth (f.eval D column)).not)
  | identifier path => column path
  | integer digits => .plain (Literal.integer digits).cell
  | string s => .plain (Literal.string s).cell
  | null => .plain .null

variable (D : Database) {l r : Filter} {c : Comparator}

/-- Any comparison but the tests for `null` compares the values of its sides. -/
theorem eval_comparison (h : ∀ path, l = identifier path → r = null → c.isEquality = false)
    (column : String → Operand) :
    (binary (.comparison c) l r).eval D column
      = .plain (.ofTruth (D.engine.compare c (l.eval D column) (r.eval D column))) := by
  rw [Filter.eval]
  · rintro path rfl rfl rfl
    exact absurd (h path rfl rfl) (by simp [Comparator.isEquality])
  · rintro path rfl rfl rfl
    exact absurd (h path rfl rfl) (by simp [Comparator.isEquality])

/-- A comparison between a column and a literal, with its test for `null`. -/
theorem eval_of_columnAndValue? {path : String} {v : Value} (hr : r.Every Legible)
    (h : columnAndValue? c l r = some (path, v)) (column : String → Operand) :
    (binary (.comparison c) l r).eval D column
      = D.engine.compared c (.value v) (column path) (.plain v.cell) := by
  unfold columnAndValue? at h
  split at h
  · rename_i digits
    cases h
    have hcell : (Value.ofDigits digits).cell = (Literal.integer digits).cell :=
      Literal.cell_value_integer ((every_of_nodes_eq rfl).1 hr)
    rw [Engine.compared_of_not_null _ (isNullValue_ofDigits _), eval_comparison D (by simp), hcell]
    simp only [Filter.eval]
    rfl
  · cases h
    rw [Engine.compared_of_not_null _ rfl, eval_comparison D (by simp)]
    simp only [Filter.eval]
    rfl
  · split at h
    · rename_i hc
      cases h
      rw [Engine.compared, Expr.isNullTest, hc]
      obtain ⟨hnull, hnotNull⟩ := D.engine.test_eq_and_ne (column path)
      rcases Comparator.isEquality_iff.1 hc with rfl | rfl
      · show _ = D.engine.ofTruth (D.engine.test .eq (column path))
        rw [Filter.eval, hnull]
        rfl
      · show _ = D.engine.ofTruth (D.engine.test .ne (column path))
        rw [Filter.eval, hnotNull, decide_not]
        rfl
    · cases h
  · cases h

theorem eval_of_columnAndValue?_eq_none (h : columnAndValue? c l r = none)
    (column : String → Operand) :
    (binary (.comparison c) l r).eval D column
      = .plain (.ofTruth (D.engine.compare c (l.eval D column) (r.eval D column))) := by
  refine eval_comparison D ?_ column
  rintro path rfl rfl
  cases hc : c.isEquality with
  | false => rfl
  | true => simp [columnAndValue?, hc] at h

/-- **The expression of a filter has the value of the filter.** -/
theorem value?_expr (row : QualifiedName → Operand) {f : Filter} (hf : f.Every Legible) :
    D.engine.value? row f.expr = some (f.eval D fun path => row (.ofPath path)) := by
  induction f with
  | binary op l r ihl ihr =>
    obtain ⟨-, hl, hr⟩ := every_binary.1 hf
    cases op with
    | logical k =>
      rw [expr, Engine.value?_joined _ k (ihl hl) (ihr hr) (l.members_expr_ne_nil k)
        (r.members_expr_ne_nil k), Filter.eval]
      rfl
    | comparison c =>
      rw [expr, compared]
      split
      · rename_i path v h
        rw [eval_of_columnAndValue? D hr h]
        simp only [Engine.value?, Expr.column]
        rfl
      · rename_i h
        rw [Engine.value?_rawComparison _ c (ihl hl) (ihr hr),
          eval_of_columnAndValue?_eq_none D h]
        rfl
  | not f ih =>
    rw [expr, Engine.value?, ih (every_not.1 hf).2, Filter.eval]
    rfl
  | integer digits =>
    rw [expr, Engine.value?, Filter.eval,
      ← Literal.cell_value_integer ((every_of_nodes_eq rfl).1 hf)]
    rfl
  | identifier path => simp only [expr, Expr.column, Engine.value?, Filter.eval]
  | string s => simp only [expr, Engine.value?, Filter.eval]; rfl
  | null => rfl

/-! ## What the text of a filter states -/

variable {f : Filter} {a : Condition}

/-- The names in the text of a filter are those of its paths. -/
theorem names_of_condition? (h : f.expr.condition? = some a) :
    a.names = f.paths.map fun path => (QualifiedName.ofPath path).parts := by
  rw [Expr.names_of_condition? h, names_expr, List.map_map]
  rfl

/-- **The text of a filter has the value of the filter**, in every row of every
database. -/
theorem eval_of_condition? (hf : f.Every Legible) (h : f.expr.condition? = some a)
    (row : List String → Operand) :
    D.engine.eval row a = f.eval D fun path => row (QualifiedName.ofPath path).parts := by
  have hvalue := D.engine.value?_of_condition? row h
  rw [value?_expr D _ hf] at hvalue
  exact (Option.some.inj hvalue).symm

end Filter

end FilterSql
