import FilterSql.Proofs.Direct
import FilterSql.Proofs.Filter.Composition
import Mathlib

/-!
# How deep a filter is

A database takes a predicate apart into a tree with two branches at most, and
refuses one that is too deep. A row of operands makes such a tree deep: every
operand of a connective but the first adds a level.

`Filter.depth` is the depth of this tree, told from the filter. It is not the
depth of the filter. Operands of one connective form one row, on whichever side
they are nested, and a negated comparison between a column and a literal is
written as the complementary comparison, without a level of its own.
-/

namespace FilterSql

open Condition Text

namespace Condition

@[simp] theorem deepen_zero (n : Nat) : deepen 0 n = n := if_pos rfl

theorem depthAfter_append (before : Nat) (cs ds : List Condition) :
    depthAfter before (cs ++ ds) = depthAfter (depthAfter before cs) ds := by
  induction cs generalizing before with
  | nil => rw [List.nil_append, depthAfter]
  | cons c cs ih => rw [List.cons_append, depthAfter, depthAfter, ih]

@[simp] theorem depthAfter_singleton (before : Nat) (c : Condition) :
    depthAfter before [c] = deepen before c.depth := by
  rw [depthAfter, depthAfter]

/-- A row of operands is as deep as they make it, also if there is only one. -/
theorem depth_junction (k : Connective) (empty : Condition) {cs : List Condition}
    (hne : cs ≠ []) : (junction (Sql.join k) empty cs).depth = depthAfter 0 cs := by
  match cs with
  | [] => exact absurd rfl hne
  | [c] => rw [depthAfter_singleton, deepen_zero, junction]
  | _ :: _ :: _ => cases k <;> exact depth.eq_def _

/-- A comparison with a value is one level deeper than its other side, also if it
is a test for `NULL`. -/
theorem depth_comparison_value {a : Condition} (ha : 1 ≤ a.depth) (o : Comparator) (v : Value) :
    (comparison a o (.value v) (.param v)).depth = a.depth + 1 := by
  unfold comparison
  split
  · rw [depth]
  · rw [depth]
  · rw [depth, depth, max_eq_left ha]

end Condition

namespace Expr

theorem members_ofMembers (k : Connective) (es : List Expr) : (ofMembers k es).members k = es := by
  cases k <;> rfl

theorem members_ofMembers_of_ne {k k' : Connective} (h : k' ≠ k) (es : List Expr) :
    (ofMembers k' es).members k = [ofMembers k' es] := by
  cases k <;> cases k' <;> first | exact absurd rfl h | rfl

theorem conditions?_append {es es' : List Expr} {cs cs' : List Condition}
    (h : conditions? es = some cs) (h' : conditions? es' = some cs') :
    conditions? (es ++ es') = some (cs ++ cs') := by
  induction es generalizing cs with
  | nil =>
    obtain rfl : [] = cs := by simpa [conditions?] using h
    exact h'
  | cons e es ih =>
    obtain ⟨d, ds, hd, hds, rfl⟩ := exists_of_conditions?_cons h
    simp [conditions?, hd, ih hds]

end Expr

namespace Filter

/-- Whether the filter is a comparison between a column and a literal. -/
def isDirect : Filter → Bool
  | binary (.comparison c) l r => (columnAndValue? c l r).isSome
  | _ => false

/-- The depth of a row of operands of `k` that is `before` deep and goes on with
the operands of a filter. -/
def depthAfter (k : Connective) (before : Nat) : Filter → Nat
  | binary (.logical k') l r =>
    if k' = k then r.depthAfter k (l.depthAfter k before)
    else deepen before (r.depthAfter k' (l.depthAfter k' 0))
  | binary (.comparison _) l r =>
    deepen before (max (l.depthAfter .and 0) (r.depthAfter .and 0) + 1)
  | not f => deepen before (f.depthAfter .and 0 + if f.isDirect then 0 else 1)
  | identifier path => deepen before (QualifiedName.ofPath path).parts.length
  | integer _ | string _ | null => deepen before 1

/-- **The depth of a filter** as a predicate. -/
def depth (f : Filter) : Nat := f.depthAfter .and 0

theorem depth_logical (k : Connective) (l r : Filter) :
    (binary (.logical k) l r).depth = r.depthAfter k (l.depthAfter k 0) := by
  unfold depth
  rw [depthAfter]
  split
  · rename_i h
    rw [h]
  · rw [deepen_zero]

/-- What is no junction is one operand of any row. -/
theorem depthAfter_of_ne {f : Filter} (hf : ∀ k l r, f ≠ binary (.logical k) l r) (k : Connective)
    (before : Nat) : f.depthAfter k before = deepen before f.depth := by
  cases f with
  | binary op l r =>
    cases op with
    | logical k' => exact absurd rfl (hf k' l r)
    | comparison o => simp [depth, depthAfter]
  | not f => simp [depth, depthAfter]
  | identifier path => simp [depth, depthAfter]
  | integer digits | string s | null => rfl

/-- It compiles to one member of any junction. -/
theorem members_expr_of_ne {f : Filter} (hf : ∀ k l r, f ≠ binary (.logical k) l r)
    (k : Connective) : f.expr.members k = [f.expr] := by
  cases f with
  | binary op l r =>
    cases op with
    | logical k' => exact absurd rfl (hf k' l r)
    | comparison o =>
      rw [expr, compared]
      split <;> cases k <;> rfl
  | not f => cases k <;> rfl
  | identifier path => cases k <;> rfl
  | integer digits | string s | null => cases k <;> rfl

/-- **The condition of a filter is as deep as the filter**, and so is any row of
operands that goes on with its members. -/
structure Deep (f : Filter) (c : Condition) : Prop where
  condition : f.expr.condition? = some c
  depth : c.depth = f.depth
  row (k : Connective) : ∃ cs, Expr.conditions? (f.expr.members k) = some cs
    ∧ ∀ before, Condition.depthAfter before cs = f.depthAfter k before

theorem Deep.ofOperand {f : Filter} {c : Condition} (hf : ∀ k l r, f ≠ binary (.logical k) l r)
    (hc : f.expr.condition? = some c) (hdepth : c.depth = f.depth) : f.Deep c where
  condition := hc
  depth := hdepth
  row k := by
    refine ⟨[c], by simp [members_expr_of_ne hf, Expr.conditions?, hc], fun before => ?_⟩
    rw [depthAfter_singleton, hdepth, depthAfter_of_ne hf]

theorem Deep.logical {l r : Filter} {a b : Condition} (hl : l.Deep a) (hr : r.Deep b)
    (k : Connective) : ∃ c, (binary (.logical k) l r).Deep c := by
  obtain ⟨cs, hcs, hrow⟩ := hl.row k
  obtain ⟨ds, hds, hrow'⟩ := hr.row k
  have hne : cs ++ ds ≠ [] := by
    obtain ⟨e, es, hmembers⟩ := List.exists_cons_of_ne_nil (l.members_expr_ne_nil k)
    rw [hmembers] at hcs
    obtain ⟨c, cs', -, -, rfl⟩ := Expr.exists_of_conditions?_cons hcs
    exact List.cons_ne_nil _ _
  have hboth := Expr.conditions?_append hcs hds
  have hafter : ∀ before, Condition.depthAfter before (cs ++ ds)
      = r.depthAfter k (l.depthAfter k before) := by
    intro before
    rw [depthAfter_append, hrow, hrow']
  let c := junction (Sql.join k) (Expr.emptyJunction k) (cs ++ ds)
  have hc : (binary (.logical k) l r).expr.condition? = some c := by
    rw [expr, Expr.joined, Expr.condition?_ofMembers, hboth]
    rfl
  have hdepth : c.depth = (binary (.logical k) l r).depth := by
    rw [depth_junction k _ hne, hafter, depth_logical]
  refine ⟨c, hc, hdepth, fun k' => ?_⟩
  by_cases hk : k = k'
  · -- the members of the two sides are in one row
    subst hk
    refine ⟨cs ++ ds, ?_, fun before => ?_⟩
    · rw [expr, Expr.joined, Expr.members_ofMembers, hboth]
    · rw [hafter, Filter.depthAfter, if_pos rfl]
  · -- the whole is one operand of the other connective
    refine ⟨[c], ?_, fun before => ?_⟩
    · have hmembers := Expr.members_ofMembers_of_ne hk (l.expr.members k ++ r.expr.members k)
      rw [expr, Expr.joined] at hc ⊢
      simp [hmembers, Expr.conditions?, hc]
    · rw [depthAfter_singleton, hdepth, depth_logical, Filter.depthAfter, if_neg hk]

/-- A comparison between a column and a literal is one level deeper than the
column. -/
theorem exists_condition_compare (path : String) (o : Comparator) (v : Value) :
    ∃ c, (Expr.compare (.column path) o (.value v)).condition? = some c
      ∧ c.depth = (QualifiedName.ofPath path).parts.length + 1 := by
  refine ⟨comparison (.name (QualifiedName.ofPath path).parts) o (.value v) (.param v), ?_, ?_⟩
  · simp [Expr.condition?, Expr.column]
  · rw [depth_comparison_value, Condition.depth]
    rw [Condition.depth]
    exact List.length_pos_iff.2 (QualifiedName.parts_ne_nil _)

theorem depth_of_columnAndValue? {l r : Filter} {o : Comparator} {path : String} {v : Value}
    (h : columnAndValue? o l r = some (path, v)) :
    (binary (.comparison o) l r).depth = (QualifiedName.ofPath path).parts.length + 1 := by
  have hpos : 1 ≤ (QualifiedName.ofPath path).parts.length :=
    List.length_pos_iff.2 (QualifiedName.parts_ne_nil _)
  unfold columnAndValue? at h
  split at h
  · cases h
    simp [depth, depthAfter, hpos]
  · cases h
    simp [depth, depthAfter, hpos]
  · split at h
    · cases h
      simp [depth, depthAfter, hpos]
    · cases h
  · cases h

theorem Deep.comparison {l r : Filter} {a b : Condition} (hl : l.Deep a) (hr : r.Deep b)
    (o : Comparator) : ∃ c, (binary (.comparison o) l r).Deep c := by
  cases h : columnAndValue? o l r with
  | none =>
    refine ⟨.compare a o b, .ofOperand (by simp) ?_ ?_⟩
    · rw [expr, compared, h]
      simp [Expr.condition?, Expr.conditions?, hl.condition, hr.condition,
        Expr.ofTemplate?_comparison]
    · rw [Condition.depth, hl.depth, hr.depth]
      simp [Filter.depth, Filter.depthAfter]
  | some leaf =>
    obtain ⟨path, v⟩ := leaf
    obtain ⟨c, hc, hdepth⟩ := exists_condition_compare path o v
    refine ⟨c, .ofOperand (by simp) ?_ (hdepth.trans (depth_of_columnAndValue? h).symm)⟩
    rw [expr, compared, h, hc]

/-- Only a comparison between a column and a literal compiles to a comparison. -/
theorem expr_ne_compare {f : Filter} (hf : f.isDirect = false) (x : Expr) (o : Comparator)
    (y : Expr) : f.expr ≠ .compare x o y := by
  match f with
  | binary (.logical k) l r => cases k <;> simp [expr, Expr.joined, Expr.ofMembers]
  | binary (.comparison c) l r =>
    have hnone : columnAndValue? c l r = none := by simpa [isDirect] using hf
    simp [expr, compared, hnone]
  | not _ | identifier _ | integer _ | string _ | null => simp [expr, Expr.column]

theorem exists_of_isDirect {f : Filter} (h : f.isDirect = true) :
    ∃ o l r path v, f = binary (.comparison o) l r ∧ columnAndValue? o l r = some (path, v) := by
  unfold isDirect at h
  split at h
  · rename_i o l r
    obtain ⟨⟨path, v⟩, hleaf⟩ := Option.isSome_iff_exists.1 h
    exact ⟨o, l, r, path, v, rfl, hleaf⟩
  · cases h

theorem Deep.not {f : Filter} {a : Condition} (hf : f.Deep a) : ∃ c, (Filter.not f).Deep c := by
  cases hdirect : f.isDirect with
  | false =>
    refine ⟨.not a, .ofOperand (by simp) ?_ ?_⟩
    · rw [expr, Expr.condition?_not (expr_ne_compare hdirect), hf.condition]
      rfl
    · rw [Condition.depth, hf.depth]
      simp [Filter.depth, Filter.depthAfter, hdirect]
  | true =>
    -- the complement of the comparison is as deep as the comparison
    obtain ⟨o, l, r, path, v, rfl, h⟩ := exists_of_isDirect hdirect
    obtain ⟨c, hc, hdepth⟩ := exists_condition_compare path o.negate v
    refine ⟨c, .ofOperand (by simp) ?_ ?_⟩
    · rw [expr, expr, compared, h, Expr.condition?_not_compare, hc]
    · rw [hdepth, ← depth_of_columnAndValue? h]
      simp [Filter.depth, Filter.depthAfter, hdirect]

/-- **The text of a filter states a condition of the depth of the filter.** -/
theorem exists_deep (f : Filter) : ∃ c, f.Deep c := by
  induction f with
  | binary op l r ihl ihr =>
    obtain ⟨a, ha⟩ := ihl
    obtain ⟨b, hb⟩ := ihr
    cases op with
    | logical k => exact ha.logical hb k
    | comparison o => exact ha.comparison hb o
  | not f ih =>
    obtain ⟨a, ha⟩ := ih
    exact ha.not
  | identifier path | integer digits | string s | null =>
    exact ⟨_, .ofOperand (by simp) rfl (by simp [Condition.depth, depth, depthAfter])⟩

theorem depth_of_condition? {f : Filter} {c : Condition} (h : f.expr.condition? = some c) :
    c.depth = f.depth := by
  obtain ⟨c', hc'⟩ := f.exists_deep
  obtain rfl := Option.some.inj (h.symm.trans hc'.condition)
  exact hc'.depth

/-! ## Long rows -/

/-- Operands that are joined from the left make one row. -/
theorem depthAfter_foldl (k : Connective) (gs : List Filter) (f : Filter) (before : Nat) :
    (gs.foldl (binary (.logical k)) f).depthAfter k before
      = gs.foldl (fun h g => g.depthAfter k h) (f.depthAfter k before) := by
  induction gs generalizing f with
  | nil => rfl
  | cons g gs ih => rw [List.foldl_cons, ih, depthAfter, if_pos rfl, List.foldl_cons]

/-- **Every operand of a row but the first adds a level**, if it is no deeper than
the row before it. -/
theorem depthAfter_foldl_replicate {k : Connective} {g : Filter} {before : Nat}
    (hg : ∀ h, before ≤ h → g.depthAfter k h = h + 1) (n : Nat) :
    (List.replicate n g).foldl (fun h g => g.depthAfter k h) before = before + n := by
  induction n with
  | zero => rfl
  | succ n ih =>
    rw [List.replicate_succ', List.foldl_concat, ih, hg _ (Nat.le_add_right _ _), Nat.add_assoc]

/-- A comparison may be repeated in a conjunction, as often as one likes. -/
theorem parse_repeated {s : String} {c : Comparator} {l r : Filter}
    (h : parse s = .ok (some (binary (.comparison c) l r))) (n : Nat) :
    parse ((List.replicate n (" and " ++ s)).foldl (· ++ ·) s)
      = .ok (some ((List.replicate n (binary (.comparison c) l r)).foldl
        (binary (.logical .and)) (binary (.comparison c) l r))) := by
  obtain ⟨ts, hscan, hderives⟩ := (parseChars_eq_some_iff _ _).1 h
  have hoperand : Derives .negation ts (binary (.comparison c) l r) := by
    cases hderives with
    | one h =>
      cases h with
      | one h => exact h
  have hnext : Reads (" and " ++ s).toList (.keyword (.connective .and) :: ts) [] := by
    rw [String.toList_append]
    refine .blank rfl (.token (w := ['a', 'n', 'd']) rfl ?_ (fun _ => ?_) (.blank rfl hscan))
    · show ['a', 'n', 'd'].map Char.toLower = (Keyword.connective .and).letters
      decide
    · exact (noneAhead_cons _ _ _).2 (by decide)
  have hrepeated : ∀ n, ∃ us,
      Reads ((List.replicate n (" and " ++ s)).foldl (· ++ ·) s).toList us []
      ∧ Derives (.chain .and) us ((List.replicate n (binary (.comparison c) l r)).foldl
        (binary (.logical .and)) (binary (.comparison c) l r)) := by
    intro n
    induction n with
    | zero => exact ⟨ts, hscan, .one hoperand⟩
    | succ n ih =>
      obtain ⟨us, hus, hderives⟩ := ih
      refine ⟨us ++ .keyword (.connective .and) :: ts, ?_, ?_⟩
      · rw [List.replicate_succ', List.foldl_concat, String.toList_append]
        refine (hus.followed ?_).append hnext
        rw [String.toList_append]
        exact (noneAhead_cons _ _ _).2 (by decide)
      · rw [List.replicate_succ', List.foldl_concat]
        exact .join hderives hoperand
  obtain ⟨us, hus, hderives⟩ := hrepeated n
  exact (parseChars_eq_some_iff _ _).2 ⟨us, hus, .one hderives⟩

end Filter

end FilterSql
