import FilterSql.Proofs.Filter.Parse
import FilterSql.Proofs.Leaves
import Mathlib

/-!
# No filter disappears

A restriction may be empty, and then it keeps every row. If a filter could
become such a restriction, or lose a part on the way, a query would quietly give
out more rows than it was asked for.

Here it is counted: the expression of a filter has as many nodes as the filter,
if a flat junction of `n` members is taken for the `n - 1` connectives that it
stands for (`Filter.size_expr`), and no event reports that something was left
out. So an empty restriction comes from a blank text only. Any other filter has
a WHERE clause with a predicate in it, and whatever selection it is applied to
is changed by it. The main statement is `no_filter_lost`.
-/

namespace FilterSql

open Sql

/-! ## Nothing is left out -/

/-- Whether the event reports that something was left out. -/
def Event.isDrop : Event → Bool
  | droppedOperand _ | droppedOperands _ | droppedComparison .. | droppedRaw _ => true
  | parsed .. | bound .. | comparedRaw .. | keptAll | rendered .. | executing .. => false

namespace Expr

mutual

/-- **The number of nodes of an expression**, where a junction counts for the
connectives between its members. -/
def size : Expr → Nat
  | name _ | value _ => 1
  | compare l _ r => l.size + r.size + 1
  | and es => sizeAll es + (es.length - 1)
  | or es => sizeAll es + (es.length - 1)
  | not e => e.size + 1
  | raw _ args => sizeAll args + 1

/-- The number of nodes of some expressions. -/
def sizeAll : List Expr → Nat
  | [] => 0
  | e :: es => e.size + sizeAll es

end

theorem sizeAll_append (es es' : List Expr) : sizeAll (es ++ es') = sizeAll es + sizeAll es' := by
  induction es with
  | nil => rw [List.nil_append, sizeAll, Nat.zero_add]
  | cons e es ih => rw [List.cons_append, sizeAll, ih, sizeAll, Nat.add_assoc]

theorem size_ofMembers (k : Connective) (es : List Expr) :
    (ofMembers k es).size = sizeAll es + (es.length - 1) := by
  cases k <;> rfl

theorem size_eq_members (k : Connective) (e : Expr) :
    e.size = sizeAll (e.members k) + ((e.members k).length - 1) := by
  rcases members_cases k e with hjunction | hself
  · conv_lhs => rw [hjunction]
    exact size_ofMembers k _
  · rw [hself]
    rfl

/-- A flat junction has one connective more than its two sides. -/
theorem size_joined {k : Connective} {l r : Expr} (hl : l.members k ≠ [])
    (hr : r.members k ≠ []) : (joined k l r).size = l.size + r.size + 1 := by
  have hlengthl := List.length_pos_iff.2 hl
  have hlengthr := List.length_pos_iff.2 hr
  rw [joined, size_ofMembers, sizeAll_append, List.length_append, size_eq_members k l,
    size_eq_members k r]
  omega

end Expr

namespace Filter

/-- **The expression of a filter has as many nodes as the filter.** -/
theorem size_expr (f : Filter) : f.expr.size = f.size := by
  induction f with
  | binary op l r ihl ihr =>
    rw [size, ← ihl, ← ihr]
    cases op with
    | logical k => exact Expr.size_joined (l.members_expr_ne_nil k) (r.members_expr_ne_nil k)
    | comparison c =>
      rw [expr, compared]
      split
      · rename_i path v h
        obtain ⟨rfl, hsize, -⟩ := columnAndValue?_eq_some h
        rw [ihr, hsize]
        rfl
      · rfl
  | not f ih => exact congrArg (· + 1) ih
  | _ => rfl

/-- **No event of a filter reports that something was left out.** -/
theorem isDrop_reports (f : Filter) : ∀ ev ∈ f.reports, ev.isDrop = false := by
  induction f with
  | binary op l r ihl ihr =>
    cases op with
    | logical k => exact List.forall_mem_append.2 ⟨ihl, ihr⟩
    | comparison c =>
      refine List.forall_mem_append.2 ⟨List.forall_mem_append.2 ⟨ihl, ihr⟩, ?_⟩
      split
      · simp
      · exact List.forall_mem_singleton.2 rfl
  | not f ih => exact ih
  | integer digits => exact List.forall_mem_singleton.2 rfl
  | identifier path | string s | null => simp [reports]

end Filter

/-! ## A predicate is never empty text -/

namespace Sql

mutual

/-- Something is read only from some token. -/
theorem Reads.ne_nil {l : Level} {ts r : List Token} {c : Condition} : Reads l ts c r → ts ≠ []
  | .name h => by cases h <;> exact List.cons_ne_nil _ _
  | .param | .numeral | .null | .group _ | .not _ => List.cons_ne_nil _ _
  | .lone h | .compare h _ | .isNull h | .isNotNull h | .plain h => h.ne_nil
  | .chain h => h.ne_nil

/-- A row of operands has one. -/
theorem Chain.ne_nil {k : Connective} {ts r : List Token} {cs : List Condition} :
    Chain k ts cs r → ts ≠ []
  | .one h | .more h _ => h.ne_nil

end

end Sql

/-- **What is written for a plain expression is not empty**, since it is read as
a predicate. -/
theorem Expr.Plain.sql_render_ne_empty {e : Expr} (he : e.Plain) (d : Dialect) :
    (e.render d).sql ≠ "" := by
  intro hempty
  obtain ⟨⟨c, hc⟩, -⟩ := he.written d
  obtain ⟨ts, htokens, hreads⟩ := hc.readsAs
  rw [hempty] at htokens
  exact hreads.ne_nil (htokens.unique .done)

/-! ## A restriction changes a selection -/

/-- A conjunction with something more is another one. -/
theorem Expr.both_ne_left {p q : Expr} (hq : q.conjuncts ≠ []) : p.both q ≠ p := by
  intro h
  have hmembers : p.conjuncts ++ q.conjuncts = p.conjuncts := congrArg Expr.conjuncts h
  exact hq (List.append_right_eq_self.1 hmembers)

namespace Select

theorem predicate_apply_some (s : Select) (p : Expr) :
    (s.apply ⟨some p⟩).predicate = some (s.predicate.elim p (·.both p)) := by
  show (s.restrict p).predicate = _
  unfold restrict
  cases s.predicate <;> rfl

/-- **A restriction changes every selection** it is applied to. -/
theorem apply_some_ne (s : Select) {p : Expr} (hp : p.conjuncts ≠ []) :
    s.apply ⟨some p⟩ ≠ s := by
  intro h
  have hpredicate := predicate_apply_some s p
  rw [h] at hpredicate
  cases hs : s.predicate with
  | none =>
    rw [hs] at hpredicate
    cases hpredicate
  | some q =>
    rw [hs] at hpredicate
    exact Expr.both_ne_left hp (Option.some.inj hpredicate).symm

end Select

/-! ## Blank texts and others -/

/-- A text of blanks only. -/
def BlankText (text : String) : Prop :=
  ∀ c ∈ text.toList, Cursor.isBlank c = true

theorem Filter.eq_none_iff_blankText {text : String} {f : Option Filter}
    (h : Filter.parse text = .ok f) : f = none ↔ BlankText text := by
  unfold BlankText
  rw [← Filter.parseChars_eq_none_iff]
  show _ ↔ Filter.parse text = .ok none
  rw [h, Except.ok.injEq]

/-- **No filter disappears.** Every filter compiles to an expression with as
many nodes, in which every template passes its check, and nothing is reported as
left out. So of the texts that are filters only a blank one gives an empty
restriction, an empty clause or an unchanged selection, and any other gives a
WHERE clause with a predicate in it. -/
theorem no_filter_lost :
    (∀ f : Filter, ∃ e, f.compile.value = some e ∧ e.size = f.size ∧ e.Every Expr.Checked
        ∧ ∀ ev ∈ f.compile.events, ev.isDrop = false)
      ∧ ∀ (text : String) (f : Option Filter), Filter.parse text = .ok f → ∀ d : Dialect,
        ((Restriction.ofFilter f).value.isEmpty = true ↔ BlankText text)
          ∧ ((Restriction.ofFilter f).value.render d = .empty ↔ BlankText text)
          ∧ (∀ s : Select, s.apply (Restriction.ofFilter f).value = s ↔ BlankText text)
          ∧ (¬ BlankText text →
              (∃ p, p ≠ "" ∧ ((Restriction.ofFilter f).value.render d).sql = " WHERE " ++ p)
              ∧ ∀ s : Select, (s.apply (Restriction.ofFilter f).value).predicate.isSome) := by
  refine ⟨fun f => ⟨f.expr, ?_, f.size_expr, f.plain_expr.every_checked, ?_⟩, ?_⟩
  · rw [Filter.compile_eq]
  · rw [Filter.compile_eq]
    exact f.isDrop_reports
  · intro text f hparse d
    rw [← Filter.eq_none_iff_blankText hparse, Restriction.value_ofFilter]
    cases f with
    | none => exact ⟨by simp [Restriction.isEmpty], by simp [Restriction.render],
        fun s => iff_of_true rfl rfl, fun h => absurd rfl h⟩
    | some f =>
      have hsql := f.plain_expr.sql_render_ne_empty d
      refine ⟨iff_of_false nofun nofun, iff_of_false ?_ nofun,
        fun s => iff_of_false (s.apply_some_ne (f.members_expr_ne_nil .and)) nofun,
        fun _ => ⟨⟨_, hsql, rfl⟩, fun s => ?_⟩⟩
      · intro hempty
        have hwhere : " WHERE " ++ (f.expr.render d).sql = "" := congrArg Statement.sql hempty
        exact absurd (String.append_eq_empty_iff.1 hwhere).1 (by decide)
      · rw [Option.map_some, Select.predicate_apply_some]
        rfl

/-- A filter that binds nothing and names no column is a restriction as well. -/
theorem no_filter_lost_null :
    Filter.parse "not null" = .ok (some (.not .null)) ∧ ¬ BlankText "not null"
      ∧ (∃ p, p ≠ "" ∧ ((Restriction.ofFilter (some (.not .null))).value.render .sqlite).sql
          = " WHERE " ++ p)
      ∧ ∀ s : Select,
          (s.apply (Restriction.ofFilter (some (.not .null))).value).predicate.isSome := by
  have hparse : Filter.parse "not null" = .ok (some (.not .null)) := rfl
  have hblank : ¬ BlankText "not null" := fun h => absurd (h 'n' (by decide)) (by decide)
  exact ⟨hparse, hblank, (no_filter_lost.2 _ _ hparse .sqlite).2.2.2 hblank⟩

end FilterSql
