import FilterSql.Proofs.Direct
import Mathlib

/-!
# What steps build

A selection is built by steps in any order and any number. Some of them replace
what was there (`restrictTo`, `limitTo`, `startAt`), some add to it (`restrict`,
`orderBy`), and the restriction of an empty filter does nothing at all.

Whatever the steps, the selection can be told from them without running them
(`Select.built`). Each clause is a function of the steps of its own kind: the
keys of an order in their order, the last limit, the last offset, and for the
predicate the conjunction of those that were supplied since the last one that
replaced it. So how steps of different kinds are interleaved does not matter
(`Select.built_congr`).

The text has its own order of clauses, and the values that are bound follow it.
The main statement is `selection_of_steps`.
-/

namespace FilterSql

open Sql

namespace Select

/-! ## The clauses that steps speak of -/

/-- The clauses of a selection that steps speak of. -/
inductive Clause where
  | predicate
  | order
  | limit
  | offset
  deriving DecidableEq

namespace Step

/-- The clause that a step speaks of. -/
def clause : Step → Clause
  | restrictTo _ | restrict _ | apply _ => .predicate
  | orderBy _ => .order
  | limitTo _ => .limit
  | startAt _ => .offset

/-- The predicate that a step puts in the place of the current one. -/
def replacement? : Step → Option Expr
  | restrictTo p => some p
  | _ => none

/-- The predicate that a step joins with the current one. An empty restriction
has none. -/
def addition? : Step → Option Expr
  | restrict p => some p
  | apply r => r.predicate
  | _ => none

/-- The key that a step orders by. -/
def key? : Step → Option OrderKey
  | orderBy k => some k
  | _ => none

/-- The limit that a step sets. -/
def limit? : Step → Option Expr
  | limitTo e => some e
  | _ => none

/-- The offset that a step sets. -/
def offset? : Step → Option Expr
  | startAt e => some e
  | _ => none

/-- The expressions of a step. -/
def exprs : Step → List Expr
  | restrictTo p | restrict p => [p]
  | apply r => r.predicate.toList
  | orderBy k => [k.key]
  | limitTo e | startAt e => [e]

/-- A step has nothing for the clauses that it does not speak of. -/
theorem nothing_elsewhere (st : Step) :
    (st.clause ≠ .predicate → st.replacement? = none ∧ st.addition? = none)
      ∧ (st.clause ≠ .order → st.key? = none) ∧ (st.clause ≠ .limit → st.limit? = none)
      ∧ (st.clause ≠ .offset → st.offset? = none) := by
  cases st <;> simp [clause, replacement?, addition?, key?, limit?, offset?]

end Step

/-! ## The selection that steps build -/

/-- **The predicates that steps supply** since the predicate was last replaced,
the replacing one included, in their order. -/
def supplied (steps : List Step) : List Expr :=
  (steps.filterMap Step.replacement?).getLast?.toList
    ++ (steps.rtakeWhile (·.replacement?.isNone)).filterMap Step.addition?

/-- The conjunction of predicates, joined from the left; none if there are
none. -/
def conjoined : List Expr → Option Expr
  | [] => none
  | p :: ps => some (ps.foldl Expr.both p)

/-- **The selection that steps build**, clause by clause. -/
def built (columns : List Expr) (source : Source) (steps : List Step) : Select where
  columns := columns
  source := some source
  predicate := conjoined (supplied steps)
  order := steps.filterMap Step.key?
  limit := (steps.filterMap Step.limit?).getLast?
  offset := (steps.filterMap Step.offset?).getLast?

theorem conjoined_concat (ps : List Expr) (p : Expr) :
    conjoined (ps ++ [p]) = some ((conjoined ps).elim p (·.both p)) := by
  cases ps with
  | nil => rfl
  | cons q ps =>
    show some ((ps ++ [p]).foldl Expr.both q) = some ((ps.foldl Expr.both q).both p)
    rw [List.foldl_concat]

/-- One more step replaces what was supplied, adds to it, or leaves it. -/
theorem supplied_concat (steps : List Step) (st : Step) :
    supplied (steps ++ [st]) = match st.replacement? with
      | some p => [p]
      | none => supplied steps ++ st.addition?.toList := by
  unfold supplied
  rw [List.rtakeWhile_concat]
  cases hst : st.replacement? with
  | some p =>
    obtain rfl : st = .restrictTo p := by
      cases st <;> cases hst
      rfl
    simp [List.filterMap_append, hst]
  | none =>
    have haddition : [st].filterMap Step.addition? = st.addition?.toList := by
      cases hadd : st.addition? <;> simp [hadd]
    simp [List.filterMap_append, hst, haddition]

/-- What a step makes of the current predicate. -/
def Step.predicateAfter (st : Step) (current : Option Expr) : Option Expr :=
  match st.replacement?, st.addition? with
  | some p, _ => some p
  | none, some p => some (current.elim p (·.both p))
  | none, none => current

theorem restrict_eq (s : Select) (p : Expr) :
    s.restrict p = { s with predicate := some (s.predicate.elim p (·.both p)) } := by
  unfold restrict
  cases s.predicate <;> rfl

/-- **What one step does**, clause by clause. -/
theorem step_eq (s : Select) (st : Step) :
    s.step st = {
      s with
      predicate := st.predicateAfter s.predicate
      order := s.order ++ st.key?.toList
      limit := st.limit?.or s.limit
      offset := st.offset?.or s.offset } := by
  cases st with
  | apply r =>
    obtain ⟨_ | p⟩ := r <;>
      simp [step, Select.apply, restrict_eq, Step.predicateAfter, Step.replacement?,
        Step.addition?, Step.key?, Step.limit?, Step.offset?]
  | _ =>
    simp [step, Select.restrictTo, restrict_eq, Select.orderBy, Select.limitTo, Select.startAt,
      Step.predicateAfter, Step.replacement?, Step.addition?, Step.key?, Step.limit?,
      Step.offset?]

theorem conjoined_supplied_concat (steps : List Step) (st : Step) :
    conjoined (supplied (steps ++ [st])) = st.predicateAfter (conjoined (supplied steps)) := by
  rw [supplied_concat]
  unfold Step.predicateAfter
  cases st.replacement? with
  | some p => rfl
  | none =>
    cases st.addition? with
    | some p => exact conjoined_concat _ p
    | none => exact congrArg conjoined (List.append_nil _)

theorem getLast?_filterMap_concat {α : Type} (f : Step → Option α) (steps : List Step) (st : Step) :
    ((steps ++ [st]).filterMap f).getLast? = (f st).or (steps.filterMap f).getLast? := by
  rw [List.filterMap_append, List.getLast?_append]
  cases hst : f st <;> simp [hst]

/-- **One more step is taken on the selection that the others build.** -/
theorem step_built (columns : List Expr) (source : Source) (steps : List Step) (st : Step) :
    (built columns source steps).step st = built columns source (steps ++ [st]) := by
  have horder : (steps ++ [st]).filterMap Step.key?
      = steps.filterMap Step.key? ++ st.key?.toList := by
    rw [List.filterMap_append]
    cases hst : st.key? <;> simp [hst]
  rw [step_eq]
  unfold built
  rw [conjoined_supplied_concat, horder, getLast?_filterMap_concat, getLast?_filterMap_concat]

/-- **Steps build the selection that can be told from them.** -/
theorem run_eq_built (columns : List Expr) (source : Source) (steps : List Step) :
    (ofTable columns source).run steps = built columns source steps := by
  induction steps using List.reverseRecOn with
  | nil => rfl
  | append_singleton steps st ih =>
    show (steps ++ [st]).foldl step _ = _
    rw [List.foldl_concat, ← step_built, ← ih]
    rfl

/-! ## Interleaving -/

/-- The steps that speak of a clause, in their order. -/
def about (k : Clause) (steps : List Step) : List Step :=
  steps.filter (·.clause = k)

/-- What steps supply is supplied by those about the predicate. -/
theorem supplied_about (steps : List Step) : supplied (about .predicate steps) = supplied steps := by
  induction steps using List.reverseRecOn with
  | nil => rfl
  | append_singleton steps st ih =>
    rw [about, List.filter_append, ← about]
    by_cases hst : st.clause = .predicate
    · rw [List.filter_singleton, decide_eq_true hst, cond_true, supplied_concat, supplied_concat, ih]
    · rw [List.filter_singleton, decide_eq_false hst, cond_false, List.append_nil, ih,
        supplied_concat, (st.nothing_elsewhere.1 hst).1, (st.nothing_elsewhere.1 hst).2]
      exact (List.append_nil _).symm

/-- What only steps about one clause have is found among these. -/
theorem filterMap_about {α : Type} {f : Step → Option α} {k : Clause}
    (hf : ∀ st : Step, st.clause ≠ k → f st = none) (steps : List Step) :
    (about k steps).filterMap f = steps.filterMap f := by
  rw [about, List.filterMap_filter]
  refine List.filterMap_congr fun st _ => ?_
  by_cases hst : st.clause = k
  · rw [if_pos (decide_eq_true hst)]
  · rw [if_neg (by simpa using hst), hf st hst]

/-- **Steps about different clauses may be interleaved in any way.** -/
theorem built_congr {steps steps' : List Step} (h : ∀ k, about k steps = about k steps')
    (columns : List Expr) (source : Source) :
    built columns source steps = built columns source steps' := by
  have hkey := filterMap_about fun st => st.nothing_elsewhere.2.1
  have hlimit := filterMap_about fun st => st.nothing_elsewhere.2.2.1
  have hoffset := filterMap_about fun st => st.nothing_elsewhere.2.2.2
  unfold built
  rw [← supplied_about steps, ← hkey steps, ← hlimit steps, ← hoffset steps, h, h, h, h,
    supplied_about, hkey, hlimit, hoffset]

/-! ## The templates of a selection -/

/-- **A step keeps the templates checked**, if its own are. -/
theorem checked_step {s : Select} {st : Step} (hs : ∀ e ∈ s.exprs, e.Every Expr.Checked)
    (hst : ∀ e ∈ st.exprs, e.Every Expr.Checked) :
    ∀ e ∈ (s.step st).exprs, e.Every Expr.Checked := by
  simp only [exprs, List.forall_mem_append, List.forall_mem_map] at hs ⊢
  obtain ⟨⟨⟨⟨hcolumns, hpredicate⟩, horder⟩, hlimit⟩, hoffset⟩ := hs
  have hjoined : ∀ p : Expr, p.Every Expr.Checked →
      ∀ e ∈ (s.restrict p).predicate.toList, e.Every Expr.Checked := by
    intro p hp
    rw [restrict_eq]
    refine List.forall_mem_singleton.2 ?_
    cases hq : s.predicate with
    | none => exact hp
    | some q =>
      refine Expr.Every.joined (fun k _ => ?_) (hpredicate q (by simp [hq])) hp .and
      cases k <;> trivial
  have hrestrict : ∀ p, s.restrict p = { s with predicate := (s.restrict p).predicate } := by
    intro p
    rw [restrict_eq]
  cases st with
  | restrictTo p => exact ⟨⟨⟨⟨hcolumns, hst⟩, horder⟩, hlimit⟩, hoffset⟩
  | restrict p =>
    rw [step, hrestrict]
    exact ⟨⟨⟨⟨hcolumns, hjoined p (List.forall_mem_singleton.1 hst)⟩, horder⟩, hlimit⟩, hoffset⟩
  | apply r =>
    obtain ⟨_ | p⟩ := r
    · exact ⟨⟨⟨⟨hcolumns, hpredicate⟩, horder⟩, hlimit⟩, hoffset⟩
    · have happly : s.step (.apply ⟨some p⟩) = s.restrict p := rfl
      rw [happly, hrestrict]
      exact ⟨⟨⟨⟨hcolumns, hjoined p (List.forall_mem_singleton.1 hst)⟩, horder⟩, hlimit⟩, hoffset⟩
  | orderBy k =>
    have hkey : k.key.Every Expr.Checked := List.forall_mem_singleton.1 hst
    exact ⟨⟨⟨⟨hcolumns, hpredicate⟩,
      List.forall_mem_append.2 ⟨horder, List.forall_mem_singleton.2 hkey⟩⟩, hlimit⟩, hoffset⟩
  | limitTo e => exact ⟨⟨⟨⟨hcolumns, hpredicate⟩, horder⟩, hst⟩, hoffset⟩
  | startAt e => exact ⟨⟨⟨⟨hcolumns, hpredicate⟩, horder⟩, hlimit⟩, hst⟩

/-- **Steps keep the templates checked.** -/
theorem checked_run {s : Select} {steps : List Step} (hs : ∀ e ∈ s.exprs, e.Every Expr.Checked)
    (hsteps : ∀ st ∈ steps, ∀ e ∈ st.exprs, e.Every Expr.Checked) :
    ∀ e ∈ (s.run steps).exprs, e.Every Expr.Checked := by
  induction steps generalizing s with
  | nil => exact hs
  | cons st steps ih =>
    obtain ⟨hst, hrest⟩ := List.forall_mem_cons.1 hsteps
    exact ih (checked_step hs hst) hrest

end Select

/-- **What steps build, and what is bound for it.** From the columns and the
table, steps in any order build the selection that has these columns and this
table, the conjunction of the predicates supplied since one last replaced the
others, the keys in their order, and the last limit and offset. Steps that agree
on each clause build the same selection, however they are interleaved. And if
templates have as many marks as arguments, the statement binds the values of the
columns, the predicate, the keys, the limit and the offset, in this order and
with the placeholders numbered in this order. -/
theorem selection_of_steps (columns : List Expr) (source : Source) :
    (∀ steps, (Select.ofTable columns source).run steps = Select.built columns source steps)
      ∧ (∀ steps steps', (∀ k, Select.about k steps = Select.about k steps') →
          (Select.ofTable columns source).run steps = (Select.ofTable columns source).run steps')
      ∧ ∀ steps, (∀ e ∈ columns, e.Every Expr.Checked) →
          (∀ st ∈ steps, ∀ e ∈ st.exprs, e.Every Expr.Checked) →
          ∃ (s : Select) (runs : List (List Piece)),
            (Select.ofTable columns source).run steps = s
            ∧ s.params = columns.flatMap Expr.params ++ s.predicate.toList.flatMap Expr.params
                ++ (s.order.map OrderKey.key).flatMap Expr.params
                ++ s.limit.toList.flatMap Expr.params ++ s.offset.toList.flatMap Expr.params
            ∧ runs.length = s.params.length + 1 ∧ (∀ run ∈ runs, ∀ p ∈ run, p.Inert)
            ∧ ∀ d : Dialect, s.render d = ⟨interleave (runs.map (fragment d))
                ((List.range s.params.length).map d.placeholder), s.params⟩ := by
  refine ⟨Select.run_eq_built columns source, fun steps steps' h => ?_,
    fun steps hcolumns hsteps => ?_⟩
  · rw [Select.run_eq_built, Select.run_eq_built, Select.built_congr h]
  · have hstart : ∀ e ∈ (Select.ofTable columns source).exprs, e.Every Expr.Checked := by
      intro e he
      refine hcolumns e ?_
      simpa [Select.exprs, Select.ofTable, Select.ofColumns] using he
    have hstep := (Select.binds_pieces (Select.checked_run hstart hsteps)).inStep
    refine ⟨_, _, rfl, ?_, hstep.length, hstep.inert, fun d => ?_⟩
    · rw [Select.params, Select.exprs, Select.run_eq_built]
      simp only [List.flatMap_append]
      rfl
    · rw [Select.render, Statement.ofPieces, hstep.write, Statement.empty, String.empty_append,
        Dialect.placeholdersFrom]
      simp

/-- A limit that is set twice, a predicate that is replaced, an empty restriction
and a template, with the order first. The same steps with those about the
predicate first build the same statement. -/
theorem selection_of_steps_interleaved :
    ∃ (columns : List Expr) (source : Source) (steps steps' : List Select.Step) (s : Select),
      (Select.ofTable columns source).run steps = s
      ∧ (∀ k, Select.about k steps = Select.about k steps')
      ∧ (Select.ofTable columns source).run steps' = s
      ∧ (∀ e ∈ columns, e.Every Expr.Checked)
      ∧ (∀ st ∈ steps, ∀ e ∈ st.exprs, e.Every Expr.Checked)
      ∧ (∃ runs : List (List Piece), runs.length = 7 ∧ ∀ d : Dialect,
          s.render d = ⟨interleave (runs.map (fragment d)) ((List.range 6).map d.placeholder),
            [.int 1, .int 2, .string "x", .int 3, .int 4, .int 5]⟩)
      ∧ (s.render .postgres).sql
          = "SELECT $1 FROM \"t\" AS \"u\" WHERE \"a\" = $2 AND \"b\" LIKE $3 "
            ++ "ORDER BY $4 DESC LIMIT $5 OFFSET $6" := by
  let columns : List Expr := [.value (.int 1)]
  let source : Source := ⟨⟨none, "t"⟩, some "u"⟩
  let order : Select.Step := .orderBy ⟨.value (.int 3), some .descending⟩
  let replaced : Select.Step := .restrict (.value (.int 9))
  let replacing : Select.Step := .restrictTo (.compare (.name ⟨none, "a"⟩) .eq (.value (.int 2)))
  let added : Select.Step := .restrict (.raw "? LIKE ?" [.name ⟨none, "b"⟩, .value (.string "x")])
  let limit (n : Int64) : Select.Step := .limitTo (.value (.int n))
  let offset : Select.Step := .startAt (.value (.int 5))
  let steps := [order, replaced, limit 8, replacing, .apply ⟨none⟩, added, offset, limit 4]
  let steps' := [replaced, replacing, .apply ⟨none⟩, added, limit 8, limit 4, order, offset]
  have habout : ∀ k, Select.about k steps = Select.about k steps' := by
    intro k
    cases k <;> rfl
  have hcolumns : ∀ e ∈ columns, e.Every Expr.Checked := by decide
  have hsteps : ∀ st ∈ steps, ∀ e ∈ st.exprs, e.Every Expr.Checked := by decide
  obtain ⟨s, runs, hs, -, hruns, -, hrender⟩ :=
    (selection_of_steps columns source).2.2 steps hcolumns hsteps
  obtain rfl := hs
  exact ⟨columns, source, steps, steps', _, rfl, habout,
    ((selection_of_steps columns source).2.1 steps steps' habout).symm, hcolumns, hsteps,
    ⟨runs, hruns, hrender⟩, by decide +kernel⟩

end FilterSql
