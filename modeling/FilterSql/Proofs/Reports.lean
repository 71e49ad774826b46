import FilterSql.Proofs.Restriction
import Mathlib

/-!
# What compilation reports

Two kinds of nodes are worth a report: an integer literal, with the kind of the
value that is bound for it, and a comparison that is not between a column and a
literal. Compilation comes to them in an order of its own. It lays out runs of a
connective before it compiles them, it asks of a comparison whether it is one
with a literal before it compiles the sides, and in that case it does not compile
them at all.

None of this shows. The events are those of a walk through the nodes from left to
right, each node after its operands, in which each node is asked once for its own
report (`Filter.reports_eq`). In particular no literal is reported twice, and the
kinds reported are those of the values that the expression binds
(`Filter.events_compile`).
-/

namespace FilterSql

/-- The digits and the kind that an event reports of a literal. -/
def Event.inferred? : Event → Option (String × String)
  | bound digits kind => some (digits, kind)
  | _ => none

/-- The digits of an integer literal, with the kind of the value bound for it. -/
def Literal.inferred? : Literal × Value → Option (String × String)
  | (integer digits, v) => some (digits, v.kind)
  | (string _, _) => none

namespace Filter

/-- **The nodes of a filter from left to right**, each after its operands. -/
def postorder : Filter → List Filter
  | binary op l r => l.postorder ++ r.postorder ++ [binary op l r]
  | not f => f.postorder ++ [not f]
  | identifier path => [identifier path]
  | integer digits => [integer digits]
  | string s => [string s]
  | null => [null]

/-- **The event of a node by itself**: the kind of an integer literal, and a
comparison that is not between a column and a literal. -/
def event? : Filter → Option Event
  | integer digits => some (.bound digits (Value.ofDigits digits).kind)
  | binary (.comparison c) l r =>
    if (columnAndValue? c l r).isSome then none else some (.comparedRaw l c r)
  | binary (.logical _) _ _ | not _ | identifier _ | string _ | null => none

/-- **What is reported of a node by itself**, in words. -/
def report? : Filter → Option (FilterSql.Level × String)
  | integer digits =>
    some (.trace, "Integer literal " ++ digits ++ " bound as " ++ (Value.ofDigits digits).kind)
  | binary (.comparison c) l r =>
    if (columnAndValue? c l r).isSome then none
    else some (.debug,
      "Compiling '" ++ l.text ++ " " ++ c.keyword ++ " " ++ r.text ++ "' as a raw comparison")
  | binary (.logical _) _ _ | not _ | identifier _ | string _ | null => none

/-- **The events of a filter are those of its nodes**, each after its
operands. -/
theorem reports_eq (f : Filter) : f.reports = f.postorder.filterMap event? := by
  induction f with
  | binary op l r ihl ihr =>
    rw [postorder, List.filterMap_append, List.filterMap_append, ← ihl, ← ihr]
    cases op with
    | logical k => exact (List.append_nil _).symm
    | comparison c =>
      rw [reports, List.append_right_inj]
      by_cases h : (columnAndValue? c l r).isSome = true <;> simp [event?, h]
  | not f ih =>
    rw [postorder, List.filterMap_append, ← ih]
    exact (List.append_nil _).symm
  | identifier path | integer digits | string s | null => rfl

theorem map_event? (f : Filter) :
    f.event?.map (fun ev => (ev.level, ev.message)) = f.report? := by
  cases f with
  | binary op l r =>
    cases op with
    | logical k => rfl
    | comparison c =>
      have hmessage : (Event.comparedRaw l c r).message = "Compiling '" ++ l.text ++ " "
          ++ c.keyword ++ " " ++ r.text ++ "' as a raw comparison" := by
        show "Compiling " ++ ("'" ++ l.text ++ " " ++ c.keyword ++ " " ++ r.text ++ "'")
          ++ " as a raw comparison" = _
        rw [show "Compiling '" = "Compiling " ++ "'" by decide,
          show "' as a raw comparison" = "'" ++ " as a raw comparison" by decide]
        simp only [String.append_assoc]
      rw [event?, report?, ← hmessage]
      split <;> rfl
  | _ => rfl

/-- The event of a node is no warning and reports nothing as left out. -/
theorem quiet_event? {f : Filter} {ev : Event} (h : f.event? = some ev) :
    ev.isDrop = false ∧ ev.level ≠ .warn := by
  unfold event? at h
  split at h
  case h_1 =>
    cases h
    exact ⟨rfl, nofun⟩
  case h_2 =>
    split at h
    · cases h
    · cases h
      exact ⟨rfl, nofun⟩
  all_goals cases h

/-- **Each integer literal is reported once**, in its place. -/
theorem filterMap_inferred?_reports (f : Filter) :
    f.reports.filterMap Event.inferred?
      = f.literals.filterMap fun lit => Literal.inferred? (lit, lit.value) := by
  induction f with
  | binary op l r ihl ihr =>
    rw [literals, List.filterMap_append, ← ihl, ← ihr]
    cases op with
    | logical k => exact List.filterMap_append
    | comparison c =>
      rw [reports, List.filterMap_append, List.filterMap_append]
      split <;> simp [Event.inferred?]
  | not f ih => exact ih
  | identifier path | integer digits | string s | null => rfl

/-- **The events of compilation are those of a walk** through the nodes of the
filter from left to right, each after its operands. An integer literal is reported
once, at the lowest level, with its digits and the kind of the value that is bound
for it, and a comparison that is not between a column and a literal is reported
with the texts of its sides. Nothing else is reported; in particular nothing is
left out and there is no warning. -/
theorem events_compile (f : Filter) :
    ∃ e, f.compile.value = some e
      ∧ f.compile.events = f.postorder.filterMap event?
      ∧ (f.compile.events.map fun ev => (ev.level, ev.message)) = f.postorder.filterMap report?
      ∧ (∀ ev ∈ f.compile.events, ev.isDrop = false ∧ ev.level ≠ .warn)
      ∧ f.compile.events.filterMap Event.inferred?
          = (f.literals.zip e.params).filterMap Literal.inferred? := by
  rw [compile_eq]
  refine ⟨f.expr, rfl, f.reports_eq, ?_, ?_, ?_⟩
  · rw [reports_eq, List.map_filterMap]
    exact List.filterMap_congr fun g _ => g.map_event?
  · intro ev hev
    rw [reports_eq] at hev
    obtain ⟨g, -, hg⟩ := List.mem_filterMap.1 hev
    exact quiet_event? hg
  · rw [filterMap_inferred?_reports, params_expr, ← List.map_prod_left_eq_zip,
      List.filterMap_map]
    rfl

end Filter

end FilterSql
