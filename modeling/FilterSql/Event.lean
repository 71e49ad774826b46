import FilterSql.Filter.Basic
import FilterSql.Sql.Dialect

/-!
# Events

What is reported along the way. A computation that reports events gives its
value together with the events in the order in which they arose (`Logged`).
-/

namespace FilterSql

/-- How much an event matters. -/
inductive Level where
  | trace
  | debug
  | info
  | warn
  deriving DecidableEq

/-- The word for a level. -/
def Level.name : Level → String
  | .trace => "TRACE"
  | .debug => "DEBUG"
  | .info => "INFO"
  | .warn => "WARN"

/-- **An event.** -/
inductive Event where
  /-- A text was read as a filter with so many nodes. -/
  | parsed (input : String) (nodes : Nat)
  /-- An integer literal was bound as a kind of value. -/
  | bound (digits : String) (kind : String)
  /-- A comparison that is not between a column and a literal. -/
  | comparedRaw (left : Filter) (c : Comparator) (right : Filter)
  /-- One of two operands has no SQL form. -/
  | droppedOperand (c : Connective)
  /-- Neither of two operands has a SQL form. -/
  | droppedOperands (c : Connective)
  /-- A side of a comparison has no SQL form. -/
  | droppedComparison (left : Filter) (c : Comparator) (right : Filter)
  /-- A raw expression could not be built. -/
  | droppedRaw (e : BuildError)
  /-- A filter that keeps every row. -/
  | keptAll
  /-- The text of a query. -/
  | rendered (d : Dialect) (sql : String)
  /-- A statement that is run with so many values. -/
  | executing (sql : String) (params : Nat)
  deriving DecidableEq

namespace Event

/-- How much the event matters. -/
def level : Event → Level
  | parsed .. | bound .. => .trace
  | comparedRaw .. | droppedOperand _ | droppedOperands _ | droppedComparison ..
  | rendered .. => .debug
  | keptAll | executing .. => .info
  | droppedRaw _ => .warn

/-- A comparison as it is named in a report. -/
def comparisonText (left : Filter) (c : Comparator) (right : Filter) : String :=
  "'" ++ left.text ++ " " ++ c.keyword ++ " " ++ right.text ++ "'"

/-- What is reported of the event. -/
def message : Event → String
  | parsed _ _ => "Parsed filter"
  | bound digits kind => "Integer literal " ++ digits ++ " bound as " ++ kind
  | comparedRaw l c r => "Compiling " ++ comparisonText l c r ++ " as a raw comparison"
  | droppedOperand c => "Dropping inexpressible operand of '" ++ c.keyword ++ "'"
  | droppedOperands c => "Both operands of '" ++ c.keyword ++ "' are inexpressible"
  | droppedComparison l c r => "Dropping comparison " ++ comparisonText l c r
  | droppedRaw e => "Dropping raw expression: " ++ e.message
  | keptAll => "Filter is empty; no predicate will be applied"
  | rendered d sql => "Rendered " ++ d.name ++ " SQL: " ++ sql
  | executing sql n => "Executing: " ++ sql ++ " with " ++ toString n ++ " parameter(s)"

end Event

/-- **A value and the events on the way to it.** -/
structure Logged (α : Type) where
  /-- The value. -/
  value : α
  /-- The events, the first one first. -/
  events : List Event

namespace Logged

variable {α β : Type}

instance : Monad Logged where
  pure a := ⟨a, []⟩
  bind x f := ⟨(f x.value).value, x.events ++ (f x.value).events⟩

/-- Reports an event. -/
def log (e : Event) : Logged Unit := ⟨(), [e]⟩

@[simp] theorem value_pure (a : α) : (pure a : Logged α).value = a := rfl

@[simp] theorem events_pure (a : α) : (pure a : Logged α).events = [] := rfl

@[simp] theorem value_bind (x : Logged α) (f : α → Logged β) :
    (x >>= f).value = (f x.value).value := rfl

@[simp] theorem events_bind (x : Logged α) (f : α → Logged β) :
    (x >>= f).events = x.events ++ (f x.value).events := rfl

@[simp] theorem value_log (e : Event) : (log e).value = () := rfl

@[simp] theorem events_log (e : Event) : (log e).events = [e] := rfl

theorem ext {x y : Logged α} (hv : x.value = y.value) (he : x.events = y.events) : x = y := by
  cases x; cases y; simp_all

instance : LawfulMonad Logged :=
  LawfulMonad.mk' Logged
    (fun x => ext rfl (by simp [Functor.map]))
    (fun _ _ => ext rfl (by simp))
    (fun _ _ _ => ext rfl (by simp))

end Logged

end FilterSql
