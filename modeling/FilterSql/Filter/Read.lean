import FilterSql.Event
import FilterSql.Filter.Parse

/-!
# Reading with a report

Reading a filter, with the report of how many nodes it has.
-/

namespace FilterSql.Filter

/-- **Reads a filter and reports its size.** A text that is no filter is not
reported. -/
def read (input : String) : Logged (Except ParseError (Option Filter)) :=
  match parse input with
  | .error e => return .error e
  | .ok f => do
    Logged.log (.parsed input (f.elim 0 nodeCount))
    return .ok f

/-- The report does not change what is read. -/
theorem value_read (text : String) : (read text).value = parse text := by
  unfold read
  split
  · rename_i e h
    exact h.symm
  · rename_i f h
    exact h.symm

end FilterSql.Filter
