import FilterSql.Proofs.Restriction
import FilterSql.Proofs.Sql.Quoting
import FilterSql.Query
import Mathlib

/-!
# Queries with and without a table

A query over a table and the bare WHERE clause are put together in two ways. The
one builds a selection, applies the restriction to it and writes all of it into
one statement; the other writes the predicate alone, puts a blank and the
keyword in front of it, and takes the blank off again. Placeholders are numbered
by the values that were bound before them, and an empty filter has no clause at
all, so that the two agree has to be shown.

What stands before the clause binds nothing, so the clause comes out as it would
alone, placeholders included (`Query.render_selection`). A query over a table is
therefore the bare one behind `SELECT * FROM` and the table. The filter is read
first: its errors are the same with every table and without one, and only then
is a name refused that is none of a table. The main statement is
`Query.ofFilter_named`.
-/

namespace FilterSql

open Sql

/-! ## The names of tables -/

/-- **The name is none of a table**: at its first dot a part is empty, or it has
no dot and consists of blanks only. -/
def Nameless (name : String) : Prop :=
  (∃ a b, name = a ++ "." ++ b ∧ '.' ∉ a.toList ∧ (a = "" ∨ b = ""))
    ∨ '.' ∉ name.toList ∧ ∀ c ∈ name.toList, Text.isBlank c = true

/-- **How a table is written**: in quotes, and if there is a dot in its name,
what stands before the first one and what stands behind it in quotes of their
own. -/
inductive TableText (d : Dialect) : String → String → Prop
  | plain {name : String} (h : '.' ∉ name.toList) : TableText d name (d.quote name)
  | qualified {a b : String} (h : '.' ∉ a.toList) :
      TableText d (a ++ "." ++ b) (d.quote a ++ "." ++ d.quote b)

namespace QualifiedName

theorem dot_mem_append (a b : String) : '.' ∈ (a ++ "." ++ b).toList := by
  simp

/-- What stands before the first dot and behind it is determined by the text. -/
theorem firstDot_inj {a b a' b' : String} (ha : '.' ∉ a.toList) (ha' : '.' ∉ a'.toList)
    (h : a ++ "." ++ b = a' ++ "." ++ b') : a = a' ∧ b = b' := by
  have hchars : a.toList ++ '.' :: b.toList = a'.toList ++ '.' :: b'.toList := by
    simpa using congrArg String.toList h
  have hrun : ∀ s : String, '.' ∉ s.toList → ∀ c ∈ s.toList, (c != '.') = true :=
    fun s hs c hc => bne_iff_ne.2 fun hdot => hs (hdot ▸ hc)
  obtain ⟨hbefore, hbehind⟩ := Text.run_append_inj (hrun a ha) (hrun a' ha')
    ((Text.noneAhead_cons _ _ _).2 rfl) ((Text.noneAhead_cons _ _ _).2 rfl) hchars
  exact ⟨String.toList_inj.1 hbefore, String.toList_inj.1 (List.cons.inj hbehind).2⟩

/-- **A name is refused exactly if it is none of a table.** -/
theorem ofTable?_eq_none_iff (name : String) : ofTable? name = none ↔ Nameless name := by
  rcases ofTable?_cases name with ⟨a, b, rfl, ha, hcut⟩ | ⟨hdot, hcut⟩
  · rw [hcut]
    constructor
    · intro h
      refine .inl ⟨a, b, rfl, ha, ?_⟩
      by_contra hempty
      rw [if_neg hempty] at h
      cases h
    · rintro (⟨a', b', hname, ha', hempty⟩ | ⟨hdot, -⟩)
      · obtain ⟨rfl, rfl⟩ := firstDot_inj ha ha' hname
        exact if_pos hempty
      · exact absurd (dot_mem_append a b) hdot
  · rw [hcut]
    constructor
    · intro h
      exact .inr ⟨hdot, by simpa [Text.isAllBlank] using h⟩
    · rintro (⟨a', b', rfl, -, -⟩ | ⟨-, hblank⟩)
      · exact absurd (dot_mem_append a' b') hdot
      · exact if_pos (List.all_eq_true.2 hblank)

/-- What is written for a table is its text. -/
theorem tableText_of_ofTable? {name : String} {t : QualifiedName} (h : ofTable? name = some t)
    (d : Dialect) : TableText d name (Statement.ofPieces d t.pieces).sql := by
  have hsql : (Statement.ofPieces d t.pieces).sql
      = String.ofList (['.'].intercalate (t.parts.map fun s => (d.quote s).toList)) := by
    rw [← chars_name d 0, ← toList_sql_ofPieces, String.ofList_toList]
  rcases ofTable?_cases name with ⟨a, b, rfl, ha, hcut⟩ | ⟨hdot, hcut⟩
  · rw [hcut, Option.ite_none_left_eq_some] at h
    obtain rfl := Option.some.inj h.2
    have hparts : (mk (some a) b).parts = [a, b] := by
      simp [parts, Text.segments_eq_singleton ha]
    have htext : (Statement.ofPieces d (mk (some a) b).pieces).sql
        = d.quote a ++ "." ++ d.quote b := by
      rw [hsql, hparts, ← String.toList_inj]
      simp
    rw [htext]
    exact .qualified ha
  · rw [hcut, Option.ite_none_left_eq_some] at h
    obtain rfl := Option.some.inj h.2
    have htext : (Statement.ofPieces d (mk none name).pieces).sql = d.quote name := by
      rw [hsql, parts, ← String.toList_inj]
      simp
    rw [htext]
    exact .plain hdot

end QualifiedName

/-! ## The two ways to write a query -/

namespace Query

/-- **A selection is the table and then the clause**, which is written as it would
be alone. -/
theorem render_selection (d : Dialect) (t : QualifiedName) (r : Restriction) :
    (selection t r).render d
      = ⟨"SELECT * FROM " ++ (Statement.ofPieces d t.pieces).sql ++ (r.render d).sql,
          (r.render d).params⟩ := by
  have htable : bound t.pieces = [] := (binds_name t).bound
  have hpieces : (selection t r).pieces
      = [.text "SELECT ", .text "*", .text " ", .text "FROM "]
        ++ (t.pieces ++ Select.clausePieces " WHERE " r.predicate) := by
    cases hr : r.predicate <;>
      simp [selection, Select.apply, Select.restrict, Select.ofTable, Select.ofColumns, hr,
        Select.pieces, Select.sourcePieces, Select.clausePieces]
  unfold Select.render
  rw [hpieces, ofPieces_eq, ofPieces_eq, chars_append, chars_append, bound_append, bound_append,
    htable]
  unfold Restriction.render
  cases r.predicate with
  | none => simp [Select.clausePieces, chars, Statement.empty, ← String.toList_inj]
  | some e =>
    simp [Select.clausePieces, chars, Expr.render, ofPieces_eq, ← String.toList_inj]

/-- The blank before a clause is all that is taken off it. -/
theorem sql_render_eq (d : Dialect) (r : Restriction) :
    (r.render d).sql = if Text.trimStart (r.render d).sql = "" then ""
      else " " ++ Text.trimStart (r.render d).sql := by
  unfold Restriction.render
  cases r.predicate with
  | none => rfl
  | some e =>
    have htrim : Text.trimStart (" WHERE " ++ (e.render d).sql) = "WHERE " ++ (e.render d).sql := by
      rw [Text.trimStart, String.toList_append, ← String.toList_inj]
      simp [Text.isBlank, Text.blankRanges]
    dsimp only
    rw [htrim, if_neg (by simp [← String.toList_inj])]
    simp [← String.toList_inj]

/-- A text that is no filter is reported, whatever the table. -/
theorem value_ofFilter_of_error {text : String} {e : ParseError} (h : Filter.parse text = .error e)
    (d : Dialect) (table : Option String) :
    (ofFilter text d table).value = .error (.parse e) := by
  unfold ofFilter
  rw [Logged.value_bind, Filter.value_read, h]
  rfl

section Filters

variable {text : String} {f : Option Filter} (h : Filter.parse text = .ok f) (d : Dialect)
include h

/-- Without a table a filter always has a query. -/
theorem value_ofFilter_none :
    (ofFilter text d none).value
      = .ok ⟨d, Text.trimStart ((Restriction.ofFilter f).value.render d).sql,
          ((Restriction.ofFilter f).value.render d).params⟩ := by
  unfold ofFilter
  rw [Logged.value_bind, Filter.value_read, h]
  cases hempty : (Restriction.ofFilter f).value.isEmpty <;> simp [hempty, ofStatement]

/-- With a table it has one if the name is that of a table. -/
theorem value_ofFilter_some (name : String) :
    (ofFilter text d (some name)).value = match QualifiedName.ofTable? name with
      | none => .error (.invalidTable name)
      | some t => .ok ⟨d, "SELECT * FROM " ++ (Statement.ofPieces d t.pieces).sql
          ++ ((Restriction.ofFilter f).value.render d).sql,
          ((Restriction.ofFilter f).value.render d).params⟩ := by
  unfold ofFilter
  rw [Logged.value_bind, Filter.value_read, h]
  cases hempty : (Restriction.ofFilter f).value.isEmpty <;>
    cases ht : QualifiedName.ofTable? name <;> simp [hempty, ht, ofStatement, render_selection]

end Filters

/-- **With and without a table, a query says the same.** A text that is no filter
gives the same error with every name and without one. For any other the bare
query exists; over a name the query fails exactly if that is none of a table, and
otherwise it is the bare one behind the table, with the same values. -/
theorem ofFilter_named (text : String) (d : Dialect) (name : String) :
    (∀ e, (ofFilter text d (some name)).value = .error (.parse e) ↔ Filter.parse text = .error e)
      ∧ (∀ e, (ofFilter text d none).value = .error (.parse e) ↔ Filter.parse text = .error e)
      ∧ ∀ f, Filter.parse text = .ok f → ∃ bare, (ofFilter text d none).value = .ok bare
        ∧ (∀ e, (ofFilter text d (some name)).value = .error e
            ↔ e = .invalidTable name ∧ Nameless name)
        ∧ (¬ Nameless name → ∃ table, TableText d name table
            ∧ (ofFilter text d (some name)).value = .ok ⟨bare.dialect,
                "SELECT * FROM " ++ table ++ (if bare.sql = "" then "" else " " ++ bare.sql),
                bare.params⟩) := by
  rw [← QualifiedName.ofTable?_eq_none_iff]
  cases hparse : Filter.parse text with
  | error e => simp [value_ofFilter_of_error hparse]
  | ok f =>
    rw [value_ofFilter_none hparse, value_ofFilter_some hparse]
    refine ⟨fun e => ?_, fun e => ?_, fun f' hf => ⟨_, rfl, fun e => ?_, fun hname => ?_⟩⟩
    · cases QualifiedName.ofTable? name <;> simp
    · simp
    · cases QualifiedName.ofTable? name <;> simp [eq_comm]
    · obtain ⟨t, ht⟩ := Option.ne_none_iff_exists'.1 hname
      refine ⟨_, QualifiedName.tableText_of_ofTable? ht d, ?_⟩
      rw [ht, ← sql_render_eq]

/-- A name is cut at its first dot only, and the clause keeps its numbers. -/
theorem ofFilter_named_numbered :
    ∃ f bare, Filter.parse "a eq 1 or b eq 'x'" = .ok f ∧ ¬ Nameless "s.t.u"
      ∧ (ofFilter "a eq 1 or b eq 'x'" .postgres none).value = .ok bare
      ∧ ∃ table, TableText .postgres "s.t.u" table
        ∧ (ofFilter "a eq 1 or b eq 'x'" .postgres (some "s.t.u")).value = .ok ⟨bare.dialect,
            "SELECT * FROM " ++ table ++ (if bare.sql = "" then "" else " " ++ bare.sql),
            bare.params⟩ := by
  have hname : ¬ Nameless "s.t.u" := by
    rw [← QualifiedName.ofTable?_eq_none_iff]
    decide
  obtain ⟨bare, hbare, -, hnamed⟩ :=
    (ofFilter_named "a eq 1 or b eq 'x'" .postgres "s.t.u").2.2 _ rfl
  exact ⟨_, bare, rfl, hname, hbare, hnamed hname⟩

end Query

end FilterSql
