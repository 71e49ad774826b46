import FilterSql.Proofs.Filter.Attempts
import FilterSql.Proofs.Text.Place
import Mathlib

/-!
# Where the report of an error points

The report of a text that is no filter has three lines: the message, the line of
the text in which it fails, and a caret. The caret is placed by counting the
characters of that line before the place, but of the line its carriage returns are
left out. A carriage return that ends no line is a blank like any other to the
parser, so the two may differ.

The main statement is `report_of_parse_error`. It holds of every text that is
rejected, says what each of the three lines is, and says exactly when the caret
stands under the line that is shown or just past its end: when no more carriage
returns were left out before the place than there are characters shown from the
place on. If carriage returns only stand before line feeds, the caret is under the
character at which the text fails.
-/

namespace FilterSql

/-! ## Texts of one line -/

namespace Text

/-- The text has no line feed. -/
def OneLine (s : String) : Prop :=
  '\n' ∉ s.toList

instance (s : String) : Decidable (OneLine s) :=
  inferInstanceAs (Decidable ('\n' ∉ s.toList))

variable {s t : String}

theorem OneLine.append (hs : OneLine s) (ht : OneLine t) : OneLine (s ++ t) := by
  unfold OneLine at *
  rw [String.toList_append, List.mem_append]
  exact not_or.2 ⟨hs, ht⟩

theorem OneLine.intercalate (hs : OneLine s) {texts : List String} (h : ∀ t ∈ texts, OneLine t) :
    OneLine (s.intercalate texts) := by
  induction texts with
  | nil =>
    rw [String.intercalate_nil]
    decide
  | cons t texts ih =>
    rw [List.forall_mem_cons] at h
    cases texts with
    | nil =>
      rw [String.intercalate_singleton]
      exact h.1
    | cons u texts =>
      rw [String.intercalate_cons_cons]
      exact (h.1.append hs).append (ih h.2)

theorem oneLine_toString (n : Nat) : OneLine (toString n) := by
  intro h
  rw [Nat.toString_eq_repr, Nat.toList_repr] at h
  exact absurd (Nat.isDigit_of_mem_toDigits (by decide) le_rfl h) (by decide)

end Text

open Text

namespace ParseError

theorem oneLine_enumerate {names : List String} (h : ∀ s ∈ names, OneLine s) :
    OneLine (enumerate names) := by
  fun_cases enumerate names with
  | case1 => decide
  | case2 a => exact h a (by simp)
  | case3 a b => exact ((h a (by simp)).append (by decide)).append (h b (by simp))
  | case4 hnil hone htwo =>
    have hlast : OneLine (names.getLastD "") := by
      rw [List.getLastD_eq_getLast?]
      cases hlast : names.getLast? with
      | none => decide
      | some s => exact h s (List.mem_of_getLast? hlast)
    have hfront : ∀ s ∈ names.dropLast, OneLine s := fun s hs => h s (List.mem_of_mem_dropLast hs)
    exact ((OneLine.intercalate (by decide) hfront).append (by decide)).append hlast

theorem oneLine_name (r : Rule) : OneLine r.name := by
  cases r <;> decide

theorem oneLine_expectation (rules : List Rule) : OneLine (expectation rules) := by
  unfold expectation
  split
  · decide
  · refine OneLine.append (by decide) (oneLine_enumerate fun s hs => ?_)
    obtain ⟨r, -, rfl⟩ := List.mem_map.1 hs
    exact oneLine_name r

/-- The message is one line, if what was expected is. -/
theorem oneLine_message {expected : String} (h : OneLine expected) (line column : Nat)
    (snippet : String) : OneLine (malformed expected line column snippet).message := by
  show OneLine ("Syntax error at " ++ toString line ++ ":" ++ toString column ++ ": " ++ expected)
  have hplace : OneLine ("Syntax error at " ++ toString line ++ ":" ++ toString column) :=
    ((OneLine.append (by decide) (oneLine_toString line)).append (by decide)).append
      (oneLine_toString column)
  exact (hplace.append (by decide)).append h

/-- **The report has three lines**, unless the caret is too far to the right. -/
theorem exists_report {expected snippet : String} (hexpected : OneLine expected)
    (hsnippet : OneLine snippet) (line : Nat) {column : Nat} (hcolumn : column ≤ maxWidth) :
    ∃ report, (malformed expected line column snippet).report? = some report
      ∧ report.toList.splitOn '\n'
        = [(malformed expected line column snippet).message.toList, snippet.toList,
            List.replicate (column - 1) ' ' ++ ['^']] := by
  refine ⟨_, by rw [report?, caret?, if_pos hcolumn, Option.map_some], ?_⟩
  have hlines : ((malformed expected line column snippet).message ++ "\n" ++ snippet ++ "\n"
        ++ String.ofList (List.replicate (column - 1) ' ' ++ ['^'])).toList
      = ['\n'].intercalate [(malformed expected line column snippet).message.toList, snippet.toList,
          List.replicate (column - 1) ' ' ++ ['^']] := by
    simp [List.intercalate]
  rw [hlines]
  refine List.splitOn_intercalate '\n' ?_ (by simp)
  simp only [List.forall_mem_cons]
  exact ⟨oneLine_message hexpected line column snippet, hsnippet, by simp, by simp⟩

theorem report?_eq_none {column : Nat} (hcolumn : maxWidth < column) (expected : String)
    (line : Nat) (snippet : String) : (malformed expected line column snippet).report? = none := by
  rw [report?, caret?, if_neg (Nat.not_le.2 hcolumn), Option.map_none]

end ParseError

/-! ## The place of an error -/

namespace Filter

/-- A text is read if nothing but blanks is left of it behind what matched. -/
theorem exists_parseChars_of_rest {input : List Char} {c' : Cursor} {nodes : List Node}
    (h : (matchedFilter input).getD (firstPlace input, []) = (c', nodes))
    (hend : c'.skipBlanks.rest = []) : ∃ f, parseChars input = .ok f := by
  cases hmatch : matchedFilter input with
  | none =>
    rw [hmatch, Option.getD_none] at h
    cases h
    have hparse := parseChars_of_none hmatch
    rw [if_pos hend] at hparse
    exact ⟨_, hparse⟩
  | some x =>
    rw [hmatch, Option.getD_some] at h
    subst h
    obtain ⟨n, ts, f, rfl, hbuilds, -, -⟩ := exists_of_matchedFilter hmatch
    have hparse := parseChars_of_some hmatch hbuilds
    rw [if_pos hend] at hparse
    exact ⟨_, hparse⟩

/-- **An error is always one of matching**: a text that matches is read. -/
theorem exists_attempts_of_parseChars {input : List Char} {e : ParseError}
    (h : parseChars input = .error e) :
    ∃ a, Rule.filter.matchInput input = .error a ∧ e = .ofAttempts input a := by
  cases hmatch : Rule.filter.matchInput input with
  | error a =>
    unfold parseChars at h
    rw [hmatch] at h
    exact ⟨a, rfl, (Except.error.inj h).symm⟩
  | ok nodes =>
    exfalso
    have hsome : (Rule.filter.matched? (Rule.nesting input) .initial ⟨0, input⟩).isSome := by
      rw [← Rule.run_snd (Rule.nesting input) .filter .initial ⟨0, input⟩ .none]
      unfold Rule.matchInput at hmatch
      split at hmatch
      · rename_i hrun
        rw [hrun]
        rfl
      · cases hmatch
    obtain ⟨⟨c', front⟩, hfront⟩ :
        ∃ x, (matchedFilter input).getD (firstPlace input, []) = x := ⟨_, rfl⟩
    rw [matched?_filter hfront] at hsome
    split at hsome
    · rename_i hend
      obtain ⟨f, hf⟩ := exists_parseChars_of_rest hfront hend
      cases h.symm.trans hf
    · cases hsome

/-- The place of an error is not at a line break. -/
theorem noneAhead_isBreak {input : List Char} {a : Attempts}
    (h : Rule.filter.matchInput input = .error a) : NoneAhead isBreak (input.drop a.pos) := by
  refine NoneAhead.mono (fun c hc => ?_) (apartFromBlanks_of_matchInput h)
  simp only [isBreak, Bool.or_eq_true, beq_iff_eq] at hc
  rcases hc with rfl | rfl <;> rfl

/-- The error of attempts that end at no line break. -/
theorem ofAttempts_eq {input : List Char} {a : Attempts}
    (h : NoneAhead isBreak (input.drop a.pos)) :
    ParseError.ofAttempts input a
      = .malformed (ParseError.expectation a.rules) ((input.take a.pos).count '\n' + 1)
          ((lineBefore (input.take a.pos)).length + 1)
          (String.ofList (withoutBreaks (lineBefore (input.take a.pos))
            ++ withoutBreaks (restOfLine (input.drop a.pos)))) := by
  rw [ParseError.ofAttempts, lineColumn_eq, shownLine_eq h]

/-- **What the report of an error shows, and where it points.** A text is only
rejected because it does not match. Say `before` and `after` are what stands before and
behind the furthest place `a.pos` at which rules were tried in vain. The error has
the line and the column of that place, both from one on. The line that is shown
has no line break in it. The report is three lines: the message, that line, and
the caret behind one blank less than the column. From column 65536 on, the caret
cannot be placed and there is no report.

The column is at most one more than the number of characters shown if and only if
there are not more carriage returns before the place in its line than there are
characters shown from the place on. If carriage returns stand only before line
feeds, the caret is under the character at the place, or past the end of the line
if the text ends there. -/
theorem report_of_parse_error {text : String} {e : ParseError} (h : parse text = .error e) :
    ∃ (a : Attempts) (before after : List Char) (line column : Nat) (snippet : String),
      Rule.filter.matchInput text.toList = .error a
      ∧ text.toList = before ++ after ∧ before = text.toList.take a.pos
      ∧ e = .malformed (ParseError.expectation a.rules) line column snippet
      ∧ 1 ≤ line ∧ line = before.count '\n' + 1
      ∧ 1 ≤ column ∧ column = (lineBefore before).length + 1
      ∧ snippet.toList = withoutBreaks (lineBefore before) ++ withoutBreaks (restOfLine after)
      ∧ (∀ c ∈ snippet.toList, isBreak c = false)
      ∧ (column ≤ 65535 → ∃ report, e.report? = some report
          ∧ report.toList.splitOn '\n'
            = [e.message.toList, snippet.toList, List.replicate (column - 1) ' ' ++ ['^']])
      ∧ (65535 < column → e.report? = none)
      ∧ (column ≤ snippet.length + 1
          ↔ (lineBefore before).count '\r' ≤ (withoutBreaks (restOfLine after)).length)
      ∧ (ReturnsEndLines text.toList →
          column ≤ snippet.length + 1 ∧ snippet.toList[column - 1]? = after.head?) := by
  obtain ⟨a, hmatch, rfl⟩ := exists_attempts_of_parseChars h
  have hafter := noneAhead_isBreak hmatch
  have he := ofAttempts_eq hafter
  have hsplit := (List.take_append_drop a.pos text.toList).symm
  generalize hbefore : text.toList.take a.pos = before at he hsplit
  generalize text.toList.drop a.pos = after at hafter he hsplit
  have hbreaks : ∀ c ∈ withoutBreaks (lineBefore before) ++ withoutBreaks (restOfLine after),
      isBreak c = false := by
    intro c hc
    rcases List.mem_append.1 hc with hc | hc <;> exact isBreak_of_mem_withoutBreaks hc
  refine ⟨a, before, after, _, _, _, hmatch, hsplit, hbefore.symm, he, Nat.succ_pos _, rfl,
    Nat.succ_pos _, rfl, String.toList_ofList, ?_, fun hcolumn => ?_, fun hcolumn => ?_, ?_,
    fun hreturns => ?_⟩
  · rwa [String.toList_ofList]
  · rw [he]
    refine ParseError.exists_report (ParseError.oneLine_expectation _) ?_ _ hcolumn
    intro hmem
    rw [String.toList_ofList] at hmem
    cases hbreaks _ hmem
  · rw [he]
    exact ParseError.report?_eq_none hcolumn _ _ _
  · rw [String.length_ofList, Nat.add_le_add_iff_right, length_lineBefore_le_iff]
  · have hreturn : '\r' ∉ lineBefore before :=
      ReturnsEndLines.notMem_lineBefore (hsplit ▸ hreturns) hafter
    rw [String.length_ofList, Nat.add_le_add_iff_right, length_lineBefore_le_iff,
      List.count_eq_zero_of_not_mem hreturn, String.toList_ofList, Nat.add_sub_cancel]
    exact ⟨Nat.zero_le _, getElem?_shown hreturn hafter⟩

/-- Blanks do not make a filter of what stands behind them. -/
theorem exists_error_of_dropWhile {input : List Char} {e : ParseError}
    (h : parseChars (input.dropWhile Cursor.isBlank) = .error e) :
    ∃ e', parseChars input = .error e' := by
  rcases parseChars_cases input with ⟨-, hblank⟩ | ⟨f, -, ts, hscan, hderives⟩ | herror
  · have hnone : parseChars (input.dropWhile Cursor.isBlank) = .ok none := by
      rw [List.dropWhile_eq_nil_iff.2 hblank, parseChars_eq_none_iff]
      exact fun c hc => absurd hc List.not_mem_nil
    cases h.symm.trans hnone
  · have hsome := (parseChars_eq_some_iff _ f).2 ⟨ts, hscan.dropWhile_isBlank, hderives⟩
    cases h.symm.trans hsome
  · exact herror

section Blanks

variable (n : Nat)

/-- A closing parenthesis is no filter, and blanks before it do not make it one. -/
theorem exists_parse_blanks :
    ∃ e, parse (String.ofList (List.replicate n ' ' ++ [')'])) = .error e := by
  have hclosing : parseChars [')'] = .error (.malformed "expected filter" 1 1 ")") := rfl
  rw [parse, String.toList_ofList]
  refine exists_error_of_dropWhile (e := .malformed "expected filter" 1 1 ")") ?_
  rw [List.dropWhile_append_of_pos (by simp [Cursor.isBlank]),
    List.dropWhile_cons_of_neg (by decide)]
  exact hclosing

/-- The place behind blanks is as far from the start of the line. -/
theorem le_length_lineBefore {a : Attempts}
    (h : Rule.filter.matchInput (List.replicate n ' ' ++ [')']) = .error a) :
    n ≤ (lineBefore ((List.replicate n ' ' ++ [')']).take a.pos)).length := by
  have hpos : n ≤ a.pos := by
    by_contra hlt
    obtain ⟨m, hm⟩ : ∃ m, n - a.pos = m + 1 := ⟨n - a.pos - 1, by omega⟩
    have hapart := apartFromBlanks_of_matchInput h
    rw [ApartFromBlanks, List.drop_append_of_le_length (by simp; omega), List.drop_replicate, hm,
      List.replicate_succ, List.cons_append, noneAhead_cons] at hapart
    cases hapart
  have hline : '\n' ∉ (List.replicate n ' ' ++ [')']).take a.pos := by
    intro hmem
    have := List.mem_of_mem_take hmem
    simp at this
  rw [lineBefore_of_notMem hline, List.length_take]
  simp only [List.length_append, List.length_replicate, List.length_singleton]
  omega

end Blanks

/-- Two carriage returns before the place, and one character shown from it on: the
caret is past the end of the line by one. And so many blanks before the place that
there is no report. -/
theorem report_of_parse_error_lone_returns :
    (parse "\r\r)" = .error (.malformed "expected EOI or not_expr" 1 3 ")")
      ∧ (∃ report, (ParseError.malformed "expected EOI or not_expr" 1 3 ")").report? = some report
          ∧ report.toList.splitOn '\n'
            = ["Syntax error at 1:3: expected EOI or not_expr".toList, [')'], [' ', ' ', '^']])
      ∧ ¬ 3 ≤ ")".length + 1)
    ∧ ∃ e, parse (String.ofList (List.replicate 65535 ' ' ++ [')'])) = .error e
      ∧ e.report? = none := by
  constructor
  · have hparse : parse "\r\r)" = .error (.malformed "expected EOI or not_expr" 1 3 ")") := rfl
    obtain ⟨a, before, after, line, column, snippet, -, -, -, he, -, -, -, -, -, -, hlines, -⟩ :=
      report_of_parse_error hparse
    obtain ⟨-, rfl, rfl, rfl⟩ := ParseError.malformed.inj he
    exact ⟨hparse, hlines (by decide), by decide⟩
  · obtain ⟨e, hparse⟩ := exists_parse_blanks 65535
    obtain ⟨a, before, after, line, column, snippet, hmatch, -, hbefore, -, -, -, -, hcolumn, -, -,
      -, hnone, -⟩ := report_of_parse_error hparse
    rw [String.toList_ofList] at hmatch hbefore
    refine ⟨e, hparse, hnone ?_⟩
    rw [hcolumn, hbefore]
    exact Nat.lt_succ_of_le (le_length_lineBefore 65535 hmatch)

end Filter

end FilterSql
