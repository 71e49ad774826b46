import FilterSql.Proofs.Text.Runs
import FilterSql.Text.Place
import Mathlib

/-!
# The line and the column of a place

Line, column and shown line of a place are computed by three different rules.
Line and column come from one walk over the text before the place, in which a
carriage return and a line feed together are one line break; the shown line is
cut out at the line feeds around the place, and then rid of every character of a
line break.

Here the three are related. Line and column are what they should be: one more
than the number of line feeds before the place, and one more than the number of
characters between the last of them and the place (`lineColumn_eq`). What is shown
before the place is as long as that, less the carriage returns in it
(`length_lineBefore`). So the column counts a carriage return that does not end a
line, and the shown line does not have it.
-/

namespace FilterSql.Text

/-- **The line that a place is in, up to the place.** -/
def lineBefore (before : List Char) : List Char :=
  (before.reverse.takeWhile (· ≠ '\n')).reverse

/-- A text without the characters of line breaks. -/
def withoutBreaks (s : List Char) : List Char :=
  s.filter (!isBreak ·)

theorem isBreak_of_mem_withoutBreaks {s : List Char} {c : Char} (hc : c ∈ withoutBreaks s) :
    isBreak c = false := by
  simpa using List.of_mem_filter hc

theorem notMem_lineBefore (before : List Char) : '\n' ∉ lineBefore before := by
  intro h
  have htaken := List.mem_takeWhile_imp (List.mem_reverse.1 h)
  simp at htaken

theorem lineBefore_of_notMem {s : List Char} (h : '\n' ∉ s) : lineBefore s = s := by
  have hall : ∀ c ∈ s.reverse, decide (c ≠ '\n') = true := by
    intro c hc
    rw [decide_eq_true_iff]
    rintro rfl
    exact h (List.mem_reverse.1 hc)
  have htake := takeWhile_append_of_noneAhead hall (noneAhead_nil _)
  rw [List.append_nil] at htake
  rw [lineBefore, htake, List.reverse_reverse]

/-- One more character in front belongs to the line only if no line feed is at it or
behind it. -/
theorem lineBefore_cons (c : Char) (s : List Char) :
    lineBefore (c :: s) = if '\n' ∈ c :: s then lineBefore s else c :: s := by
  split
  · rename_i h
    rw [lineBefore, lineBefore, List.reverse_cons, List.takeWhile_append]
    congr 1
    by_cases hs : '\n' ∈ s
    · refine if_neg fun hlength => ?_
      have hall := (List.takeWhile_prefix (· ≠ '\n')).eq_of_length hlength
      have hmem : '\n' ∈ s.reverse.takeWhile (· ≠ '\n') := by
        rw [hall]
        exact List.mem_reverse.2 hs
      simpa using List.mem_takeWhile_imp hmem
    · obtain rfl : '\n' = c := (List.mem_cons.1 h).resolve_right hs
      rw [List.takeWhile_cons_of_neg (by simp), List.append_nil]
      split
      · rename_i hlength
        exact ((List.takeWhile_prefix _).eq_of_length hlength).symm
      · rfl
  · rename_i h
    exact lineBefore_of_notMem h

/-- The line and the column behind a text, from those before it: a line feed in it
starts the columns again. -/
theorem lineColumnFrom_eq (line column : Nat) (s : List Char) :
    lineColumnFrom line column s
      = (line + s.count '\n', (lineBefore s).length + if '\n' ∈ s then 1 else column) := by
  fun_induction lineColumnFrom line column s with
  | case1 line column => simp [lineBefore]
  | case2 line column rest ih =>
    rw [ih, lineBefore_cons, lineBefore_cons]
    simp
    omega
  | case3 line column rest ih =>
    rw [ih, lineBefore_cons]
    simp
    omega
  | case4 line column c rest hcrlf hlf ih =>
    have hmem : '\n' ∈ c :: rest ↔ '\n' ∈ rest := by
      rw [List.mem_cons, or_iff_right fun h => hlf h.symm]
    rw [ih, lineBefore_cons, List.count_cons_of_ne hlf]
    simp only [hmem]
    split
    · rfl
    · rename_i h
      rw [lineBefore_of_notMem h, List.length_cons, Nat.add_assoc, Nat.add_comm column]

/-- **The line and the column of a place**: they count the line feeds before it, and
the characters behind the last of them. -/
theorem lineColumn_eq (before : List Char) :
    lineColumn before = (before.count '\n' + 1, (lineBefore before).length + 1) := by
  rw [lineColumn, lineColumnFrom_eq, Nat.add_comm 1, ite_self]

/-! ## What is shown -/

/-- What is shown before a place lacks the carriage returns of the line. -/
theorem length_lineBefore (before : List Char) :
    (lineBefore before).length
      = (withoutBreaks (lineBefore before)).length + (lineBefore before).count '\r' := by
  have hreturn : ∀ c ∈ lineBefore before, isBreak c = true ↔ (c == '\r') = true := by
    intro c hc
    have hne : c ≠ '\n' := fun h => notMem_lineBefore before (h ▸ hc)
    simp [isBreak, hne]
  rw [List.length_eq_countP_add_countP isBreak, List.countP_congr hreturn, Nat.add_comm,
    withoutBreaks, ← List.countP_eq_length_filter, List.count]
  simp

/-- With more shown behind it, the line is as long as the place is far in if and only
if that makes up for the carriage returns. -/
theorem length_lineBefore_le_iff (before more : List Char) :
    (lineBefore before).length ≤ (withoutBreaks (lineBefore before) ++ more).length
      ↔ (lineBefore before).count '\r' ≤ more.length := by
  have hlength := length_lineBefore before
  rw [List.length_append]
  omega

/-- **Where no line break stands ahead**, the line is shown without its breaks, what
stands before the place first. -/
theorem shownLine_eq {after : List Char} (h : NoneAhead isBreak after) (before : List Char) :
    shownLine before after
      = withoutBreaks (lineBefore before) ++ withoutBreaks (restOfLine after) := by
  have hhead : after.head?.any isBreak = false := by
    cases after with
    | nil => rfl
    | cons c after => exact (noneAhead_cons _ _ _).1 h
  rw [shownLine, hhead]
  exact List.filter_append _ _

/-- The character at a place is the first that is shown behind it. -/
theorem head?_withoutBreaks {after : List Char} (h : NoneAhead isBreak after) :
    (withoutBreaks (restOfLine after)).head? = after.head? := by
  cases after with
  | nil => rfl
  | cons c after =>
    rw [noneAhead_cons] at h
    have hc : c ≠ '\n' := by
      rintro rfl
      cases h
    simp [restOfLine, hc, withoutBreaks, h]

/-- **Without carriage returns before it, the character at a place is shown as far
in as the place is.** -/
theorem getElem?_shown {before after : List Char} (hbefore : '\r' ∉ lineBefore before)
    (hafter : NoneAhead isBreak after) :
    (withoutBreaks (lineBefore before)
        ++ withoutBreaks (restOfLine after))[(lineBefore before).length]? = after.head? := by
  have hlength := length_lineBefore before
  rw [List.count_eq_zero_of_not_mem hbefore, Nat.add_zero] at hlength
  rw [List.getElem?_append_right hlength.ge, hlength, Nat.sub_self, ← List.head?_eq_getElem?,
    head?_withoutBreaks hafter]

/-! ## Carriage returns -/

/-- **Carriage returns stand only before line feeds.** -/
def ReturnsEndLines (s : List Char) : Prop :=
  ∀ front back, s = front ++ '\r' :: back → back.head? = some '\n'

theorem exists_append_lineBefore (before : List Char) :
    ∃ front, before = front ++ lineBefore before := by
  refine ⟨(before.reverse.dropWhile (· ≠ '\n')).reverse, ?_⟩
  rw [lineBefore, ← List.reverse_append, List.takeWhile_append_dropWhile, List.reverse_reverse]

/-- Then none stands in a line before a place, unless the place is between it and
its line feed. -/
theorem ReturnsEndLines.notMem_lineBefore {before after : List Char}
    (h : ReturnsEndLines (before ++ after)) (hafter : NoneAhead isBreak after) :
    '\r' ∉ lineBefore before := by
  intro hmem
  obtain ⟨front, hfront⟩ := exists_append_lineBefore before
  obtain ⟨s, t, hline⟩ := List.append_of_mem hmem
  have htext : before ++ after = (front ++ s) ++ '\r' :: (t ++ after) := by
    rw [hfront, hline]
    simp
  have hhead := h _ _ htext
  cases t with
  | nil =>
    cases after with
    | nil => cases hhead
    | cons c after =>
      obtain rfl : c = '\n' := Option.some.inj hhead
      cases (noneAhead_cons _ _ _).1 hafter
  | cons c t =>
    obtain rfl : c = '\n' := Option.some.inj hhead
    exact Text.notMem_lineBefore before (hline ▸ by simp)

end FilterSql.Text
