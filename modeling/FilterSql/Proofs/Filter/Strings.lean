import FilterSql.Proofs.Filter.Words
import Mathlib

/-!
# How the grammar takes strings

A string stands between quotes, and a quote in it is written twice. The grammar
goes through it step by step, each of them two quotes or one character that is
none, so that it takes the longest run in which every quote is doubled
(`innerAhead`) and stops at the first quote that is not.
-/

namespace FilterSql

open Text

/-! ## The inner text -/

namespace Filter

/-- **The inner text of a string that stands ahead**: the longest run in which
every quote is doubled. -/
def innerAhead : List Char → List Char
  | [] => []
  | [c] => if c = '\'' then [] else [c]
  | c :: d :: s =>
    if c = '\'' then if d = '\'' then c :: d :: innerAhead s else []
    else c :: innerAhead (d :: s)

theorem innerAhead_cons_of_ne {c : Char} (hc : c ≠ '\'') (s : List Char) :
    innerAhead (c :: s) = c :: innerAhead s := by
  cases s <;> simp [innerAhead, hc]

theorem innerAhead_quotes (s : List Char) :
    innerAhead ('\'' :: '\'' :: s) = '\'' :: '\'' :: innerAhead s := by
  simp [innerAhead]

theorem innerAhead_quote {s : List Char} (hs : NoneAhead (· == '\'') s) :
    innerAhead ('\'' :: s) = [] := by
  cases s with
  | nil => simp [innerAhead]
  | cons d s =>
    have hd : d ≠ '\'' := by simpa using hs
    simp [innerAhead, hd]

/-- Every quote in the inner text is a doubled one. -/
theorem exists_innerAhead_append (s : List Char) :
    ∃ a t, innerAhead s = doubled '\'' a ∧ s = innerAhead s ++ t := by
  match s with
  | [] => exact ⟨[], [], rfl, rfl⟩
  | c :: s =>
    by_cases hc : c = '\''
    · subst hc
      match s with
      | [] => exact ⟨[], ['\''], by simp [innerAhead], by simp [innerAhead]⟩
      | d :: s =>
        by_cases hd : d = '\''
        · subst hd
          obtain ⟨a, t, ha, hs⟩ := exists_innerAhead_append s
          refine ⟨'\'' :: a, t, ?_, ?_⟩
          · rw [innerAhead_quotes, ha, doubled_cons_self]
          · rw [innerAhead_quotes, List.cons_append, List.cons_append, ← hs]
        · refine ⟨[], '\'' :: d :: s, ?_, ?_⟩ <;> simp [innerAhead, hd]
    · obtain ⟨a, t, ha, hs⟩ := exists_innerAhead_append s
      refine ⟨c :: a, t, ?_, ?_⟩
      · rw [innerAhead_cons_of_ne hc, ha, doubled_cons_of_ne hc]
      · rw [innerAhead_cons_of_ne hc, List.cons_append, ← hs]

/-- **The inner text ends at the closing quote.** -/
theorem innerAhead_doubled {s : List Char} (hs : NoneAhead (· == '\'') s) (a : List Char) :
    innerAhead (doubled '\'' a ++ '\'' :: s) = doubled '\'' a := by
  induction a with
  | nil => exact innerAhead_quote hs
  | cons c a ih =>
    by_cases hc : c = '\''
    · subst hc
      rw [doubled_cons_self, List.cons_append, List.cons_append, innerAhead_quotes, ih]
    · rw [doubled_cons_of_ne hc, List.cons_append, innerAhead_cons_of_ne hc, ih]

end Filter

/-! ## The rules for strings -/

namespace Rule

open FilterSql.Filter

/-- One step inside a string: two quotes, or one character that is none. -/
def innerStep : Pattern :=
  .choice (.literal "''") (.seq (.notAhead (.literal "'")) (.char .any))

section InnerStep

variable (call : Rule → Mode → Cursor → Matched) {c : Cursor}

theorem matched?_innerStep_quotes {s : List Char} (h : c.rest = '\'' :: '\'' :: s) :
    innerStep.matched? call ⟨false, false⟩ c = some (c.advance 2, []) := by
  rw [innerStep, Pattern.matched?, Pattern.matched?, h]
  rfl

theorem matched?_innerStep_of_ne {d : Char} {s : List Char} (hd : d ≠ '\'')
    (h : c.rest = d :: s) : innerStep.matched? call ⟨false, false⟩ c = some (c.advance 1, []) := by
  rw [innerStep, Pattern.matched?, Pattern.matched?_seq_solid rfl, Pattern.matched?,
    Pattern.matched?, Pattern.matched?_literal (a := '\'') rfl, h]
  simp [Ne.symm hd, hd, Pattern.matched?_char, CharClass.contains, h]

theorem matched?_innerStep_eq_none (h : innerAhead c.rest = []) :
    innerStep.matched? call ⟨false, false⟩ c = none := by
  rw [innerStep, Pattern.matched?, Pattern.matched?_seq_solid rfl, Pattern.matched?,
    Pattern.matched?, Pattern.matched?_literal (a := '\'') rfl]
  cases hrest : c.rest with
  | nil => simp [Pattern.matched?_char, hrest]
  | cons d s =>
    have hd : d = '\'' := by
      by_contra hd
      rw [hrest, innerAhead_cons_of_ne hd] at h
      cases h
    subst hd
    cases s with
    | nil => simp
    | cons e s =>
      have he : e ≠ '\'' := by
        rintro rfl
        rw [hrest, innerAhead_quotes] at h
        cases h
      simp [Ne.symm he]

/-- **A run of steps inside a string takes its inner text.** -/
theorem iterated_innerStep (limit : Nat) (c : Cursor) (hlimit : c.rest.length ≤ limit) :
    Matcher.iterated (innerStep.matched? call ⟨false, false⟩) limit c
      = (c.advance (innerAhead c.rest).length, []) := by
  induction limit generalizing c with
  | zero =>
    have hrest : c.rest = [] := List.length_eq_zero_iff.1 (Nat.le_zero.1 hlimit)
    simp [Matcher.iterated, hrest, innerAhead]
  | succ limit ih =>
    by_cases hnone : innerAhead c.rest = []
    · rw [Matcher.iterated_of_none (matched?_innerStep_eq_none call hnone), hnone]
      simp
    · cases hrest : c.rest with
      | nil => exact absurd (by rw [hrest, innerAhead]) hnone
      | cons d s =>
        rw [hrest] at hlimit hnone
        by_cases hd : d = '\''
        · subst hd
          cases s with
          | nil => exact absurd (by simp [innerAhead]) hnone
          | cons e s =>
            have he : e = '\'' := by
              by_contra he
              exact hnone (innerAhead_quote (by simpa using he))
            subst he
            have hadvance : (c.advance 2).rest = s := by rw [Cursor.rest_advance, hrest]; rfl
            have hlimit' : (c.advance 2).rest.length ≤ limit := by
              rw [hadvance]
              simp only [List.length_cons] at hlimit
              omega
            rw [Matcher.iterated_of_some (matched?_innerStep_quotes call hrest), ih _ hlimit',
              hadvance, innerAhead_quotes]
            simp [Cursor.advance_advance, Nat.add_comm 2]
        · have hadvance : (c.advance 1).rest = s := by rw [Cursor.rest_advance, hrest]; rfl
          have hlimit' : (c.advance 1).rest.length ≤ limit := by
            rw [hadvance]
            simpa using hlimit
          rw [Matcher.iterated_of_some (matched?_innerStep_of_ne call hd hrest), ih _ hlimit',
            hadvance, innerAhead_cons_of_ne hd]
          simp [Cursor.advance_advance, Nat.add_comm]

end InnerStep

theorem matched?_stringInner (depth : Nat) (m : Mode) (c : Cursor) :
    stringInner.matched? (depth + 1) m c
      = some (c.advance (innerAhead c.rest).length,
          if m.shown then
            [.token stringInner c.pos (c.rest.take (innerAhead c.rest).length)] else []) := by
  have hmany := Pattern.matched?_many_solid rfl (iterated_innerStep (matched? depth)) c
  rw [matched?_token rfl, show stringInner.body = .many innerStep from rfl, hmany]
  simp

/-- **A string is taken up to the first quote that is not doubled.** -/
theorem matched?_string (depth : Nat) (c : Cursor) :
    string.matched? (depth + 2) .initial c
      = match c.rest with
        | '\'' :: s =>
          if (s.drop (innerAhead s).length).head? = some '\'' then
            some (c.advance ((innerAhead s).length + 2),
              [.branch string c.pos (c.pos + (innerAhead s).length + 2)
                [.token stringInner (c.pos + 1) (s.take (innerAhead s).length)]])
          else none
        | _ => none := by
  have hlit : ∀ {m : Mode} {c : Cursor}, (Pattern.literal "'").matched? (matched? (depth + 1)) m c
      = if c.rest.head? = some '\'' then some (c.advance 1, []) else none :=
    Pattern.matched?_literal rfl
  have hmode : Mode.initial.enter string.kind = ⟨false, true⟩ := rfl
  rw [matched?, hmode, body, Pattern.inOrder, List.foldl_cons, List.foldl_cons, List.foldl_nil,
    Pattern.matched?_seq_solid rfl, Pattern.matched?_seq_solid rfl, hlit]
  cases hrest : c.rest with
  | nil => simp
  | cons d s =>
    by_cases hd : d = '\''
    · subst hd
      have hinner : (Pattern.rule stringInner).matched? (matched? (depth + 1)) ⟨false, true⟩
          (c.advance 1) = some (c.advance ((innerAhead s).length + 1),
            [.token stringInner (c.pos + 1) (s.take (innerAhead s).length)]) := by
        rw [Pattern.matched?, matched?_stringInner, Cursor.advance_advance, Cursor.rest_advance,
          hrest]
        simp [Nat.add_comm]
      simp only [List.head?_cons, if_true, Option.bind_some, hinner, Option.map_some, hlit,
        Cursor.rest_advance, hrest, List.drop_succ_cons, Cursor.advance_advance]
      by_cases hclose : (s.drop (innerAhead s).length).head? = some '\''
      · simp [hclose, node, kind, Mode.initial, Nat.add_assoc]
      · rw [if_neg hclose, if_neg hclose]
        rfl
    · simp [hd]

end Rule

end FilterSql
