import FilterSql.Filter.Match
import FilterSql.Proofs.Text.Runs
import Mathlib

/-!
# Matches without the record of attempts

The record of attempts runs beside a match and has no influence on it. Here a
match is seen without it: `Pattern.matched?` and `Rule.matched?` give the place
behind the match and its nodes, if there is a match, and `Rule.run_snd` says
that a run gives the same, whatever is on record. All that is proved about
matches is proved about these.

A pattern that takes one character of a class at a time takes the run of such
characters that stands ahead when it is repeated (`Pattern.matched?_many_class`).
-/

namespace FilterSql

/-- A match: the place behind it and its nodes, if there is one. -/
abbrev Matched := Option (Cursor × List Node)

namespace Matcher

/-- Matches again and again until there is no match, at most `limit` times. -/
def iterated (step : Cursor → Matched) : Nat → Cursor → Cursor × List Node
  | 0, c => (c, [])
  | limit + 1, c =>
    match step c with
    | none => (c, [])
    | some (c', nodes) => ((iterated step limit c').1, nodes ++ (iterated step limit c').2)

end Matcher

/-- **The match of a pattern**, where `call` matches the rules in it. -/
def Pattern.matched? (call : Rule → Mode → Cursor → Matched) : Pattern → Mode → Cursor → Matched
  | .literal s, _, c => if s.toList.isPrefixOf c.rest then some (c.advance s.length, []) else none
  | .anyCase s, _, c =>
    if Text.startsWithWord s.toList c.rest then some (c.advance s.length, []) else none
  | .char k, _, c => if c.rest.head?.any k.contains then some (c.advance 1, []) else none
  | .start, _, c => if c.pos == 0 then some (c.advance 0, []) else none
  | .finish, _, c => if c.rest.isEmpty then some (c.advance 0, []) else none
  | .rule r, m, c => call r m c
  | .seq p q, m, c =>
    (p.matched? call m c).bind fun x =>
      (q.matched? call m (m.skip x.1)).map fun y => (y.1, x.2 ++ y.2)
  | .choice p q, m, c => (p.matched? call m c).or (q.matched? call m c)
  | .optional p, m, c => (p.matched? call m c).or (some (c, []))
  | .many p, m, c =>
    match p.matched? call m c with
    | none => some (c, [])
    | some (c, first) =>
      let found := Matcher.iterated (fun c => p.matched? call m (m.skip c)) (c.rest.length + 1) c
      some (found.1, first ++ found.2)
  | .notAhead p, m, c => if (p.matched? call m c).isSome then none else some (c, [])

/-- **The match of a rule**, through at most `depth` rules nested in one
another. -/
def Rule.matched? : Nat → Rule → Mode → Cursor → Matched
  | 0, _, _, _ => none
  | depth + 1, r, m, c =>
    (r.body.matched? (matched? depth) (m.enter r.kind) c).map fun x =>
      (x.1, if r.kind = .hidden then x.2 else if m.shown then [r.node c x.1 x.2] else [])

/-! ## Runs give the same -/

theorem Matcher.repeated_snd {step : Cursor → Attempts → Found} {step' : Cursor → Matched}
    (h : ∀ c a, (step c a).2 = step' c) (limit : Nat) (c : Cursor) (a : Attempts) :
    (repeated step limit c a).2 = iterated step' limit c := by
  induction limit generalizing c a with
  | zero => rfl
  | succ limit ih =>
    have hc := h c a
    unfold repeated iterated
    rcases hstep : step c a with ⟨b, _ | ⟨c', nodes⟩⟩
    · rw [hstep] at hc
      rw [← hc]
    · rw [hstep] at hc
      rw [← hc]
      simp only [← ih c' b]

/-- **A run of a pattern gives its match**, if the runs of the rules do. -/
theorem Pattern.run_snd {call : Rule → Matcher} {call' : Rule → Mode → Cursor → Matched}
    (h : ∀ r m c a, (call r m c a).2 = call' r m c) (p : Pattern) (m : Mode) (c : Cursor)
    (a : Attempts) : (p.run call m c a).2 = p.matched? call' m c := by
  induction p generalizing c a with
  | literal s | anyCase s | char k | start | finish => rfl
  | rule r => exact h r m c a
  | seq p q ihp ihq =>
    have hp := ihp c a
    unfold run matched?
    rw [← hp]
    rcases p.run call m c a with ⟨b, _ | ⟨c', front⟩⟩
    · rfl
    · have hq := ihq (m.skip c') b
      simp only [Option.bind_some]
      rw [← hq]
      rcases q.run call m (m.skip c') b with ⟨b', _ | ⟨c'', back⟩⟩ <;> rfl
  | choice p q ihp ihq =>
    have hp := ihp c a
    unfold run matched?
    rw [← hp]
    rcases p.run call m c a with ⟨b, _ | found⟩
    · exact ihq c b
    · rfl
  | optional p ihp =>
    have hp := ihp c a
    unfold run matched?
    rw [← hp]
    rcases p.run call m c a with ⟨b, _ | found⟩ <;> rfl
  | many p ihp =>
    have hp := ihp c a
    unfold run matched?
    rw [← hp]
    rcases p.run call m c a with ⟨b, _ | ⟨c', first⟩⟩
    · rfl
    · have hrest := Matcher.repeated_snd (fun c a => ihp (m.skip c) a) (c'.rest.length + 1) c' b
      simp only [← hrest]
  | notAhead p ihp =>
    have hp := ihp c a
    unfold run matched?
    rw [← hp]
    rcases p.run call m c a with ⟨b, _ | found⟩ <;> rfl

/-- **A run of a rule gives its match**, whatever is on record. -/
theorem Rule.run_snd (depth : Nat) (r : Rule) (m : Mode) (c : Cursor) (a : Attempts) :
    (r.run depth m c a).2 = r.matched? depth m c := by
  induction depth generalizing r m c a with
  | zero => rfl
  | succ depth ih =>
    have hbody := Pattern.run_snd (fun r m c a => ih r m c a) r.body (m.enter r.kind) c a
    unfold run matched?
    rw [← hbody]
    by_cases hk : r.kind = .hidden
    · rw [if_pos hk]
      simp only [hk, if_true]
      rcases (r.body.run (run depth) (m.enter .hidden) c a).2 with _ | ⟨c', nodes⟩ <;> rfl
    · simp only [hk, if_false]
      rcases r.body.run (run depth) (m.enter r.kind) c a with ⟨b, _ | ⟨c', nodes⟩⟩ <;> rfl

/-! ## Runs of characters -/

namespace Cursor

@[simp] theorem advance_zero (c : Cursor) : c.advance 0 = c := by
  cases c
  simp [advance]

@[simp] theorem rest_skipBlanks (c : Cursor) :
    c.skipBlanks.rest = c.rest.dropWhile isBlank := by
  unfold skipBlanks
  rw [rest_advance, Text.drop_length_takeWhile]

/-- No blank stands at the place after the blanks. -/
theorem noneAhead_skipBlanks (c : Cursor) : Text.NoneAhead isBlank c.skipBlanks.rest := by
  rw [rest_skipBlanks]
  exact Text.noneAhead_dropWhile _ _

end Cursor

theorem Matcher.iterated_of_none {step : Cursor → Matched} {c : Cursor} (h : step c = none)
    (limit : Nat) : iterated step limit c = (c, []) := by
  cases limit with
  | zero => rfl
  | succ limit => rw [iterated, h]

theorem Matcher.iterated_of_some {step : Cursor → Matched} {c : Cursor} {x : Cursor × List Node}
    (h : step c = some x) (limit : Nat) :
    iterated step (limit + 1) c
      = ((iterated step limit x.1).1, x.2 ++ (iterated step limit x.1).2) := by
  rw [iterated, h]

theorem Matcher.iterated_class {step : Cursor → Matched} {q : Char → Bool}
    (h : ∀ c, step c = if c.rest.head?.any q then some (c.advance 1, []) else none)
    {limit : Nat} {c : Cursor} (hlimit : c.rest.length ≤ limit) :
    iterated step limit c = (c.advance (c.rest.takeWhile q).length, []) := by
  induction limit generalizing c with
  | zero =>
    obtain hrest : c.rest = [] := List.length_eq_zero_iff.1 (Nat.le_zero.1 hlimit)
    simp [iterated, hrest]
  | succ limit ih =>
    have hc := h c
    match hrest : c.rest with
    | [] =>
      rw [hrest] at hc
      rw [iterated_of_none hc]
      simp
    | d :: rest =>
      rw [hrest] at hc hlimit
      by_cases hd : q d = true
      · rw [List.head?_cons, Option.any_some, if_pos hd] at hc
        have hlimit' : (c.advance 1).rest.length ≤ limit := by
          rw [Cursor.rest_advance, hrest]
          simpa using hlimit
        rw [iterated_of_some hc, ih hlimit']
        simp [Cursor.advance_advance, hrest, hd, Nat.add_comm]
      · rw [List.head?_cons, Option.any_some, if_neg hd] at hc
        rw [iterated_of_none hc]
        simp [hd]

/-- Where no blanks are skipped, the first match of a repetition is one of its
steps. -/
theorem Pattern.matched?_many_solid {call : Rule → Mode → Cursor → Matched} {p : Pattern}
    {m : Mode} {found : Cursor → Cursor × List Node} (hm : m.spaced = false)
    (h : ∀ limit c, c.rest.length ≤ limit →
      Matcher.iterated (p.matched? call m) limit c = found c) (c : Cursor) :
    (Pattern.many p).matched? call m c = some (found c) := by
  have hskip : ∀ c, m.skip c = c := fun c => by simp [Mode.skip, hm]
  rw [matched?]
  simp only [hskip]
  cases hstep : p.matched? call m c with
  | none =>
    rw [← h (c.rest.length + 1) c (Nat.le_succ _), Matcher.iterated_of_none hstep]
  | some x =>
    rw [← h (c.rest.length + x.1.rest.length + 1) c (by omega), Matcher.iterated_of_some hstep,
      h _ x.1 (Nat.le_add_left _ _)]
    show some (_, _) = _
    rw [show (fun c => p.matched? call m c) = p.matched? call m from rfl,
      h _ x.1 (Nat.le_succ _)]

/-- **A class of characters, repeated, takes the run that stands ahead.** -/
theorem Pattern.matched?_many_class {call : Rule → Mode → Cursor → Matched} {p : Pattern}
    {m : Mode} {q : Char → Bool} (hm : m.spaced = false)
    (h : ∀ c, p.matched? call m c = if c.rest.head?.any q then some (c.advance 1, []) else none)
    (c : Cursor) :
    (Pattern.many p).matched? call m c = some (c.advance (c.rest.takeWhile q).length, []) :=
  matched?_many_solid hm (fun _ _ => Matcher.iterated_class h) c

end FilterSql
