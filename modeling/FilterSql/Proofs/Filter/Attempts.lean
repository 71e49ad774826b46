import FilterSql.Proofs.Filter.Parse
import Mathlib

/-!
# The place of a failed match

A text that is no filter is reported at the furthest place where a rule was tried
in vain. Blanks are skipped before every part of a rule, so that place is never at
a blank, and in particular never at a line break
(`apartFromBlanks_of_matchInput`).

The argument follows the run of the matcher. A token leaves no attempt of what it
is made of (`Rule.run_fst_of_hidden`), so attempts are made only where blanks may stand
between parts, and there a part is tried behind the blanks. Two rules are tried
elsewhere. The inside of a string is tried right behind the quote, but never in
vain; and the whole filter is tried at the very start of the input, but if there
are blanks, then the end of the input was tried in vain behind them, and the record
is further on.
-/

namespace FilterSql

open Text

/-! ## What a run keeps -/

section Keeps

variable {P : Attempts → Prop} {C : Cursor → Prop}

theorem Matcher.repeated_keeps {step : Cursor → Attempts → Found}
    (hstep : ∀ c a, C c → P a → P (step c a).1 ∧ ∀ x ∈ (step c a).2, C x.1)
    (limit : Nat) {c : Cursor} {a : Attempts} (hc : C c) (ha : P a) :
    P (repeated step limit c a).1 := by
  induction limit generalizing c a with
  | zero => exact ha
  | succ limit ih =>
    obtain ⟨hb, hnext⟩ := hstep c a hc ha
    rw [repeated]
    rcases hfound : step c a with ⟨b, _ | ⟨c', nodes⟩⟩
    · rw [hfound] at hb
      exact hb
    · rw [hfound] at hb hnext
      exact ih (hnext _ rfl) hb

/-- **What the rules keep of the record, a pattern keeps**, if the places at which
they are tried are as they should be. -/
theorem Pattern.run_keeps {call : Rule → Matcher} {m : Mode}
    (hcall : ∀ r c a, C c → P a → P (call r m c a).1)
    (hnext : ∀ (p : Pattern) c a, C c → ∀ x ∈ (p.run call m c a).2, C (m.skip x.1))
    (p : Pattern) {c : Cursor} {a : Attempts} (hc : C c) (ha : P a) :
    P (p.run call m c a).1 := by
  induction p generalizing c a with
  | literal s | anyCase s | char k | start | finish => exact ha
  | rule r => exact hcall r c a hc ha
  | seq p q ihp ihq =>
    have hb := ihp hc ha
    have hskip := hnext p c a hc
    rw [run]
    rcases hp : p.run call m c a with ⟨b, _ | ⟨c', front⟩⟩
    · rw [hp] at hb
      exact hb
    · rw [hp] at hb hskip
      have hb' := ihq (hskip _ rfl) hb
      dsimp only
      rcases hq : q.run call m (m.skip c') b with ⟨b', _ | found⟩ <;> rw [hq] at hb' <;> exact hb'
  | choice p q ihp ihq =>
    have hb := ihp hc ha
    rw [run]
    rcases hp : p.run call m c a with ⟨b, _ | found⟩ <;> rw [hp] at hb
    · exact ihq hc hb
    · exact hb
  | optional p ihp =>
    have hb := ihp hc ha
    rw [run]
    rcases hp : p.run call m c a with ⟨b, _ | found⟩ <;> rw [hp] at hb <;> exact hb
  | many p ihp =>
    have hb := ihp hc ha
    have hskip := hnext p c a hc
    rw [run]
    rcases hp : p.run call m c a with ⟨b, _ | ⟨c', first⟩⟩
    · rw [hp] at hb
      exact hb
    · rw [hp] at hb hskip
      exact Matcher.repeated_keeps (C := fun c => C (m.skip c))
        (fun c a hc ha => ⟨ihp hc ha, hnext p (m.skip c) a hc⟩) _ (hskip _ rfl) hb
  | notAhead p ihp =>
    have hb := ihp hc ha
    rw [run]
    rcases hp : p.run call m c a with ⟨b, _ | found⟩ <;> rw [hp] at hb <;> exact hb

end Keeps

/-- **What a rule puts on record**: what its body does and, where it is shown and
tried in vain, itself. -/
theorem Rule.run_succ_fst (depth : Nat) (r : Rule) (m : Mode) (c : Cursor) (a : Attempts) :
    (r.run (depth + 1) m c a).1
      = if r.kind = .hidden ∨ m.shown = false
            ∨ (r.body.run (run depth) (m.enter r.kind) c a).2.isSome then
          (r.body.run (run depth) (m.enter r.kind) c a).1
        else (r.body.run (run depth) (m.enter r.kind) c a).1.record r c.pos (a.countAt c.pos) := by
  rw [run]
  rcases r.body.run (run depth) (m.enter r.kind) c a with ⟨b, _ | found⟩
  · cases m.shown <;> by_cases hkind : r.kind = .hidden <;> simp [hkind]
  · by_cases hkind : r.kind = .hidden <;> simp [hkind]

/-- **Inside a token nothing is put on record.** -/
theorem Rule.run_fst_of_hidden (depth : Nat) (r : Rule) {m : Mode} (hm : m.shown = false)
    (c : Cursor) (a : Attempts) : (r.run depth m c a).1 = a := by
  induction depth generalizing r m c a with
  | zero => rfl
  | succ depth ih =>
    have hmode : (m.enter r.kind).shown = false := by
      cases r.kind with
      | hidden | spaced | solid => exact hm
      | token => rfl
    rw [run_succ_fst, if_pos (.inr (.inl hm))]
    exact Pattern.run_keeps (P := (· = a)) (C := fun _ => True)
      (fun r c b _ hb => (ih r hmode c b).trans hb) (fun _ _ _ _ _ _ => trivial) r.body trivial rfl

theorem Pattern.run_fst_of_hidden (depth : Nat) (p : Pattern) {m : Mode} (hm : m.shown = false)
    (c : Cursor) (a : Attempts) : (p.run (Rule.run depth) m c a).1 = a :=
  run_keeps (P := (· = a)) (C := fun _ => True)
    (fun r c b _ hb => (r.run_fst_of_hidden depth hm c b).trans hb) (fun _ _ _ _ _ _ => trivial) p
    trivial rfl

/-! ## Places in the input -/

variable {input : List Char}

/-- The place is one in the input: what follows it is what is left of the input. -/
def Cursor.IsIn (input : List Char) (c : Cursor) : Prop :=
  c.rest = input.drop c.pos

namespace Cursor

variable {c : Cursor}

theorem IsIn.advance (hc : c.IsIn input) (n : Nat) : (c.advance n).IsIn input := by
  unfold IsIn at hc ⊢
  rw [rest_advance, pos_advance, hc, List.drop_drop]

theorem IsIn.skipBlanks (hc : c.IsIn input) : c.skipBlanks.IsIn input :=
  hc.advance _

theorem IsIn.skip (hc : c.IsIn input) (m : Mode) : (m.skip c).IsIn input := by
  unfold Mode.skip
  split
  · exact hc.skipBlanks
  · exact hc

end Cursor

theorem Matcher.take_isIn {c : Cursor} (hc : c.IsIn input) {ok : Prop} [Decidable ok] {n : Nat} :
    ∀ x ∈ (if ok then some (c.advance n, []) else none : Matched), x.1.IsIn input := by
  intro x hx
  split at hx
  · cases hx
    exact hc.advance n
  · cases hx

theorem Matcher.iterated_isIn {step : Cursor → Matched}
    (hstep : ∀ c, c.IsIn input → ∀ x ∈ step c, x.1.IsIn input) (limit : Nat) {c : Cursor}
    (hc : c.IsIn input) : (iterated step limit c).1.IsIn input := by
  induction limit generalizing c with
  | zero => exact hc
  | succ limit ih =>
    cases hfound : step c with
    | none =>
      rw [iterated_of_none hfound]
      exact hc
    | some x =>
      rw [iterated_of_some hfound]
      exact ih (hstep c hc x hfound)

/-- What a pattern matches ends at a place in the input. -/
theorem Pattern.matched?_isIn {call : Rule → Mode → Cursor → Matched}
    (hcall : ∀ r m c, c.IsIn input → ∀ x ∈ call r m c, x.1.IsIn input) (p : Pattern) {m : Mode}
    {c : Cursor} (hc : c.IsIn input) : ∀ x ∈ p.matched? call m c, x.1.IsIn input := by
  induction p generalizing c with
  | literal s | anyCase s | char k | start | finish => exact Matcher.take_isIn hc
  | rule r => exact hcall r m c hc
  | seq p q ihp ihq =>
    intro x hx
    obtain ⟨y, hy, hx⟩ := Option.bind_eq_some_iff.1 hx
    obtain ⟨z, hz, rfl⟩ := Option.map_eq_some_iff.1 hx
    exact ihq ((ihp hc y hy).skip m) z hz
  | choice p q ihp ihq =>
    intro x hx
    rcases Option.or_eq_some_iff.1 hx with hp | ⟨-, hq⟩
    · exact ihp hc x hp
    · exact ihq hc x hq
  | optional p ihp =>
    intro x hx
    rcases Option.or_eq_some_iff.1 hx with hp | ⟨-, hnone⟩
    · exact ihp hc x hp
    · cases hnone
      exact hc
  | many p ihp =>
    intro x hx
    rw [matched?] at hx
    cases hp : p.matched? call m c with
    | none =>
      rw [hp] at hx
      cases hx
      exact hc
    | some y =>
      rw [hp] at hx
      cases hx
      exact Matcher.iterated_isIn (fun c hc => ihp (hc.skip m)) _ (ihp hc y hp)
  | notAhead p ihp =>
    intro x hx
    rw [matched?] at hx
    split at hx
    · cases hx
    · cases hx
      exact hc

/-- **What a rule matches ends at a place in the input.** -/
theorem Rule.matched?_isIn (depth : Nat) (r : Rule) (m : Mode) {c : Cursor} (hc : c.IsIn input) :
    ∀ x ∈ r.matched? depth m c, x.1.IsIn input := by
  induction depth generalizing r m c with
  | zero =>
    intro x hx
    cases hx
  | succ depth ih =>
    intro x hx
    obtain ⟨y, hy, rfl⟩ := Option.map_eq_some_iff.1 hx
    exact Pattern.matched?_isIn (fun r m c => ih r m) r.body hc y hy

/-! ## Attempts are made apart from blanks -/

/-- No blank stands ahead at a place of the input. -/
def ApartFromBlanks (input : List Char) (pos : Nat) : Prop :=
  NoneAhead Cursor.isBlank (input.drop pos)

/-- **The record is apart from blanks**, or at the very start of the input. -/
def Attempts.Apart (input : List Char) (a : Attempts) : Prop :=
  a.pos = 0 ∨ ApartFromBlanks input a.pos

namespace Attempts

variable {a : Attempts}

theorem Apart.record (ha : a.Apart input) {pos : Nat} (hpos : ApartFromBlanks input pos) (r : Rule)
    (before : Nat) : (a.record r pos before).Apart input := by
  unfold Attempts.record
  split_ifs
  · exact ha
  · exact .inr hpos
  · exact .inr hpos
  · exact ha

/-- The record never falls behind a place where a rule was tried in vain. -/
theorem le_pos_record (a : Attempts) (r : Rule) (pos before : Nat) :
    pos ≤ (a.record r pos before).pos := by
  unfold record
  split_ifs with hcount
  · have hpos : a.pos = pos := by
      by_contra hne
      rw [countAt, if_neg hne] at hcount
      omega
    exact hpos.ge
  · exact le_rfl
  · exact le_rfl
  · omega

/-- At the start of the input nothing moves the record. -/
theorem pos_record_zero (a : Attempts) (r : Rule) (before : Nat) :
    (a.record r 0 before).pos = a.pos := by
  unfold record
  split_ifs with hcount hpos
  · rfl
  · exact hpos.symm
  · omega
  · rfl

end Attempts

/-- What is inside a string is never tried in vain. -/
theorem Rule.run_stringInner_fst (depth : Nat) (m : Mode) (c : Cursor) (a : Attempts) :
    (Rule.stringInner.run depth m c a).1 = a := by
  cases depth with
  | zero => rfl
  | succ depth =>
    have hsome : ∀ p c a, ((Pattern.many p).run (run depth) (m.enter .token) c a).2.isSome := by
      intro p c a
      rw [Pattern.run]
      rcases p.run (run depth) (m.enter .token) c a with ⟨b, _ | found⟩ <;> rfl
    rw [run_succ_fst, if_pos (.inr (.inr (hsome _ c a)))]
    exact Pattern.run_fst_of_hidden depth _ rfl c a

theorem Pattern.run_seq_fst {call : Rule → Matcher} {m : Mode} {p q : Pattern}
    (hp : ∀ c a, (p.run call m c a).1 = a) (hq : ∀ c a, (q.run call m c a).1 = a) (c : Cursor)
    (a : Attempts) : ((Pattern.seq p q).run call m c a).1 = a := by
  have hp := hp c a
  rw [run]
  rcases hfront : p.run call m c a with ⟨b, _ | ⟨c', front⟩⟩ <;> rw [hfront] at hp
  · exact hp
  · have hq := hq (m.skip c') b
    dsimp only
    rcases hback : q.run call m (m.skip c') b with ⟨b', _ | found⟩ <;> rw [hback] at hq <;>
      exact hq.trans hp

/-- A string leaves no attempts of what it is made of. -/
theorem Rule.run_body_string_fst (depth : Nat) (m : Mode) (c : Cursor) (a : Attempts) :
    (Rule.string.body.run (run depth) m c a).1 = a :=
  Pattern.run_seq_fst
    (Pattern.run_seq_fst (q := .rule .stringInner) (fun _ _ => rfl) (run_stringInner_fst depth m))
    (fun _ _ => rfl) c a

/-- **A pattern is tried apart from blanks throughout**, if it is so at first. -/
theorem Pattern.run_apart {depth : Nat}
    (hcall : ∀ (r : Rule) (c : Cursor) (a : Attempts), c.IsIn input →
      NoneAhead Cursor.isBlank c.rest → a.Apart input → (r.run depth .initial c a).1.Apart input)
    (p : Pattern) {c : Cursor} {a : Attempts} (hc : c.IsIn input)
    (hblank : NoneAhead Cursor.isBlank c.rest) (ha : a.Apart input) :
    (p.run (Rule.run depth) .initial c a).1.Apart input := by
  refine run_keeps (C := fun c => c.IsIn input ∧ NoneAhead Cursor.isBlank c.rest)
    (fun r c a hc ha => hcall r c a hc.1 hc.2 ha) (fun p c a hc x hx => ?_) p ⟨hc, hblank⟩ ha
  rw [run_snd (Rule.run_snd depth)] at hx
  have hx := p.matched?_isIn (fun r m c => r.matched?_isIn depth m) hc.1 x hx
  exact ⟨hx.skipBlanks, Cursor.noneAhead_skipBlanks x.1⟩

/-- **Every attempt is made apart from blanks**, if the rule itself is tried so. -/
theorem Rule.run_apart (depth : Nat) (r : Rule) {c : Cursor} {a : Attempts} (hc : c.IsIn input)
    (hblank : NoneAhead Cursor.isBlank c.rest) (ha : a.Apart input) :
    (r.run depth .initial c a).1.Apart input := by
  induction depth generalizing r c a with
  | zero => exact ha
  | succ depth ih =>
    have hbody : (r.body.run (run depth) (Mode.initial.enter r.kind) c a).1.Apart input := by
      cases hkind : r.kind with
      | hidden | spaced => exact r.body.run_apart (fun r c a => ih r) hc hblank ha
      | token =>
        rw [Pattern.run_fst_of_hidden depth _ rfl]
        exact ha
      | solid =>
        obtain rfl : r = .string := by
          cases r <;> cases hkind
          rfl
        rw [run_body_string_fst]
        exact ha
    have hpos : ApartFromBlanks input c.pos := by
      unfold ApartFromBlanks
      rw [← hc]
      exact hblank
    rw [run_succ_fst]
    split
    · exact hbody
    · exact hbody.record hpos _ _

/-! ## The whole input -/

/-- A rule that does not match puts itself on record last. -/
theorem Rule.exists_of_run_eq_none {depth : Nat} {r : Rule} (hkind : r.kind ≠ .hidden) {c : Cursor}
    {a b : Attempts} (h : r.run (depth + 1) .initial c a = (b, none)) :
    ∃ a', r.body.run (run depth) (Mode.initial.enter r.kind) c a = (a', none)
      ∧ b = a'.record r c.pos (a.countAt c.pos) := by
  rw [run, if_neg hkind] at h
  rcases hbody : r.body.run (run depth) (Mode.initial.enter r.kind) c a with ⟨a', _ | found⟩ <;>
    rw [hbody] at h <;> cases h
  exact ⟨a', rfl, rfl⟩

theorem Pattern.run_start_seq (call : Rule → Matcher) (m : Mode) (q : Pattern) (rest : List Char)
    (a : Attempts) :
    (Pattern.seq .start q).run call m ⟨0, rest⟩ a = q.run call m (m.skip ⟨0, rest⟩) a := by
  have hstart : Pattern.start.run call m ⟨0, rest⟩ a = (a, some (⟨0, rest⟩, [])) := rfl
  rw [run, hstart]
  dsimp only
  rcases q.run call m (m.skip ⟨0, rest⟩) a with ⟨b, _ | found⟩ <;> rfl

theorem Pattern.exists_run_optional (call : Rule → Matcher) (m : Mode) (p : Pattern) (c : Cursor)
    (a : Attempts) : ∃ b x, (Pattern.optional p).run call m c a = (b, some x) := by
  rw [run]
  rcases p.run call m c a with ⟨b, _ | x⟩
  · exact ⟨b, (c, []), rfl⟩
  · exact ⟨b, x, rfl⟩

/-- A sequence whose first part matches fails only in the second. -/
theorem Pattern.run_of_run_seq_eq_none {call : Rule → Matcher} {m : Mode} {p q : Pattern}
    {c : Cursor} {a a' b : Attempts} {x : Cursor × List Node}
    (hfront : p.run call m c a = (a', some x)) (h : (Pattern.seq p q).run call m c a = (b, none)) :
    q.run call m (m.skip x.1) a' = (b, none) := by
  rw [run, hfront] at h
  dsimp only at h
  rcases hback : q.run call m (m.skip x.1) a' with ⟨b', _ | found⟩ <;> rw [hback] at h <;> cases h
  rfl

/-- What stands before the end of the input always matches: blanks and perhaps a
condition. -/
theorem exists_run_front (depth : Nat) (input : List Char) :
    ∃ a x, (Pattern.seq .start (.optional (.rule .orExpr))).run (Rule.run depth) .initial ⟨0, input⟩
        .none = (a, some x) ∧ a.Apart input ∧ x.1.IsIn input := by
  have hin : (Cursor.skipBlanks ⟨0, input⟩).IsIn input := Cursor.IsIn.skipBlanks rfl
  obtain ⟨a, x, hrun⟩ := Pattern.exists_run_optional (Rule.run depth) .initial (.rule .orExpr)
    (Cursor.skipBlanks ⟨0, input⟩) .none
  refine ⟨a, x, (Pattern.run_start_seq ..).trans hrun, ?_, ?_⟩
  · have hapart := Pattern.run_apart (fun r c a => Rule.run_apart depth r)
      (.optional (.rule .orExpr)) hin (Cursor.noneAhead_skipBlanks _)
      (.inl rfl : Attempts.none.Apart input)
    rwa [hrun] at hapart
  · have hmatched := Pattern.run_snd (Rule.run_snd depth) (.optional (.rule .orExpr)) .initial
      (Cursor.skipBlanks ⟨0, input⟩) .none
    rw [hrun] at hmatched
    exact Pattern.matched?_isIn (fun r m c => r.matched?_isIn depth m) _ hin x hmatched.symm

/-- **A text that does not match is reported at a place where no blank stands
ahead.** -/
theorem apartFromBlanks_of_matchInput {a : Attempts}
    (h : Rule.filter.matchInput input = .error a) : ApartFromBlanks input a.pos := by
  obtain ⟨depth, hdepth⟩ : ∃ depth, Rule.nesting input = depth + 2 :=
    ⟨8 * input.length + 14, by unfold Rule.nesting; omega⟩
  have hrun : Rule.filter.run (depth + 2) .initial ⟨0, input⟩ .none = (a, none) := by
    rw [Rule.matchInput, hdepth] at h
    rcases hrun : Rule.filter.run (depth + 2) .initial ⟨0, input⟩ .none with ⟨b, _ | x⟩ <;>
      rw [hrun] at h <;> cases h
    rfl
  obtain ⟨b, hbody, rfl⟩ := Rule.exists_of_run_eq_none (by decide) hrun
  obtain ⟨a₁, x, hfront, ha₁, hx⟩ := exists_run_front (depth + 1) input
  -- The end of the input was tried in vain behind what did match.
  have hend : Rule.endOfInput.run (depth + 1) .initial x.1.skipBlanks a₁ = (b, none) :=
    Pattern.run_of_run_seq_eq_none hfront hbody
  have hapart : b.Apart input := by
    have hapart := Rule.run_apart (depth + 1) .endOfInput hx.skipBlanks
      (Cursor.noneAhead_skipBlanks x.1) ha₁
    rwa [hend] at hapart
  rw [Attempts.pos_record_zero]
  rcases hapart with hzero | hapart
  · -- At the very start of the input: then no blank was skipped on the way.
    obtain ⟨a₂, -, rfl⟩ := Rule.exists_of_run_eq_none (by decide) hend
    have hpos : x.1.skipBlanks.pos = 0 := Nat.le_zero.1 (hzero ▸ a₂.le_pos_record ..)
    have hrest : x.1.skipBlanks.rest = input.drop 0 := hpos ▸ hx.skipBlanks
    rw [ApartFromBlanks, hzero, ← hrest]
    exact Cursor.noneAhead_skipBlanks x.1
  · exact hapart

end FilterSql
