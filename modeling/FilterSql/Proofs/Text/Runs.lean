import FilterSql.Text.Quoted
import Mathlib

/-!
# Where a run of characters ends

A scanner takes characters as long as they are of one class, and stops before
the first that is not. What it takes is then determined by the text alone: two
runs of one class that start at one place and are both followed by a character
outside the class, or by the end, are the same run (`run_append_inj`).

A quoted text ends otherwise. Its closing quote is the first quote that is not
written twice, so what must not follow it is another quote; under that
condition the text between the quotes is determined as well
(`doubled_append_inj`).
-/

namespace FilterSql.Text

/-- **No character of the class stands ahead**: the text is at its end or goes
on with a character outside the class. -/
def NoneAhead (p : Char → Bool) (s : List Char) : Prop :=
  ∀ c ∈ s.head?, p c = false

@[simp] theorem noneAhead_nil (p : Char → Bool) : NoneAhead p [] := by
  simp [NoneAhead]

@[simp] theorem noneAhead_cons (p : Char → Bool) (c : Char) (s : List Char) :
    NoneAhead p (c :: s) ↔ p c = false := by
  simp [NoneAhead]

instance (p : Char → Bool) (s : List Char) : Decidable (NoneAhead p s) :=
  match s with
  | [] => .isTrue (noneAhead_nil p)
  | c :: s => decidable_of_iff (p c = false) (noneAhead_cons p c s).symm

/-- A smaller class is not ahead either. -/
theorem NoneAhead.mono {p q : Char → Bool} (h : ∀ c, q c = true → p c = true) {s : List Char}
    (hs : NoneAhead p s) : NoneAhead q s := by
  intro c hc
  cases hq : q c with
  | false => rfl
  | true => exact absurd (hs c hc) (by simp [h c hq])

/-- A text that none of the class stands ahead of may be followed by another. -/
theorem NoneAhead.append {p : Char → Bool} {s t : List Char} (hs : NoneAhead p s)
    (ht : NoneAhead p t) : NoneAhead p (s ++ t) := by
  cases s with
  | nil => exact ht
  | cons c s => exact hs

/-! ## The run that stands ahead -/

/-- Nothing of the class stands behind the run. -/
theorem noneAhead_dropWhile (p : Char → Bool) (s : List Char) : NoneAhead p (s.dropWhile p) := by
  intro c hc
  have hhead := List.head?_dropWhile_not p s
  rw [Option.mem_def.1 hc] at hhead
  exact hhead

theorem drop_length_takeWhile (p : Char → Bool) (s : List Char) :
    s.drop (s.takeWhile p).length = s.dropWhile p := by
  have hsplit : s.takeWhile p ++ s.dropWhile p = s := List.takeWhile_append_dropWhile
  nth_rewrite 2 [← hsplit]
  exact List.drop_left

theorem take_length_takeWhile (p : Char → Bool) (s : List Char) :
    s.take (s.takeWhile p).length = s.takeWhile p :=
  (List.prefix_iff_eq_take.1 (List.takeWhile_prefix p)).symm

theorem takeWhile_append_of_noneAhead {p : Char → Bool} {w s : List Char}
    (hw : ∀ c ∈ w, p c = true) (hs : NoneAhead p s) : (w ++ s).takeWhile p = w := by
  have hnil : s.takeWhile p = [] := by
    cases s with
    | nil => rfl
    | cons c s => simpa using hs
  rw [List.takeWhile_append_of_pos hw, hnil, List.append_nil]

/-- **A run is determined by the text it stands in.** -/
theorem run_append_inj {p : Char → Bool} {w w' s s' : List Char}
    (hw : ∀ c ∈ w, p c = true) (hw' : ∀ c ∈ w', p c = true)
    (hs : NoneAhead p s) (hs' : NoneAhead p s') (h : w ++ s = w' ++ s') :
    w = w' ∧ s = s' := by
  have hrun : w = w' := by
    rw [← takeWhile_append_of_noneAhead hw hs, h, takeWhile_append_of_noneAhead hw' hs']
  subst hrun
  exact ⟨rfl, List.append_cancel_left h⟩

/-- **A quoted text is determined by the text it stands in**, unless a further
quote follows it. -/
theorem doubled_append_inj {q : Char} {a b s s' : List Char}
    (hs : NoneAhead (· == q) s) (hs' : NoneAhead (· == q) s')
    (h : doubled q a ++ q :: s = doubled q b ++ q :: s') : a = b ∧ s = s' := by
  induction a generalizing b with
  | nil =>
    cases b with
    | nil => exact ⟨rfl, (List.cons.inj h).2⟩
    | cons c b =>
      by_cases hc : c = q
      · -- the quote that closes the one text is a doubled one in the other
        subst hc
        rw [doubled_cons_self] at h
        obtain rfl := (List.cons.inj h).2
        simp at hs
      · rw [doubled_cons_of_ne hc] at h
        exact absurd (List.cons.inj h).1.symm hc
  | cons c a ih =>
    cases b with
    | nil =>
      by_cases hc : c = q
      · subst hc
        rw [doubled_cons_self] at h
        obtain rfl := (List.cons.inj h).2
        simp at hs'
      · rw [doubled_cons_of_ne hc] at h
        exact absurd (List.cons.inj h).1 hc
    | cons c' b =>
      by_cases hc : c = q
      · subst hc
        by_cases hc' : c' = c
        · subst hc'
          rw [doubled_cons_self, doubled_cons_self] at h
          obtain ⟨rfl, rfl⟩ := ih (List.cons.inj (List.cons.inj h).2).2
          exact ⟨rfl, rfl⟩
        · rw [doubled_cons_self, doubled_cons_of_ne hc'] at h
          exact absurd (List.cons.inj h).1.symm hc'
      · by_cases hc' : c' = q
        · subst hc'
          rw [doubled_cons_of_ne hc, doubled_cons_self] at h
          exact absurd (List.cons.inj h).1 hc
        · rw [doubled_cons_of_ne hc, doubled_cons_of_ne hc'] at h
          obtain ⟨rfl, htail⟩ := List.cons.inj h
          obtain ⟨rfl, rfl⟩ := ih htail
          exact ⟨rfl, rfl⟩

/-! ## Digits and letters -/

/-- No digit is a letter. -/
theorem isAlpha_eq_false_of_isDigit {c : Char} (h : c.isDigit = true) : c.isAlpha = false := by
  simp only [Char.isDigit, Bool.and_eq_true, decide_eq_true_eq] at h
  have hhigh : c.val.toNat ≤ 57 := h.2
  by_contra halpha
  simp only [Bool.not_eq_false, Char.isAlpha, Char.isUpper, Char.isLower, Bool.or_eq_true,
    Bool.and_eq_true, decide_eq_true_eq] at halpha
  rcases halpha with hupper | hlower
  · have hlow : 65 ≤ c.val.toNat := hupper.1
    omega
  · have hlow : 97 ≤ c.val.toNat := hlower.1
    omega

end FilterSql.Text
