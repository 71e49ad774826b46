import FilterSql.Json.ValueForm
import FilterSql.Proofs.Decimal.Literals
import FilterSql.Proofs.Text.Runs
import Mathlib

/-!
# Scalars of JSON read back

The text of a string or of a whole number is read as what it was written for. A
string is read character by character, each from the text that it is escaped to
(`readChars?_escaped`). A number is read part by part, so there is one lemma for
each part of the scanner and one that puts the parts together
(`readNumber?_parts`); digits are taken in as long as they fit, which all do
where the whole number fits (`absorb_digits`).
-/

namespace FilterSql

/-! ## The parts of a numeral -/

namespace Numeral

theorem takeDigits_append {w s : List Char} (hw : ∀ c ∈ w, c.isDigit = true)
    (hs : Text.NoneAhead Char.isDigit s) : takeDigits (w ++ s) = (w, s) := by
  have htake := Text.takeWhile_append_of_noneAhead hw hs
  have hsplit := List.takeWhile_append_dropWhile (p := Char.isDigit) (l := w ++ s)
  rw [htake] at hsplit
  rw [takeDigits, htake, List.append_cancel_left hsplit]

/-- Digits behind a point, if there are any. -/
def fractionText : List Char → List Char
  | [] => []
  | more => '.' :: more

/-- The digits of a fraction, if there is one. -/
def fraction? : List Char → Option (List Char)
  | [] => none
  | more => some more

theorem takeFraction_fractionText {more s : List Char} (hmore : ∀ c ∈ more, c.isDigit = true)
    (hs : Text.NoneAhead Char.isDigit s) (hpoint : s.head? ≠ some '.') :
    takeFraction (fractionText more ++ s) = (fraction? more, s) := by
  cases more with
  | nil =>
    rw [fractionText, List.nil_append]
    unfold takeFraction
    split
    · exact absurd rfl hpoint
    · rfl
  | cons c more =>
    simp only [fractionText, fraction?, takeFraction, List.cons_append]
    rw [← List.cons_append, takeDigits_append hmore hs]

theorem takeExponent_plus {w s : List Char} (hw : Filter.IsInteger w)
    (hs : Text.NoneAhead Char.isDigit s) :
    takeExponent ('e' :: '+' :: (w ++ s)) = (some (digitsValue w : Int), s) := by
  have hnonempty : w.isEmpty = false := List.isEmpty_eq_false_iff.2 hw.ne_nil
  simp [takeExponent, takeSign, takeDigits_append hw.digits hs, hnonempty]

theorem isInteger_toDigits (n : Nat) : Filter.IsInteger (Nat.toDigits 10 n) :=
  ⟨Nat.toDigits_ne_nil, fun _ => Nat.isDigit_of_mem_toDigits (by norm_num) le_rfl⟩

/-- The digits of a number do not start with a zero, unless it is the only one. -/
theorem head?_toDigits_ne (n : Nat) :
    (Nat.toDigits 10 n).head? ≠ some '0' ∨ (Nat.toDigits 10 n).length = 1 := by
  refine or_iff_not_imp_right.2 fun hlength hhead => ?_
  obtain ⟨c, w, hw⟩ := List.exists_cons_of_ne_nil (Nat.toDigits_ne_nil (b := 10) (n := n))
  rw [hw, List.head?_cons, Option.some.injEq] at hhead
  rw [hw, List.length_cons] at hlength
  have hdigits := (isInteger_toDigits n).digits
  have hvalue : digitsValue w = n := by
    conv_rhs => rw [← digitsValue_toDigits n, hw, hhead, ← List.singleton_append,
      digitsValue_append]
    simp [digitsValue]
  have hlt : n < 10 ^ w.length := by
    rw [← hvalue]
    refine digitsValue_lt_pow fun c' hc' => hdigits c' ?_
    rw [hw]
    exact List.mem_cons_of_mem _ hc'
  have hle := (Nat.length_toDigits_le_iff (by norm_num) (by omega)).2 hlt
  rw [hw, List.length_cons] at hle
  omega

end Numeral

namespace Json

/-! ## Strings -/

theorem hexUnit?_hexDigit :
    ∀ n < 32, hexUnit? '0' '0' (hexDigit (n / 16)) (hexDigit (n % 16)) = some n := by
  decide

/-- **A character is read from the text that it is escaped to.** -/
theorem readChars?_escaped_append (c : Char) (s : List Char) :
    readChars? (escaped c ++ s) = (readChars? s).map fun (cs, rest) => (c :: cs, rest) := by
  unfold escaped
  split
  case h_8 hquote hslash _ _ _ _ _ =>
    split
    · rename_i hcontrol
      have hhex := hexUnit?_hexDigit c.toNat hcontrol
      rw [List.cons_append, List.cons_append, List.cons_append, List.cons_append,
        List.cons_append, List.cons_append, List.nil_append, readChars?, hhex]
      dsimp only
      rw [if_neg (by omega), if_neg (by omega), Char.ofNat_toNat]
    · rename_i hprinted
      rw [List.singleton_append, readChars?.eq_def]
      split <;> simp_all
  all_goals simp [readChars?, unescaped?]

/-- **The characters of a string are read back**, up to the closing quote. -/
theorem readChars?_escaped (cs rest : List Char) :
    readChars? (cs.flatMap escaped ++ '\x22' :: rest) = some (cs, rest) := by
  induction cs with
  | nil => simp [readChars?]
  | cons c cs ih =>
    rw [List.flatMap_cons, List.append_assoc, readChars?_escaped_append, ih, Option.map_some]

/-- **A string is read back.** -/
theorem readScalar?_stringText (s : String) : readScalar? (stringText s) = some (string s) := by
  have hread := readChars?_escaped s.toList []
  unfold readScalar? stringText
  rw [String.toList_ofList]
  simp [isBlank, hread]

theorem readScalar?_null : readScalar? "null" = some null :=
  rfl

/-! ## Numbers -/

/-- **Digits are taken in as long as they fit**, so all of them where the number
fits. -/
theorem absorb_digits (front w : List Char) (h : Numeral.digitsValue (front ++ w) < 2 ^ 64) :
    absorb (Numeral.digitsValue front) w = (Numeral.digitsValue (front ++ w), []) := by
  induction w generalizing front with
  | nil => rw [List.append_nil, absorb]
  | cons c w ih =>
    have hsplit : front ++ c :: w = (front ++ [c]) ++ w := by simp
    rw [hsplit] at h ⊢
    have hlt : Numeral.digitsValue (front ++ [c]) < 2 ^ 64 :=
      lt_of_le_of_lt (Numeral.digitsValue_le_append _ w) h
    rw [absorb, ← Numeral.digitsValue_concat, Nat.pow_eq, if_pos hlt, ih _ h]

/-- **A number is read part by part**: a sign, digits without a superfluous zero, and
what follows them as a fraction and an exponent. -/
theorem readNumber?_parts {w s : List Char} (negative : Bool) (hw : Filter.IsInteger w)
    (hzero : w.head? ≠ some '0' ∨ w.length = 1) (hs : Text.NoneAhead Char.isDigit s) :
    readNumber? ((if negative then ['-'] else []) ++ (w ++ s))
      = if (Numeral.takeFraction s).1 == some [] then none
        else (number? negative w (Numeral.takeFraction s).1
            (Numeral.takeExponent (Numeral.takeFraction s).2).1).map
          (·, (Numeral.takeExponent (Numeral.takeFraction s).2).2) := by
  have hnonempty : w.isEmpty = false := List.isEmpty_eq_false_iff.2 hw.ne_nil
  have hlead : (w.head? == some '0' && w.length != 1) = false := by
    rcases hzero with h | h <;> simp [h]
  have hsign : ∀ t : List Char, w ++ s ≠ '-' :: t := by
    obtain ⟨c, w', rfl⟩ := List.exists_cons_of_ne_nil hw.ne_nil
    rintro t heq
    obtain ⟨rfl, -⟩ := List.cons.inj heq
    exact absurd (hw.digits '-' List.mem_cons_self) (by decide)
  unfold readNumber?
  -- without a sign, `hsign` decides which way the first match goes
  cases negative <;> simp [Numeral.takeDigits_append hw.digits hs, hnonempty, hlead]

/-- A text that starts like a number is read as one. -/
theorem readScalar?_of_readNumber? {c : Char} {s : List Char} {j : Json}
    (hc : c.isDigit = true ∨ c = '-') (h : readNumber? (c :: s) = some (j, [])) :
    readScalar? (String.ofList (c :: s)) = some j := by
  have hne : ∀ b : Char, b.isDigit = false → b ≠ '-' → c ≠ b := by
    rintro _ hdigit hminus rfl
    rcases hc with hc | hc
    · rw [hdigit] at hc
      cases hc
    · exact hminus hc
  have hblank : isBlank c = false := by
    have h : c ≠ ' ' ∧ c ≠ '\t' ∧ c ≠ '\n' ∧ c ≠ '\r' := by
      refine ⟨hne _ ?_ ?_, hne _ ?_ ?_, hne _ ?_ ?_, hne _ ?_ ?_⟩ <;> decide
    simp [isBlank, h]
  have hquote : c ≠ '\x22' := hne _ (by decide) (by decide)
  have hn : c ≠ 'n' := hne _ (by decide) (by decide)
  unfold readScalar?
  rw [String.toList_ofList, List.dropWhile_cons_of_neg (by simp [hblank])]
  simp [hquote, hn, h]

theorem toList_toString_int (n : Int) :
    (toString n).toList = (if n < 0 then ['-'] else []) ++ Nat.toDigits 10 n.natAbs := by
  cases n with
  | ofNat m =>
    rw [show toString (Int.ofNat m) = m.repr from rfl]
    simp
  | negSucc m =>
    rw [show toString (Int.negSucc m) = "-" ++ (m + 1).repr from rfl]
    simp

theorem number?_whole {n : Int} (hlow : -2 ^ 63 ≤ n) (hhigh : n < 2 ^ 64) :
    number? (n < 0) (Nat.toDigits 10 n.natAbs) none none = some (int n) := by
  have habsorb : absorb 0 (Nat.toDigits 10 n.natAbs) = (n.natAbs, []) := by
    have h := absorb_digits [] (Nat.toDigits 10 n.natAbs)
    rw [List.nil_append, Numeral.digitsValue_toDigits] at h
    exact h (by omega)
  unfold number?
  rw [habsorb]
  by_cases hn : n < 0
  · have hfits : (n.natAbs != 0 && n.natAbs ≤ Nat.pow 2 63) = true := by
      simp
      omega
    simp [hn, hfits, abs_of_neg hn]
  · simp [hn, abs_of_nonneg (not_lt.1 hn)]

/-- **A whole number that fits is read back.** -/
theorem readScalar?_toString {n : Int} (hlow : -2 ^ 63 ≤ n) (hhigh : n < 2 ^ 64) :
    readScalar? (toString n) = some (int n) := by
  have hdigits := Numeral.isInteger_toDigits n.natAbs
  have hread : readNumber? ((if n < 0 then ['-'] else []) ++ Nat.toDigits 10 n.natAbs)
      = some (int n, []) := by
    have h := readNumber?_parts (n < 0) hdigits (Numeral.head?_toDigits_ne _)
      (Text.noneAhead_nil Char.isDigit)
    simpa [Numeral.takeFraction, Numeral.takeExponent, number?_whole hlow hhigh] using h
  rw [← String.ofList_toList (s := toString n), toList_toString_int]
  obtain ⟨c, w, hw⟩ := List.exists_cons_of_ne_nil hdigits.ne_nil
  rw [hw] at hread hdigits ⊢
  by_cases hn : n < 0
  · rw [if_pos hn] at hread ⊢
    exact readScalar?_of_readNumber? (.inr rfl) hread
  · rw [if_neg hn] at hread ⊢
    exact readScalar?_of_readNumber? (.inl (hdigits.digits c List.mem_cons_self)) hread

end Json

end FilterSql
