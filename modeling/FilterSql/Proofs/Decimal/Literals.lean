import FilterSql.Proofs.Filter.Language
import FilterSql.Value
import Mathlib

/-!
# The kinds of integer literals

An integer literal has any number of digits, and the value bound for it is of the
first kind that can hold the number: a signed integer of 64 bits, an unsigned
one, or a floating-point number. A wrong turn at one of the two limits would
change how a database compares the value, and no one would see it.

The number that digits spell is read digit by digit, from the left
(`Numeral.digitsValue`); by their places it is a sum of digits times powers of
ten (`Numeral.placeValue`), to which leading zeros add nothing. Digits are bound
exactly by this number (`Value.ofDigits_eq`). A literal that is built
by hand may be any text, with a sign or without digits, but the limits hold there
as well, since the kinds are tried in order. The main statement is
`Value.kind_of_digits`.
-/

namespace FilterSql

namespace Numeral

/-! ## The number that digits spell -/

/-- **The number that digits spell**, by their places: the last digit counts once,
the one before it ten times, and so on. -/
def placeValue (digits : List Char) : Nat :=
  Nat.ofDigits 10 (digits.reverse.map fun c => c.toNat - '0'.toNat)

theorem digitsValue_concat (digits : List Char) (c : Char) :
    digitsValue (digits ++ [c]) = 10 * digitsValue digits + (c.toNat - '0'.toNat) := by
  simp [digitsValue]

theorem digitsValue_append (a b : List Char) :
    digitsValue (a ++ b) = digitsValue a * 10 ^ b.length + digitsValue b := by
  induction b using List.reverseRecOn with
  | nil => simp [digitsValue]
  | append_singleton b c ih =>
    rw [← List.append_assoc, digitsValue_concat, ih, digitsValue_concat, List.length_append,
      List.length_singleton, pow_succ]
    ring

/-- More digits behind spell a number that is no smaller. -/
theorem digitsValue_le_append (a b : List Char) : digitsValue a ≤ digitsValue (a ++ b) := by
  rw [digitsValue_append]
  exact Nat.le_add_right_of_le (Nat.le_mul_of_pos_right _ (Nat.pow_pos (by norm_num)))

/-- The digits of a number spell it. -/
theorem digitsValue_toDigits (n : Nat) : digitsValue (Nat.toDigits 10 n) = n :=
  Nat.ofDigitChars_ten_toDigits

theorem digitsValue_lt_pow {w : List Char} (hw : ∀ c ∈ w, c.isDigit = true) :
    digitsValue w < 10 ^ w.length := by
  induction w using List.reverseRecOn with
  | nil => simp [digitsValue]
  | append_singleton w c ih =>
    have hc : c.isDigit = true := hw c (by simp)
    have hdigit : c.toNat - '0'.toNat < 10 := by
      have := (Char.isDigit_iff_toNat.1 hc)
      simp at this ⊢
      omega
    have hlt := ih fun c' hc' => hw c' (List.mem_append_left _ hc')
    rw [digitsValue_concat, List.length_append, List.length_singleton, pow_succ]
    omega

/-- **Reading from the left gives the sum over the places.** -/
theorem digitsValue_eq_placeValue (digits : List Char) :
    digitsValue digits = placeValue digits := by
  induction digits using List.reverseRecOn with
  | nil => rfl
  | append_singleton digits c ih =>
    rw [digitsValue_concat, ih, placeValue, placeValue, List.reverse_concat, List.map_cons,
      Nat.ofDigits_cons, Nat.add_comm]

/-! ## Reading digits -/

variable {w : List Char}

theorem takeSign_of_isInteger (hw : Filter.IsInteger w) : takeSign w = (false, w) := by
  obtain ⟨c, w', rfl⟩ := List.exists_cons_of_ne_nil hw.ne_nil
  have hc : c.isDigit = true := hw.digits c List.mem_cons_self
  unfold takeSign
  split
  · rename_i heq
    obtain ⟨rfl, -⟩ := List.cons.inj heq
    exact absurd hc (by decide)
  · rename_i heq
    obtain ⟨rfl, -⟩ := List.cons.inj heq
    exact absurd hc (by decide)
  · rfl

theorem scan?_of_isInteger (hw : Filter.IsInteger w) :
    scan? w = some (⟨false, digitsValue w, 0, true⟩, []) := by
  have hdigits : takeDigits w = (w, []) := by
    unfold takeDigits
    rw [List.takeWhile_eq_self_iff.2 hw.digits, List.dropWhile_eq_nil_iff.2 hw.digits]
  have hnonempty : w.isEmpty = false := List.isEmpty_eq_false_iff.2 hw.ne_nil
  unfold scan?
  simp [takeSign_of_isInteger hw, hdigits, takeFraction, takeExponent, hnonempty]

theorem integer?_of_isInteger (hw : Filter.IsInteger w) :
    integer? w = some (digitsValue w : Int) := by
  have hnonempty : w.isEmpty = false := List.isEmpty_eq_false_iff.2 hw.ne_nil
  unfold integer?
  simp [takeSign_of_isInteger hw, hnonempty, List.all_eq_true.2 hw.digits]

end Numeral

section Digits

variable {digits : String} (h : Filter.IsInteger digits.toList)
include h

theorem readSigned?_of_isInteger :
    readSigned? digits = signed64? (Numeral.digitsValue digits.toList) := by
  rw [readSigned?, Numeral.integer?_of_isInteger h, Option.bind_some]

theorem readUnsigned?_of_isInteger :
    readUnsigned? digits = unsigned64? (Numeral.digitsValue digits.toList) := by
  have hsign : digits.toList.head? ≠ some '-' := by
    intro hhead
    exact absurd (h.digits '-' (List.mem_of_head? hhead)) (by decide)
  rw [readUnsigned?, if_neg hsign, Numeral.integer?_of_isInteger h, Option.bind_some]

/-- **Digits are always a floating-point number**: the words for other ones have
letters in them. -/
theorem readBinary64?_of_isInteger :
    readBinary64? digits
      = some (Numeral.toBinary64 ⟨false, Numeral.digitsValue digits.toList, 0, true⟩) := by
  have hword : ∀ word : String, 'n' ∈ word.toList →
      String.ofList (digits.toList.map Char.toLower) ≠ word := by
    rintro _ hn rfl
    rw [String.toList_ofList] at hn
    obtain ⟨c, hc, hlower⟩ := List.mem_map.1 hn
    have halpha := Text.isAlpha_eq_false_of_isDigit (h.digits c hc)
    rw [← Char.isAlpha_toLower_eq_isAlpha, hlower] at halpha
    exact absurd halpha (by decide)
  unfold readBinary64?
  rw [Numeral.takeSign_of_isInteger h, Numeral.scan?_of_isInteger h]
  dsimp only
  rw [if_neg (not_or.2 ⟨hword _ (by simp), hword _ (by simp)⟩), if_neg (hword _ (by simp))]

end Digits

/-! ## The limits -/

theorem signed64?_natCast (n : Nat) :
    signed64? n = if n < 2 ^ 63 then some (Int64.ofInt n) else none := by
  have hlimit : (-Int.pow 2 63 ≤ (n : Int) ∧ (n : Int) < Int.pow 2 63) ↔ n < 2 ^ 63 := by
    norm_num
  rw [signed64?, if_congr hlimit rfl rfl]

theorem unsigned64?_natCast (n : Nat) :
    unsigned64? n = if n < 2 ^ 64 then some (UInt64.ofNat n) else none := by
  have hlimit : (0 ≤ (n : Int) ∧ (n : Int) < Int.pow 2 64) ↔ n < 2 ^ 64 := by
    norm_num
  rw [unsigned64?, if_congr hlimit rfl rfl, Int.toNat_natCast]

namespace Value

/-- **The value of digits** is decided by the number that they spell. -/
theorem ofDigits_eq {digits : String} (h : Filter.IsInteger digits.toList) :
    ofDigits digits =
      if Numeral.digitsValue digits.toList < 2 ^ 63 then
        int (Int64.ofInt (Numeral.digitsValue digits.toList))
      else if Numeral.digitsValue digits.toList < 2 ^ 64 then
        uint (UInt64.ofNat (Numeral.digitsValue digits.toList))
      else float (Numeral.toBinary64 ⟨false, Numeral.digitsValue digits.toList, 0, true⟩) := by
  unfold ofDigits
  rw [readSigned?_of_isInteger h, readUnsigned?_of_isInteger h, readBinary64?_of_isInteger h,
    signed64?_natCast, unsigned64?_natCast]
  split_ifs <;> rfl

/-- An unsigned integer that no signed one is has passed the limit of these. -/
theorem le_toNat_of_readUnsigned? {s : String} {u : UInt64} (hsigned : readSigned? s = none)
    (h : readUnsigned? s = some u) : 2 ^ 63 ≤ u.toNat := by
  unfold readUnsigned? at h
  rw [readSigned?] at hsigned
  split at h
  · cases h
  · obtain ⟨n, hn, hu⟩ := Option.bind_eq_some_iff.1 h
    rw [hn, Option.bind_some, signed64?, ite_eq_right_iff] at hsigned
    rw [unsigned64?, Option.ite_none_right_eq_some] at hu
    obtain ⟨⟨hlow, hhigh⟩, hu⟩ := hu
    have hlarge : ¬ n < Int.pow 2 63 := by
      intro hsmall
      have hneg : -Int.pow 2 63 ≤ n := le_trans (by decide) hlow
      cases hsigned ⟨hneg, hsmall⟩
    rw [← Option.some.inj hu, UInt64.toNat_ofNat_of_lt' (by norm_num at hhigh ⊢; omega)]
    norm_num at hlarge
    omega

/-- **The kinds are tried in order**, and a text that is of none stays as it is. -/
theorem ofDigits_cases (s : String) :
    (∃ n, ofDigits s = int n)
      ∨ (∃ u, ofDigits s = uint u ∧ 2 ^ 63 ≤ u.toNat)
      ∨ (∃ x, ofDigits s = float x)
      ∨ ofDigits s = string s := by
  unfold ofDigits
  cases hsigned : readSigned? s with
  | some n => exact .inl ⟨n, rfl⟩
  | none =>
    cases hunsigned : readUnsigned? s with
    | some u => exact .inr (.inl ⟨u, rfl, le_toNat_of_readUnsigned? hsigned hunsigned⟩)
    | none =>
      cases readBinary64? s with
      | some x => exact .inr (.inr (.inl ⟨x, rfl⟩))
      | none => exact .inr (.inr (.inr rfl))

/-- **The kind of a literal is exact at the limits of 64 bits.** Digits, however many
and with whatever zeros in front, are a signed integer below `2⁶³`, an unsigned one
from there to below `2⁶⁴`, and a floating-point number otherwise, each time of the
number that they spell. No text at all is bound as nothing, as a small unsigned
integer, or as another text. -/
theorem kind_of_digits :
    (∀ digits : String, digits ≠ "" → (∀ c ∈ digits.toList, c.isDigit = true) →
        (Numeral.placeValue digits.toList ≤ 2 ^ 63 - 1 →
          ∃ n, ofDigits digits = int n ∧ n.toInt = Numeral.placeValue digits.toList)
        ∧ (2 ^ 63 ≤ Numeral.placeValue digits.toList →
            Numeral.placeValue digits.toList ≤ 2 ^ 64 - 1 →
            ∃ u, ofDigits digits = uint u ∧ u.toNat = Numeral.placeValue digits.toList)
        ∧ (2 ^ 64 - 1 < Numeral.placeValue digits.toList → ∃ x, ofDigits digits = float x))
      ∧ ∀ s : String, ofDigits s ≠ null
        ∧ (∀ u, ofDigits s = uint u → 2 ^ 63 ≤ u.toNat)
        ∧ ∀ t, ofDigits s = string t → t = s := by
  refine ⟨fun digits hne hdigits => ?_, fun s => ?_⟩
  · have hint : Filter.IsInteger digits.toList := ⟨by simpa using hne, hdigits⟩
    rw [ofDigits_eq hint, ← Numeral.digitsValue_eq_placeValue]
    generalize Numeral.digitsValue digits.toList = n
    refine ⟨fun hn => ?_, fun hlow hhigh => ?_, fun hn => ?_⟩
    · rw [if_pos (by omega)]
      exact ⟨_, rfl, Int64.toInt_ofInt_of_le (by omega) (by omega)⟩
    · rw [if_neg (by omega), if_pos (by omega)]
      exact ⟨_, rfl, UInt64.toNat_ofNat_of_lt' (by norm_num; omega)⟩
    · rw [if_neg (by omega), if_neg (by omega)]
      exact ⟨_, rfl⟩
  · rcases ofDigits_cases s with ⟨n, h⟩ | ⟨u, h, hu⟩ | ⟨x, h⟩ | h <;> rw [h]
    · exact ⟨nofun, nofun, nofun⟩
    · exact ⟨nofun, fun v hv => Value.uint.inj hv ▸ hu, nofun⟩
    · exact ⟨nofun, nofun, nofun⟩
    · exact ⟨nofun, nofun, fun t ht => (Value.string.inj ht).symm⟩

/-- The largest signed integer behind zeros, the first unsigned one, and the first
number that is neither. -/
theorem kind_of_digits_at_limits :
    (∃ n, ofDigits "009223372036854775807" = int n ∧ n.toInt = 2 ^ 63 - 1)
      ∧ (∃ u, ofDigits "9223372036854775808" = uint u ∧ u.toNat = 2 ^ 63)
      ∧ ∃ x, ofDigits "18446744073709551616" = float x := by
  have hmax : Numeral.placeValue "009223372036854775807".toList = 2 ^ 63 - 1 := by decide
  have hfirst : Numeral.placeValue "9223372036854775808".toList = 2 ^ 63 := by decide
  have hbeyond : Numeral.placeValue "18446744073709551616".toList = 2 ^ 64 := by decide
  obtain ⟨n, hn, hvalue⟩ := (kind_of_digits.1 "009223372036854775807" (by decide) (by simp)).1
    (le_of_eq hmax)
  obtain ⟨u, hu, huvalue⟩ := (kind_of_digits.1 "9223372036854775808" (by decide) (by simp)).2.1
    (ge_of_eq hfirst) (by rw [hfirst]; norm_num)
  refine ⟨⟨n, hn, ?_⟩, ⟨u, hu, huvalue.trans hfirst⟩,
    (kind_of_digits.1 "18446744073709551616" (by decide) (by simp)).2.2 ?_⟩
  · rw [hvalue, hmax]
    norm_num
  · rw [hbeyond]
    norm_num

end Value

end FilterSql
