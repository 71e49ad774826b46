import FilterSql.Decimal.Shortest
import FilterSql.Proofs.Decimal.Literals
import FilterSql.Proofs.Decimal.Rounding
import Mathlib

/-!
# The shortest decimal lies where it should

The search for a decimal looks at one number of digits after the other and gives
up after seventeen. That it finds one is the comparison of two grids: the decimals
of seventeen digits lie closer together than the interval is wide that rounds to
one magnitude, so one of the two neighbours of the magnitude is inside
(`Magnitude.exists_withDigits?`). What is found has few digits and stands in the
interval (`Magnitude.standsFor_shortest`), which is all that a reader of it needs
to know.

Only magnitudes from one on are looked at here, since the whole numbers of
literals are such.
-/

namespace FilterSql

theorem ten_pow_toNat_div (e : Int) :
    ((Nat.pow 10 e.toNat : Nat) : ℚ) / (Nat.pow 10 (-e).toNat : Nat) = 10 ^ e := by
  exact_mod_cast pow_toNat_div (by norm_num) e

/-! ## Decimals -/

namespace Decimal

/-- **The rational that a decimal is.** -/
def value (d : Decimal) : ℚ :=
  Numeral.digitsValue d.digits * 10 ^ (d.point - d.digits.length)

/-- The digits of a scaled number are its digits but for zeros at the end. -/
theorem exists_digits_ofScaled (c : Nat) (k : Int) :
    ∃ t : Nat, Nat.toDigits 10 c = (ofScaled c k).digits ++ List.replicate t '0' := by
  have hzeros : (Nat.toDigits 10 c).reverse.takeWhile (· == '0')
      = List.replicate ((Nat.toDigits 10 c).reverse.takeWhile (· == '0')).length '0' :=
    List.eq_replicate_of_mem fun b hb => by simpa using List.mem_takeWhile_imp hb
  have hsplit := congrArg List.reverse
    (List.takeWhile_append_dropWhile (p := (· == '0')) (l := (Nat.toDigits 10 c).reverse))
  rw [List.reverse_append, List.reverse_reverse, hzeros, List.reverse_replicate] at hsplit
  exact ⟨_, hsplit.symm⟩

theorem digitsValue_replicate_zero (t : Nat) :
    Numeral.digitsValue (List.replicate t '0') = 0 := by
  induction t with
  | zero => rfl
  | succ t ih =>
    rw [List.replicate_succ', Numeral.digitsValue_concat, ih]
    rfl

/-- Without the zeros at the end, a number is as much smaller as they are many. -/
theorem exists_digitsValue_ofScaled (c : Nat) (k : Int) :
    ∃ t : Nat, c = Numeral.digitsValue (ofScaled c k).digits * 10 ^ t
      ∧ (ofScaled c k).point - (ofScaled c k).digits.length = k + t := by
  obtain ⟨t, ht⟩ := exists_digits_ofScaled c k
  refine ⟨t, ?_, ?_⟩
  · conv_lhs => rw [← Numeral.digitsValue_toDigits c, ht, Numeral.digitsValue_append,
      digitsValue_replicate_zero, List.length_replicate, Nat.add_zero]
  · have hlength := congrArg List.length ht
    rw [List.length_append, List.length_replicate] at hlength
    have hpoint : (ofScaled c k).point = (Nat.toDigits 10 c).length + k := rfl
    omega

theorem value_ofScaled (c : Nat) (k : Int) : (ofScaled c k).value = c * 10 ^ k := by
  obtain ⟨t, hc, hpoint⟩ := exists_digitsValue_ofScaled c k
  rw [value, hpoint, zpow_add₀ (by norm_num), zpow_natCast]
  conv_rhs => rw [hc]
  push_cast
  ring

theorem digitsValue_ofScaled_le (c : Nat) (k : Int) :
    Numeral.digitsValue (ofScaled c k).digits ≤ c := by
  obtain ⟨t, hc, -⟩ := exists_digitsValue_ofScaled c k
  conv_rhs => rw [hc]
  exact Nat.le_mul_of_pos_right _ (Nat.pow_pos (by norm_num))

theorem isInteger_ofScaled {c : Nat} (hc : 0 < c) (k : Int) :
    Filter.IsInteger (ofScaled c k).digits := by
  obtain ⟨t, ht⟩ := exists_digits_ofScaled c k
  obtain ⟨s, hs, -⟩ := exists_digitsValue_ofScaled c k
  refine ⟨fun hnil => ?_, fun b hb => ?_⟩
  · rw [hnil] at hs
    rw [show Numeral.digitsValue [] = 0 from rfl, Nat.zero_mul] at hs
    exact hc.ne' hs
  · have hmem : b ∈ Nat.toDigits 10 c := by
      rw [ht]
      exact List.mem_append_left _ hb
    exact Nat.isDigit_of_mem_toDigits (by norm_num) le_rfl hmem

end Decimal

/-! ## The power of ten below a ratio -/

/-- **The power of ten that is found is the greatest below a ratio** from one on. -/
theorem floorLog10_spec {num den : Nat} (hden : 0 < den) (hle : den ≤ num) :
    (10 : ℚ) ^ floorLog10 num den ≤ num / den
      ∧ (num : ℚ) / den < 10 ^ (floorLog10 num den + 1) := by
  have hd : (0 : ℚ) < den := by exact_mod_cast hden
  have hquotient : 0 < num / den := Nat.div_pos hle hden
  have hlength : 0 < (Nat.toDigits 10 (num / den)).length :=
    List.length_pos_iff.2 Nat.toDigits_ne_nil
  obtain ⟨L, hL⟩ : ∃ L, (Nat.toDigits 10 (num / den)).length = L + 1 :=
    Nat.exists_eq_add_of_lt hlength |>.imp fun _ h => by omega
  have hlog : floorLog10 num den = L := by
    rw [floorLog10, if_pos hle, hL]
    simp
  have hlow : 10 ^ L ≤ num / den := by
    rcases Nat.eq_zero_or_pos L with rfl | hpos
    · exact hquotient
    · refine le_of_not_gt fun hlt => ?_
      have := (Nat.length_toDigits_le_iff (by norm_num) hpos).2 hlt
      omega
  have hhigh : num / den < 10 ^ (L + 1) :=
    (Nat.length_toDigits_le_iff (by norm_num) (Nat.succ_pos L)).1 hL.le
  rw [hlog, le_div_iff₀ hd, div_lt_iff₀ hd]
  exact ⟨by exact_mod_cast (Nat.le_div_iff_mul_le hden).1 hlow,
    by exact_mod_cast (Nat.div_lt_iff_lt_mul hden).1 hhigh⟩

/-! ## The decimals that stand for a magnitude -/

/-- **A decimal stands for a magnitude** if it lies between the ends of the interval
that rounds to it, and has no more than seventeen digits. -/
structure Decimal.StandsFor (d : Decimal) (x : Magnitude) : Prop where
  digits : Filter.IsInteger d.digits
  short : Numeral.digitsValue d.digits ≤ 10 ^ 17
  low : x.lowQuarters * 2 ^ (x.exponent - 2) ≤ d.value
  high : d.value ≤ x.highQuarters * 2 ^ (x.exponent - 2)

namespace Magnitude

variable (x : Magnitude) (n : Nat)

/-- The exponent of the last of `n` digits. -/
def gridExponent : Int := floorLog10 x.num x.den + 1 - n

/-- The numerator of a quarter of the unit, measured on the grid of `n` digits. -/
def quarter : Nat :=
  Nat.pow 2 (x.exponent - 2).toNat * Nat.pow 10 (-x.gridExponent n).toNat

/-- The denominator of a quarter of the unit, measured on the grid of `n` digits. -/
def grid : Nat :=
  Nat.pow 2 (-(x.exponent - 2)).toNat * Nat.pow 10 (x.gridExponent n).toNat

theorem grid_pos : 0 < x.grid n :=
  Nat.mul_pos (Nat.two_pow_pos _) (Nat.pow_pos (by norm_num))

theorem quarter_pos : 0 < x.quarter n :=
  Nat.mul_pos (Nat.two_pow_pos _) (Nat.pow_pos (by norm_num))

theorem quarter_div_grid :
    (x.quarter n : ℚ) / x.grid n = 2 ^ (x.exponent - 2) / 10 ^ x.gridExponent n := by
  rw [← two_pow_toNat_div, ← ten_pow_toNat_div, quarter, grid]
  push_cast
  field_simp

/-- The point of the grid of `n` digits that is not above the magnitude. -/
def below : Nat := 4 * x.mantissa * x.quarter n / x.grid n

/-- A number of quarters and a number of grid points, compared. -/
theorem quarters_le_iff (q c : Nat) :
    q * x.quarter n ≤ c * x.grid n
      ↔ (q : ℚ) * 2 ^ (x.exponent - 2) ≤ c * 10 ^ x.gridExponent n := by
  have hg : (0 : ℚ) < x.grid n := by exact_mod_cast x.grid_pos n
  have hten : (0 : ℚ) < 10 ^ x.gridExponent n := by positivity
  rw [← div_le_iff₀ hten, mul_div_assoc, ← quarter_div_grid, ← mul_div_assoc, div_le_iff₀ hg]
  exact_mod_cast Iff.rfl

theorem le_quarters_iff (q c : Nat) :
    c * x.grid n ≤ q * x.quarter n
      ↔ (c : ℚ) * 10 ^ x.gridExponent n ≤ q * 2 ^ (x.exponent - 2) := by
  have hg : (0 : ℚ) < x.grid n := by exact_mod_cast x.grid_pos n
  have hten : (0 : ℚ) < 10 ^ x.gridExponent n := by positivity
  rw [← le_div_iff₀ hten, mul_div_assoc, ← quarter_div_grid, ← mul_div_assoc, le_div_iff₀ hg]
  exact_mod_cast Iff.rfl

/-- Whether a point of the grid rounds to the magnitude. -/
def inside (c : Nat) : Bool :=
  if x.mantissa % 2 = 0 then
    x.lowQuarters * x.quarter n ≤ c * x.grid n && c * x.grid n ≤ x.highQuarters * x.quarter n
  else x.lowQuarters * x.quarter n < c * x.grid n && c * x.grid n < x.highQuarters * x.quarter n

/-- Whether the lower neighbour is taken where both round to the magnitude. -/
def preferBelow (tie : Tie) : Bool :=
  2 * (4 * x.mantissa * x.quarter n % x.grid n) < x.grid n
    || (2 * (4 * x.mantissa * x.quarter n % x.grid n) == x.grid n && tie == .even
      && x.below n % 2 == 0)

theorem withDigits?_eq (tie : Tie) :
    x.withDigits? tie n
      = match x.inside n (x.below n), x.inside n (x.below n + 1) with
        | true, true =>
          some (.ofScaled (if x.preferBelow n tie then x.below n else x.below n + 1)
            (x.gridExponent n))
        | true, false => some (.ofScaled (x.below n) (x.gridExponent n))
        | false, true => some (.ofScaled (x.below n + 1) (x.gridExponent n))
        | false, false => none :=
  rfl

variable {x n}

theorem between_of_inside {c : Nat} (h : x.inside n c = true) :
    x.lowQuarters * x.quarter n ≤ c * x.grid n ∧ c * x.grid n ≤ x.highQuarters * x.quarter n := by
  unfold inside at h
  split at h
  · simpa using h
  · simp only [Bool.and_eq_true, decide_eq_true_eq] at h
    exact ⟨h.1.le, h.2.le⟩

theorem outside_of_not_inside {c : Nat} (h : x.inside n c = false) :
    c * x.grid n ≤ x.lowQuarters * x.quarter n ∨ x.highQuarters * x.quarter n ≤ c * x.grid n := by
  unfold inside at h
  split at h <;>
  · simp only [Bool.and_eq_false_iff, decide_eq_false_iff_not] at h
    omega

/-- **What a number of digits gives** is one of the two neighbours of the magnitude,
and lies in its interval. -/
theorem withDigits?_eq_some {tie : Tie} {d : Decimal} (h : x.withDigits? tie n = some d) :
    ∃ c, d = .ofScaled c (x.gridExponent n) ∧ c ≤ x.below n + 1 ∧ x.inside n c = true := by
  rw [withDigits?_eq] at h
  split at h
  · rename_i hbelow habove
    obtain rfl := Option.some.inj h
    refine ⟨_, rfl, ?_, ?_⟩ <;> split <;> first | assumption | omega
  · rename_i hbelow _
    exact ⟨_, (Option.some.inj h).symm, Nat.le_succ _, hbelow⟩
  · rename_i _ habove
    exact ⟨_, (Option.some.inj h).symm, le_rfl, habove⟩
  · cases h

/-! ## Seventeen digits suffice -/

theorem mantissa_lt (x : Magnitude) : x.mantissa < 2 ^ 53 := by
  rw [mantissa, Nat.pow_eq]
  split <;> omega

theorem lowQuarters_le (x : Magnitude) : x.lowQuarters ≤ 4 * x.mantissa := by
  unfold lowQuarters
  split <;> omega

/-- The interval starts above half of the magnitude. -/
theorem two_mantissa_le_lowQuarters (hx : 0 < x.mantissa) : 2 * x.mantissa ≤ x.lowQuarters := by
  unfold lowQuarters
  split <;> omega

/-- **The interval is wider than a part in `10¹⁶` of the magnitude.** At a power of two
it is narrower, but there the mantissa is the smallest. -/
theorem mantissa_lt_width (hx : 0 < x.mantissa) :
    4 * x.mantissa < (x.highQuarters - x.lowQuarters) * 10 ^ 16 := by
  have hlt := x.mantissa_lt
  unfold highQuarters lowQuarters
  split
  · rename_i hpower
    have hmantissa : x.mantissa = 2 ^ 52 := by
      rw [mantissa, Nat.pow_eq] at *
      rw [if_neg (by omega)]
      omega
    rw [hmantissa]
    norm_num
  · omega

theorem value_eq_quarters (x : Magnitude) :
    x.value = ((4 * x.mantissa : Nat) : ℚ) * 2 ^ (x.exponent - 2) := by
  rw [value, zpow_sub₀ two_ne_zero]
  push_cast
  ring

/-- **Where a number of digits gives nothing**, the grid is as coarse as the interval
is wide. -/
theorem width_le_grid {tie : Tie} (h : x.withDigits? tie n = none) :
    (x.highQuarters - x.lowQuarters) * x.quarter n ≤ x.grid n := by
  have hquarter := x.quarter_pos n
  have hvalue := Nat.div_add_mod' (4 * x.mantissa * x.quarter n) (x.grid n)
  have hmod := Nat.mod_lt (4 * x.mantissa * x.quarter n) (x.grid_pos n)
  have hlowest := Nat.mul_le_mul_right (x.quarter n) x.lowQuarters_le
  have hhighest : x.highQuarters * x.quarter n
      = 4 * x.mantissa * x.quarter n + 2 * x.quarter n := Nat.add_mul _ _ _
  have hsucc : (x.below n + 1) * x.grid n = x.below n * x.grid n + x.grid n :=
    Nat.succ_mul _ _
  change x.below n * x.grid n + _ = _ at hvalue
  rw [withDigits?_eq] at h
  split at h
  case h_4 hbelow habove =>
    -- the lower neighbour is not above the magnitude, the upper one not below it
    have hlow := (outside_of_not_inside hbelow).resolve_right (by omega)
    have hhigh := (outside_of_not_inside habove).resolve_left (by omega)
    rw [Nat.sub_mul]
    omega
  all_goals cases h

section FromOne

variable (hx : 1 ≤ x.value)
include hx

theorem mantissa_pos_of_one_le : 0 < x.mantissa := by
  refine Nat.pos_of_ne_zero fun hzero => ?_
  rw [value, hzero, Nat.cast_zero, zero_mul] at hx
  exact absurd hx (by norm_num)

theorem floorLog10_value :
    (10 : ℚ) ^ floorLog10 x.num x.den ≤ x.value
      ∧ x.value < 10 ^ (floorLog10 x.num x.den + 1) := by
  rw [← num_div_den] at hx ⊢
  have hd : (0 : ℚ) < x.den := by exact_mod_cast x.den_pos
  refine floorLog10_spec x.den_pos ?_
  rw [one_le_div hd] at hx
  exact_mod_cast hx

theorem below_lt (n : Nat) : x.below n < 10 ^ n := by
  refine (Nat.div_lt_iff_lt_mul (x.grid_pos n)).2 (lt_of_not_ge fun hle => ?_)
  rw [le_quarters_iff, ← value_eq_quarters] at hle
  refine absurd (floorLog10_value hx).2 (not_lt.2 (le_of_eq_of_le ?_ hle))
  rw [gridExponent, Nat.cast_pow, Nat.cast_ofNat, ← zpow_natCast, ← zpow_add₀ (by norm_num)]
  congr 1
  ring

/-- **Seventeen digits suffice.** -/
theorem exists_withDigits? (tie : Tie) : ∃ d, x.withDigits? tie 17 = some d := by
  refine Option.ne_none_iff_exists'.1 fun hnone => ?_
  have hunit : (0 : ℚ) < 2 ^ (x.exponent - 2) := by positivity
  have hcoarse := width_le_grid hnone
  rw [← Nat.one_mul (x.grid 17), quarters_le_iff, Nat.cast_one, one_mul] at hcoarse
  have hgrid : (10 : ℚ) ^ x.gridExponent 17 * 10 ^ 16 ≤ x.value := by
    refine le_of_eq_of_le ?_ (floorLog10_value hx).1
    rw [gridExponent, ← zpow_natCast, ← zpow_add₀ (by norm_num)]
    congr 1
    norm_num
    ring
  have hwidth : ((x.highQuarters - x.lowQuarters : Nat) : ℚ) * 10 ^ 16 * 2 ^ (x.exponent - 2)
      ≤ ((4 * x.mantissa : Nat) : ℚ) * 2 ^ (x.exponent - 2) := by
    rw [← value_eq_quarters]
    linarith
  have hle := le_of_mul_le_mul_right hwidth hunit
  exact absurd (mantissa_lt_width (mantissa_pos_of_one_le hx)) (not_lt.2 (by exact_mod_cast hle))

/-- **The shortest decimal stands for its magnitude.** -/
theorem standsFor_shortest (tie : Tie) : (x.shortest tie).StandsFor x := by
  obtain ⟨d, hd⟩ := exists_withDigits? hx tie
  have hsome : ((List.range 17).findSome? fun i => x.withDigits? tie (i + 1)).isSome :=
    List.findSome?_isSome_iff.2 ⟨16, by simp, by rw [hd]; rfl⟩
  obtain ⟨d, hd⟩ := Option.isSome_iff_exists.1 hsome
  have hshortest : x.shortest tie = d := by rw [shortest, hd, Option.getD_some]
  rw [hshortest]
  obtain ⟨i, hi, hd⟩ := List.exists_of_findSome?_eq_some hd
  obtain ⟨c, rfl, hc, hinside⟩ := withDigits?_eq_some hd
  obtain ⟨hlow, hhigh⟩ := between_of_inside hinside
  have hpos : 0 < c := by
    refine Nat.pos_of_ne_zero fun hzero => ?_
    have hmantissa := mantissa_pos_of_one_le hx
    have hlowest : 0 < x.lowQuarters :=
      (Nat.mul_pos two_pos hmantissa).trans_le (two_mantissa_le_lowQuarters hmantissa)
    rw [hzero, Nat.zero_mul] at hlow
    exact absurd (Nat.mul_pos hlowest (x.quarter_pos _)) (not_lt.2 hlow)
  have hdigits : c ≤ 10 ^ 17 := by
    have hlt := below_lt hx (i + 1)
    have hpow : 10 ^ (i + 1) ≤ 10 ^ 17 :=
      Nat.pow_le_pow_right (by norm_num) (by have := List.mem_range.1 hi; omega)
    omega
  exact {
    digits := Decimal.isInteger_ofScaled hpos _
    short := (Decimal.digitsValue_ofScaled_le _ _).trans hdigits
    low := by
      rw [Decimal.value_ofScaled]
      exact (quarters_le_iff _ _ _ _).1 hlow
    high := by
      rw [Decimal.value_ofScaled]
      exact (le_quarters_iff _ _ _ _).1 hhigh }

end FromOne

end Magnitude

end FilterSql
