import FilterSql.Decimal.Numeral
import Mathlib

/-!
# Rounding to a floating-point number

A ratio is rounded in three steps of exact arithmetic: the greatest power of two
below it decides the unit, the quotient by the unit is rounded to a whole number,
and the two are packed into the number of a magnitude. Here the steps are put
into words about rationals: `Magnitude.value` is the rational that a magnitude
is, and rounding is off by half a unit at most.

Two things follow that readers of numbers rely on. Where the ratio is at least
one, the rounded value is off by a part in `2⁵³` (`Magnitude.value_nearest?_le`).
And there is a magnitude to round to exactly below `2¹⁰²⁴ - 2⁹⁷⁰`
(`Magnitude.isSome_nearest?_iff`): half a unit beyond the largest magnitude the
tie would go to the even neighbour, which is no magnitude any more. A whole number
becomes infinite exactly from there on (`Numeral.toBinary64_cases`).
-/

namespace FilterSql

/-! ## Powers of either sign -/

/-- A power of either sign is the quotient of two whole ones, of which one is
one. -/
theorem pow_toNat_div {b : Nat} (hb : b ≠ 0) (e : Int) :
    ((Nat.pow b e.toNat : Nat) : ℚ) / (Nat.pow b (-e).toNat : Nat) = (b : ℚ) ^ e := by
  have hsplit : e = (e.toNat : Int) - ((-e).toNat : Int) := by omega
  conv_rhs => rw [hsplit, zpow_sub₀ (by exact_mod_cast hb), zpow_natCast, zpow_natCast]
  simp

theorem two_pow_toNat_div (e : Int) :
    ((Nat.pow 2 e.toNat : Nat) : ℚ) / (Nat.pow 2 (-e).toNat : Nat) = 2 ^ e := by
  exact_mod_cast pow_toNat_div two_ne_zero e

/-- A ratio over a power of two of either sign. -/
theorem ratio_div_two_zpow (num den : Nat) (q : Int) :
    ((num * Nat.pow 2 (-q).toNat : Nat) : ℚ) / ((den * Nat.pow 2 q.toNat : Nat) : ℚ)
      = (num : ℚ) / den / 2 ^ q := by
  rw [← two_pow_toNat_div q]
  push_cast
  field_simp

/-! ## The power of two below a ratio -/

/-- **The power of two that is found is the greatest below the ratio.** -/
theorem floorLog2_spec {num den : Nat} (hnum : 0 < num) (hden : 0 < den) :
    (2 : ℚ) ^ floorLog2 num den ≤ num / den ∧ (num : ℚ) / den < 2 ^ (floorLog2 num den + 1) := by
  have hd : (0 : ℚ) < den := by exact_mod_cast hden
  -- the comparison of the definition is one of rationals
  have hcompare : ∀ e : Int,
      den * Nat.pow 2 e.toNat ≤ num * Nat.pow 2 (-e).toNat ↔ (2 : ℚ) ^ e ≤ num / den := by
    intro e
    have hpow : (0 : ℚ) < (Nat.pow 2 (-e).toNat : Nat) :=
      Nat.cast_pos.2 (Nat.two_pow_pos (-e).toNat)
    rw [← two_pow_toNat_div e, div_le_div_iff₀ hpow hd, ← Nat.cast_mul,
      ← Nat.cast_mul, Nat.cast_le, Nat.mul_comm]
  have hnumlow : (2 : ℚ) ^ (num.log2 : Int) ≤ num := by
    exact_mod_cast Nat.log2_self_le hnum.ne'
  have hnumhigh : (num : ℚ) < 2 ^ ((num.log2 : Int) + 1) := by
    exact_mod_cast Nat.lt_log2_self (n := num)
  have hdenlow : (2 : ℚ) ^ (den.log2 : Int) ≤ den := by
    exact_mod_cast Nat.log2_self_le hden.ne'
  have hdenhigh : (den : ℚ) < 2 ^ ((den.log2 : Int) + 1) := by
    exact_mod_cast Nat.lt_log2_self (n := den)
  have hlow : (2 : ℚ) ^ ((num.log2 : Int) - den.log2 - 1) ≤ num / den := by
    rw [le_div_iff₀ hd]
    calc (2 : ℚ) ^ ((num.log2 : Int) - den.log2 - 1) * den
        ≤ 2 ^ ((num.log2 : Int) - den.log2 - 1) * 2 ^ ((den.log2 : Int) + 1) := by gcongr
      _ = 2 ^ (num.log2 : Int) := by
        rw [← zpow_add₀ two_ne_zero]
        congr 1
        ring
      _ ≤ num := hnumlow
  have hhigh : (num : ℚ) / den < 2 ^ ((num.log2 : Int) - den.log2 + 1) := by
    rw [div_lt_iff₀ hd]
    calc (num : ℚ) < 2 ^ ((num.log2 : Int) + 1) := hnumhigh
      _ = 2 ^ ((num.log2 : Int) - den.log2 + 1) * 2 ^ (den.log2 : Int) := by
        rw [← zpow_add₀ two_ne_zero]
        congr 1
        ring
      _ ≤ 2 ^ ((num.log2 : Int) - den.log2 + 1) * den := by gcongr
  unfold floorLog2
  dsimp only
  split
  · rename_i hle
    exact ⟨(hcompare _).1 hle, hhigh⟩
  · rename_i hlt
    refine ⟨hlow, ?_⟩
    rw [sub_add_cancel]
    exact lt_of_not_ge fun h => hlt ((hcompare _).2 h)

/-! ## Rounding a quotient -/

/-- **What a quotient is rounded to**: the whole number below it, or the next one. -/
theorem roundDiv_cases (num den : Nat) :
    roundDiv num den = num / den
        ∧ (2 * (num % den) < den ∨ 2 * (num % den) = den ∧ num / den % 2 = 0)
      ∨ roundDiv num den = num / den + 1
        ∧ (den < 2 * (num % den) ∨ 2 * (num % den) = den ∧ num / den % 2 = 1) := by
  unfold roundDiv
  dsimp only
  split_ifs <;> omega

section RoundDiv

variable {num den : Nat} (hden : 0 < den)
include hden

theorem cast_div_eq : (num : ℚ) / den = (num / den : Nat) + ((num % den : Nat) : ℚ) / den := by
  have hd : (den : ℚ) ≠ 0 := by exact_mod_cast hden.ne'
  have hsplit : (num : ℚ) = den * (num / den : Nat) + (num % den : Nat) := by
    exact_mod_cast (Nat.div_add_mod num den).symm
  rw [div_eq_iff hd, add_mul, div_mul_cancel₀ _ hd, mul_comm _ (den : ℚ)]
  exact hsplit

/-- **A rounded quotient is off by one half at most.** -/
theorem abs_roundDiv_sub_le : |(roundDiv num den : ℚ) - num / den| ≤ 1 / 2 := by
  have hd : (0 : ℚ) < den := by exact_mod_cast hden
  have hlow : (0 : ℚ) ≤ ((num % den : Nat) : ℚ) / den := by positivity
  have hhigh : ((num % den : Nat) : ℚ) / den ≤ 1 := by
    rw [div_le_one hd]
    exact_mod_cast (Nat.mod_lt num hden).le
  rw [cast_div_eq hden, abs_le]
  rcases roundDiv_cases num den with ⟨h, hrest⟩ | ⟨h, hrest⟩ <;> rw [h]
  · have hhalf : ((num % den : Nat) : ℚ) / den ≤ 1 / 2 := by
      rw [div_le_div_iff₀ hd two_pos, one_mul]
      have hle : num % den * 2 ≤ den := by omega
      exact_mod_cast hle
    constructor <;> linarith
  · have hhalf : (1 : ℚ) / 2 ≤ ((num % den : Nat) : ℚ) / den := by
      rw [div_le_div_iff₀ two_pos hd, one_mul]
      have hle : den ≤ num % den * 2 := by omega
      exact_mod_cast hle
    push_cast
    constructor <;> linarith

/-- **A quotient is rounded below an even number** exactly if it is more than one
half below it, since a tie goes to the even neighbour. -/
theorem roundDiv_lt_iff {n : Nat} (hn : n % 2 = 0) :
    roundDiv num den < n ↔ (num : ℚ) / den < n - 1 / 2 := by
  have hd : (0 : ℚ) < den := by exact_mod_cast hden
  have hquotient : (num : ℚ) / den < n - 1 / 2 ↔ 2 * num + den < 2 * n * den := by
    rw [div_lt_iff₀ hd]
    constructor
    · intro h
      have hcast : ((2 * num + den : Nat) : ℚ) < (2 * n * den : Nat) := by
        push_cast
        linarith
      exact_mod_cast hcast
    · intro h
      have hcast : ((2 * num + den : Nat) : ℚ) < (2 * n * den : Nat) := by exact_mod_cast h
      push_cast at hcast
      linarith
  rw [hquotient]
  have hsplit := Nat.div_add_mod num den
  have hmod := Nat.mod_lt num hden
  have hcases := roundDiv_cases num den
  generalize roundDiv num den = rounded at hcases ⊢
  generalize num / den = q, num % den = r at hsplit hmod hcases
  by_cases hq : q < n
  · obtain ⟨k, rfl⟩ := Nat.exists_eq_add_of_lt hq
    have hproduct : 2 * (q + k + 1) * den = 2 * (den * q) + 2 * (k * den) + 2 * den := by ring
    have hk : k = 0 ∧ k * den = 0 ∨ 1 ≤ k ∧ den ≤ k * den := by
      rcases Nat.eq_zero_or_pos k with rfl | hk
      · exact .inl ⟨rfl, Nat.zero_mul den⟩
      · exact .inr ⟨hk, Nat.le_mul_of_pos_left den hk⟩
    rw [hproduct]
    omega
  · have hproduct : n * den ≤ den * q := by
      rw [Nat.mul_comm]
      exact Nat.mul_le_mul_left den (not_lt.1 hq)
    rw [Nat.mul_assoc]
    omega

end RoundDiv

/-! ## The parts of a magnitude -/

namespace Magnitude

/-- **The rational that a magnitude is.** -/
def value (x : Magnitude) : ℚ := x.mantissa * 2 ^ x.exponent

theorem num_div_den (x : Magnitude) : (x.num : ℚ) / x.den = x.value := by
  rw [value, ← two_pow_toNat_div, num, den]
  push_cast
  rw [mul_div_assoc]

/-- A magnitude is packed from a number of units and the exponent of the unit. The
number may have gone up to `2⁵³`, when it is carried over. -/
theorem value_of_val {x : Magnitude} {q : Int} {m : Nat} (hq : -1074 ≤ q) (hm : m ≤ 2 ^ 53)
    (hnormal : q = -1074 ∨ 2 ^ 52 ≤ m) (hx : x.val = (q + 1074).toNat * 2 ^ 52 + m) :
    x.value = m * 2 ^ q := by
  rw [value, mantissa, exponent, Nat.pow_eq]
  rcases lt_or_ge m (2 ^ 52) with hsmall | hlarge
  · -- a number below the normal ones
    obtain rfl : q = -1074 := hnormal.resolve_right (not_le.2 hsmall)
    have hval : x.val = m := by simpa using hx
    rw [if_pos (by omega), if_pos (by omega), hval]
  · rcases lt_or_eq_of_le hm with hlt | rfl
    · rw [if_neg (by omega), if_neg (by omega)]
      have hmantissa : x.val % 2 ^ 52 + 2 ^ 52 = m := by omega
      have hexponent : ((x.val / 2 ^ 52 : Nat) : Int) - 1075 = q := by omega
      rw [hmantissa, hexponent]
    · rw [if_neg (by omega), if_neg (by omega)]
      have hmantissa : x.val % 2 ^ 52 + 2 ^ 52 = 2 ^ 52 := by omega
      have hexponent : ((x.val / 2 ^ 52 : Nat) : Int) - 1075 = q + 1 := by omega
      rw [hmantissa, hexponent, zpow_add_one₀ two_ne_zero]
      push_cast
      ring

end Magnitude

/-! ## Rounding a ratio -/

/-- The exponent of the unit to which a ratio is rounded. -/
def roundingUnit (num den : Nat) : Int :=
  max (floorLog2 num den - 52) (-1074)

/-- The number of units to which a ratio is rounded. -/
def roundedUnits (num den : Nat) : Nat :=
  roundDiv (num * Nat.pow 2 (-roundingUnit num den).toNat)
    (den * Nat.pow 2 (roundingUnit num den).toNat)

section Rounded

variable {num den : Nat} (hnum : 0 < num) (hden : 0 < den)
include hden

theorem abs_roundedUnits_sub_le :
    |(roundedUnits num den : ℚ) - num / den / 2 ^ roundingUnit num den| ≤ 1 / 2 := by
  rw [← ratio_div_two_zpow]
  exact abs_roundDiv_sub_le (Nat.mul_pos hden (Nat.two_pow_pos _))

theorem roundedUnits_lt_iff :
    roundedUnits num den < 2 ^ 53
      ↔ (num : ℚ) / den < (2 ^ 53 - 1 / 2) * 2 ^ roundingUnit num den := by
  have hunit : (0 : ℚ) < 2 ^ roundingUnit num den := by positivity
  have hscaled : 0 < den * Nat.pow 2 (roundingUnit num den).toNat :=
    Nat.mul_pos hden (Nat.two_pow_pos _)
  rw [roundedUnits, roundDiv_lt_iff hscaled (by norm_num), ratio_div_two_zpow, div_lt_iff₀ hunit]
  norm_num

include hnum

/-- The ratio is less than `2⁵³` units. -/
theorem ratio_lt_units : (num : ℚ) / den < 2 ^ 53 * 2 ^ roundingUnit num den := by
  refine lt_of_lt_of_le (floorLog2_spec hnum hden).2 ?_
  rw [← zpow_natCast, ← zpow_add₀ two_ne_zero]
  refine zpow_le_zpow_right₀ one_le_two ?_
  unfold roundingUnit
  omega

/-- The ratio is `2⁵²` units at least, unless the unit is the smallest. -/
theorem units_le_ratio (hunit : -1074 < roundingUnit num den) :
    2 ^ 52 * 2 ^ roundingUnit num den ≤ (num : ℚ) / den := by
  refine le_trans ?_ (floorLog2_spec hnum hden).1
  rw [← zpow_natCast, ← zpow_add₀ two_ne_zero]
  refine zpow_le_zpow_right₀ one_le_two ?_
  unfold roundingUnit at hunit ⊢
  omega

theorem roundedUnits_le : roundedUnits num den ≤ 2 ^ 53 := by
  have hunit : (0 : ℚ) < 2 ^ roundingUnit num den := by positivity
  have hratio := (div_lt_iff₀ hunit).2 (ratio_lt_units hnum hden)
  have habs := (abs_le.1 (@abs_roundedUnits_sub_le num den hden)).2
  have hlt : (roundedUnits num den : ℚ) < (2 ^ 53 + 1 : Nat) := by
    push_cast
    linarith
  exact Nat.lt_succ_iff.1 (by exact_mod_cast hlt)

theorem le_roundedUnits (hunit : -1074 < roundingUnit num den) :
    2 ^ 52 ≤ roundedUnits num den := by
  have hpos : (0 : ℚ) < 2 ^ roundingUnit num den := by positivity
  have hratio := (le_div_iff₀ hpos).2 (units_le_ratio hnum hden hunit)
  have habs := (abs_le.1 (@abs_roundedUnits_sub_le num den hden)).1
  have hlt : ((2 ^ 52 : Nat) : ℚ) < (roundedUnits num den + 1 : Nat) := by
    push_cast
    linarith
  exact Nat.lt_succ_iff.1 (by exact_mod_cast hlt)

/-- From one on, the unit is the one that leaves 53 binary digits. -/
theorem roundingUnit_of_one_le (hone : 1 ≤ (num : ℚ) / den) :
    0 ≤ floorLog2 num den ∧ roundingUnit num den = floorLog2 num den - 52 := by
  have hlt : (2 : ℚ) ^ (0 : Int) < 2 ^ (floorLog2 num den + 1) := by
    rw [zpow_zero]
    exact lt_of_le_of_lt hone (floorLog2_spec hnum hden).2
  have hlog := (zpow_lt_zpow_iff_right₀ one_lt_two).1 hlt
  unfold roundingUnit
  omega

end Rounded

namespace Magnitude

variable {num den : Nat} {x : Magnitude}

theorem nearest?_eq (hnum : 0 < num) :
    nearest? num den
      = if h : (roundingUnit num den + 1074).toNat * 2 ^ 52 + roundedUnits num den < count then
          some ⟨_, h⟩
        else none := by
  unfold nearest?
  rw [if_neg hnum.ne']
  rfl

/-- **What a ratio is rounded to** is the rounded number of units. -/
theorem value_nearest? (hnum : 0 < num) (hden : 0 < den) (h : nearest? num den = some x) :
    x.value = roundedUnits num den * 2 ^ roundingUnit num den := by
  rw [nearest?_eq hnum] at h
  split at h
  · obtain rfl := Option.some.inj h
    have hunit : -1074 ≤ roundingUnit num den := le_max_right _ _
    refine value_of_val hunit (roundedUnits_le hnum hden) ?_ rfl
    rcases hunit.eq_or_lt with heq | hlt
    · exact .inl heq.symm
    · exact .inr (le_roundedUnits hnum hden hlt)
  · cases h

section Normal

variable (hnum : 0 < num) (hden : 0 < den) (hone : 1 ≤ (num : ℚ) / den)
  (h : nearest? num den = some x)
include hnum hden hone h

/-- **A ratio from one on is rounded up by a part in `2⁵³` at most.** -/
theorem value_nearest?_le : x.value ≤ num / den * (1 + 1 / 2 ^ 53) := by
  have hunit : (0 : ℚ) < 2 ^ roundingUnit num den := by positivity
  have habs := (abs_le.1 (@abs_roundedUnits_sub_le num den hden)).2
  have hround : x.value ≤ num / den + 1 / 2 * 2 ^ roundingUnit num den := by
    rw [value_nearest? hnum hden h]
    have hle : (roundedUnits num den : ℚ) ≤ num / den / 2 ^ roundingUnit num den + 1 / 2 := by
      linarith
    calc (roundedUnits num den : ℚ) * 2 ^ roundingUnit num den
        ≤ (num / den / 2 ^ roundingUnit num den + 1 / 2) * 2 ^ roundingUnit num den := by gcongr
      _ = num / den + 1 / 2 * 2 ^ roundingUnit num den := by
        rw [add_mul, div_mul_cancel₀ _ hunit.ne']
  have hsmall : (2 : ℚ) ^ roundingUnit num den ≤ num / den / 2 ^ 52 := by
    have hlog := (floorLog2_spec hnum hden).1
    rw [(roundingUnit_of_one_le hnum hden hone).2, zpow_sub₀ two_ne_zero]
    gcongr
    norm_num
  linarith

/-- Rounding does not go below a power of two that is not above the ratio. -/
theorem two_zpow_le_value_nearest? {k : Int} (hk : 2 ^ k ≤ (num : ℚ) / den) : 2 ^ k ≤ x.value := by
  obtain ⟨hlog, hunit⟩ := roundingUnit_of_one_le hnum hden hone
  have hle : k ≤ floorLog2 num den := by
    have hlt := lt_of_le_of_lt hk (floorLog2_spec hnum hden).2
    have := (zpow_lt_zpow_iff_right₀ one_lt_two).1 hlt
    omega
  have hunits : ((2 ^ 52 : Nat) : ℚ) ≤ roundedUnits num den := by
    exact_mod_cast le_roundedUnits hnum hden (by omega)
  rw [value_nearest? hnum hden h]
  calc (2 : ℚ) ^ k ≤ 2 ^ (52 + roundingUnit num den) := zpow_le_zpow_right₀ one_le_two (by omega)
    _ = ((2 ^ 52 : Nat) : ℚ) * 2 ^ roundingUnit num den := by
      rw [zpow_add₀ two_ne_zero]
      norm_num
    _ ≤ roundedUnits num den * 2 ^ roundingUnit num den := by gcongr

end Normal

/-- The limit is a multiple of half the largest unit. -/
theorem limit_eq : (2 : ℚ) ^ 1024 - 2 ^ 970 = (2 ^ 54 - 1) * 2 ^ 970 := by
  rw [sub_mul, ← pow_add, one_mul]

/-- **There is a magnitude to round to exactly below `2¹⁰²⁴ - 2⁹⁷⁰`**, half a unit
beyond the largest one. -/
theorem isSome_nearest?_iff (hnum : 0 < num) (hden : 0 < den) :
    (nearest? num den).isSome ↔ (num : ℚ) / den < 2 ^ 1024 - 2 ^ 970 := by
  have hpacked : (nearest? num den).isSome
      ↔ (roundingUnit num den + 1074).toNat * 2 ^ 52 + roundedUnits num den < 2047 * 2 ^ 52 := by
    rw [nearest?_eq hnum]
    split
    · rename_i h
      exact iff_of_true rfl h
    · rename_i h
      exact iff_of_false nofun h
  have hunits := roundedUnits_le hnum hden
  -- all powers that matter are multiples of one, which need not be computed
  obtain ⟨p, hp⟩ : ∃ p : ℚ, p = 2 ^ 970 := ⟨_, rfl⟩
  have hpos : 0 < p := by
    rw [hp]
    positivity
  have hlimit : (2 : ℚ) ^ 1024 - 2 ^ 970 = (2 ^ 54 - 1) * p := by rw [hp, limit_eq]
  have hpow : ∀ k : Nat, (2 : ℚ) ^ (970 + k : Int) = 2 ^ k * p := by
    intro k
    rw [hp, zpow_add₀ two_ne_zero, zpow_natCast, zpow_ofNat, mul_comm]
  rw [hpacked, hlimit]
  rcases lt_trichotomy (roundingUnit num den) 971 with hlt | heq | hgt
  · have hunit : (2 : ℚ) ^ roundingUnit num den ≤ 2 ^ 0 * p := by
      rw [← hpow 0]
      exact zpow_le_zpow_right₀ one_le_two (by omega)
    have hratio := ratio_lt_units hnum hden
    refine iff_of_true (by omega) ?_
    generalize (2 : ℚ) ^ roundingUnit num den = u at hunit hratio
    linarith only [hunit, hratio, hpos]
  · -- the unit of the largest magnitudes
    have hunit : (2 : ℚ) ^ roundingUnit num den = 2 ^ 1 * p := by
      rw [← hpow 1, heq]
      norm_num
    have hhalf : ((2 : ℚ) ^ 53 - 1 / 2) * 2 ^ roundingUnit num den = (2 ^ 54 - 1) * p := by
      rw [hunit]
      ring
    rw [← hhalf, ← roundedUnits_lt_iff hden, heq]
    omega
  · have hunit : 2 ^ 2 * p ≤ (2 : ℚ) ^ roundingUnit num den := by
      rw [← hpow 2]
      exact zpow_le_zpow_right₀ one_le_two (by omega)
    have hratio := units_le_ratio hnum hden (by omega)
    have hle := le_roundedUnits hnum hden (by omega)
    refine iff_of_false (by omega) ?_
    generalize (2 : ℚ) ^ roundingUnit num den = u at hunit hratio
    linarith only [hunit, hratio, hpos]

end Magnitude

/-! ## Whole numbers -/

namespace Numeral

/-- The whole numbers that are rounded to a finite number. -/
theorem isSome_nearest?_whole_iff {n : Nat} (hn : 0 < n) :
    (Magnitude.nearest? n 1).isSome ↔ n < 2 ^ 1024 - 2 ^ 970 := by
  rw [Magnitude.isSome_nearest?_iff hn one_pos, Nat.cast_one, div_one, lt_sub_iff_add_lt,
    Nat.lt_sub_iff_add_lt]
  exact_mod_cast Iff.rfl

/-- **A whole number becomes the floating-point number that is nearest to it.** One
with too many digits is not rounded at all, which makes no difference. -/
theorem toBinary64_whole {n : Nat} (hn : 0 < n) :
    toBinary64 ⟨false, n, 0, true⟩ = .ofRatio false n 1 := by
  have hrounded : toBinary64 ⟨false, n, 0, true⟩
      = if 310 < (Nat.toDigits 10 n).length then .infinite false else .ofRatio false n 1 := by
    have hsize : 310 < ((Nat.toDigits 10 n).length : Int) + 0
        ↔ 310 < (Nat.toDigits 10 n).length := by omega
    have hsmall : ¬((Nat.toDigits 10 n).length : Int) + 0 < -330 := by omega
    unfold toBinary64
    dsimp only
    rw [if_neg hn.ne', if_congr hsize rfl rfl, if_neg hsmall, Int.toNat_zero, neg_zero,
      Int.toNat_zero, Nat.pow_eq, pow_zero, Nat.mul_one]
  rw [hrounded]
  by_cases hlength : 310 < (Nat.toDigits 10 n).length
  · have hpow : 10 ^ 310 ≤ n := by
      refine le_of_not_gt fun hlt => ?_
      have := (Nat.length_toDigits_le_iff (by norm_num) (by norm_num)).2 hlt
      omega
    have hnat : 2 ^ 1024 ≤ 10 ^ 310 := by decide +kernel
    have hlarge : 2 ^ 1024 - 2 ^ 970 ≤ n := (Nat.sub_le _ _).trans (hnat.trans hpow)
    have hnone : Magnitude.nearest? n 1 = none := by
      rw [← Option.not_isSome_iff_eq_none, isSome_nearest?_whole_iff hn]
      exact not_lt.2 hlarge
    rw [if_pos hlength, Binary64.ofRatio, hnone]
  · rw [if_neg hlength]

/-- **A whole number beyond 64 bits** becomes infinite from `2¹⁰²⁴ - 2⁹⁷⁰` on, and is
beyond 64 bits as a floating-point number otherwise. -/
theorem toBinary64_cases {n : Nat} (hn : 2 ^ 64 ≤ n) :
    n < 2 ^ 1024 - 2 ^ 970
        ∧ (∃ x, toBinary64 ⟨false, n, 0, true⟩ = .finite false x ∧ 2 ^ 64 ≤ x.value)
      ∨ 2 ^ 1024 - 2 ^ 970 ≤ n ∧ toBinary64 ⟨false, n, 0, true⟩ = .infinite false := by
  have hpos : 0 < n := lt_of_lt_of_le (by norm_num) hn
  have hlarge : (2 : ℚ) ^ (64 : Int) ≤ (n : ℚ) / (1 : Nat) := by
    rw [Nat.cast_one, div_one]
    exact_mod_cast hn
  have hlimit := isSome_nearest?_whole_iff hpos
  rw [toBinary64_whole hpos, Binary64.ofRatio]
  cases hx : Magnitude.nearest? n 1 with
  | some x =>
    rw [hx] at hlimit
    have hvalue := Magnitude.two_zpow_le_value_nearest? hpos one_pos
      (hlarge.trans' (by norm_num)) hx hlarge
    exact .inl ⟨hlimit.1 rfl, x, rfl, hvalue⟩
  | none =>
    rw [hx] at hlimit
    exact .inr ⟨not_lt.1 fun hlt => absurd (hlimit.2 hlt) nofun, rfl⟩

end Numeral

end FilterSql
