import FilterSql.Proofs.Decimal.Shortest
import FilterSql.Proofs.Json.Scalar
import Mathlib

/-!
# Floating-point numbers in JSON

A number beyond 64 bits is written with an exponent, and reading it back rounds
three times: the digits, the power of ten and their product. So what is read need
not be the number that was written, and at the upper end of the range it might be
too large to be one at all. It is not: each of the two factors is rounded up by a
part in `2⁵³` at most, which keeps the product below the limit for all magnitudes
but the largest two, and these two are read well (`exists_scaled?_shortest`).
-/

namespace FilterSql

namespace Json

/-! ## Digits with an exponent -/

theorem scientific_eq {d : Decimal} {c : Char} {more : List Char} (hd : d.digits = c :: more)
    (hpoint : 0 < d.point) :
    Layout.scientific d
      = [c] ++ (Numeral.fractionText more
          ++ 'e' :: '+' :: (Nat.toDigits 10 (d.point - 1).natAbs ++ [])) := by
  unfold Layout.scientific
  dsimp only
  rw [hd, if_neg (by omega), List.append_nil]
  cases more <;> rfl

theorem number?_fraction {c : Char} {more : List Char}
    (hfits : Numeral.digitsValue (c :: more) < 2 ^ 64) (e : Int) :
    number? false [c] (Numeral.fraction? more) (some e)
      = (scaled? (wholeMagnitude (Numeral.digitsValue (c :: more))) (e - more.length)).map
          fun m => float (.finite false m) := by
  have hmore : (Numeral.fraction? more).getD [] = more := by cases more <;> rfl
  have hrest := absorb_digits [c] more hfits
  have hfirst : absorb 0 [c] = (Numeral.digitsValue [c], []) :=
    absorb_digits [] [c] (lt_of_le_of_lt (Numeral.digitsValue_le_append [c] more) hfits)
  unfold number?
  rw [hfirst]
  dsimp only
  rw [hmore, hrest]
  simp [sub_eq_neg_add]

/-- **Digits with an exponent** are the digits, scaled. -/
theorem readNumber?_scientific {d : Decimal} (hd : Filter.IsInteger d.digits)
    (hfits : Numeral.digitsValue d.digits < 2 ^ 64) (hpoint : 0 < d.point) :
    readNumber? (Layout.scientific d)
      = (scaled? (wholeMagnitude (Numeral.digitsValue d.digits))
          (d.point - d.digits.length)).map fun m => (float (.finite false m), []) := by
  obtain ⟨c, more, hcons⟩ := List.exists_cons_of_ne_nil hd.ne_nil
  rw [hcons] at hd hfits
  have hc : Filter.IsInteger [c] :=
    ⟨List.cons_ne_nil c [], fun b hb => hd.digits b (List.mem_singleton.1 hb ▸ List.mem_cons_self)⟩
  have hmore : ∀ b ∈ more, b.isDigit = true := fun b hb => hd.digits b (List.mem_cons_of_mem c hb)
  obtain ⟨w, hw⟩ : ∃ w, w = Nat.toDigits 10 (d.point - 1).natAbs := ⟨_, rfl⟩
  have hvalue : (Numeral.digitsValue w : Int) = d.point - 1 := by
    rw [hw, Numeral.digitsValue_toDigits]
    omega
  have hmark : Text.NoneAhead Char.isDigit ('e' :: '+' :: (w ++ [])) :=
    (Text.noneAhead_cons ..).2 (by decide)
  have hfraction := Numeral.takeFraction_fractionText hmore hmark (by simp)
  have hinteger : Filter.IsInteger w := hw ▸ Numeral.isInteger_toDigits _
  have hexponent := Numeral.takeExponent_plus hinteger (Text.noneAhead_nil _)
  have hpart : Text.NoneAhead Char.isDigit
      (Numeral.fractionText more ++ 'e' :: '+' :: (w ++ [])) := by
    cases more with
    | nil => exact hmark
    | cons b more => exact (Text.noneAhead_cons ..).2 (by decide)
  have hread := readNumber?_parts false hc (.inr rfl) hpart
  rw [hfraction] at hread
  dsimp only at hread
  rw [hexponent, number?_fraction hfits, hvalue] at hread
  have hsome : (Numeral.fraction? more == some []) = false := by cases more <;> rfl
  have hexp : d.point - 1 - more.length = d.point - (c :: more).length := by
    rw [List.length_cons]
    omega
  rw [hsome, hexp] at hread
  rw [scientific_eq hcons hpoint, ← hw, hcons]
  refine hread.trans ?_
  rw [if_neg Bool.false_ne_true, Option.map_map]
  rfl

end Json

/-! ## How large the written decimal is -/

namespace Decimal

theorem value_lt_ten_zpow {d : Decimal} (hd : ∀ c ∈ d.digits, c.isDigit = true) :
    d.value < 10 ^ d.point := by
  have hlt : (Numeral.digitsValue d.digits : ℚ) < 10 ^ d.digits.length := by
    exact_mod_cast Numeral.digitsValue_lt_pow hd
  calc d.value < 10 ^ d.digits.length * 10 ^ (d.point - d.digits.length) := by
        unfold value
        gcongr
    _ = 10 ^ d.point := by
        rw [← zpow_natCast, ← zpow_add₀ (by norm_num), add_sub_cancel]

namespace StandsFor

variable {d : Decimal} {x : Magnitude} (h : d.StandsFor x) (hx : 2 ^ 64 ≤ x.value)
include h hx

theorem le_value : 2 ^ 63 ≤ d.value := by
  have hpos := Magnitude.mantissa_pos_of_one_le (hx.trans' (by norm_num))
  have hquarters : ((2 * x.mantissa : Nat) : ℚ) ≤ x.lowQuarters := by
    exact_mod_cast Magnitude.two_mantissa_le_lowQuarters hpos
  have hunit : (0 : ℚ) < 2 ^ (x.exponent - 2) := by positivity
  have hle := mul_le_mul_of_nonneg_right hquarters hunit.le
  have hvalue := x.value_eq_quarters
  have := h.low
  push_cast at hle hvalue
  linarith

theorem exponent_nonneg : 0 ≤ d.point - d.digits.length := by
  refine le_of_not_gt fun hneg => ?_
  have hpow : (10 : ℚ) ^ (d.point - d.digits.length) ≤ 1 :=
    zpow_le_one_of_nonpos₀ (by norm_num) hneg.le
  have hshort : (Numeral.digitsValue d.digits : ℚ) ≤ 10 ^ 17 := by exact_mod_cast h.short
  have hvalue : d.value ≤ 10 ^ 17 :=
    (mul_le_of_le_one_right (Nat.cast_nonneg _) hpow).trans hshort
  have := h.le_value hx
  norm_num at hvalue this
  linarith

theorem lt_point : 18 < d.point := by
  have hlt := (h.le_value hx).trans_lt (value_lt_ten_zpow h.digits.digits)
  have hpow : (10 : ℚ) ^ (18 : Int) < 10 ^ d.point := hlt.trans' (by norm_num)
  exact (zpow_lt_zpow_iff_right₀ (by norm_num)).1 hpow

end StandsFor

end Decimal

/-! ## Room below the limit -/

namespace Magnitude

theorem exponent_le (x : Magnitude) : x.exponent ≤ 971 := by
  have hlt : x.val < 2047 * 2 ^ 52 := x.isLt
  rw [exponent, Nat.pow_eq]
  split <;> omega

/-- **All magnitudes but the largest two leave room**: what rounds to them stays five
halves of a unit below the largest power of two. -/
theorem high_le {x : Magnitude} (hx : x.val + 2 < count) :
    x.highQuarters * 2 ^ (x.exponent - 2) ≤ (2 ^ 54 - 5) * (2 : ℚ) ^ 970 := by
  have hcount : x.val + 2 < 2047 * 2 ^ 52 := hx
  obtain ⟨u, hu⟩ : ∃ u : ℚ, u = 2 ^ (x.exponent - 2) := ⟨_, rfl⟩
  have hpos : 0 < u := by
    rw [hu]
    positivity
  have hscale : 4 * u = 2 ^ x.exponent := by
    rw [hu, zpow_sub₀ two_ne_zero]
    norm_num
    ring
  have hlast : (2 : ℚ) ^ (970 : Int) = 2 ^ 970 := zpow_ofNat 2 970
  rw [← hu]
  rcases x.exponent_le.lt_or_eq with hlt | heq
  · have hunit : 4 * u ≤ 2 ^ 970 := by
      rw [hscale, ← hlast]
      exact zpow_le_zpow_right₀ one_le_two (by omega)
    have hquarters : x.highQuarters ≤ 2 ^ 55 := by
      have := x.mantissa_lt
      unfold highQuarters
      omega
    have hhigh : (x.highQuarters : ℚ) ≤ 2 ^ 55 := by exact_mod_cast hquarters
    have hle := mul_le_mul_of_nonneg_right hhigh hpos.le
    generalize (2 : ℚ) ^ 970 = p at hunit ⊢
    linarith only [hle, hunit, hpos]
  · have hunit : 4 * u = 2 * 2 ^ 970 := by
      rw [hscale, ← hlast, heq, mul_comm, ← zpow_add_one₀ two_ne_zero]
      norm_num
    have hquarters : x.highQuarters + 10 ≤ 2 ^ 55 := by
      rw [exponent, Nat.pow_eq] at heq
      unfold highQuarters mantissa
      rw [Nat.pow_eq]
      split at heq
      · omega
      · rename_i hnormal
        rw [if_neg hnormal]
        omega
    have hhigh : (x.highQuarters : ℚ) + 10 ≤ 2 ^ 55 := by exact_mod_cast hquarters
    have hle := mul_le_mul_of_nonneg_right hhigh hpos.le
    generalize (2 : ℚ) ^ 970 = p at hunit ⊢
    linarith only [hle, hunit]

end Magnitude

namespace Json

/-! ## Scaling -/

/-- **A whole number is rounded up by a part in `2⁵³` at most.** -/
theorem value_wholeMagnitude {n : Nat} (hn : 0 < n) (hlimit : (n : ℚ) < 2 ^ 1024 - 2 ^ 970) :
    0 < (wholeMagnitude n).value
      ∧ (wholeMagnitude n).value ≤ n * (1 + 1 / 2 ^ 53) := by
  have hratio : (n : ℚ) / (1 : Nat) = n := by rw [Nat.cast_one, div_one]
  have hone : (1 : ℚ) ≤ (n : ℚ) / (1 : Nat) := by
    rw [hratio]
    exact_mod_cast hn
  have hsome : (Magnitude.nearest? n 1).isSome := by
    rw [Magnitude.isSome_nearest?_iff hn one_pos, hratio]
    exact hlimit
  obtain ⟨x, hx⟩ := Option.isSome_iff_exists.1 hsome
  have hle := Magnitude.value_nearest?_le hn one_pos hone hx
  have hlow := Magnitude.two_zpow_le_value_nearest? hn one_pos hone hx (k := 0)
    (by simpa using hone)
  rw [hratio] at hle
  rw [wholeMagnitude, hx, Option.getD_some]
  exact ⟨hlow.trans_lt' (by norm_num), hle⟩

/-- **A product is there exactly if it is not too large.** -/
theorem isSome_times?_iff {x : Magnitude} {k : Nat} (hx : 0 < x.value)
    (hk : 0 < (power k).value) :
    (times? x k).isSome ↔ x.value * (power k).value < 2 ^ 1024 - 2 ^ 970 := by
  have hnum : ∀ y : Magnitude, 0 < y.value → 0 < y.num := by
    intro y hy
    refine Nat.pos_of_ne_zero fun hzero => ?_
    rw [← Magnitude.num_div_den, hzero, Nat.cast_zero, zero_div] at hy
    exact lt_irrefl _ hy
  rw [times?, Magnitude.isSome_nearest?_iff (Nat.mul_pos (hnum x hx) (hnum _ hk))
    (Nat.mul_pos x.den_pos (power k).den_pos), Nat.cast_mul, Nat.cast_mul, mul_div_mul_comm,
    Magnitude.num_div_den, Magnitude.num_div_den]

/-- The decimal of one of the largest two magnitudes is read. -/
theorem isSome_scaled?_largest {x : Magnitude} (hx : Magnitude.count ≤ x.val + 2) :
    (scaled? (wholeMagnitude (Numeral.digitsValue (x.shortest .even).digits))
      ((x.shortest .even).point - (x.shortest .even).digits.length)).isSome := by
  have hval : x = ⟨Magnitude.count - 1, by decide⟩ ∨ x = ⟨Magnitude.count - 2, by decide⟩ := by
    have := x.isLt
    simp only [Fin.ext_iff]
    omega
  rcases hval with rfl | rfl <;> decide +kernel

/-- Powers of ten up to the largest that is tried are below the limit. -/
theorem ten_pow_lt_limit {k : Nat} (hk : k ≤ 308) :
    ((10 ^ k : Nat) : ℚ) < 2 ^ 1024 - 2 ^ 970 := by
  have hnat : 10 ^ 308 + 2 ^ 970 < 2 ^ 1024 := by decide +kernel
  have hlast : (10 : ℚ) ^ 308 < 2 ^ 1024 - 2 ^ 970 := by
    rw [lt_sub_iff_add_lt]
    exact_mod_cast hnat
  rw [Nat.cast_pow, Nat.cast_ofNat]
  exact (pow_le_pow_right₀ (by norm_num) hk).trans_lt hlast

/-- **A number of few digits that leaves room is read**: the room is more than what the
two factors gain by being rounded. -/
theorem isSome_times?_of_le {n k : Nat} (hn : 0 < n) (hshort : n ≤ 10 ^ 17) (hk : k ≤ 308)
    (hroom : (n : ℚ) * 10 ^ k ≤ (2 ^ 54 - 5) * 2 ^ 970) :
    (times? (wholeMagnitude n) k).isSome := by
  have hlimit : (n : ℚ) < 2 ^ 1024 - 2 ^ 970 :=
    lt_of_le_of_lt (by exact_mod_cast hshort) (ten_pow_lt_limit (k := 17) (by norm_num))
  obtain ⟨hnpos, hnle⟩ := value_wholeMagnitude hn hlimit
  obtain ⟨hkpos, hkle⟩ : 0 < (power k).value
      ∧ (power k).value ≤ (10 ^ k : Nat) * (1 + 1 / 2 ^ 53) :=
    value_wholeMagnitude (Nat.pow_pos (by norm_num)) (ten_pow_lt_limit hk)
  rw [isSome_times?_iff hnpos hkpos]
  have hp : (0 : ℚ) < 2 ^ 970 := by positivity
  rw [Magnitude.limit_eq]
  rw [Nat.cast_pow, Nat.cast_ofNat] at hkle
  generalize (2 : ℚ) ^ 970 = p at hroom hp ⊢
  calc (wholeMagnitude n).value * (power k).value
      ≤ n * (1 + 1 / 2 ^ 53) * (10 ^ k * (1 + 1 / 2 ^ 53)) :=
        mul_le_mul hnle hkle hkpos.le (hnpos.le.trans hnle)
    _ = n * 10 ^ k * (1 + 1 / 2 ^ 53) ^ 2 := by ring
    _ ≤ (2 ^ 54 - 5) * p * (1 + 1 / 2 ^ 53) ^ 2 := by gcongr
    _ < (2 ^ 54 - 1) * p := by
        rw [mul_right_comm]
        gcongr
        norm_num

/-- **The decimal that is written for a number beyond 64 bits is read.** -/
theorem exists_scaled?_shortest {x : Magnitude} (hx : 2 ^ 64 ≤ x.value) :
    ∃ m, scaled? (wholeMagnitude (Numeral.digitsValue (x.shortest .even).digits))
      ((x.shortest .even).point - (x.shortest .even).digits.length) = some m := by
  rw [← Option.isSome_iff_exists]
  rcases lt_or_ge (x.val + 2) Magnitude.count with hroom | hlargest
  · have hd := x.standsFor_shortest (hx.trans' (by norm_num)) .even
    have hlow := hd.le_value hx
    have hhigh := hd.high.trans (Magnitude.high_le hroom)
    obtain ⟨k, hk⟩ := Int.eq_ofNat_of_zero_le (hd.exponent_nonneg hx)
    have hshort := hd.short
    rw [Decimal.value, hk, zpow_natCast] at hlow hhigh
    rw [hk]
    generalize Numeral.digitsValue (x.shortest .even).digits = n at hlow hhigh hshort ⊢
    have hn : 0 < n := by
      refine Nat.pos_of_ne_zero fun hzero => ?_
      rw [hzero, Nat.cast_zero, zero_mul] at hlow
      norm_num at hlow
    have hexp : k ≤ 308 := by
      have hnat : 2 ^ 54 * 2 ^ 970 < 10 ^ 309 := by decide +kernel
      have hlimit : (2 : ℚ) ^ 54 * 2 ^ 970 < 10 ^ 309 := by exact_mod_cast hnat
      have hp : (0 : ℚ) < 2 ^ 970 := by positivity
      have hle : (10 : ℚ) ^ k ≤ n * 10 ^ k :=
        le_mul_of_one_le_left (by positivity) (by exact_mod_cast hn)
      have hlt : (10 : ℚ) ^ k < 10 ^ 309 := by
        refine (hle.trans hhigh).trans_lt (hlimit.trans' ?_)
        generalize (2 : ℚ) ^ 970 = p at hp ⊢
        linarith only [hp]
      exact Nat.lt_succ_iff.1 ((pow_lt_pow_iff_right₀ (by norm_num)).1 hlt)
    have hscaled : scaled? (wholeMagnitude n) k = times? (wholeMagnitude n) k := by
      rw [scaled?, if_neg (by omega), if_pos (by omega), Int.natAbs_natCast]
    rw [hscaled]
    exact isSome_times?_of_le hn hshort hexp hhigh
  · exact isSome_scaled?_largest hlargest

/-- A number beyond 64 bits is written with an exponent. -/
theorem floatText_eq_scientific {x : Magnitude} (hx : 2 ^ 64 ≤ x.value) :
    floatText (.finite false x) = String.ofList (Layout.scientific (x.shortest .even)) := by
  have hone : 1 ≤ x.value := hx.trans' (by norm_num)
  have hpoint := (x.standsFor_shortest hone .even).lt_point hx
  have hval : x.val ≠ 0 := by
    intro hzero
    have hpos := Magnitude.mantissa_pos_of_one_le hone
    simp [Magnitude.mantissa, hzero] at hpos
  have hpositional : numbers.positional ((x.shortest .even).point - 1) = false := by
    unfold numbers
    simp
    omega
  have hmagnitude : numbers.magnitude x = Layout.scientific (x.shortest .even) := by
    unfold Layout.magnitude
    rw [if_neg hval]
    exact if_neg (by rw [← Bool.not_eq_true] at hpositional; exact hpositional)
  rw [← hmagnitude]
  rfl

/-- **A number beyond 64 bits is read back as a floating-point number.** -/
theorem exists_readScalar?_floatText {x : Magnitude} (hx : 2 ^ 64 ≤ x.value) :
    ∃ m, readScalar? (floatText (.finite false x)) = some (float (.finite false m)) := by
  have hd := x.standsFor_shortest (hx.trans' (by norm_num)) .even
  have hpoint : 0 < (x.shortest .even).point :=
    lt_trans (by norm_num) (hd.lt_point hx)
  obtain ⟨m, hm⟩ := exists_scaled?_shortest hx
  have hread := readNumber?_scientific hd.digits (hd.short.trans_lt (by norm_num)) hpoint
  rw [hm, Option.map_some] at hread
  obtain ⟨c, more, hcons⟩ := List.exists_cons_of_ne_nil hd.digits.ne_nil
  have hc : c.isDigit = true := hd.digits.digits c (by rw [hcons]; exact List.mem_cons_self)
  rw [floatText_eq_scientific hx]
  rw [scientific_eq hcons hpoint, List.singleton_append] at hread ⊢
  exact ⟨m, readScalar?_of_readNumber? (.inl hc) hread⟩

end Json

end FilterSql
