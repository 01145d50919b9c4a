import RlInvestments.BinaryFormats

/-!
# How far rounding can go

Rounding to a format is monotone, leaves the integers of a significand's length as they
are, and moves a number in the normal range by at most half a unit in the last place.
Relative errors of that kind are followed through quotients and further roundings.
-/

namespace RlInvestments.RoundingBounds

open RlInvestments.Binary64Rounding RlInvestments.BinaryFormats

set_option autoImplicit false

theorem round_half_even_mono {q r : ℚ} (ordered : q ≤ r) : roundHalfEven q ≤ roundHalfEven r := by
  by_cases below : q ≤ roundHalfEven r
  · exact round_half_even_le below
  · -- Both numbers lie between an integer and the half above it.
    have above : (roundHalfEven r : ℚ) < q := not_le.mp below
    have close := abs_le.mp (round_half_even_close r)
    rcases lt_or_eq_of_le ordered with less | same
    · have near : |q - roundHalfEven r| < 1 / 2 := by
        rw [abs_lt]
        constructor <;> linarith
      exact (round_half_even_near near).le
    · rw [same]

variable {format : BinaryFormat} {q r : ℚ} {k : ℤ}

theorem nearest_mono (format : BinaryFormat) (nonneg : 0 ≤ q) (ordered : q ≤ r) :
    format.nearest q ≤ format.nearest r := by
  rcases nonneg.eq_or_lt with zero | positive
  · rw [← zero, nearest_zero]
    exact nearest_nonneg format (nonneg.trans ordered)
  have larger : 0 < r := lt_of_lt_of_le positive ordered
  have logs : Int.log 2 |q| ≤ Int.log 2 |r| := by
    rw [abs_of_pos positive, abs_of_pos larger]
    exact Int.log_mono_right positive ordered
  by_cases same : format.quantumExponent q = format.quantumExponent r
  · rw [BinaryFormat.nearest, BinaryFormat.nearest, same]
    apply mul_le_mul_of_nonneg_right _ (two_pow_pos _).le
    have quotients : q / 2 ^ format.quantumExponent r ≤ r / 2 ^ format.quantumExponent r :=
      div_le_div_of_nonneg_right ordered (two_pow_pos _).le
    exact_mod_cast round_half_even_mono quotients
  · -- A power of two stands between the two results.
    have finer : format.minExponent < Int.log 2 |r| - format.fractionBits := by
      unfold BinaryFormat.quantumExponent at same
      omega
    have less : Int.log 2 |q| < Int.log 2 |r| := by
      unfold BinaryFormat.quantumExponent at same
      omega
    have least : format.minExponent ≤ Int.log 2 |r| := by omega
    have beneath : q ≤ 2 ^ Int.log 2 |r| := by
      rw [abs_of_pos positive] at less
      have under := (Int.lt_zpow_iff_log_lt (b := 2) (by norm_num) positive).mpr less
      exact_mod_cast under.le
    have reached : (2 : ℚ) ^ Int.log 2 |r| ≤ r := by
      have lower := Int.zpow_log_le_self (b := 2) (by norm_num) larger
      rw [abs_of_pos larger]
      exact_mod_cast lower
    calc format.nearest q
        ≤ 2 ^ Int.log 2 |r| := nearest_le_two_pow format nonneg beneath least
      _ ≤ format.nearest r := two_pow_le_nearest format reached least

theorem nearest_int (format : BinaryFormat) (whole : format.minExponent ≤ 0) {n : ℤ}
    (nonneg : 0 ≤ n) (small : n < 2 ^ (format.fractionBits + 1)) : format.nearest n = n := by
  rcases nonneg.eq_or_lt with zero | positive
  · rw [← zero, Int.cast_zero, nearest_zero]
  have positive' : (0 : ℚ) < n := by exact_mod_cast positive
  have log : Int.log 2 |(n : ℚ)| < format.fractionBits + 1 := by
    rw [abs_of_pos positive']
    apply (Int.lt_zpow_iff_log_lt (b := 2) (by norm_num) positive').mp
    exact_mod_cast small
  have quantum : format.quantumExponent n ≤ 0 := by
    unfold BinaryFormat.quantumExponent
    omega
  have unit : (1 : ℚ) / 2 ^ format.quantumExponent n =
      ((2 ^ (0 - format.quantumExponent n).toNat : ℤ) : ℚ) := by
    rw [← two_pow_div quantum, zpow_zero]
  have quotient : (n : ℚ) / 2 ^ format.quantumExponent n =
      ((n * 2 ^ (0 - format.quantumExponent n).toNat : ℤ) : ℚ) := by
    rw [Int.cast_mul, ← unit, mul_one_div]
  rw [BinaryFormat.nearest, quotient, round_half_even_int, ← quotient]
  exact div_mul_cancel₀ _ (two_pow_pos _).ne'

/-- The computed number is off by at most the given part of the exact one. -/
structure Near (error computed exact : ℚ) : Prop where
  lower : exact * (1 - error) ≤ computed
  upper : computed ≤ exact * (1 + error)

theorem near_nearest (format : BinaryFormat) (below : 2 ^ k ≤ q)
    (normal : format.minExponent ≤ k - format.fractionBits) :
    Near (1 / 2 ^ (format.fractionBits + 1)) (format.nearest q) q := by
  have positive : 0 < q := lt_of_lt_of_le (two_pow_pos k) below
  have binade : k ≤ Int.log 2 |q| := by
    rw [abs_of_pos positive]
    exact (Int.zpow_le_iff_le_log (by norm_num) positive).mp (by exact_mod_cast below)
  have start : (2 : ℚ) ^ Int.log 2 |q| ≤ q := by
    have lower := Int.zpow_log_le_self (b := 2) (by norm_num) positive
    rw [abs_of_pos positive]
    exact_mod_cast lower
  have exponent : format.quantumExponent q = Int.log 2 |q| - format.fractionBits := by
    unfold BinaryFormat.quantumExponent
    omega
  have unit : (2 : ℚ) ^ format.quantumExponent q * 2 ^ format.fractionBits ≤ q := by
    rw [exponent, zpow_sub₀ two_ne_zero, zpow_natCast, div_mul_cancel₀ _ (by positivity)]
    exact start
  have quantum : (0 : ℚ) < 2 ^ format.quantumExponent q := two_pow_pos _
  have close := abs_le.mp (round_half_even_close (q / 2 ^ format.quantumExponent q))
  have value : q / 2 ^ format.quantumExponent q * 2 ^ format.quantumExponent q = q :=
    div_mul_cancel₀ _ quantum.ne'
  have half : 2 ^ format.quantumExponent q * (1 / 2) ≤ q * (1 / 2 ^ (format.fractionBits + 1)) := by
    rw [mul_one_div, mul_one_div, pow_succ, ← div_div]
    apply div_le_div_of_nonneg_right _ (by norm_num)
    rw [le_div_iff₀ (by positivity)]
    exact unit
  have above := mul_le_mul_of_nonneg_right close.1 quantum.le
  have under := mul_le_mul_of_nonneg_right close.2 quantum.le
  rw [sub_mul, value] at above under
  constructor
  · rw [BinaryFormat.nearest]
    linarith
  · rw [BinaryFormat.nearest]
    linarith

variable {error other a b x y : ℚ}

theorem near_zero (error : ℚ) : Near error 0 0 := by
  constructor <;> rw [zero_mul]

theorem near_weaken (near : Near error a x) (nonneg : 0 ≤ x) (weaker : error ≤ other) :
    Near other a x := by
  constructor
  · have lower := near.lower
    nlinarith
  · have upper := near.upper
    nlinarith

theorem near_scale (near : Near error a x) {scale : ℚ} (nonneg : 0 ≤ scale) :
    Near error (a * scale) (x * scale) := by
  constructor
  · have lower := mul_le_mul_of_nonneg_right near.lower nonneg
    linarith
  · have upper := mul_le_mul_of_nonneg_right near.upper nonneg
    linarith

theorem near_trans (second : Near other b a) (first : Near error a x) (nonneg : 0 ≤ x)
    (errorNonneg : 0 ≤ error) (otherNonneg : 0 ≤ other) (otherLt : other < 1) :
    Near (error + other + error * other) b x := by
  have product : 0 ≤ error * other := mul_nonneg errorNonneg otherNonneg
  constructor
  · have lower := mul_le_mul_of_nonneg_right first.lower (by linarith : 0 ≤ 1 - other)
    have least := second.lower
    nlinarith
  · have upper := mul_le_mul_of_nonneg_right first.upper (by linarith : 0 ≤ 1 + other)
    have largest := second.upper
    nlinarith

theorem near_div (dividend : Near error a x) (divisor : Near other b y) (nonneg : 0 ≤ x)
    (positive : 0 < y) (errorNonneg : 0 ≤ error) (errorLt : error < 1) (otherNonneg : 0 ≤ other)
    (otherLt : other < 1) :
    Near ((error + other) / (1 - other)) (a / b) (x / y) := by
  have rest : 0 < 1 - other := by linarith
  have atLeast : 0 < y * (1 - other) := mul_pos positive rest
  have divisorPos : 0 < b := lt_of_lt_of_le atLeast divisor.lower
  constructor
  · have part : 1 - (error + other) / (1 - other) ≤ (1 - error) / (1 + other) := by
      rw [sub_le_iff_le_add, div_add_div _ _ (by linarith) rest.ne', le_div_iff₀ (by positivity)]
      nlinarith
    have numerator : 0 ≤ x * (1 - error) := mul_nonneg nonneg (by linarith)
    calc x / y * (1 - (error + other) / (1 - other))
        ≤ x / y * ((1 - error) / (1 + other)) :=
          mul_le_mul_of_nonneg_left part (div_nonneg nonneg positive.le)
      _ = x * (1 - error) / (y * (1 + other)) := div_mul_div_comm _ _ _ _
      _ ≤ a / b := div_le_div₀ (numerator.trans dividend.lower) dividend.lower divisorPos
          divisor.upper
  · have part : 1 + (error + other) / (1 - other) = (1 + error) / (1 - other) := by
      field_simp
      ring
    have largest : 0 ≤ x * (1 + error) := mul_nonneg nonneg (by linarith)
    rw [part, div_mul_div_comm]
    exact div_le_div₀ largest dividend.upper atLeast divisor.lower

end RlInvestments.RoundingBounds
