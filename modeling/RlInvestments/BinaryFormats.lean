import Mathlib.Data.Int.Log
import Mathlib.Tactic
import RlInvestments.Binary64Rounding

/-!
# Binary floating-point formats

A format has a number of fraction bits, a smallest quantum and a bound above which
results overflow. A result is the exact rational rounded once to a multiple of the
quantum of its binade. Powers of two are multiples of every quantum below them, so
rounding does not cross a power of two.
-/

namespace RlInvestments.BinaryFormats

open RlInvestments.Binary64Rounding

set_option autoImplicit false

/-- The two neighbours of `q`, and how far they are from it when they are chosen. -/
theorem round_half_even_cases (q : ℚ) :
    (roundHalfEven q = ⌊q⌋ ∧ q - ⌊q⌋ ≤ 1 / 2) ∨
      (roundHalfEven q = ⌊q⌋ + 1 ∧ 1 / 2 ≤ q - ⌊q⌋) := by
  unfold roundHalfEven
  dsimp only
  split
  · rename_i below
    exact .inl ⟨rfl, below.le⟩
  · rename_i notBelow
    split
    · rename_i above
      exact .inr ⟨rfl, above.le⟩
    · rename_i notAbove
      split
      · exact .inl ⟨rfl, not_lt.mp notAbove⟩
      · exact .inr ⟨rfl, not_lt.mp notBelow⟩

theorem le_round_half_even {n : ℤ} {q : ℚ} (below : (n : ℚ) ≤ q) : n ≤ roundHalfEven q := by
  have floor : n ≤ ⌊q⌋ := Int.le_floor.mpr below
  rcases round_half_even_cases q with ⟨rounded, -⟩ | ⟨rounded, -⟩
  · rw [rounded]
    exact floor
  · rw [rounded]
    omega

theorem round_half_even_le {n : ℤ} {q : ℚ} (above : q ≤ (n : ℚ)) : roundHalfEven q ≤ n := by
  rcases round_half_even_cases q with ⟨rounded, -⟩ | ⟨rounded, half⟩
  · rw [rounded]
    exact Int.floor_le_iff.mpr (lt_of_le_of_lt above (lt_add_one _))
  · rw [rounded, Int.add_one_le_iff]
    have between : (⌊q⌋ : ℚ) < n := by linarith
    exact_mod_cast between

theorem round_half_even_int (n : ℤ) : roundHalfEven (n : ℚ) = n :=
  le_antisymm (round_half_even_le le_rfl) (le_round_half_even le_rfl)

theorem round_half_even_close (q : ℚ) : |q - roundHalfEven q| ≤ 1 / 2 := by
  have floor := Int.floor_le q
  have ceiling := Int.lt_floor_add_one q
  rw [abs_le]
  rcases round_half_even_cases q with ⟨rounded, half⟩ | ⟨rounded, half⟩
  · rw [rounded]
    constructor <;> linarith
  · rw [rounded, Int.cast_add, Int.cast_one]
    constructor <;> linarith

theorem round_half_even_near {q : ℚ} {n : ℤ} (near : |q - n| < 1 / 2) : roundHalfEven q = n := by
  have close := round_half_even_close q
  rw [abs_le] at close
  rw [abs_lt] at near
  have below : (roundHalfEven q : ℚ) < n + 1 := by linarith
  have above : (n : ℚ) < roundHalfEven q + 1 := by linarith
  have belowInt : roundHalfEven q < n + 1 := by exact_mod_cast below
  have aboveInt : n < roundHalfEven q + 1 := by exact_mod_cast above
  omega

theorem round_half_even_tie {q : ℚ} {n : ℤ} (tie : |q - n| = 1 / 2) (even : n % 2 = 0) :
    roundHalfEven q = n := by
  rcases (abs_eq (by norm_num)).mp tie with above | below
  · have floor : ⌊q⌋ = n := Int.floor_eq_iff.mpr ⟨by linarith, by linarith⟩
    unfold roundHalfEven
    dsimp only
    rw [floor, above, if_neg (lt_irrefl _), if_neg (lt_irrefl _), if_pos even]
  · have floor : ⌊q⌋ = n - 1 := by
      apply Int.floor_eq_iff.mpr
      push_cast
      constructor <;> linarith
    have half : q - (n - 1 : ℤ) = 1 / 2 := by
      push_cast
      linarith
    have odd : ¬ (n - 1) % 2 = 0 := by omega
    unfold roundHalfEven
    dsimp only
    rw [floor, half, if_neg (lt_irrefl _), if_neg (lt_irrefl _), if_neg odd, sub_add_cancel]

theorem quotient_distance (n m : ℤ) {d : ℤ} (positive : 0 < d) :
    |(n : ℚ) / d - m| = (|n - d * m| : ℤ) / d := by
  have castPositive : (0 : ℚ) < d := by exact_mod_cast positive
  rw [div_sub' castPositive.ne', abs_div, abs_of_pos castPositive]
  push_cast
  rfl

theorem round_quotient_near {n d m : ℤ} (positive : 0 < d) (above : -d < 2 * (n - d * m))
    (below : 2 * (n - d * m) < d) : roundHalfEven (n / d) = m := by
  have castPositive : (0 : ℚ) < d := by exact_mod_cast positive
  have near : |n - d * m| * 2 < d := by
    rw [← abs_two, ← abs_mul, mul_comm, abs_lt]
    exact ⟨above, below⟩
  apply round_half_even_near
  rw [quotient_distance n m positive, div_lt_div_iff₀ castPositive (by norm_num), one_mul]
  exact_mod_cast near

theorem round_quotient_tie {n d m : ℤ} (positive : 0 < d)
    (tie : 2 * (n - d * m) = d ∨ 2 * (n - d * m) = -d) (even : m % 2 = 0) :
    roundHalfEven (n / d) = m := by
  have castPositive : (0 : ℚ) < d := by exact_mod_cast positive
  have half : |n - d * m| * 2 = d := by
    rw [← abs_two, ← abs_mul, mul_comm]
    exact (abs_eq positive.le).mpr tie
  apply round_half_even_tie _ even
  rw [quotient_distance n m positive, div_eq_div_iff castPositive.ne' (by norm_num), one_mul]
  exact_mod_cast half

theorem round_quotient_close (n : ℤ) {d : ℤ} (positive : 0 < d) :
    -d ≤ 2 * (n - d * roundHalfEven (n / d)) ∧ 2 * (n - d * roundHalfEven (n / d)) ≤ d := by
  have castPositive : (0 : ℚ) < d := by exact_mod_cast positive
  have close := round_half_even_close ((n : ℚ) / d)
  rw [quotient_distance n _ positive, div_le_div_iff₀ castPositive (by norm_num), one_mul] at close
  have half : |n - d * roundHalfEven (n / d)| * 2 ≤ d := by exact_mod_cast close
  rw [← abs_two, ← abs_mul, mul_comm] at half
  exact abs_le.mp half

/-- `round` of a number: to the nearest integer, halves away from zero. -/
def roundHalfAway (q : ℚ) : ℤ := if 0 ≤ q then ⌊q + 1 / 2⌋ else ⌈q - 1 / 2⌉

theorem round_half_away_bounds {q : ℚ} {n : ℤ} (nonneg : 0 ≤ q) (above : q ≤ n) :
    0 ≤ roundHalfAway q ∧ roundHalfAway q ≤ n := by
  rw [roundHalfAway, if_pos nonneg]
  constructor
  · exact Int.floor_nonneg.mpr (by linarith)
  · exact Int.floor_le_iff.mpr (by linarith)

structure BinaryFormat where
  /-- The bits of a significand after the leading one. -/
  fractionBits : ℕ
  /-- The exponent of the smallest quantum. -/
  minExponent : ℤ
  /-- The exponent of the smallest power of two that overflows. -/
  maxExponent : ℤ
deriving DecidableEq, Repr

def single : BinaryFormat := ⟨23, -149, 128⟩

def double : BinaryFormat := ⟨52, -1074, 1024⟩

def BinaryFormat.quantumExponent (format : BinaryFormat) (q : ℚ) : ℤ :=
  max (Int.log 2 |q| - format.fractionBits) format.minExponent

/-- The value of the format nearest to `q`, without the bound on the exponent. -/
def BinaryFormat.nearest (format : BinaryFormat) (q : ℚ) : ℚ :=
  roundHalfEven (q / 2 ^ format.quantumExponent q) * 2 ^ format.quantumExponent q

/-- A finite value is the rational it denotes; the sign of zero is not kept. -/
inductive FloatValue where
  | finite (value : ℚ)
  | infinite (negative : Bool)
  | nan
deriving DecidableEq, Repr

def BinaryFormat.ofRational (format : BinaryFormat) (q : ℚ) : FloatValue :=
  if 2 ^ format.maxExponent ≤ |format.nearest q| then .infinite (q < 0)
  else .finite (format.nearest q)

/-- A zero divisor is a positive zero. -/
def BinaryFormat.div (format : BinaryFormat) : FloatValue → FloatValue → FloatValue
  | .finite x, .finite y =>
      if y = 0 then if x = 0 then .nan else .infinite (x < 0) else format.ofRational (x / y)
  | .finite _, .infinite _ => .finite 0
  | .infinite negative, .finite y => .infinite (xor negative (y < 0))
  | _, _ => .nan

def BinaryFormat.mul (format : BinaryFormat) : FloatValue → FloatValue → FloatValue
  | .finite x, .finite y => format.ofRational (x * y)
  | .infinite negative, .finite y =>
      if y = 0 then .nan else .infinite (xor negative (y < 0))
  | .finite x, .infinite negative =>
      if x = 0 then .nan else .infinite (xor negative (x < 0))
  | .infinite left, .infinite right => .infinite (xor left right)
  | _, _ => .nan

def FloatValue.le : FloatValue → FloatValue → Prop
  | .finite x, .finite y => x ≤ y
  | .finite _, .infinite negative => negative = false
  | .infinite negative, .finite _ => negative = true
  | .infinite left, .infinite right => left = true ∨ right = false
  | _, _ => False

instance : LE FloatValue := ⟨FloatValue.le⟩

instance FloatValue.decidableLe : DecidableLE FloatValue
  | .finite x, .finite y => inferInstanceAs (Decidable (x ≤ y))
  | .finite _, .infinite negative => inferInstanceAs (Decidable (negative = false))
  | .infinite negative, .finite _ => inferInstanceAs (Decidable (negative = true))
  | .infinite left, .infinite right => inferInstanceAs (Decidable (left = true ∨ right = false))
  | .nan, _ => isFalse id
  | .finite _, .nan => isFalse id
  | .infinite _, .nan => isFalse id

theorem finite_le_iff (x y : ℚ) : FloatValue.finite x ≤ FloatValue.finite y ↔ x ≤ y := Iff.rfl

def FloatValue.rounded : FloatValue → FloatValue
  | .finite value => .finite (roundHalfAway value)
  | .infinite negative => .infinite negative
  | .nan => .nan

def FloatValue.integerPart : FloatValue → Option ℤ
  | .finite value => some (if 0 ≤ value then ⌊value⌋ else ⌈value⌉)
  | .infinite _ => none
  | .nan => none

variable {format : BinaryFormat} {q : ℚ} {k : ℤ}

theorem two_pow_pos (k : ℤ) : (0 : ℚ) < 2 ^ k := zpow_pos (by norm_num) k

theorem two_pow_div {k m : ℤ} (below : m ≤ k) :
    (2 : ℚ) ^ k / 2 ^ m = ((2 ^ (k - m).toNat : ℤ) : ℚ) := by
  rw [← zpow_sub₀ (by norm_num : (2 : ℚ) ≠ 0)]
  have exponent : k - m = ((k - m).toNat : ℤ) := by omega
  rw [exponent, zpow_natCast]
  push_cast
  rfl

theorem nearest_zero (format : BinaryFormat) : format.nearest 0 = 0 := by
  rw [BinaryFormat.nearest, zero_div]
  have zero : roundHalfEven 0 = 0 := by exact_mod_cast round_half_even_int 0
  rw [zero, Int.cast_zero, zero_mul]

theorem nearest_nonneg (format : BinaryFormat) (nonneg : 0 ≤ q) : 0 ≤ format.nearest q := by
  apply mul_nonneg _ (two_pow_pos _).le
  have rounded : 0 ≤ roundHalfEven (q / 2 ^ format.quantumExponent q) := by
    apply le_round_half_even
    exact_mod_cast div_nonneg nonneg (two_pow_pos _).le
  exact_mod_cast rounded

theorem nearest_le_two_pow (format : BinaryFormat) (nonneg : 0 ≤ q) (above : q ≤ 2 ^ k)
    (least : format.minExponent ≤ k) :
    format.nearest q ≤ 2 ^ k := by
  rcases nonneg.eq_or_lt with rfl | positive
  · rw [nearest_zero]
    exact (two_pow_pos k).le
  have binade : Int.log 2 |q| ≤ k := by
    rw [abs_of_pos positive, ← Int.log_zpow (R := ℚ) (b := 2) (by norm_num) k]
    exact Int.log_mono_right positive above
  have below : format.quantumExponent q ≤ k := max_le (by omega) least
  have rounded := round_half_even_le (q := q / 2 ^ format.quantumExponent q)
    (n := 2 ^ (k - format.quantumExponent q).toNat) (by
      rw [← two_pow_div below]
      exact div_le_div_of_nonneg_right above (two_pow_pos _).le)
  calc format.nearest q
      ≤ ((2 ^ (k - format.quantumExponent q).toNat : ℤ) : ℚ) * 2 ^ format.quantumExponent q :=
        mul_le_mul_of_nonneg_right (by exact_mod_cast rounded) (two_pow_pos _).le
    _ = 2 ^ k := by
        rw [← two_pow_div below]
        exact div_mul_cancel₀ _ (two_pow_pos _).ne'

theorem two_pow_le_nearest (format : BinaryFormat) (below : 2 ^ k ≤ q)
    (least : format.minExponent ≤ k) : 2 ^ k ≤ format.nearest q := by
  have positive : 0 < q := lt_of_lt_of_le (two_pow_pos k) below
  have binade : k ≤ Int.log 2 |q| := by
    rw [abs_of_pos positive]
    exact (Int.zpow_le_iff_le_log (by norm_num) positive).mp (by exact_mod_cast below)
  have start : (2 : ℚ) ^ Int.log 2 |q| ≤ q := by
    have lower := Int.zpow_log_le_self (b := 2) (by norm_num) positive
    rw [abs_of_pos positive]
    exact_mod_cast lower
  have quantum : format.quantumExponent q ≤ Int.log 2 |q| := max_le (by omega) (least.trans binade)
  have rounded := le_round_half_even (q := q / 2 ^ format.quantumExponent q)
    (n := 2 ^ (Int.log 2 |q| - format.quantumExponent q).toNat) (by
      rw [← two_pow_div quantum]
      exact div_le_div_of_nonneg_right start (two_pow_pos _).le)
  calc (2 : ℚ) ^ k ≤ 2 ^ Int.log 2 |q| := zpow_le_zpow_right₀ (by norm_num) binade
    _ = ((2 ^ (Int.log 2 |q| - format.quantumExponent q).toNat : ℤ) : ℚ) *
          2 ^ format.quantumExponent q := by
        rw [← two_pow_div quantum]
        exact (div_mul_cancel₀ _ (two_pow_pos _).ne').symm
    _ ≤ format.nearest q :=
        mul_le_mul_of_nonneg_right (by exact_mod_cast rounded) (two_pow_pos _).le

theorem log_in_binade (below : 2 ^ k ≤ q) (above : q < 2 ^ (k + 1)) : Int.log 2 |q| = k := by
  have positive : 0 < q := lt_of_lt_of_le (two_pow_pos k) below
  rw [abs_of_pos positive]
  apply le_antisymm
  · have less := (Int.lt_zpow_iff_log_lt (b := 2) (by norm_num) positive).mp
      (by exact_mod_cast above)
    omega
  · exact (Int.zpow_le_iff_le_log (by norm_num) positive).mp (by exact_mod_cast below)

theorem nearest_in_binade (format : BinaryFormat) (below : 2 ^ k ≤ q) (above : q < 2 ^ (k + 1))
    (normal : format.minExponent ≤ k - format.fractionBits) :
    format.nearest q =
      roundHalfEven (q / 2 ^ (k - format.fractionBits)) * 2 ^ (k - format.fractionBits) := by
  have quantum : format.quantumExponent q = k - format.fractionBits := by
    rw [BinaryFormat.quantumExponent, log_in_binade below above]
    exact max_eq_left normal
  rw [BinaryFormat.nearest, quantum]

/-- A significand within the binade is rounded to an integer, whatever the exponent. -/
theorem nearest_scaled (format : BinaryFormat) {significand : ℚ} {m : ℤ}
    (below : 2 ^ format.fractionBits ≤ significand)
    (above : significand < 2 ^ (format.fractionBits + 1)) (normal : format.minExponent ≤ m) :
    format.nearest (significand * 2 ^ m) = roundHalfEven significand * 2 ^ m := by
  have unit : (0 : ℚ) < 2 ^ m := two_pow_pos m
  have bottom : (2 : ℚ) ^ (m + format.fractionBits) = 2 ^ format.fractionBits * 2 ^ m := by
    rw [zpow_add₀ two_ne_zero, zpow_natCast, mul_comm]
  have top : (2 : ℚ) ^ (m + format.fractionBits + 1) = 2 ^ (format.fractionBits + 1) * 2 ^ m := by
    rw [zpow_add_one₀ two_ne_zero, bottom, pow_succ]
    ring
  have exponent : m + format.fractionBits - format.fractionBits = m := by omega
  have rounded := nearest_in_binade (q := significand * 2 ^ m) (k := m + format.fractionBits) format
    (bottom ▸ mul_le_mul_of_nonneg_right below unit.le)
    (top ▸ mul_lt_mul_of_pos_right above unit) (by omega)
  rw [rounded, exponent, mul_div_cancel_right₀ _ unit.ne']

/-- What is rounded in a binade or above it is a whole number of the quanta of that binade. -/
theorem nearest_multiple (format : BinaryFormat) (below : 2 ^ k ≤ q) :
    ∃ m : ℤ, format.nearest q = m * 2 ^ (k - format.fractionBits) := by
  have positive : 0 < q := lt_of_lt_of_le (two_pow_pos k) below
  have binade : k ≤ Int.log 2 |q| := by
    rw [abs_of_pos positive]
    exact (Int.zpow_le_iff_le_log (by norm_num) positive).mp (by exact_mod_cast below)
  have finer : k - format.fractionBits ≤ format.quantumExponent q :=
    le_max_of_le_left (by omega)
  refine ⟨roundHalfEven (q / 2 ^ format.quantumExponent q) *
    2 ^ (format.quantumExponent q - (k - format.fractionBits)).toNat, ?_⟩
  rw [Int.cast_mul, ← two_pow_div finer, mul_assoc, div_mul_cancel₀ _ (two_pow_pos _).ne']
  rfl

theorem of_rational_finite (nonneg : 0 ≤ q) (above : q ≤ 2 ^ k) (least : format.minExponent ≤ k)
    (inRange : k < format.maxExponent) : format.ofRational q = .finite (format.nearest q) := by
  have bound := nearest_le_two_pow format nonneg above least
  have larger : (2 : ℚ) ^ k < 2 ^ format.maxExponent := zpow_lt_zpow_right₀ (by norm_num) inRange
  rw [BinaryFormat.ofRational, if_neg]
  rw [abs_of_nonneg (nearest_nonneg format nonneg)]
  linarith

theorem of_rational_eq (q : ℚ) :
    Binary64Rounding.ofRational q =
      if 2 ^ 1024 ≤ |double.nearest q| then .infinite (q < 0) else .finite (double.nearest q) := by
  unfold Binary64Rounding.ofRational
  split
  · rename_i zero
    rw [zero, nearest_zero, abs_zero, if_neg (by norm_num)]
  · rfl

theorem of_rational_finite_iff (q value : ℚ) :
    Binary64Rounding.ofRational q = .finite value ↔
      value = double.nearest q ∧ |double.nearest q| < 2 ^ 1024 := by
  rw [of_rational_eq]
  split
  · rename_i large
    constructor
    · intro infinite
      exact nomatch infinite
    · intro small
      exact absurd small.2 (not_lt.mpr large)
  · rename_i small
    constructor
    · intro finite
      exact ⟨(Binary64.finite.inj finite).symm, not_le.mp small⟩
    · rintro ⟨rfl, -⟩
      rfl

end RlInvestments.BinaryFormats
