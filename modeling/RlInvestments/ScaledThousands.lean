import RlInvestments.BinaryFormats

/-!
# Thousandths times a thousand

A price in thousands is read as a double and multiplied by 1000, and each of the two
steps rounds. The number `n` comes back when the two roundings cancel, which is a matter
of its 53-bit significand: below `1000 * 2 ^ 43` the thousandth is stored finely enough,
above it the remainder that the first rounding drops decides.
-/

namespace RlInvestments.ScaledThousands

open RlInvestments.Binary64Rounding RlInvestments.BinaryFormats

set_option autoImplicit false

/-- The thousandth of a number as a double, times 1000, as a double. -/
def thousandfold (q : ℚ) : ℚ := double.nearest (double.nearest (q / 1000) * 1000)

/-- The significand of the thousandth; `shift` is the distance of the two binades. -/
def thousandthSignificand (S : ℤ) (shift : ℕ) : ℤ :=
  roundHalfEven ((S * 2 ^ shift : ℤ) / (1000 : ℤ))

def productSignificand (M : ℤ) (shift : ℕ) : ℤ :=
  roundHalfEven ((1000 * M : ℤ) / (2 ^ shift : ℤ))

variable {q : ℚ} {S e : ℤ}

theorem two_pow_shift (e : ℤ) (shift : ℕ) :
    (2 : ℚ) ^ (e - 52) = 2 ^ shift * 2 ^ (e - shift - 52) := by
  have split : e - 52 = (shift : ℤ) + (e - shift - 52) := by omega
  rw [split, zpow_add₀ two_ne_zero, zpow_natCast]

theorem nearest_thousandth (shift : ℕ) (value : q = S * 2 ^ (e - 52)) (normal : -1022 ≤ e - shift)
    (below : 1000 * 2 ^ 52 ≤ S * 2 ^ shift) (above : S * 2 ^ shift < 1000 * 2 ^ 53) :
    double.nearest (q / 1000) = thousandthSignificand S shift * 2 ^ (e - shift - 52) := by
  have belowCast : (1000 : ℚ) * 2 ^ 52 ≤ (S * 2 ^ shift : ℤ) := by exact_mod_cast below
  have aboveCast : ((S * 2 ^ shift : ℤ) : ℚ) < 1000 * 2 ^ 53 := by exact_mod_cast above
  have scaled : q / 1000 = ((S * 2 ^ shift : ℤ) / (1000 : ℤ) : ℚ) * 2 ^ (e - shift - 52) := by
    rw [value, two_pow_shift e shift]
    push_cast
    ring
  rw [scaled]
  apply nearest_scaled double
  · change (2 : ℚ) ^ 52 ≤ _
    apply (le_div_iff₀ (by norm_num)).mpr
    push_cast at belowCast ⊢
    linarith only [belowCast]
  · change _ < (2 : ℚ) ^ 53
    apply (div_lt_iff₀ (by norm_num)).mpr
    push_cast at aboveCast ⊢
    linarith only [aboveCast]
  · change -1074 ≤ e - shift - 52
    omega

theorem nearest_product (shift : ℕ) {M : ℤ} (normal : -1022 ≤ e)
    (below : 2 ^ 52 * 2 ^ shift ≤ 1000 * M) (above : 1000 * M < 2 ^ 53 * 2 ^ shift) :
    double.nearest (M * 2 ^ (e - shift - 52) * 1000) =
      productSignificand M shift * 2 ^ (e - 52) := by
  have power : (0 : ℚ) < (2 ^ shift : ℤ) := by exact_mod_cast pow_pos (by norm_num) _
  have belowCast : (2 ^ 52 : ℚ) * (2 ^ shift : ℤ) ≤ (1000 * M : ℤ) := by exact_mod_cast below
  have aboveCast : ((1000 * M : ℤ) : ℚ) < 2 ^ 53 * (2 ^ shift : ℤ) := by exact_mod_cast above
  have scaled : (M * 2 ^ (e - shift - 52) * 1000 : ℚ) =
      ((1000 * M : ℤ) / (2 ^ shift : ℤ) : ℚ) * 2 ^ (e - 52) := by
    rw [two_pow_shift e shift, ← mul_assoc, Int.cast_pow, Int.cast_ofNat,
      div_mul_cancel₀ _ (by positivity)]
    push_cast
    ring
  rw [scaled]
  apply nearest_scaled double
  · exact (le_div_iff₀ power).mpr belowCast
  · exact (div_lt_iff₀ power).mpr aboveCast
  · change -1074 ≤ e - 52
    omega

theorem fine_thousandth (S : ℤ) :
    1024 * S - 500 ≤ 1000 * thousandthSignificand S 10 ∧
      1000 * thousandthSignificand S 10 ≤ 1024 * S + 500 := by
  have close := round_quotient_close (S * 2 ^ 10) (d := 1000) (by norm_num)
  rw [thousandthSignificand]
  omega

theorem fine_product {S M : ℤ} (close : 1024 * S - 500 ≤ 1000 * M ∧ 1000 * M ≤ 1024 * S + 500) :
    productSignificand M 10 = S := by
  apply round_quotient_near (by norm_num)
  · omega
  · omega

/-- The remainder of the first rounding does not reach half a unit of the product, or only
with an even significand. -/
def Cancels (S : ℤ) : Prop :=
  512 * S % 1000 < 256 ∨ 744 < 512 * S % 1000 ∨
    ((512 * S % 1000 = 256 ∨ 512 * S % 1000 = 744) ∧ S % 2 = 0)

instance (S : ℤ) : Decidable (Cancels S) := inferInstanceAs (Decidable (_ ∨ _ ∨ _))

/-- What the first rounding adds to a thousand thousandths. -/
theorem coarse_thousandth (S : ℤ) :
    (512 * S % 1000 < 500 ∧ 1000 * thousandthSignificand S 9 = 512 * S - 512 * S % 1000) ∨
      (500 < 512 * S % 1000 ∧
        1000 * thousandthSignificand S 9 = 512 * S + (1000 - 512 * S % 1000)) := by
  by_cases below : 512 * S % 1000 < 500
  · left
    have rounded : thousandthSignificand S 9 = 512 * S / 1000 := by
      apply round_quotient_near (by norm_num)
      · omega
      · omega
    omega
  · right
    have rounded : thousandthSignificand S 9 = 512 * S / 1000 + 1 := by
      apply round_quotient_near (by norm_num)
      · omega
      · omega
    omega

/-- The product of a thousandth is `shift` units above `S` when it is nearer to that than half
a unit, or exactly half a unit from it and it is even. -/
theorem product_rounds {S M c : ℤ} (shift : ℤ) (product : 1000 * M = 512 * S + c)
    (nearest : (-512 < 2 * (c - 512 * shift) ∧ 2 * (c - 512 * shift) < 512) ∨
      ((2 * (c - 512 * shift) = 512 ∨ 2 * (c - 512 * shift) = -512) ∧ (S + shift) % 2 = 0)) :
    productSignificand M 9 = S + shift := by
  have distance : 1000 * M - 2 ^ 9 * (S + shift) = c - 512 * shift := by
    rw [product]
    ring
  rcases nearest with ⟨above, below⟩ | ⟨tie, even⟩
  · apply round_quotient_near (by norm_num)
    · rw [distance]
      exact above
    · rw [distance]
      exact below
  · apply round_quotient_tie (by norm_num) _ even
    rw [distance]
    exact tie

/-- The significand comes back exactly when the roundings cancel, and is off by one else. -/
theorem coarse_product (S : ℤ) :
    (Cancels S ∧ productSignificand (thousandthSignificand S 9) 9 = S) ∨
      (¬ Cancels S ∧ 512 * S % 1000 < 500 ∧
        productSignificand (thousandthSignificand S 9) 9 = S - 1) ∨
      (¬ Cancels S ∧ 500 < 512 * S % 1000 ∧
        productSignificand (thousandthSignificand S 9) 9 = S + 1) := by
  have thousandth := coarse_thousandth S
  have least := Int.emod_nonneg (512 * S) (by decide : (1000 : ℤ) ≠ 0)
  have largest := Int.emod_lt_of_pos (512 * S) (by decide : (0 : ℤ) < 1000)
  generalize thousandthSignificand S 9 = M at thousandth ⊢
  unfold Cancels
  generalize 512 * S % 1000 = c at thousandth least largest ⊢
  rcases thousandth with ⟨small, product⟩ | ⟨large, product⟩
  · have below : 1000 * M = 512 * S + -c := product
    clear product
    by_cases cancels : c < 256 ∨ c = 256 ∧ S % 2 = 0
    · left
      rw [product_rounds 0 below (by omega), add_zero]
      exact ⟨by omega, rfl⟩
    · right
      left
      rw [product_rounds (-1) below (by clear below; omega)]
      exact ⟨by omega, small, rfl⟩
  · by_cases cancels : 744 < c ∨ c = 744 ∧ S % 2 = 0
    · left
      rw [product_rounds 0 product (by omega), add_zero]
      exact ⟨by omega, rfl⟩
    · right
      right
      rw [product_rounds 1 product (by clear product; omega)]
      exact ⟨by omega, large, rfl⟩

theorem product_le_succ (S : ℤ) : productSignificand (thousandthSignificand S 9) 9 ≤ S + 1 := by
  rcases coarse_product S with ⟨-, same⟩ | ⟨-, -, below⟩ | ⟨-, -, above⟩
  · omega
  · omega
  · omega

theorem product_returns_iff (S : ℤ) :
    productSignificand (thousandthSignificand S 9) 9 = S ↔ Cancels S := by
  rcases coarse_product S with ⟨cancels, same⟩ | ⟨fails, -, below⟩ | ⟨fails, -, above⟩
  · exact iff_of_true same cancels
  · exact iff_of_false (by omega) fails
  · exact iff_of_false (by omega) fails

theorem product_reaches_iff (S : ℤ) :
    S ≤ productSignificand (thousandthSignificand S 9) 9 ↔
      Cancels S ∨ 500 < 512 * S % 1000 := by
  rcases coarse_product S with ⟨cancels, same⟩ | ⟨fails, small, below⟩ | ⟨fails, large, above⟩
  · exact iff_of_true same.ge (.inl cancels)
  · apply iff_of_false
    · omega
    · rintro (cancels | large)
      · exact fails cancels
      · omega
  · exact iff_of_true (by omega) (.inr large)

theorem thousandfold_fine (value : q = S * 2 ^ (e - 52)) (whole : 0 ≤ e) (least : 2 ^ 52 ≤ S)
    (fine : S < 1000 * 2 ^ 43) : thousandfold q = S * 2 ^ (e - 52) := by
  have close := fine_thousandth S
  rw [thousandfold, nearest_thousandth 10 value (by omega) (by omega) (by omega),
    nearest_product 10 (by omega) (by omega) (by omega), fine_product close]

theorem thousandfold_coarse (value : q = S * 2 ^ (e - 52)) (whole : 0 ≤ e)
    (coarse : 1000 * 2 ^ 43 ≤ S) (largest : S < 2 ^ 53) :
    thousandfold q =
      productSignificand (thousandthSignificand S 9) 9 * 2 ^ (e - 52) := by
  have close := coarse_thousandth S
  rw [thousandfold, nearest_thousandth 9 value (by omega) (by omega) (by omega),
    nearest_product 9 (by omega) (by omega) (by omega)]

def significand (n : ℕ) : ℕ := n * 2 ^ 52 / 2 ^ Nat.log 2 n

def Representable (n : ℕ) : Prop := 2 ^ Nat.log 2 n ∣ n * 2 ^ 52

instance (n : ℕ) : Decidable (Representable n) := inferInstanceAs (Decidable (_ ∣ _))

/-- Below `2 ^ 52` doubles are finer than integers, and a result just above the number
truncates to it. -/
def RoundsBack (n : ℕ) : Prop :=
  if Nat.log 2 n < 52 then Cancels (significand n) ∨ 500 < 512 * (significand n : ℤ) % 1000
  else Cancels (significand n)

instance (n : ℕ) : Decidable (RoundsBack n) := by
  unfold RoundsBack
  infer_instance

/-- The numbers that survive the division and the multiplication by 1000. -/
def ComesBack (n : ℕ) : Prop :=
  n = 0 ∨ n < 2 ^ 1024 ∧ Representable n ∧ (significand n < 1000 * 2 ^ 43 ∨ RoundsBack n)

instance (n : ℕ) : Decidable (ComesBack n) := inferInstanceAs (Decidable (_ ∨ _ ∧ _ ∧ (_ ∨ _)))

theorem significand_value {n : ℕ} (positive : 0 < n) (stored : Representable n) :
    (n : ℚ) = (significand n : ℤ) * 2 ^ ((Nat.log 2 n : ℤ) - 52) ∧
      2 ^ 52 ≤ (significand n : ℤ) ∧ (significand n : ℤ) < 2 ^ 53 := by
  have scaled : significand n * 2 ^ Nat.log 2 n = n * 2 ^ 52 := Nat.div_mul_cancel stored
  have bottom : 2 ^ Nat.log 2 n ≤ n := Nat.pow_log_le_self 2 positive.ne'
  have top : n < 2 ^ (Nat.log 2 n + 1) := Nat.lt_pow_succ_log_self (by norm_num) n
  rw [pow_succ] at top
  have power : 0 < 2 ^ Nat.log 2 n := by positivity
  refine ⟨?_, ?_, ?_⟩
  · have scaledCast : (significand n : ℚ) * 2 ^ Nat.log 2 n = n * 2 ^ 52 := by
      exact_mod_cast scaled
    rw [zpow_sub₀ two_ne_zero, zpow_natCast, ← mul_div_assoc, Int.cast_natCast, scaledCast]
    exact (mul_div_cancel_right₀ _ (by norm_num)).symm
  · have lower : 2 ^ 52 ≤ significand n := by
      by_contra less
      nlinarith
    exact_mod_cast lower
  · have upper : significand n < 2 ^ 53 := by
      by_contra more
      nlinarith
    exact_mod_cast upper

theorem nearest_representable {n : ℕ} (positive : 0 < n) (stored : Representable n) :
    double.nearest n = n := by
  obtain ⟨value, least, largest⟩ := significand_value positive stored
  have rounded : double.nearest ((significand n : ℤ) * 2 ^ ((Nat.log 2 n : ℤ) - 52)) =
      roundHalfEven (significand n : ℤ) * 2 ^ ((Nat.log 2 n : ℤ) - 52) := by
    apply nearest_scaled double
    · exact_mod_cast least
    · exact_mod_cast largest
    · change -1074 ≤ (Nat.log 2 n : ℤ) - 52
      omega
  rw [round_half_even_int, ← value] at rounded
  exact rounded

theorem representable_of_lt {n : ℕ} (positive : 0 < n) (small : n < 2 ^ 53) : Representable n := by
  have log : Nat.log 2 n < 53 := Nat.log_lt_of_lt_pow positive.ne' small
  exact Dvd.dvd.mul_left (pow_dvd_pow 2 (by omega)) n

theorem floor_coarse_iff {n R S : ℤ} {unit : ℚ} (value : (n : ℚ) = S * unit) (coarse : 1 ≤ unit) :
    ⌊R * unit⌋ = n ↔ R = S := by
  rw [Int.floor_eq_iff, value]
  constructor
  · rintro ⟨below, above⟩
    have lower : (S : ℚ) ≤ R := le_of_mul_le_mul_right below (by linarith)
    have upper : (R : ℚ) < S + 1 := by
      by_contra more
      nlinarith
    have lowerInt : S ≤ R := by exact_mod_cast lower
    have upperInt : R < S + 1 := by exact_mod_cast upper
    omega
  · rintro rfl
    exact ⟨le_rfl, lt_add_one _⟩

theorem floor_fine_iff {n R S : ℤ} {unit : ℚ} (value : (n : ℚ) = S * unit) (positive : 0 < unit)
    (fine : unit < 1) (near : R ≤ S + 1) : ⌊R * unit⌋ = n ↔ S ≤ R := by
  rw [Int.floor_eq_iff, value]
  constructor
  · rintro ⟨below, -⟩
    exact_mod_cast le_of_mul_le_mul_right below positive
  · intro above
    have aboveCast : (S : ℚ) ≤ R := by exact_mod_cast above
    have nearCast : (R : ℚ) ≤ S + 1 := by exact_mod_cast near
    constructor
    · exact mul_le_mul_of_nonneg_right aboveCast positive.le
    · calc R * unit ≤ (S + 1) * unit := mul_le_mul_of_nonneg_right nearCast positive.le
        _ = S * unit + unit := by ring
        _ < S * unit + 1 := by linarith

theorem floor_thousandfold_iff {n : ℕ} (positive : 0 < n) (stored : Representable n) :
    ⌊thousandfold n⌋ = n ↔ significand n < 1000 * 2 ^ 43 ∨ RoundsBack n := by
  obtain ⟨value, least, largest⟩ := significand_value positive stored
  have whole : (0 : ℤ) ≤ Nat.log 2 n := by omega
  by_cases fine : significand n < 1000 * 2 ^ 43
  · have back := thousandfold_fine value whole least (by exact_mod_cast fine)
    rw [back, ← value, Int.floor_natCast]
    exact iff_of_true rfl (.inl fine)
  · have product := thousandfold_coarse value whole (by omega) largest
    have valueInt : ((n : ℤ) : ℚ) = (significand n : ℤ) * 2 ^ ((Nat.log 2 n : ℤ) - 52) := value
    rw [product, or_iff_right fine, RoundsBack]
    split
    · have unitFine : (2 : ℚ) ^ ((Nat.log 2 n : ℤ) - 52) < 1 :=
        zpow_lt_one_of_neg₀ (by norm_num) (by omega)
      rw [floor_fine_iff valueInt (two_pow_pos _) unitFine (product_le_succ _)]
      exact product_reaches_iff _
    · have unitCoarse : (1 : ℚ) ≤ 2 ^ ((Nat.log 2 n : ℤ) - 52) :=
        one_le_zpow₀ (by norm_num) (by omega)
      rw [floor_coarse_iff valueInt unitCoarse]
      exact product_returns_iff _

theorem representable_of_multiple {n : ℕ} {m : ℤ} (large : 52 < Nat.log 2 n)
    (multiple : m * 2 ^ (Nat.log 2 n - 52) = n) : Representable n := by
  have split : Nat.log 2 n = Nat.log 2 n - 52 + 52 := by omega
  have power : (2 : ℤ) ^ Nat.log 2 n = 2 ^ (Nat.log 2 n - 52) * 2 ^ 52 := by
    rw [← pow_add, ← split]
  have scaled : (n : ℤ) * 2 ^ 52 = 2 ^ Nat.log 2 n * m := by
    rw [← multiple, power]
    ring
  have divides : (2 : ℤ) ^ Nat.log 2 n ∣ n * 2 ^ 52 := ⟨m, scaled⟩
  exact_mod_cast divides

theorem representable_of_floor {n : ℕ} (positive : 0 < n) (back : ⌊thousandfold n⌋ = n) :
    Representable n := by
  have bottom : 2 ^ Nat.log 2 n ≤ n := Nat.pow_log_le_self 2 positive.ne'
  by_cases small : Nat.log 2 n ≤ 52
  · exact Dvd.dvd.mul_left (pow_dvd_pow 2 small) n
  · have nonneg : 0 ≤ double.nearest ((n : ℚ) / 1000) * 1000 := by
      apply mul_nonneg _ (by norm_num)
      exact nearest_nonneg double (by positivity)
    by_cases below : (2 : ℚ) ^ (Nat.log 2 n : ℤ) ≤ double.nearest ((n : ℚ) / 1000) * 1000
    · obtain ⟨m, multiple⟩ := nearest_multiple double below
      have exponent : (Nat.log 2 n : ℤ) - double.fractionBits = (Nat.log 2 n - 52 : ℕ) := by
        change (Nat.log 2 n : ℤ) - 52 = _
        omega
      have integer : thousandfold n = (m * 2 ^ (Nat.log 2 n - 52) : ℤ) := by
        rw [thousandfold, multiple, exponent, zpow_natCast]
        push_cast
        rfl
      rw [integer, Int.floor_intCast] at back
      exact representable_of_multiple (not_le.mp small) back
    · have bound : double.nearest (double.nearest ((n : ℚ) / 1000) * 1000) ≤
          2 ^ (Nat.log 2 n : ℤ) :=
        nearest_le_two_pow double nonneg (not_le.mp below).le (by
          change (-1074 : ℤ) ≤ _
          omega)
      have least : (n : ℚ) ≤ thousandfold n := by
        have floor := Int.floor_le (thousandfold n)
        rw [back] at floor
        exact_mod_cast floor
      have top : (n : ℚ) ≤ 2 ^ Nat.log 2 n := by
        rw [← zpow_natCast]
        exact least.trans bound
      have topNat : n ≤ 2 ^ Nat.log 2 n := by exact_mod_cast top
      have power : n = 2 ^ Nat.log 2 n := le_antisymm topNat bottom
      exact ⟨2 ^ 52, congrArg (· * 2 ^ 52) power⟩

end RlInvestments.ScaledThousands
