import RlInvestments.CellAcceptance
import RlInvestments.ScaledThousands

/-!
# Prices recorded exactly

A cell holds two unsigned numerals with at most three digits after the point and a final
`k`. Each is read as a double, multiplied by 1000 and truncated, so the integer recorded
is the one written only when the two roundings bring it back.
-/

namespace RlInvestments.RecordedPrices

open RlInvestments.Binary64Rounding RlInvestments.BinaryFormats RlInvestments.PriceCellParser
open RlInvestments.CellAcceptance RlInvestments.ScaledThousands

set_option autoImplicit false

/-- An unsigned decimal numeral, with a point or without. -/
structure Numeral where
  whole : List Char
  /-- What stands after the point, when there is one. -/
  fraction : Option (List Char)
  wholeDigits : ∀ c ∈ whole, c.isDigit = true
  fractionDigits : ∀ c ∈ fraction.getD [], c.isDigit = true
  written : whole ++ fraction.getD [] ≠ []

def pointAndDigits : Option (List Char) → List Char
  | none => []
  | some digits => '.' :: digits

def Numeral.text (numeral : Numeral) : List Char :=
  numeral.whole ++ pointAndDigits numeral.fraction

def Numeral.places (numeral : Numeral) : ℕ := (numeral.fraction.getD []).length

def Numeral.digitsValue (numeral : Numeral) : ℕ :=
  Nat.ofDigitChars 10 (numeral.whole ++ numeral.fraction.getD []) 0

def Numeral.value (numeral : Numeral) : ℚ := numeral.digitsValue / 10 ^ numeral.places

def Numeral.thousandths (numeral : Numeral) : ℕ :=
  numeral.digitsValue * 10 ^ (3 - numeral.places)

theorem thousandths_value {numeral : Numeral} (short : numeral.places ≤ 3) :
    (numeral.thousandths : ℚ) = 1000 * numeral.value := by
  have places : 3 = 3 - numeral.places + numeral.places := by omega
  have thousand : (1000 : ℚ) = 10 ^ (3 - numeral.places) * 10 ^ numeral.places := by
    rw [← pow_add, ← places]
    norm_num
  rw [Numeral.thousandths, Numeral.value, thousand, Nat.cast_mul, Nat.cast_pow, Nat.cast_ofNat]
  field_simp

def IsDigitOrPoint (c : Char) : Prop := c.isDigit = true ∨ c = '.'

theorem text_characters (numeral : Numeral) : ∀ c ∈ numeral.text, IsDigitOrPoint c := by
  intro c member
  rcases List.mem_append.mp member with inWhole | after
  · exact .inl (numeral.wholeDigits c inWhole)
  · have digits := numeral.fractionDigits
    cases point : numeral.fraction with
    | none =>
        rw [point] at after
        exact nomatch after
    | some fraction =>
        rw [point] at after digits
        rcases List.mem_cons.mp after with isPoint | inFraction
        · exact .inr isPoint
        · exact .inl (digits c inFraction)

theorem digit_or_point_code {c : Char} (allowed : IsDigitOrPoint c) :
    46 ≤ c.toNat ∧ c.toNat ≤ 57 := by
  rcases allowed with digit | rfl
  · have range := Char.isDigit_iff_toNat.mp digit
    exact ⟨le_trans (by decide) range.1, range.2⟩
  · decide

theorem not_in_text (numeral : Numeral) {c : Char} (outside : c.toNat < 46 ∨ 57 < c.toNat) :
    c ∉ numeral.text := by
  intro member
  have range := digit_or_point_code (text_characters numeral c member)
  omega

theorem lower_none {text : List Char} (none : ∀ c ∈ text, ¬ (65 ≤ c.val ∧ c.val ≤ 90)) :
    text.map Char.toLower = text := by
  calc text.map Char.toLower = text.map id := by
        apply List.map_congr_left
        intro c member
        exact dif_neg (none c member)
    _ = text := List.map_id text

theorem point_and_digits_span (numeral : Numeral) :
    numeral.text.span Char.isDigit = (numeral.whole, pointAndDigits numeral.fraction) := by
  apply JsonText.span_digits _ _ numeral.wholeDigits
  intro c isHead
  cases point : numeral.fraction with
  | none =>
      rw [point] at isHead
      exact nomatch isHead
  | some fraction =>
      rw [point] at isHead
      obtain rfl := Option.some.inj isHead
      rfl

theorem literal_of_digits {digits : List Char} (written : digits ≠ []) (places : ℕ) :
    (if digits = [] then none else
      (exponentPart []).map fun exponent : Int =>
        Nat.ofDigitChars 10 digits 0 * (10 : ℚ) ^ (exponent - places)) =
      some ((Nat.ofDigitChars 10 digits 0 : ℚ) / 10 ^ places) := by
  rw [if_neg written, exponentPart, Option.map_some, zero_sub, zpow_neg, zpow_natCast,
    ← div_eq_mul_inv]

theorem decimal_literal_numeral (numeral : Numeral) :
    decimalLiteral numeral.text = some numeral.value := by
  have written := numeral.written
  have digits := numeral.fractionDigits
  rw [decimalLiteral, point_and_digits_span, Numeral.value, Numeral.digitsValue, Numeral.places]
  cases point : numeral.fraction with
  | none =>
      rw [point] at written
      exact literal_of_digits written 0
  | some fraction =>
      rw [point] at written digits
      have rest := JsonText.span_digits fraction [] digits (fun _ member => nomatch member)
      rw [List.append_nil] at rest
      dsimp only [pointAndDigits, Option.getD_some] at written ⊢
      simp only [rest]
      exact literal_of_digits written fraction.length

theorem text_lower (numeral : Numeral) : numeral.text.map Char.toLower = numeral.text := by
  apply lower_none
  rintro c member ⟨upper, -⟩
  have code : 65 ≤ c.toNat := UInt32.le_iff_toNat_le.mp upper
  have range := digit_or_point_code (text_characters numeral c member)
  omega

theorem number_literal_numeral (numeral : Numeral) :
    numberLiteral numeral.text = some (ofRational numeral.value) := by
  have noI : 'i' ∉ numeral.text := not_in_text numeral (by decide)
  have noN : 'n' ∉ numeral.text := not_in_text numeral (by decide)
  have sign := split_sign_none (not_in_text numeral (c := '-') (by decide))
    (not_in_text numeral (c := '+') (by decide))
  unfold numberLiteral
  rw [sign]
  dsimp only
  rw [text_lower, if_neg, if_neg, decimal_literal_numeral]
  · rfl
  · intro isNan
    rw [isNan] at noN
    exact noN (List.mem_cons_self ..)
  · rintro (isInf | isInfinity)
    · rw [isInf] at noI
      exact noI (List.mem_cons_self ..)
    · rw [isInfinity] at noI
      exact noI (List.mem_cons_self ..)

theorem py_float_numeral (numeral : Numeral) :
    pyFloat numeral.text = some (ofRational numeral.value) := by
  have ascii : asciiForm numeral.text = some numeral.text := by
    rw [asciiForm, if_pos]
    apply List.all_eq_true.mpr
    intro c member
    have range := digit_or_point_code (text_characters numeral c member)
    exact decide_eq_true (by omega)
  have stripped : strip numeral.text = numeral.text := by
    apply strip_none
    intro c member
    have range := digit_or_point_code (text_characters numeral c member)
    have notBlank : c ≠ ' ' := by
      rintro rfl
      exact absurd range.1 (by decide)
    simp only [isAsciiSpace, notBlank, decide_false, Bool.false_or, Bool.and_eq_false_iff,
      decide_eq_false_iff_not]
    omega
  have plain : dropUnderscores '\x00' numeral.text = some numeral.text :=
    drop_underscores_none (by decide) (not_in_text numeral (by decide))
  rw [pyFloat, ascii, Option.bind_eq_bind, Option.bind_some, stripped, plain]
  exact number_literal_numeral numeral

theorem thousandfold_nonneg {q : ℚ} (nonneg : 0 ≤ q) : 0 ≤ thousandfold q :=
  nearest_nonneg double (mul_nonneg (nearest_nonneg double (by positivity)) (by norm_num))

theorem finite_product {n : ℕ} {value : ℚ}
    (product : scaled true (ofRational (n / 1000)) = .finite value) :
    value = thousandfold n ∧ thousandfold n < 2 ^ 1024 := by
  cases quotient : ofRational ((n : ℚ) / 1000) with
  | finite thousandth =>
      rw [quotient] at product
      obtain ⟨rfl, -⟩ := (of_rational_finite_iff _ _).mp quotient
      obtain ⟨rfl, bound⟩ := (of_rational_finite_iff _ _).mp product
      exact ⟨rfl, lt_of_abs_lt bound⟩
  | infinite negative =>
      rw [quotient] at product
      exact nomatch product
  | nan =>
      rw [quotient] at product
      exact nomatch product

theorem cast_lt_two_pow (n bits : ℕ) : (n : ℚ) < 2 ^ bits ↔ n < 2 ^ bits := by
  exact_mod_cast Iff.rfl

theorem cast_succ_le_two_pow {n bits : ℕ} (below : n < 2 ^ bits) : (n : ℚ) + 1 ≤ 2 ^ bits := by
  exact_mod_cast below

theorem product_finite {n : ℕ} (inRange : n < 2 ^ 1024) (bound : thousandfold n < 2 ^ 1024) :
    scaled true (ofRational (n / 1000)) = .finite (thousandfold n) := by
  have nonneg : (0 : ℚ) ≤ n / 1000 := div_nonneg n.cast_nonneg (by norm_num)
  have split : (2 : ℚ) ^ 1024 = 2 ^ 1015 * 2 ^ 9 := by rw [← pow_add]
  have larger : (2 : ℚ) ^ 1015 < 2 ^ 1024 := pow_lt_pow_right₀ (by norm_num) (by decide)
  have rangeCast := (cast_lt_two_pow n 1024).mpr inRange
  have small : (n : ℚ) / 1000 ≤ 2 ^ (1015 : ℤ) := by
    have power : (0 : ℚ) < 2 ^ 1015 := pow_pos (by norm_num) _
    rw [div_le_iff₀ (by norm_num), zpow_ofNat]
    rw [split] at rangeCast
    generalize (2 : ℚ) ^ 1015 = top at power rangeCast ⊢
    linarith
  have thousandth := nearest_le_two_pow double nonneg small (by decide)
  rw [zpow_ofNat] at thousandth
  have quotient : ofRational ((n : ℚ) / 1000) = .finite (double.nearest (n / 1000)) := by
    apply (of_rational_finite_iff _ _).mpr
    refine ⟨rfl, ?_⟩
    rw [abs_of_nonneg (nearest_nonneg double nonneg)]
    exact lt_of_le_of_lt thousandth larger
  rw [quotient]
  apply (of_rational_finite_iff _ _).mpr
  refine ⟨rfl, ?_⟩
  rw [← thousandfold, abs_of_nonneg (thousandfold_nonneg n.cast_nonneg)]
  exact bound

/-- The integer recorded for a thousandth is the number itself exactly when both roundings
bring it back. -/
theorem recorded_iff (n : ℕ) :
    truncate (scaled true (ofRational (n / 1000))) = some (n : ℤ) ↔ ComesBack n := by
  rcases n.eq_zero_or_pos with rfl | positive
  · have zero : truncate (scaled true (ofRational ((0 : ℕ) / 1000))) = some 0 := by
      decide +kernel
    exact iff_of_true zero (.inl rfl)
  · rw [ComesBack, or_iff_right positive.ne', truncate_eq_some_iff]
    have nonneg : 0 ≤ thousandfold n := thousandfold_nonneg (by positivity)
    constructor
    · rintro ⟨value, product, whole⟩
      obtain ⟨rfl, bound⟩ := finite_product product
      rw [if_pos nonneg] at whole
      have stored := representable_of_floor positive whole.symm
      have below := Int.floor_le (thousandfold n)
      rw [← whole, Int.cast_natCast] at below
      exact ⟨(cast_lt_two_pow n 1024).mp (lt_of_le_of_lt below bound), stored,
        (floor_thousandfold_iff positive stored).mp whole.symm⟩
    · rintro ⟨inRange, stored, back⟩
      have whole := (floor_thousandfold_iff positive stored).mpr back
      have bound : thousandfold n < 2 ^ 1024 := by
        have above := Int.lt_floor_add_one (thousandfold n)
        rw [whole, Int.cast_natCast] at above
        exact lt_of_lt_of_le above (cast_succ_le_two_pow inRange)
      refine ⟨thousandfold n, product_finite inRange bound, ?_⟩
      rw [if_pos nonneg, whole]

theorem of_rational_whole {n : ℕ} (small : n < 2 ^ 53) : ofRational n = .finite n := by
  rcases n.eq_zero_or_pos with rfl | positive
  · exact if_pos Nat.cast_zero
  · apply (of_rational_finite_iff _ _).mpr
    rw [nearest_representable positive (representable_of_lt positive small), Nat.abs_cast]
    refine ⟨rfl, (cast_lt_two_pow n 1024).mpr (lt_trans small ?_)⟩
    exact pow_lt_pow_right₀ (by norm_num) (by decide)

theorem piece_thousandths {numeral : Numeral} (short : numeral.places ≤ 3) :
    pieceInteger true (some numeral.text) = some (numeral.thousandths : ℤ) ↔
      ComesBack numeral.thousandths := by
  have value : numeral.value = numeral.thousandths / 1000 := by
    rw [thousandths_value short, mul_div_cancel_left₀ _ (by norm_num)]
  rw [pieceInteger, Option.bind_some, py_float_numeral, Option.bind_some, value]
  exact recorded_iff numeral.thousandths

theorem piece_whole {numeral : Numeral} (noPoint : numeral.fraction = none)
    (small : numeral.digitsValue < 2 ^ 53) :
    pieceInteger false (some numeral.text) = some (numeral.digitsValue : ℤ) := by
  have value : numeral.value = numeral.digitsValue := by
    rw [Numeral.value, Numeral.places, noPoint, Option.getD_none, List.length_nil, pow_zero,
      div_one]
  rw [pieceInteger, Option.bind_some, py_float_numeral, Option.bind_some, value,
    of_rational_whole small]
  change some (if 0 ≤ (numeral.digitsValue : ℚ) then _ else _) = _
  rw [if_pos (Nat.cast_nonneg _), Int.floor_natCast]

theorem text_pieces (lower upper : Numeral) :
    (lower.text ++ '-' :: upper.text).splitOn '-' = [lower.text, upper.text] := by
  rw [List.splitOn_append_cons_self_of_not_mem (not_in_text lower (by decide)),
    List.splitOn_eq_singleton (not_in_text upper (by decide))]

theorem with_k (text : List Char) :
    endsInK (text ++ ['k']) = true ∧ withoutK (text ++ ['k']) = text := by
  have marked : endsInK (text ++ ['k']) = true := decide_eq_true List.getLast?_concat
  refine ⟨marked, ?_⟩
  rw [withoutK, if_pos marked, List.dropLast_concat]

theorem without_k {text : List Char} (absent : 'k' ∉ text) :
    endsInK text = false ∧ withoutK text = text := by
  have unmarked : endsInK text = false := by
    apply decide_eq_false
    intro isLast
    exact absent (List.mem_of_getLast? isLast)
  refine ⟨unmarked, ?_⟩
  rw [withoutK, if_neg (by rw [unmarked]; decide)]

theorem pair_some_iff {k : Bool} {lower upper : List Char} {low high : ℤ} :
    ((pieceInteger k (some lower)).bind fun lower =>
      (pieceInteger k (some upper)).map fun upper => (lower, upper)) = some (low, high) ↔
      pieceInteger k (some lower) = some low ∧ pieceInteger k (some upper) = some high := by
  constructor
  · intro pair
    obtain ⟨first, isFirst, rest⟩ := Option.bind_eq_some_iff.mp pair
    obtain ⟨second, isSecond, same⟩ := Option.map_eq_some_iff.mp rest
    obtain ⟨rfl, rfl⟩ := Prod.mk.inj same
    exact ⟨isFirst, isSecond⟩
  · rintro ⟨isFirst, isSecond⟩
    rw [isFirst, isSecond]
    rfl

/-- A price in thousands is recorded as it is written exactly when both ends come back from
the two roundings; a price in whole numbers below `2 ^ 53` always is. -/
theorem recorded_as_written (lower upper : Numeral) (cellText : String) :
    (lower.places ≤ 3 → upper.places ≤ 3 →
      removeSpaces cellText.toList = lower.text ++ '-' :: (upper.text ++ ['k']) →
      (parsePrice cellText = some ((lower.thousandths : ℤ), (upper.thousandths : ℤ)) ↔
        ComesBack lower.thousandths ∧ ComesBack upper.thousandths)) ∧
    (lower.fraction = none → upper.fraction = none →
      lower.digitsValue < 2 ^ 53 → upper.digitsValue < 2 ^ 53 →
      removeSpaces cellText.toList = lower.text ++ '-' :: upper.text →
      parsePrice cellText = some ((lower.digitsValue : ℤ), (upper.digitsValue : ℤ))) := by
  have pieces := text_pieces lower upper
  constructor
  · intro shortLower shortUpper written
    have marked := with_k (lower.text ++ '-' :: upper.text)
    rw [List.append_assoc, List.cons_append, ← written] at marked
    rw [parse_price_eq]
    dsimp only
    rw [marked.1, marked.2, pieces]
    exact pair_some_iff.trans
      (and_congr (piece_thousandths shortLower) (piece_thousandths shortUpper))
  · intro wholeLower wholeUpper smallLower smallUpper written
    have noK : 'k' ∉ lower.text ++ '-' :: upper.text := by
      intro member
      rcases List.mem_append.mp member with inLower | rest
      · exact not_in_text lower (by decide) inLower
      · rcases List.mem_cons.mp rest with isHyphen | inUpper
        · exact absurd isHyphen (by decide)
        · exact not_in_text upper (by decide) inUpper
    have unmarked := without_k noK
    rw [← written] at unmarked
    rw [parse_price_eq]
    dsimp only
    rw [unmarked.1, unmarked.2, written, pieces]
    exact pair_some_iff.mpr ⟨piece_whole wholeLower smallLower, piece_whole wholeUpper smallUpper⟩

def twoAndOneHundredth : Numeral :=
  ⟨['2'], some ['0', '1'], List.all_eq_true.mp rfl, List.all_eq_true.mp rfl, by decide⟩

def twoAndAHalf : Numeral :=
  ⟨['2'], some ['5'], List.all_eq_true.mp rfl, List.all_eq_true.mp rfl, by decide⟩

def three : Numeral :=
  ⟨['3'], none, List.all_eq_true.mp rfl, List.all_eq_true.mp rfl, by decide⟩

theorem recorded_as_written_spaced :
    parsePrice "2\u200a.5\u2003-3k" = some (2500, 3000) ∧ parsePrice "3-3\u200a" = some (3, 3) :=
  ⟨((recorded_as_written twoAndAHalf three "2\u200a.5\u2003-3k").1 (by decide) (by decide)
      (by decide)).mpr (by decide +kernel),
    (recorded_as_written three three "3-3\u200a").2 rfl rfl (by decide +kernel) (by decide +kernel)
      (by decide)⟩

/-- The double nearest to 2.01 is below it, and so is a thousand times it after rounding. -/
theorem last_unit_lost :
    twoAndOneHundredth.places ≤ 3 ∧ three.places ≤ 3 ∧
      removeSpaces "2.01-3k".toList = twoAndOneHundredth.text ++ '-' :: (three.text ++ ['k']) ∧
      (1000 * twoAndOneHundredth.value, 1000 * three.value) = (2010, 3000) ∧
      parsePrice "2.01-3k" = some (2009, 3000) := by
  refine ⟨by decide, by decide, by decide, by decide +kernel, by decide +kernel⟩

end RlInvestments.RecordedPrices
