import RlInvestments.BinaryFormats
import RlInvestments.PublishedPrices

/-!
# Which cell texts have a price

A text has a price when its first two pieces between hyphens are numerals of `float`
with finite values, a final `k` being taken off before. What follows a second hyphen
is not looked at, and no bound is put on the integers. They are never negative, since
a piece contains no hyphen.
-/

namespace RlInvestments.CellAcceptance

open RlInvestments.Binary64Rounding RlInvestments.BinaryFormats RlInvestments.PriceCellParser
open RlInvestments.CatalogueItems RlInvestments.PublishedPrices

set_option autoImplicit false

/-- Nothing, or a second hyphen and whatever follows it. -/
def StartsWithHyphen (rest : List Char) : Prop := rest = [] ∨ ∃ further, rest = '-' :: further

theorem split_at_first {text : List Char} (present : '-' ∈ text) :
    ∃ first rest, text = first ++ '-' :: rest ∧ '-' ∉ first := by
  obtain ⟨first, rest, rfl, absent⟩ := List.eq_append_cons_of_mem present
  exact ⟨first, rest, rfl, absent⟩

theorem first_piece_iff (text first : List Char) :
    (text.splitOn '-')[0]? = some first ↔
      ∃ rest, text = first ++ rest ∧ '-' ∉ first ∧ StartsWithHyphen rest := by
  constructor
  · intro isFirst
    by_cases present : '-' ∈ text
    · obtain ⟨piece, rest, rfl, absent⟩ := split_at_first present
      rw [List.splitOn_append_cons_self_of_not_mem absent] at isFirst
      obtain rfl := Option.some.inj isFirst
      exact ⟨'-' :: rest, rfl, absent, .inr ⟨rest, rfl⟩⟩
    · rw [List.splitOn_eq_singleton present] at isFirst
      obtain rfl := Option.some.inj isFirst
      exact ⟨[], (List.append_nil _).symm, present, .inl rfl⟩
  · rintro ⟨rest, rfl, absent, rfl | ⟨further, rfl⟩⟩
    · rw [List.append_nil, List.splitOn_eq_singleton absent]
      rfl
    · rw [List.splitOn_append_cons_self_of_not_mem absent]
      rfl

theorem first_two_pieces_iff (text first second : List Char) :
    (text.splitOn '-')[0]? = some first ∧ (text.splitOn '-')[1]? = some second ↔
      ∃ rest, text = first ++ '-' :: (second ++ rest) ∧ '-' ∉ first ∧ '-' ∉ second ∧
        StartsWithHyphen rest := by
  constructor
  · rintro ⟨isFirst, isSecond⟩
    obtain ⟨tail, rfl, absent, rfl | ⟨further, rfl⟩⟩ := (first_piece_iff text first).mp isFirst
    · rw [List.append_nil, List.splitOn_eq_singleton absent] at isSecond
      exact nomatch isSecond
    · rw [List.splitOn_append_cons_self_of_not_mem absent] at isSecond
      obtain ⟨rest, rfl, absentSecond, starts⟩ := (first_piece_iff further second).mp isSecond
      exact ⟨rest, rfl, absent, absentSecond, starts⟩
  · rintro ⟨rest, rfl, absent, absentSecond, starts⟩
    rw [List.splitOn_append_cons_self_of_not_mem absent]
    exact ⟨rfl, (first_piece_iff _ second).mpr ⟨rest, rfl, absentSecond, starts⟩⟩

theorem piece_hyphen_free (text : List Char) :
    ∀ piece ∈ text.splitOn '-', '-' ∉ piece := by
  induction text with
  | nil => decide
  | cons c rest induction =>
      intro piece isPiece
      rw [List.splitOn_cons_eq_if_modifyHead] at isPiece
      split at isPiece
      · rcases List.mem_cons.mp isPiece with rfl | later
        · exact List.not_mem_nil
        · exact induction piece later
      · rename_i notHyphen
        cases pieces : rest.splitOn '-' with
        | nil => exact absurd pieces (List.splitOn_ne_nil '-' rest)
        | cons first others =>
            rw [pieces] at isPiece induction
            rcases List.mem_cons.mp isPiece with rfl | later
            · have inner := induction first (List.mem_cons_self ..)
              have different : '-' ≠ c := by
                rintro rfl
                exact notHyphen (beq_self_eq_true _)
              exact List.not_mem_cons_of_ne_of_not_mem different inner
            · exact induction piece (List.mem_cons_of_mem _ later)

theorem map_m_forall {First Second : Type} {compute : First → Option Second}
    {values : List First} {results : List Second} (property : Second → Prop)
    (computed : values.mapM compute = some results)
    (each : ∀ value ∈ values, ∀ result, compute value = some result → property result) :
    ∀ result ∈ results, property result := by
  induction values generalizing results with
  | nil =>
      obtain rfl := Option.some.inj computed
      intro result member
      exact nomatch member
  | cons value values induction =>
      rw [List.mapM_cons] at computed
      obtain ⟨first, isFirst, rest⟩ := Option.bind_eq_some_iff.mp computed
      obtain ⟨others, isOthers, joined⟩ := Option.bind_eq_some_iff.mp rest
      obtain rfl := Option.some.inj joined
      intro result member
      rcases List.mem_cons.mp member with rfl | later
      · exact each value (List.mem_cons_self ..) _ isFirst
      · apply induction isOthers _ result later
        intro other isMember
        exact each other (List.mem_cons_of_mem _ isMember)

theorem wide_digit_hyphen {c digit : Char} (rewritten : wideDigit c = some digit) :
    digit ≠ '-' := by
  obtain ⟨base, found, rfl⟩ := Option.map_eq_some_iff.mp rewritten
  have digits := List.find?_some found
  rw [Bool.and_eq_true, decide_eq_true_iff, decide_eq_true_iff] at digits
  have small : c.toNat - base < 10 := by omega
  have none : ∀ n < 10, Nat.digitChar n ≠ '-' := by decide
  exact none _ small

theorem ascii_form_hyphen {text ascii : List Char} (converted : asciiForm text = some ascii)
    (absent : '-' ∉ text) : '-' ∉ ascii := by
  unfold asciiForm at converted
  split at converted
  · obtain rfl := Option.some.inj converted
    exact absent
  · have inherited : ∀ c ∈ ascii, c ≠ '-' := by
      apply map_m_forall (fun c => c ≠ '-') converted
      intro c isMember result rewritten
      split at rewritten
      · obtain rfl := Option.some.inj rewritten
        intro isHyphen
        exact absent (isHyphen ▸ isMember)
      · split at rewritten
        · obtain rfl := Option.some.inj rewritten
          decide
        · exact wide_digit_hyphen rewritten
    intro member
    exact inherited '-' member rfl

theorem strip_subset (text : List Char) : strip text ⊆ text := by
  intro c member
  have inner := (List.dropWhile_sublist _).mem (List.mem_reverse.mp member)
  exact (List.dropWhile_sublist _).mem (List.mem_reverse.mp inner)

theorem drop_underscores_subset {previous : Char} {text digits : List Char}
    (dropped : dropUnderscores previous text = some digits) : digits ⊆ text := by
  induction text generalizing previous digits with
  | nil =>
      rw [dropUnderscores] at dropped
      split at dropped
      · cases dropped
      · rw [← Option.some.inj dropped]
        exact List.Subset.refl _
  | cons c rest induction =>
      rw [dropUnderscores] at dropped
      split at dropped
      · split at dropped
        · exact List.subset_cons_of_subset _ (induction dropped)
        · cases dropped
      · split at dropped
        · cases dropped
        · obtain ⟨others, isOthers, rfl⟩ := Option.map_eq_some_iff.mp dropped
          exact List.cons_subset_cons _ (induction isOthers)

theorem split_sign_positive {text : List Char} (absent : '-' ∉ text) :
    ∃ body, splitSign text = (false, body) := by
  unfold splitSign
  split
  · exact absurd (List.mem_cons_self ..) absent
  · exact ⟨_, rfl⟩
  · exact ⟨_, rfl⟩

theorem literal_value_nonneg {digits : List Char} {places : ℕ} {exponentValue : Option Int}
    {value : ℚ} (literal : (if digits = [] then none else
      exponentValue.map fun exponent : Int =>
        Nat.ofDigitChars 10 digits 0 * (10 : ℚ) ^ (exponent - places)) = some value) :
    0 ≤ value := by
  split at literal
  · exact nomatch literal
  · obtain ⟨exponent, -, rfl⟩ := Option.map_eq_some_iff.mp literal
    positivity

theorem decimal_literal_nonneg {text : List Char} {value : ℚ}
    (literal : decimalLiteral text = some value) : 0 ≤ value := by
  unfold decimalLiteral at literal
  dsimp only at literal
  split at literal
  · exact literal_value_nonneg literal
  · exact literal_value_nonneg literal

theorem of_rational_nonneg {q value : ℚ} (nonneg : 0 ≤ q)
    (rounded : Binary64Rounding.ofRational q = .finite value) : 0 ≤ value := by
  rw [((of_rational_finite_iff q value).mp rounded).1]
  exact nearest_nonneg double nonneg

theorem number_literal_nonneg {text : List Char} {value : ℚ} (absent : '-' ∉ text)
    (number : numberLiteral text = some (.finite value)) : 0 ≤ value := by
  obtain ⟨body, isBody⟩ := split_sign_positive absent
  unfold numberLiteral at number
  rw [isBody] at number
  dsimp only at number
  split at number
  · exact nomatch number
  · split at number
    · exact nomatch number
    · obtain ⟨magnitude, literal, rounded⟩ := Option.map_eq_some_iff.mp number
      exact of_rational_nonneg (decimal_literal_nonneg literal) rounded

theorem py_float_nonneg {text : List Char} {value : ℚ} (absent : '-' ∉ text)
    (number : pyFloat text = some (.finite value)) : 0 ≤ value := by
  obtain ⟨ascii, converted, rest⟩ := Option.bind_eq_some_iff.mp number
  obtain ⟨digits, dropped, literal⟩ := Option.bind_eq_some_iff.mp rest
  apply number_literal_nonneg _ literal
  intro member
  exact ascii_form_hyphen converted absent
    (strip_subset ascii (drop_underscores_subset dropped member))

theorem scaled_nonneg {k : Bool} {number : Binary64} {value : ℚ}
    (nonneg : ∀ unscaled, number = .finite unscaled → 0 ≤ unscaled)
    (product : scaled k number = .finite value) : 0 ≤ value := by
  cases k with
  | false => exact nonneg value product
  | true =>
      cases number with
      | finite unscaled =>
          exact of_rational_nonneg (mul_nonneg (nonneg unscaled rfl) (by norm_num)) product
      | infinite negative => exact nomatch product
      | nan => exact nomatch product

/-- The marker of thousands. -/
def endsInK (text : List Char) : Bool := decide (text.getLast? = some 'k')

def withoutK (text : List Char) : List Char := if endsInK text then text.dropLast else text

def PieceValue (k : Bool) (piece : List Char) (value : ℚ) : Prop :=
  (pyFloat piece).map (scaled k) = some (.finite value)

/-- Two numerals joined by a hyphen, and possibly a second hyphen with any text after it. -/
def Accepts (cellText : String) (value1 value2 : ℚ) : Prop :=
  let text := removeSpaces cellText.toList
  ∃ first second rest, withoutK text = first ++ '-' :: (second ++ rest) ∧
    '-' ∉ first ∧ '-' ∉ second ∧ StartsWithHyphen rest ∧
    PieceValue (endsInK text) first value1 ∧ PieceValue (endsInK text) second value2

theorem piece_value_nonneg {k : Bool} {piece : List Char} {value : ℚ} (absent : '-' ∉ piece)
    (isValue : PieceValue k piece value) : 0 ≤ value := by
  obtain ⟨number, isNumber, product⟩ := Option.map_eq_some_iff.mp isValue
  apply scaled_nonneg _ product
  rintro unscaled rfl
  exact py_float_nonneg absent isNumber

theorem truncate_eq_some_iff {number : Binary64} {n : ℤ} :
    truncate number = some n ↔
      ∃ value, number = .finite value ∧ n = if 0 ≤ value then ⌊value⌋ else ⌈value⌉ := by
  cases number with
  | finite value =>
      constructor
      · intro whole
        exact ⟨value, rfl, (Option.some.inj whole).symm⟩
      · rintro ⟨_, isValue, rfl⟩
        obtain rfl := Binary64.finite.inj isValue
        rfl
  | infinite negative =>
      constructor
      · intro whole
        exact nomatch whole
      · rintro ⟨_, infinite, -⟩
        exact nomatch infinite
  | nan =>
      constructor
      · intro whole
        exact nomatch whole
      · rintro ⟨_, infinite, -⟩
        exact nomatch infinite

def pieceInteger (k : Bool) (piece : Option (List Char)) : Option ℤ :=
  (piece.bind pyFloat).bind fun number => truncate (scaled k number)

theorem piece_integer_iff {k : Bool} {piece : Option (List Char)} {n : ℤ}
    (absent : ∀ text, piece = some text → '-' ∉ text) :
    pieceInteger k piece = some n ↔
      ∃ text value, piece = some text ∧ PieceValue k text value ∧ n = ⌊value⌋ := by
  constructor
  · intro whole
    obtain ⟨number, isNumber, truncated⟩ := Option.bind_eq_some_iff.mp whole
    obtain ⟨text, rfl, parsed⟩ := Option.bind_eq_some_iff.mp isNumber
    obtain ⟨value, isValue, rfl⟩ := truncate_eq_some_iff.mp truncated
    have isPiece : PieceValue k text value := by
      rw [PieceValue, parsed, ← isValue]
      rfl
    refine ⟨text, value, rfl, isPiece, ?_⟩
    rw [if_pos (piece_value_nonneg (absent text rfl) isPiece)]
  · rintro ⟨text, value, rfl, isPiece, rfl⟩
    obtain ⟨number, parsed, isValue⟩ := Option.map_eq_some_iff.mp isPiece
    rw [pieceInteger, Option.bind_some, parsed, Option.bind_some, truncate_eq_some_iff]
    refine ⟨value, isValue, ?_⟩
    rw [if_pos (piece_value_nonneg (absent text rfl) isPiece)]

/-- Both pieces are read before either is truncated; only the outcome matters. -/
theorem pair_of_pieces (k : Bool) (piece1 piece2 : Option (List Char)) :
    (piece1.bind fun text1 => (pyFloat text1).bind fun num1 =>
      piece2.bind fun text2 => (pyFloat text2).bind fun num2 =>
        (truncate (scaled k num1)).bind fun lower =>
          (truncate (scaled k num2)).bind fun upper => some (lower, upper)) =
      (pieceInteger k piece1).bind fun lower =>
        (pieceInteger k piece2).map fun upper => (lower, upper) := by
  cases piece1 with
  | none => rfl
  | some text1 =>
      simp only [pieceInteger, Option.bind_some]
      cases pyFloat text1 with
      | none => rfl
      | some num1 =>
          rw [Option.bind_some, Option.bind_some]
          cases piece2 with
          | none => cases truncate (scaled k num1) <;> rfl
          | some text2 =>
              rw [Option.bind_some, Option.bind_some]
              cases pyFloat text2 with
              | none => cases truncate (scaled k num1) <;> rfl
              | some num2 =>
                  rw [Option.bind_some, Option.bind_some]
                  cases truncate (scaled k num1) with
                  | none => rfl
                  | some lower => cases truncate (scaled k num2) <;> rfl

theorem parse_price_eq (cellText : String) :
    parsePrice cellText =
      (let text := removeSpaces cellText.toList
      let splitPrice := (withoutK text).splitOn '-'
      (pieceInteger (endsInK text) splitPrice[0]?).bind fun lower =>
        (pieceInteger (endsInK text) splitPrice[1]?).map fun upper => (lower, upper)) := by
  unfold parsePrice
  dsimp only
  generalize removeSpaces cellText.toList = text
  cases isLast : text.getLast? with
  | none =>
      obtain rfl := List.getLast?_eq_none_iff.mp isLast
      rfl
  | some last =>
      have marker : endsInK text = decide (last = 'k') := by
        simp only [endsInK, isLast, Option.some.injEq]
      rw [withoutK, marker, ← pair_of_pieces]
      rfl

theorem parse_price_iff (cellText : String) (pair : PricePair) :
    parsePrice cellText = some pair ↔
      ∃ value1 value2, Accepts cellText value1 value2 ∧ pair = (⌊value1⌋, ⌊value2⌋) := by
  rw [parse_price_eq]
  dsimp only
  generalize isText : withoutK (removeSpaces cellText.toList) = text
  have hyphenFree : ∀ (n : ℕ) (piece : List Char), (text.splitOn '-')[n]? = some piece →
      '-' ∉ piece := by
    intro n piece isPiece
    exact piece_hyphen_free text piece (List.mem_of_getElem? isPiece)
  constructor
  · intro parsed
    obtain ⟨lower, isLower, rest⟩ := Option.bind_eq_some_iff.mp parsed
    obtain ⟨upper, isUpper, rfl⟩ := Option.map_eq_some_iff.mp rest
    obtain ⟨first, value1, isFirst, piece1, rfl⟩ := (piece_integer_iff (hyphenFree 0)).mp isLower
    obtain ⟨second, value2, isSecond, piece2, rfl⟩ :=
      (piece_integer_iff (hyphenFree 1)).mp isUpper
    obtain ⟨further, joined, absent1, absent2, starts⟩ :=
      (first_two_pieces_iff text first second).mp ⟨isFirst, isSecond⟩
    exact ⟨value1, value2,
      ⟨first, second, further, isText.trans joined, absent1, absent2, starts, piece1, piece2⟩, rfl⟩
  · rintro ⟨value1, value2, ⟨first, second, further, joined, absent1, absent2, starts, piece1,
      piece2⟩, rfl⟩
    obtain ⟨isFirst, isSecond⟩ := (first_two_pieces_iff text first second).mpr
      ⟨further, isText.symm.trans joined, absent1, absent2, starts⟩
    have lower := (piece_integer_iff (hyphenFree 0)).mpr ⟨first, value1, isFirst, piece1, rfl⟩
    have upper := (piece_integer_iff (hyphenFree 1)).mpr ⟨second, value2, isSecond, piece2, rfl⟩
    rw [lower, upper]
    rfl

theorem floor_fits_iff {value : ℚ} (nonneg : 0 ≤ value) : FitsInt ⌊value⌋ ↔ value < 2 ^ 63 := by
  have floor : 0 ≤ ⌊value⌋ := Int.floor_nonneg.mpr nonneg
  constructor
  · intro fits
    have below := Int.floor_lt.mp fits.2
    exact_mod_cast below
  · intro below
    constructor
    · omega
    · apply Int.floor_lt.mpr
      exact_mod_cast below

/-- A text has a price when its first two pieces are numerals with finite values, and the
price is the integer parts of the two. The app can decode it when both are below `2 ^ 63`. -/
theorem price_of_pieces (cellText : String) :
    (∀ pair, parsePrice cellText = some pair ↔
      ∃ value1 value2, Accepts cellText value1 value2 ∧ pair = (⌊value1⌋, ⌊value2⌋)) ∧
    ∀ value1 value2, Accepts cellText value1 value2 →
      0 ≤ value1 ∧ 0 ≤ value2 ∧
        (PairFits (⌊value1⌋, ⌊value2⌋) ↔ value1 < 2 ^ 63 ∧ value2 < 2 ^ 63) := by
  constructor
  · exact parse_price_iff cellText
  · rintro value1 value2 ⟨first, second, rest, -, absent1, absent2, -, piece1, piece2⟩
    have nonneg1 := piece_value_nonneg absent1 piece1
    have nonneg2 := piece_value_nonneg absent2 piece2
    exact ⟨nonneg1, nonneg2, and_congr (floor_fits_iff nonneg1) (floor_fits_iff nonneg2)⟩

def TwoNumerals (text : List Char) : Prop :=
  ∃ first second, text = first ++ '-' :: second ∧ '-' ∉ first ∧ '-' ∉ second ∧
    pyFloat first ≠ none ∧ pyFloat second ≠ none

/-- A piece after a second hyphen is ignored, and a price may be too large for the app. -/
theorem third_piece_and_large_price :
    (parsePrice "1-2-3" = some (1, 2) ∧ ¬ TwoNumerals (withoutK (removeSpaces "1-2-3".toList))) ∧
    (parsePrice "1e30-2" = some (1000000000000000019884624838656, 2) ∧
      ¬ PairFits (1000000000000000019884624838656, 2)) := by
  refine ⟨⟨by decide +kernel, ?_⟩, by decide +kernel, by decide⟩
  rintro ⟨first, second, joined, absent1, absent2, -, -⟩
  have hyphens := congrArg (List.count '-') joined
  rw [List.count_append, List.count_cons_self, List.count_eq_zero_of_not_mem absent1,
    List.count_eq_zero_of_not_mem absent2] at hyphens
  exact absurd hyphens (by decide)

end RlInvestments.CellAcceptance
