import RlInvestments.BinaryFormats
import RlInvestments.CrossPlatformSort

/-!
# The figures of the cross-platform rows

The app divides two `Float` prices and converts the tenfold, rounded percentage to
`Int`, which stops it when the percentage is infinite or not a number. For prices that
the scraper publishes the only divisor that does this is zero, and the ranges that
give it are 0 to 0 and 0 to 1.
-/

namespace RlInvestments.ShownRates

open RlInvestments.BinaryFormats RlInvestments.CatalogueItems RlInvestments.GuardedRuns
open RlInvestments.OverviewRows
open RlInvestments.CrossPlatformList RlInvestments.CrossPlatformSort

set_option autoImplicit false

def toFloat (price : Int) : FloatValue := single.ofRational price

/-- The literals 100 and 10 are values of the format. -/
def percentage (platform1Price platform2Price : Int) : FloatValue :=
  single.mul (single.div (toFloat platform2Price) (toFloat platform1Price)) (.finite 100)

def floatArithmetic : RateArithmetic FloatValue where
  add first second := checked (first + second)
  rate := percentage

/-- `Int(value)` stops the app unless the integer part exists and fits. -/
def toInt (value : FloatValue) : Except Fault Int :=
  match value.integerPart with
  | none => .error .overflow
  | some integer => checked integer

def cellForRowAt (entry : XPlat FloatValue) : Except Fault String := do
  let tenfold ← toInt (single.mul (.finite 10) entry.percentageIncrease).rounded
  .ok (rowText entry (tenfold.tdiv 10))

def PublishableRange : List Int → Prop
  | [lower, upper] => 0 ≤ lower ∧ lower ≤ upper ∧ upper < 2 ^ 40
  | _ => False

instance : DecidablePred PublishableRange
  | [lower, upper] => inferInstanceAs (Decidable (0 ≤ lower ∧ lower ≤ upper ∧ upper < 2 ^ 40))
  | [] => inferInstanceAs (Decidable False)
  | [_] => inferInstanceAs (Decidable False)
  | _ :: _ :: _ :: _ => inferInstanceAs (Decidable False)

theorem publishable_range_pair {range : List Int} (publishable : PublishableRange range) :
    ∃ lower upper, range = [lower, upper] ∧ 0 ≤ lower ∧ lower ≤ upper ∧ upper < 2 ^ 40 := by
  match range, publishable with
  | [lower, upper], publishable => exact ⟨lower, upper, rfl, publishable⟩

def Publishable (items : List DecodingItem) : Prop :=
  ∀ item ∈ items, PricesAre PublishableRange item.itemPriceRange

/-- The price of a range is zero for 0 to 0 and for 0 to 1. -/
def ZeroRange (range : List Int) : Prop := range = [0, 0] ∨ range = [0, 1]

instance (range : List Int) : Decidable (ZeroRange range) := inferInstanceAs (Decidable (_ ∨ _))

theorem platform_price_publishable {lower upper : Int} (nonneg : 0 ≤ lower)
    (ordered : lower ≤ upper) (bounded : upper < 2 ^ 40) :
    platformPrice floatArithmetic [lower, upper] = .ok (lower + upper / 2) ∧
      0 ≤ lower + upper / 2 ∧ lower + upper / 2 < 2 ^ 41 ∧
      (lower + upper / 2 = 0 ↔ ZeroRange [lower, upper]) := by
  have half : upper.tdiv 2 = upper / 2 := Int.tdiv_eq_ediv_of_nonneg (nonneg.trans ordered)
  have fits : FitsInt (lower + upper.tdiv 2) := by
    unfold FitsInt
    omega
  apply And.intro
  · change checked (lower + upper.tdiv 2) = _
    rw [checked, if_pos fits, half]
  · apply And.intro (by omega)
    apply And.intro (by omega)
    simp only [ZeroRange, List.cons.injEq, and_true]
    omega

theorem to_float_finite {price : Int} (nonneg : 0 ≤ price) (bounded : price < 2 ^ 41) :
    toFloat price = .finite (single.nearest price) ∧ 0 ≤ single.nearest price ∧
      single.nearest price ≤ 2 ^ (41 : ℤ) := by
  have nonneg' : (0 : ℚ) ≤ price := by exact_mod_cast nonneg
  have above : (price : ℚ) ≤ 2 ^ (41 : ℤ) := by exact_mod_cast bounded.le
  exact ⟨of_rational_finite nonneg' above (by decide) (by decide),
    nearest_nonneg single nonneg', nearest_le_two_pow single nonneg' above (by decide)⟩

theorem to_float_one_le {price : Int} (positive : 1 ≤ price) :
    (1 : ℚ) ≤ single.nearest price := by
  have below : (2 : ℚ) ^ (0 : ℤ) ≤ price := by exact_mod_cast positive
  exact two_pow_le_nearest single below (by decide)

theorem percentage_finite {price1 price2 : Int} (positive : 1 ≤ price1) (bounded1 : price1 < 2 ^ 41)
    (nonneg : 0 ≤ price2) (bounded2 : price2 < 2 ^ 41) :
    ∃ value, percentage price1 price2 = .finite value ∧ 0 ≤ value ∧ value ≤ 2 ^ (48 : ℤ) := by
  obtain ⟨converted1, -, -⟩ := to_float_finite (by omega) bounded1
  obtain ⟨converted2, nonneg2, above2⟩ := to_float_finite nonneg bounded2
  have divisor := to_float_one_le positive
  have quotientNonneg : 0 ≤ single.nearest price2 / single.nearest price1 :=
    div_nonneg nonneg2 (by linarith)
  have quotientAbove : single.nearest price2 / single.nearest price1 ≤ 2 ^ (41 : ℤ) :=
    (div_le_self nonneg2 divisor).trans above2
  have divided : single.div (toFloat price2) (toFloat price1) =
      .finite (single.nearest (single.nearest price2 / single.nearest price1)) := by
    rw [converted1, converted2, BinaryFormat.div, if_neg (by linarith)]
    exact of_rational_finite quotientNonneg quotientAbove (by decide) (by decide)
  have resultNonneg := nearest_nonneg single quotientNonneg
  have resultAbove := nearest_le_two_pow single quotientNonneg quotientAbove (by decide)
  have productNonneg :
      0 ≤ single.nearest (single.nearest price2 / single.nearest price1) * 100 := by
    linarith
  have productAbove :
      single.nearest (single.nearest price2 / single.nearest price1) * 100 ≤ 2 ^ (48 : ℤ) := by
    norm_num at resultAbove ⊢
    linarith
  refine ⟨_, ?_, nearest_nonneg single productNonneg,
    nearest_le_two_pow single productNonneg productAbove (by decide)⟩
  rw [percentage, divided]
  exact of_rational_finite productNonneg productAbove (by decide) (by decide)

/-- Over a zero price it is infinite, or not a number. -/
theorem percentage_of_zero (price2 : Int) (value : ℚ) : percentage 0 price2 ≠ .finite value := by
  have zero : toFloat 0 = .finite 0 := by
    rw [toFloat, Int.cast_zero, BinaryFormat.ofRational, nearest_zero, abs_zero,
      if_neg (not_le.mpr (two_pow_pos _))]
  rw [percentage, zero]
  cases toFloat price2 with
  | finite dividend =>
      rw [BinaryFormat.div, if_pos rfl]
      split
      · exact FloatValue.noConfusion
      · exact FloatValue.noConfusion
  | infinite negative => exact FloatValue.noConfusion
  | nan => exact FloatValue.noConfusion

theorem cell_for_row_finite {entry : XPlat FloatValue} {value : ℚ}
    (finite : entry.percentageIncrease = .finite value) (nonneg : 0 ≤ value)
    (above : value ≤ 2 ^ (48 : ℤ)) : ∃ text, cellForRowAt entry = .ok text := by
  have tenfoldNonneg : 0 ≤ 10 * value := by linarith
  have tenfoldAbove : 10 * value ≤ 2 ^ (52 : ℤ) := by
    norm_num at above ⊢
    linarith
  have tenfold : single.mul (.finite 10) entry.percentageIncrease =
      .finite (single.nearest (10 * value)) := by
    rw [finite]
    exact of_rational_finite tenfoldNonneg tenfoldAbove (by decide) (by decide)
  obtain ⟨roundedNonneg, roundedAbove⟩ := round_half_away_bounds (n := 2 ^ 52)
    (nearest_nonneg single tenfoldNonneg) (by
      exact_mod_cast nearest_le_two_pow single tenfoldNonneg tenfoldAbove (by decide))
  have converted : toInt (FloatValue.finite (single.nearest (10 * value))).rounded =
      .ok (roundHalfAway (single.nearest (10 * value))) := by
    have nonneg' : (0 : ℚ) ≤ roundHalfAway (single.nearest (10 * value)) := by
      exact_mod_cast roundedNonneg
    have fits : FitsInt (roundHalfAway (single.nearest (10 * value))) := by
      unfold FitsInt
      omega
    simp only [toInt, FloatValue.rounded, FloatValue.integerPart, if_pos nonneg', Int.floor_intCast,
      checked, if_pos fits]
  rw [cellForRowAt, tenfold, converted]
  exact ⟨_, rfl⟩

theorem cell_for_row_traps {entry : XPlat FloatValue}
    (notFinite : ∀ value, entry.percentageIncrease ≠ .finite value) :
    cellForRowAt entry = .error .overflow := by
  rw [cellForRowAt]
  cases increase : entry.percentageIncrease with
  | finite value => exact absurd increase (notFinite value)
  | infinite negative =>
      rw [BinaryFormat.mul, if_neg (by norm_num)]
      rfl
  | nan => rfl

/-- What the screen needs of an entry: a divisor other than zero, a finite percentage and a
conversion that does not stop the app. -/
structure RowSafe (entry : XPlat FloatValue) : Prop where
  divisor : ∃ price, platformPrice floatArithmetic entry.platform1Price = .ok price ∧
    toFloat price ≠ .finite 0
  finite : ∃ value, entry.percentageIncrease = .finite value
  shown : ∃ text, cellForRowAt entry = .ok text

theorem x_plat_entry_publishable (item : DecodingItem) (colour : String)
    {lower1 upper1 lower2 upper2 : Int} (publishable1 : PublishableRange [lower1, upper1])
    (publishable2 : PublishableRange [lower2, upper2]) :
    xPlatEntry floatArithmetic item colour [lower1, upper1] [lower2, upper2] = .ok {
      itemName := item.itemName
      itemColour := colour
      percentageIncrease := percentage (lower1 + upper1 / 2) (lower2 + upper2 / 2)
      platform1Price := [lower1, upper1]
      platform2Price := [lower2, upper2] } := by
  obtain ⟨nonneg1, ordered1, bounded1⟩ := publishable1
  obtain ⟨nonneg2, ordered2, bounded2⟩ := publishable2
  rw [xPlatEntry, (platform_price_publishable nonneg1 ordered1 bounded1).1,
    (platform_price_publishable nonneg2 ordered2 bounded2).1]
  rfl

theorem row_safe_iff {item : DecodingItem} {colour : String} {range1 range2 : List Int}
    (publishable1 : PublishableRange range1) (publishable2 : PublishableRange range2)
    {entry : XPlat FloatValue}
    (made : xPlatEntry floatArithmetic item colour range1 range2 = .ok entry) :
    RowSafe entry ↔ ¬ ZeroRange range1 := by
  obtain ⟨lower1, upper1, rfl, nonneg1, ordered1, bounded1⟩ := publishable_range_pair publishable1
  obtain ⟨lower2, upper2, rfl, nonneg2, ordered2, bounded2⟩ := publishable_range_pair publishable2
  rw [x_plat_entry_publishable item colour publishable1 publishable2] at made
  obtain rfl := Except.ok.inj made
  obtain ⟨price1, priceNonneg1, priceBounded1, zero1⟩ :=
    platform_price_publishable nonneg1 ordered1 bounded1
  obtain ⟨-, priceNonneg2, priceBounded2, -⟩ :=
    platform_price_publishable nonneg2 ordered2 bounded2
  constructor
  · intro safe zero
    obtain ⟨value, finite⟩ := safe.finite
    dsimp only at finite
    rw [zero1.mpr zero] at finite
    exact percentage_of_zero _ value finite
  · intro nonzero
    have positive : 1 ≤ lower1 + upper1 / 2 := by
      have different : lower1 + upper1 / 2 ≠ 0 := fun zero => nonzero (zero1.mp zero)
      omega
    obtain ⟨value, finite, valueNonneg, valueAbove⟩ :=
      percentage_finite positive priceBounded1 priceNonneg2 priceBounded2
    apply RowSafe.mk
    · apply Exists.intro (lower1 + upper1 / 2)
      apply And.intro price1
      rw [(to_float_finite priceNonneg1 priceBounded1).1]
      intro vanishes
      have one := to_float_one_le positive
      rw [FloatValue.finite.inj vanishes] at one
      exact absurd one (by norm_num)
    · exact ⟨value, finite⟩
    · exact cell_for_row_finite finite valueNonneg valueAbove

theorem ranges_publishable {text : SwiftText} {xPlatData : String × String}
    {items : List DecodingItem} (publishable : Publishable items)
    {place : DecodingItem × String} (member : place ∈ places items)
    {ranges : List Int × List Int} (both : bothRanges text xPlatData place = some ranges) :
    PublishableRange ranges.1 ∧ PublishableRange ranges.2 := by
  obtain ⟨item, held, inColours⟩ := List.mem_flatMap.mp member
  obtain ⟨colour, -, rfl⟩ := List.mem_map.mp inColours
  have prices := publishable item held
  unfold bothRanges at both
  split at both
  · rename_i range1 range2 found1 found2
    obtain rfl := Option.some.inj both
    exact ⟨get_colour_price_are prices found1, get_colour_price_are prices found2⟩
  · exact nomatch both

/-- `reload` itself never stops; the rows that do are those over a zero range. -/
theorem screen_never_traps_when (text : SwiftText) (xPlatData : String × String)
    (items : List DecodingItem) (publishable : Publishable items) :
    ∃ entries, builtItems floatArithmetic text xPlatData items = .ok entries ∧
      ((∀ entry ∈ entries, RowSafe entry) ↔
        ∀ place ∈ places items, ∀ ranges ∈ bothRanges text xPlatData place,
          ¬ ZeroRange ranges.1) := by
  have computed : ∀ place ∈ places items, ∀ ranges, bothRanges text xPlatData place = some ranges →
      ∃ entry, xPlatEntry floatArithmetic place.1 place.2 ranges.1 ranges.2 = .ok entry := by
    rintro place member ⟨range1, range2⟩ both
    obtain ⟨publishable1, publishable2⟩ := ranges_publishable publishable member both
    obtain ⟨lower1, upper1, rfl, -⟩ := publishable_range_pair publishable1
    obtain ⟨lower2, upper2, rfl, -⟩ := publishable_range_pair publishable2
    exact ⟨_, x_plat_entry_publishable place.1 place.2 publishable1 publishable2⟩
  obtain ⟨entries, built⟩ := built_items_total computed
  have described := built_items_ok built
  apply Exists.intro entries
  apply And.intro built
  constructor
  · intro safe place member ranges both
    have priced : place ∈ pricedPlaces text xPlatData items := priced_place_of_ranges member both
    obtain ⟨entry, present, range1, range2, same, made⟩ := entry_of_place described priced
    obtain rfl := Option.some.inj (both.symm.trans same)
    obtain ⟨publishable1, publishable2⟩ := ranges_publishable publishable member same
    exact (row_safe_iff publishable1 publishable2 made).mp (safe entry present)
  · intro nonzero entry present
    obtain ⟨place, priced, range1, range2, both, made⟩ := place_of_entry described present
    have member := (List.mem_filter.mp priced).1
    obtain ⟨publishable1, publishable2⟩ := ranges_publishable publishable member both
    exact (row_safe_iff publishable1 publishable2 made).mpr (nonzero place member _ both)

/-- On PC the item is sold for less than one credit. -/
def cheapItem : DecodingItem where
  itemName := "Octane"
  itemPriceRange := ofAttributes fun key =>
    if key = "pc_price" then some [0, 1] else if key = "xbox_price" then some [2, 3] else none
  itemUrlName := "Octane"

theorem cheap_item_publishable : Publishable [cheapItem] := by
  unfold Publishable
  decide +kernel

theorem screen_never_traps_when_cheap :
    ∃ entries, builtItems floatArithmetic asciiText ("Xbox", "PC") [cheapItem] = .ok entries ∧
      ((∀ entry ∈ entries, RowSafe entry) ↔
        ∀ place ∈ places [cheapItem], ∀ ranges ∈ bothRanges asciiText ("Xbox", "PC") place,
          ¬ ZeroRange ranges.1) :=
  screen_never_traps_when asciiText ("Xbox", "PC") [cheapItem] cheap_item_publishable

def cheapRows : Except Fault (List String) := do
  let entries ← builtItems floatArithmetic asciiText ("PC", "Xbox") [cheapItem]
  entries.mapM cellForRowAt

/-- From PC to Xbox the percentage is infinite, and its row stops the app. -/
theorem cheap_row_traps :
    Publishable [cheapItem] ∧ cheapRows = .error .overflow ∧
      ∀ entries, builtItems floatArithmetic asciiText ("PC", "Xbox") [cheapItem] = .ok entries →
        ¬ ∀ entry ∈ entries, RowSafe entry := by
  have trapped : cheapRows = .error .overflow := by decide +kernel
  apply And.intro cheap_item_publishable
  apply And.intro trapped
  intro entries built safe
  have shown : RaisesOnly (fun _ => False) (entries.mapM cellForRowAt) := by
    apply raises_only_map_m
    intro entry member
    obtain ⟨text, ends⟩ := (safe entry member).shown
    rw [ends]
    trivial
  have raised : entries.mapM cellForRowAt = .error .overflow := by
    rw [← trapped, cheapRows, built]
    rfl
  rw [raised] at shown
  exact shown

end RlInvestments.ShownRates
