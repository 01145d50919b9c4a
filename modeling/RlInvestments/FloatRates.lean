import RlInvestments.ConversionRates
import RlInvestments.RoundingBounds
import RlInvestments.ShownRates

/-!
# The rates in `Float` and in exact arithmetic

The screen computes, sorts and shows its percentages in single precision. For prices that
can be published, and a divisor other than zero, each of them stays within a small part of
the exact percentage. The rows can stand out of the exact order only where it is that small
part which decides, and below `2 ^ 24` credits only where the two percentages are equal.
-/

namespace RlInvestments.FloatRates

open RlInvestments.Binary64Rounding RlInvestments.BinaryFormats RlInvestments.RoundingBounds
open RlInvestments.CatalogueItems RlInvestments.GuardedRuns
open RlInvestments.OverviewRows (checked)
open RlInvestments.WhileLoops RlInvestments.CrossPlatformList RlInvestments.CrossPlatformSort
open RlInvestments.ConversionRates RlInvestments.ShownRates

set_option autoImplicit false

section Sorting

variable {First Second : Type}

def convertEntry (convert : First → Second) (entry : XPlat First) : XPlat Second where
  itemName := entry.itemName
  itemColour := entry.itemColour
  percentageIncrease := convert entry.percentageIncrease
  platform1Price := entry.platform1Price
  platform2Price := entry.platform2Price

theorem element_convert (convert : First → Second) (list : List (XPlat First)) (i : Nat) :
    element (list.map (convertEntry convert)) i =
      (element list i).map (convertEntry convert) := by
  rw [element, element, List.getElem?_map]
  cases list[i]? with
  | none => rfl
  | some entry => rfl

def convertLists (convert : First → Second) (lists : List (XPlat First) × List (XPlat First)) :
    List (XPlat Second) × List (XPlat Second) :=
  (lists.1.map (convertEntry convert), lists.2.map (convertEntry convert))

variable [LE First] [DecidableLE First] [LE Second] [DecidableLE Second] {convert : First → Second}

theorem compare_next_convert (agrees : ∀ a b, convert a ≤ convert b ↔ a ≤ b)
    (oldList : List (XPlat First)) (position : Nat × Nat) :
    compareNext (oldList.map (convertEntry convert)) position = compareNext oldList position := by
  have ⟨i, highestIncrease⟩ := position
  rw [compareNext, compareNext, element_convert, element_convert]
  cases element oldList i with
  | error stop => rfl
  | ok current =>
      cases element oldList highestIncrease with
      | error stop => rfl
      | ok highest =>
          have chosen : (if convert current.percentageIncrease ≥
              convert highest.percentageIncrease then i else highestIncrease) =
              if current.percentageIncrease ≥ highest.percentageIncrease then i
              else highestIncrease :=
            if_congr (agrees _ _) rfl rfl
          exact congrArg (fun chosen => Except.ok (i + 1, chosen)) chosen

theorem find_highest_convert (agrees : ∀ a b, convert a ≤ convert b ↔ a ≤ b) (fuel : Nat)
    (oldList : List (XPlat First)) :
    findHighest fuel (oldList.map (convertEntry convert)) = findHighest fuel oldList := by
  have same : compareNext (oldList.map (convertEntry convert)) = compareNext oldList :=
    funext (compare_next_convert agrees oldList)
  rw [findHighest, findHighest, List.length_map, same]

theorem move_highest_convert (agrees : ∀ a b, convert a ≤ convert b ↔ a ≤ b) (fuel : Nat)
    (lists : List (XPlat First) × List (XPlat First)) :
    moveHighest fuel (convertLists convert lists) =
      (moveHighest fuel lists).map (convertLists convert) := by
  have ⟨oldList, xPlatItems⟩ := lists
  rw [convertLists, moveHighest, moveHighest, find_highest_convert agrees]
  cases findHighest fuel oldList with
  | error stop => rfl
  | ok highestIncrease =>
      change (element (oldList.map (convertEntry convert)) highestIncrease >>= _) =
        Except.map _ (element oldList highestIncrease >>= _)
      rw [element_convert]
      cases element oldList highestIncrease with
      | error stop => rfl
      | ok entry =>
          change Except.ok ((oldList.map _).eraseIdx highestIncrease, xPlatItems.map _ ++ [_]) =
            Except.ok ((oldList.eraseIdx highestIncrease).map _, (xPlatItems ++ [entry]).map _)
          rw [List.eraseIdx_map, List.map_append]
          rfl

/-- A block does not depend on the percentages but for their order. -/
theorem sort_items_convert (agrees : ∀ a b, convert a ≤ convert b ↔ a ≤ b) (fuel : Nat)
    (xPlatItems : List (XPlat First)) :
    sortItems fuel (xPlatItems.map (convertEntry convert)) =
      (sortItems fuel xPlatItems).map (List.map (convertEntry convert)) := by
  have loop : runWhile (fun lists => 0 != lists.1.length) (moveHighest fuel) fuel
        (convertLists convert (xPlatItems, [])) =
      (runWhile (fun lists => 0 != lists.1.length) (moveHighest fuel) fuel (xPlatItems, [])).map
        (convertLists convert) := by
    apply run_while_map
    · intro lists
      rw [convertLists, List.length_map]
    · exact move_highest_convert agrees fuel
  change runWhile _ _ _ (convertLists convert (xPlatItems, [])) >>= _ = _
  rw [loop, sortItems]
  cases runWhile (fun lists => 0 != lists.1.length) (moveHighest fuel) fuel (xPlatItems, []) with
  | error stop => rfl
  | ok lists => rfl

end Sorting

/-- The roundings of a percentage: of the two prices, of their quotient and of the product. -/
def floatRate (price1 price2 : Int) : ℚ :=
  single.nearest (single.nearest (single.nearest price2 / single.nearest price1) * 100)

theorem percentage_eq {price1 price2 : Int} (positive : 1 ≤ price1) (bounded1 : price1 < 2 ^ 41)
    (nonneg : 0 ≤ price2) (bounded2 : price2 < 2 ^ 41) :
    percentage price1 price2 = .finite (floatRate price1 price2) := by
  have ⟨value, finite, _⟩ := percentage_finite positive bounded1 nonneg bounded2
  have converted1 := (to_float_finite (by omega : 0 ≤ price1) bounded1).1
  have converted2 := (to_float_finite nonneg bounded2).1
  have divisor := to_float_one_le positive
  rw [percentage, converted1, converted2, BinaryFormat.div, if_neg (by linarith),
    BinaryFormat.ofRational] at finite ⊢
  by_cases large : 2 ^ single.maxExponent ≤
      |single.nearest (single.nearest price2 / single.nearest price1)|
  · rw [if_pos large, BinaryFormat.mul, if_neg (by norm_num)] at finite
    cases finite
  · rw [if_neg large, BinaryFormat.mul, BinaryFormat.ofRational] at finite ⊢
    split at finite
    · cases finite
    · rename_i small
      rw [if_neg small, floatRate]

/-- The four roundings together are off by at most that part of the percentage. -/
theorem float_rate_near {price1 price2 : Int} (positive : 1 ≤ price1) (bounded1 : price1 < 2 ^ 41)
    (nonneg : 0 ≤ price2) :
    Near (6 / 2 ^ 24) (floatRate price1 price2) (exactArithmetic.rate price1 price2) := by
  change Near _ _ ((price2 : ℚ) / price1 * 100)
  rcases nonneg.eq_or_lt with zero | positive2
  · rw [floatRate, ← zero, Int.cast_zero, nearest_zero, zero_div, nearest_zero, zero_mul,
      nearest_zero, zero_div, zero_mul]
    exact near_zero _
  have divisorAbove : (1 : ℚ) ≤ price1 := by exact_mod_cast positive
  have dividendAbove : (1 : ℚ) ≤ price2 := by exact_mod_cast positive2
  have divisor : Near (1 / 2 ^ 24) (single.nearest price1) price1 :=
    near_nearest single (k := 0) divisorAbove (by decide)
  have dividend : Near (1 / 2 ^ 24) (single.nearest price2) price2 :=
    near_nearest single (k := 0) dividendAbove (by decide)
  have quotient := near_div dividend divisor (by linarith) (by linarith) (by norm_num)
    (by norm_num) (by norm_num) (by norm_num)
  have atMost := (to_float_finite (by omega : 0 ≤ price1) bounded1).2.2
  have atLeast := to_float_one_le (by omega : 1 ≤ price2)
  have divisorPos := to_float_one_le positive
  have normal : (2 : ℚ) ^ (-41 : ℤ) ≤ single.nearest price2 / single.nearest price1 := by
    rw [le_div_iff₀ (by linarith)]
    calc (2 : ℚ) ^ (-41 : ℤ) * single.nearest price1
        ≤ 2 ^ (-41 : ℤ) * 2 ^ (41 : ℤ) := mul_le_mul_of_nonneg_left atMost (two_pow_pos _).le
      _ = 1 := by norm_num
      _ ≤ single.nearest price2 := atLeast
  have exactNonneg : 0 ≤ (price2 : ℚ) / price1 := div_nonneg (by linarith) (by linarith)
  have divided := near_trans (near_nearest single normal (by decide)) quotient exactNonneg
    (by norm_num) (by norm_num [single]) (by norm_num [single])
  have scaled := near_scale divided (by norm_num : (0 : ℚ) ≤ 100)
  have stillNormal : (2 : ℚ) ^ (-41 : ℤ) ≤
      single.nearest (single.nearest price2 / single.nearest price1) * 100 := by
    have rounded := two_pow_le_nearest single normal (by decide)
    have unit := two_pow_pos (-41)
    linarith
  have product := near_trans (near_nearest single stillNormal (by decide)) scaled (by linarith)
    (by norm_num [single]) (by norm_num [single]) (by norm_num [single])
  exact near_weaken product (by linarith) (by norm_num [single])

/-- Below `2 ^ 24` the prices are exact, and the roundings keep the order of their quotients. -/
theorem float_rate_mono {price1 price2 other1 other2 : Int} (positive1 : 1 ≤ price1)
    (small1 : price1 < 2 ^ 24) (nonneg2 : 0 ≤ price2) (small2 : price2 < 2 ^ 24)
    (otherPositive1 : 1 ≤ other1) (otherSmall1 : other1 < 2 ^ 24) (otherNonneg2 : 0 ≤ other2)
    (otherSmall2 : other2 < 2 ^ 24)
    (ordered : exactArithmetic.rate price1 price2 ≤ exactArithmetic.rate other1 other2) :
    floatRate price1 price2 ≤ floatRate other1 other2 := by
  have exactly : ∀ price : Int, 0 ≤ price → price < 2 ^ 24 → single.nearest price = price :=
    fun price nonneg small => nearest_int single (by decide) nonneg small
  rw [floatRate, floatRate, exactly price1 (by omega) small1, exactly price2 nonneg2 small2,
    exactly other1 (by omega) otherSmall1, exactly other2 otherNonneg2 otherSmall2]
  have quotients : (price2 : ℚ) / price1 ≤ other2 / other1 := by
    change (price2 : ℚ) / price1 * 100 ≤ other2 / other1 * 100 at ordered
    linarith
  have nonneg : 0 ≤ (price2 : ℚ) / price1 := by
    apply div_nonneg
    · exact_mod_cast nonneg2
    · exact_mod_cast (by omega : 0 ≤ price1)
  have rounded := nearest_mono single nonneg quotients
  have roundedNonneg := nearest_nonneg single nonneg
  apply nearest_mono single
  · linarith
  · linarith

example : exactArithmetic.rate 16777214 16777215 < exactArithmetic.rate 16777213 16777214 ∧
    floatRate 16777214 16777215 = floatRate 16777213 16777214 := by
  decide +kernel

def rateOf (entry : XPlat FloatValue) : ℚ :=
  match entry.percentageIncrease with
  | .finite value => value
  | _ => 0

def shownPercentage (entry : XPlat FloatValue) : ℤ :=
  (roundHalfAway (single.nearest (10 * rateOf entry))).tdiv 10

theorem cell_for_row_text {entry : XPlat FloatValue} {value : ℚ} {text : String}
    (finite : entry.percentageIncrease = .finite value) (shown : cellForRowAt entry = .ok text) :
    text = rowText entry (shownPercentage entry) := by
  have rate : rateOf entry = value := by rw [rateOf, finite]
  rw [cellForRowAt, finite, BinaryFormat.mul, BinaryFormat.ofRational] at shown
  split at shown
  · cases shown
  · have whole : toInt (FloatValue.finite (single.nearest (10 * value))).rounded =
        checked (roundHalfAway (single.nearest (10 * value))) := by
      rw [FloatValue.rounded, toInt, FloatValue.integerPart, Int.floor_intCast, Int.ceil_intCast,
        ite_self]
    rw [whole, checked] at shown
    split at shown
    · rw [shownPercentage, rate]
      exact (Except.ok.inj shown).symm
    · cases shown

/-- The figure drops up to nine tenths of what is rounded. -/
theorem shown_percentage_close {entry : XPlat FloatValue} (nonneg : 0 ≤ rateOf entry) :
    single.nearest (10 * rateOf entry) / 10 - 19 / 20 ≤ shownPercentage entry ∧
      (shownPercentage entry : ℚ) ≤ single.nearest (10 * rateOf entry) / 10 + 1 / 20 := by
  have tenfold := nearest_nonneg single (by linarith : 0 ≤ 10 * rateOf entry)
  have floor := Int.floor_le (single.nearest (10 * rateOf entry) + 1 / 2)
  have ceiling := Int.lt_floor_add_one (single.nearest (10 * rateOf entry) + 1 / 2)
  have rounded : 0 ≤ ⌊single.nearest (10 * rateOf entry) + 1 / 2⌋ :=
    Int.floor_nonneg.mpr (by linarith)
  rw [shownPercentage, roundHalfAway, if_pos tenfold, Int.tdiv_eq_ediv_of_nonneg rounded]
  generalize ⌊single.nearest (10 * rateOf entry) + 1 / 2⌋ = whole at floor ceiling rounded ⊢
  have above : whole ≤ 10 * (whole / 10) + 9 := by omega
  have below : 10 * (whole / 10) ≤ whole := by omega
  have above' : (whole : ℚ) ≤ 10 * ((whole / 10 : ℤ) : ℚ) + 9 := by exact_mod_cast above
  have below' : 10 * ((whole / 10 : ℤ) : ℚ) ≤ whole := by exact_mod_cast below
  constructor
  · linarith
  · linarith

theorem shown_percentage_mono {first second : XPlat FloatValue} (nonneg : 0 ≤ rateOf second)
    (ordered : rateOf second ≤ rateOf first) : shownPercentage second ≤ shownPercentage first := by
  have tenfold : 0 ≤ 10 * rateOf second := by linarith
  have rounded := nearest_mono single tenfold (by linarith : 10 * rateOf second ≤ 10 * rateOf first)
  have least := nearest_nonneg single tenfold
  have wholes : ⌊single.nearest (10 * rateOf second) + 1 / 2⌋ ≤
      ⌊single.nearest (10 * rateOf first) + 1 / 2⌋ := Int.floor_mono (by linarith)
  have nonnegWhole : 0 ≤ ⌊single.nearest (10 * rateOf second) + 1 / 2⌋ :=
    Int.floor_nonneg.mpr (by linarith)
  rw [shownPercentage, shownPercentage, roundHalfAway, roundHalfAway, if_pos least,
    if_pos (least.trans rounded), Int.tdiv_eq_ediv_of_nonneg nonnegWhole,
    Int.tdiv_eq_ediv_of_nonneg (nonnegWhole.trans wholes)]
  exact Int.ediv_le_ediv (by decide) wholes

/-- The price of a range without a bound on integers. -/
def exactPrice : List Int → Int
  | [lower, upper] => lower + upper / 2
  | _ => 0

def exactRate (entry : XPlat FloatValue) : ℚ :=
  exactArithmetic.rate (exactPrice entry.platform1Price) (exactPrice entry.platform2Price)

def withRate (rate : XPlat FloatValue → ℚ) (entry : XPlat FloatValue) : XPlat ℚ where
  itemName := entry.itemName
  itemColour := entry.itemColour
  percentageIncrease := rate entry
  platform1Price := entry.platform1Price
  platform2Price := entry.platform2Price

structure Priced (entry : XPlat FloatValue) : Prop where
  positive : 1 ≤ exactPrice entry.platform1Price
  bounded1 : exactPrice entry.platform1Price < 2 ^ 41
  nonneg : 0 ≤ exactPrice entry.platform2Price
  bounded2 : exactPrice entry.platform2Price < 2 ^ 41
  computed : entry.percentageIncrease =
    percentage (exactPrice entry.platform1Price) (exactPrice entry.platform2Price)

section Row

variable {entry first second : XPlat FloatValue}

theorem priced_finite (priced : Priced entry) :
    entry.percentageIncrease = .finite (rateOf entry) ∧
      rateOf entry =
        floatRate (exactPrice entry.platform1Price) (exactPrice entry.platform2Price) := by
  have finite := priced.computed.trans
    (percentage_eq priced.positive priced.bounded1 priced.nonneg priced.bounded2)
  rw [rateOf, finite]
  exact ⟨rfl, rfl⟩

theorem exact_rate_nonneg (priced : Priced entry) : 0 ≤ exactRate entry := by
  apply mul_nonneg _ (by norm_num)
  apply div_nonneg
  · exact_mod_cast priced.nonneg
  · exact_mod_cast (by have positive := priced.positive; omega :
      0 ≤ exactPrice entry.platform1Price)

theorem priced_near (priced : Priced entry) :
    Near (6 / 2 ^ 24) (rateOf entry) (exactRate entry) := by
  rw [(priced_finite priced).2]
  exact float_rate_near priced.positive priced.bounded1 priced.nonneg

theorem rate_nonneg (priced : Priced entry) : 0 ≤ rateOf entry := by
  have lower := (priced_near priced).lower
  have nonneg := exact_rate_nonneg priced
  linarith

theorem tenfold_near (priced : Priced entry) :
    Near (1 / 2 ^ 21) (single.nearest (10 * rateOf entry)) (10 * exactRate entry) := by
  have near := priced_near priced
  have scaled := near_scale near (by norm_num : (0 : ℚ) ≤ 10)
  rw [mul_comm _ (10 : ℚ), mul_comm _ (10 : ℚ)] at scaled
  rcases priced.nonneg.eq_or_lt with zero | positive2
  · have exactly : exactRate entry = 0 := by
      change ((exactPrice entry.platform2Price : Int) : ℚ) / _ * 100 = 0
      rw [← zero, Int.cast_zero, zero_div, zero_mul]
    have none : rateOf entry = 0 := by
      rw [exactly] at near
      have lower := near.lower
      have upper := near.upper
      linarith
    rw [exactly, none, mul_zero, nearest_zero]
    exact near_zero _
  · have least : (2 : ℚ) ^ (-41 : ℤ) * 100 ≤ exactRate entry := by
      change _ ≤ (exactPrice entry.platform2Price : ℚ) / exactPrice entry.platform1Price * 100
      apply mul_le_mul_of_nonneg_right _ (by norm_num)
      have positive1 : (1 : ℚ) ≤ exactPrice entry.platform1Price := by
        exact_mod_cast priced.positive
      have bounded1 : (exactPrice entry.platform1Price : ℚ) ≤ 2 ^ (41 : ℤ) := by
        exact_mod_cast priced.bounded1.le
      rw [le_div_iff₀ (by linarith)]
      calc (2 : ℚ) ^ (-41 : ℤ) * exactPrice entry.platform1Price
          ≤ 2 ^ (-41 : ℤ) * 2 ^ (41 : ℤ) := mul_le_mul_of_nonneg_left bounded1 (two_pow_pos _).le
        _ = 1 := by norm_num
        _ ≤ exactPrice entry.platform2Price := by exact_mod_cast positive2
    have normal : (2 : ℚ) ^ (-41 : ℤ) ≤ 10 * rateOf entry := by
      have unit := two_pow_pos (-41)
      have lower := near.lower
      linarith
    have nonneg : 0 ≤ 10 * exactRate entry := mul_nonneg (by norm_num) (exact_rate_nonneg priced)
    have rounded := near_trans (near_nearest single normal (by decide)) scaled nonneg
      (by norm_num) (by norm_num [single]) (by norm_num [single])
    exact near_weaken rounded nonneg (by norm_num [single])

/-- The row of an entry: its percentage is a number, and the figure is that of the exact
percentage but for the roundings and the tenths that are dropped. -/
structure ShownNear (entry : XPlat FloatValue) : Prop where
  finite : entry.percentageIncrease = .finite (rateOf entry)
  near : Near (1 / 2 ^ 21) (rateOf entry) (exactRate entry)
  text : cellForRowAt entry = .ok (rowText entry (shownPercentage entry))
  atLeast : exactRate entry * (1 - 1 / 2 ^ 21) - 19 / 20 ≤ shownPercentage entry
  atMost : shownPercentage entry ≤ exactRate entry * (1 + 1 / 2 ^ 21) + 1 / 20

theorem priced_shown (priced : Priced entry) : ShownNear entry := by
  have finite := (priced_finite priced).1
  have nonneg := rate_nonneg priced
  have tenfold := tenfold_near priced
  have close := shown_percentage_close nonneg
  constructor
  · exact finite
  · exact near_weaken (priced_near priced) (exact_rate_nonneg priced) (by norm_num)
  · have ⟨value, computed, valueNonneg, above⟩ :=
      percentage_finite priced.positive priced.bounded1 priced.nonneg priced.bounded2
    have ⟨text, shown⟩ := cell_for_row_finite (priced.computed.trans computed) valueNonneg above
    rw [shown, cell_for_row_text finite shown]
  · have lower := tenfold.lower
    linarith [close.1]
  · have upper := tenfold.upper
    linarith [close.2]

def SmallPrices (entry : XPlat FloatValue) : Prop :=
  exactPrice entry.platform1Price < 2 ^ 24 ∧ exactPrice entry.platform2Price < 2 ^ 24

/-- A row above another one. -/
structure StandsAbove (first second : XPlat FloatValue) : Prop where
  rates : rateOf second ≤ rateOf first
  figures : shownPercentage second ≤ shownPercentage first
  near : exactRate second ≤ exactRate first * (1 + 1 / 2 ^ 20)
  small : SmallPrices first → SmallPrices second → exactRate first < exactRate second →
    rateOf first = rateOf second

theorem priced_above (firstPriced : Priced first) (secondPriced : Priced second)
    (ordered : rateOf second ≤ rateOf first) : StandsAbove first second := by
  constructor
  · exact ordered
  · exact shown_percentage_mono (rate_nonneg secondPriced) ordered
  · have lower := (priced_near secondPriced).lower
    have upper := (priced_near firstPriced).upper
    have nonneg := exact_rate_nonneg firstPriced
    linarith
  · intro firstSmall secondSmall less
    apply le_antisymm _ ordered
    rw [(priced_finite firstPriced).2, (priced_finite secondPriced).2]
    exact float_rate_mono firstPriced.positive firstSmall.1 firstPriced.nonneg firstSmall.2
      secondPriced.positive secondSmall.1 secondPriced.nonneg secondSmall.2 less.le

end Row

theorem sort_finite_total {built : List (XPlat FloatValue)}
    (finite : ∀ entry ∈ built, entry.percentageIncrease = .finite (rateOf entry)) :
    ∃ sorted, sortItems (built.length + 1) built = .ok sorted ∧ sorted.Perm built ∧
      sorted.Pairwise fun first second => rateOf second ≤ rateOf first := by
  have converted : (built.map (withRate rateOf)).map (convertEntry .finite) = built := by
    rw [List.map_map]
    apply (List.map_congr_left _).trans (List.map_id built)
    intro entry present
    rw [Function.comp_apply, convertEntry, withRate, ← finite entry present]
    rfl
  have ⟨sorted, ends, perm, descending⟩ :=
    sort_items_total (built.map (withRate rateOf)) (Nat.lt_succ_self _)
  refine ⟨sorted.map (convertEntry .finite), ?_, ?_, ?_⟩
  · have commutes := sort_items_convert finite_le_iff (built.length + 1)
      (built.map (withRate rateOf))
    rw [List.length_map] at ends
    rw [converted, ends] at commutes
    exact commutes
  · have image := perm.map (convertEntry FloatValue.finite)
    rw [converted] at image
    exact image
  · rw [List.pairwise_map]
    exact descending

theorem made_image {Place First Second : Type} {made : Place → First → Prop}
    {otherwise : Place → Second → Prop} {convert : First → Second} {places : List Place}
    {entries : List First} (entriesMade : List.Forall₂ made places entries)
    (same : ∀ place ∈ places, ∀ entry, made place entry → otherwise place (convert entry)) :
    List.Forall₂ otherwise places (entries.map convert) := by
  have listed := (List.forall₂_and_left (p := fun place => place ∈ places) places entries).mpr
    ⟨fun _ member => member, entriesMade⟩
  rw [List.forall₂_map_right_iff]
  apply listed.imp
  intro place entry ⟨member, holds⟩
  exact same place member entry holds

theorem x_plat_entry_exact_publishable (item : DecodingItem) (colour : String)
    {lower1 upper1 lower2 upper2 : Int} (upper1Nonneg : 0 ≤ upper1) (upper2Nonneg : 0 ≤ upper2) :
    xPlatEntry exactArithmetic item colour [lower1, upper1] [lower2, upper2] = .ok {
      itemName := item.itemName
      itemColour := colour
      percentageIncrease := slippedRate lower1 upper1 lower2 upper2
      platform1Price := [lower1, upper1]
      platform2Price := [lower2, upper2] } := by
  have half1 : upper1.tdiv 2 = upper1 / 2 := Int.tdiv_eq_ediv_of_nonneg upper1Nonneg
  have half2 : upper2.tdiv 2 = upper2 / 2 := Int.tdiv_eq_ediv_of_nonneg upper2Nonneg
  rw [slippedRate, ← half1, ← half2]
  rfl

variable {text : SwiftText} {xPlatData : String × String} {items : List DecodingItem}

theorem publishable_priced (item : DecodingItem) (colour : String)
    {lower1 upper1 lower2 upper2 : Int} (publishable1 : PublishableRange [lower1, upper1])
    (positive : ¬ ZeroRange [lower1, upper1]) (publishable2 : PublishableRange [lower2, upper2]) :
    Priced {
      itemName := item.itemName
      itemColour := colour
      percentageIncrease := percentage (lower1 + upper1 / 2) (lower2 + upper2 / 2)
      platform1Price := [lower1, upper1]
      platform2Price := [lower2, upper2] } := by
  have ⟨nonneg1, ordered1, bounded1⟩ := publishable1
  have ⟨nonneg2, ordered2, bounded2⟩ := publishable2
  have ⟨_, priceNonneg1, priceBounded1, zero1⟩ :=
    platform_price_publishable nonneg1 ordered1 bounded1
  have ⟨_, priceNonneg2, priceBounded2, _⟩ :=
    platform_price_publishable nonneg2 ordered2 bounded2
  have different : lower1 + upper1 / 2 ≠ 0 := fun zero => positive (zero1.mp zero)
  have atLeastOne : 1 ≤ lower1 + upper1 / 2 := by omega
  exact ⟨atLeastOne, priceBounded1, priceNonneg2, priceBounded2, rfl⟩

theorem published_entry (publishable : Publishable items)
    (nonzero : ∀ place ∈ places items, ∀ ranges ∈ bothRanges text xPlatData place,
      ¬ ZeroRange ranges.1)
    {place : DecodingItem × String} (member : place ∈ places items)
    {entry : XPlat FloatValue} (made : EntryOf floatArithmetic text xPlatData place entry) :
    Priced entry ∧ EntryOf exactArithmetic text xPlatData place (withRate exactRate entry) := by
  have ⟨range1, range2, both, computed⟩ := made
  have positive := nonzero place member _ both
  have ⟨publishable1, publishable2⟩ := ranges_publishable publishable member both
  obtain ⟨lower1, upper1, rfl, nonneg1, ordered1, _⟩ := publishable_range_pair publishable1
  obtain ⟨lower2, upper2, rfl, nonneg2, ordered2, _⟩ := publishable_range_pair publishable2
  rw [x_plat_entry_publishable place.1 place.2 publishable1 publishable2] at computed
  obtain rfl := Except.ok.inj computed
  apply And.intro
  · exact publishable_priced place.1 place.2 publishable1 positive publishable2
  · refine ⟨_, _, both, ?_⟩
    rw [x_plat_entry_exact_publishable place.1 place.2 (by omega) (by omega)]
    rfl

/-- The screen in single precision beside the list in exact arithmetic. -/
theorem float_screen_near (text : SwiftText) (xPlatData : String × String)
    (items : List DecodingItem) (publishable : Publishable items)
    (nonzero : ∀ place ∈ places items, ∀ ranges ∈ bothRanges text xPlatData place,
      ¬ ZeroRange ranges.1) :
    ∃ built sorted, builtItems floatArithmetic text xPlatData items = .ok built ∧
      builtItems exactArithmetic text xPlatData items = .ok (built.map (withRate exactRate)) ∧
      sortItems (built.length + 1) built = .ok sorted ∧ sorted.Perm built ∧
      (∀ entry ∈ sorted, ShownNear entry) ∧ sorted.Pairwise StandsAbove := by
  have ⟨built, floatBuilt, _⟩ := screen_never_traps_when text xPlatData items publishable
  have described := built_items_ok floatBuilt
  have priced : ∀ entry ∈ built, Priced entry := by
    intro entry present
    have ⟨place, listed, made⟩ := place_of_entry described present
    exact (published_entry publishable nonzero (List.mem_filter.mp listed).1 made).1
  have exactBuilt := built_items_of_entries (made_image described fun place listed entry made =>
    (published_entry publishable nonzero (List.mem_filter.mp listed).1 made).2)
  have ⟨sorted, ends, perm, descending⟩ := sort_finite_total fun entry present =>
    (priced_finite (priced entry present)).1
  refine ⟨built, sorted, floatBuilt, exactBuilt, ends, perm, ?_, ?_⟩
  · intro entry present
    exact priced_shown (priced entry (perm.mem_iff.mp present))
  · apply List.Pairwise.imp_of_mem _ descending
    intro first second firstPresent secondPresent ordered
    exact priced_above (priced first (perm.mem_iff.mp firstPresent))
      (priced second (perm.mem_iff.mp secondPresent)) ordered

theorem wide_and_narrow_publishable : Publishable wideAndNarrow := by
  unfold Publishable
  decide +kernel

theorem float_screen_near_wide :
    ∃ built sorted, builtItems floatArithmetic asciiText ("PC", "Xbox") wideAndNarrow = .ok built ∧
      builtItems exactArithmetic asciiText ("PC", "Xbox") wideAndNarrow =
        .ok (built.map (withRate exactRate)) ∧
      sortItems (built.length + 1) built = .ok sorted ∧ sorted.Perm built ∧
      (∀ entry ∈ sorted, ShownNear entry) ∧ sorted.Pairwise StandsAbove :=
  float_screen_near asciiText ("PC", "Xbox") wideAndNarrow wide_and_narrow_publishable
    (by decide +kernel)

end RlInvestments.FloatRates
