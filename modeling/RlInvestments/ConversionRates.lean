import RlInvestments.BinaryFormats
import RlInvestments.CrossPlatformSort

/-!
# Conversion rates and midpoints

The prices of an entry are meant to be the midpoints of its ranges. The division by
two binds to the upper bound alone, and the figure in the row drops its tenths in an
integer division. In exact arithmetic both slips cancel for some ranges; the list is
right when they cancel in every entry.
-/

namespace RlInvestments.ConversionRates

open RlInvestments.BinaryFormats RlInvestments.CatalogueItems RlInvestments.OverviewRows
open RlInvestments.CrossPlatformList RlInvestments.CrossPlatformSort

set_option autoImplicit false

/-- `Int(round(10 * percentageIncrease)) / 10`, a division of integers. -/
def percentageSimple (percentage : ℚ) : ℤ := (roundHalfAway (10 * percentage)).tdiv 10

def roundTenths (x : ℚ) : ℚ := roundHalfAway (10 * x) / 10

def midpoint : List Int → ℚ
  | [lower, upper] => (lower + upper) / 2
  | _ => 0

def midpointRatio (entry : XPlat ℚ) : ℚ :=
  midpoint entry.platform2Price / midpoint entry.platform1Price

structure RatesByMidpoint (xPlatItems : List (XPlat ℚ)) : Prop where
  percentages : ∀ entry ∈ xPlatItems, entry.percentageIncrease = 100 * midpointRatio entry
  ordered : xPlatItems.Pairwise fun first second => ¬ midpointRatio first < midpointRatio second
  shown : ∀ entry ∈ xPlatItems,
    (percentageSimple entry.percentageIncrease : ℚ) = roundTenths (100 * midpointRatio entry)

/-- The condition on two ranges: the misplaced divisions cancel, and the tenths of the
midpoint ratio are a whole number. -/
def SlipsCancel (lower1 upper1 lower2 upper2 : Int) : Prop :=
  (lower2 + upper2 / 2) * (lower1 + upper1) = (lower2 + upper2) * (lower1 + upper1 / 2) ∧
    10 ∣ roundHalfAway (1000 * (lower2 + upper2) / (lower1 + upper1))

section Entry

variable {lower1 upper1 lower2 upper2 : Int}

def slippedRate (lower1 upper1 lower2 upper2 : Int) : ℚ :=
  ((lower2 + upper2 / 2 : Int) : ℚ) / ((lower1 + upper1 / 2 : Int) : ℚ) * 100

theorem slipped_rate_iff (lower1Pos : 0 < lower1) (upper1Pos : 0 < upper1) :
    slippedRate lower1 upper1 lower2 upper2 =
        100 * (midpoint [lower2, upper2] / midpoint [lower1, upper1]) ↔
      (lower2 + upper2 / 2) * (lower1 + upper1) = (lower2 + upper2) * (lower1 + upper1 / 2) := by
  have slipped : (0 : ℚ) < ((lower1 + upper1 / 2 : Int) : ℚ) := by
    have half : 0 ≤ upper1 / 2 := Int.ediv_nonneg upper1Pos.le (by decide)
    exact_mod_cast (by omega : 0 < lower1 + upper1 / 2)
  have whole : (0 : ℚ) < ((lower1 + upper1 : Int) : ℚ) := by
    exact_mod_cast (by omega : 0 < lower1 + upper1)
  have ratio : 100 * (midpoint [lower2, upper2] / midpoint [lower1, upper1]) =
      ((lower2 + upper2 : Int) : ℚ) / ((lower1 + upper1 : Int) : ℚ) * 100 := by
    push_cast at whole
    simp only [midpoint]
    push_cast
    field_simp
  rw [ratio, slippedRate, mul_left_inj' (by norm_num), div_eq_div_iff slipped.ne' whole.ne']
  norm_cast

/-- An integer division by ten is exact on multiples of ten only. -/
theorem tdiv_ten_iff (value : Int) : ((value.tdiv 10 : Int) : ℚ) = value / 10 ↔ 10 ∣ value := by
  rw [eq_div_iff (by norm_num)]
  norm_cast
  constructor
  · intro exact
    exact ⟨value.tdiv 10, by omega⟩
  · rintro ⟨tenth, rfl⟩
    rw [Int.mul_tdiv_cancel_left _ (by decide)]
    omega

theorem shown_iff (percentage : ℚ) :
    (percentageSimple percentage : ℚ) = roundTenths percentage ↔
      10 ∣ roundHalfAway (10 * percentage) :=
  tdiv_ten_iff _

theorem slips_cancel_iff (lower1Pos : 0 < lower1) (upper1Pos : 0 < upper1) :
    SlipsCancel lower1 upper1 lower2 upper2 ↔
      slippedRate lower1 upper1 lower2 upper2 =
          100 * (midpoint [lower2, upper2] / midpoint [lower1, upper1]) ∧
        (percentageSimple (slippedRate lower1 upper1 lower2 upper2) : ℚ) =
          roundTenths (100 * (midpoint [lower2, upper2] / midpoint [lower1, upper1])) := by
  have whole : (0 : ℚ) < lower1 + upper1 := by exact_mod_cast (by omega : 0 < lower1 + upper1)
  have tenfold : 10 * (100 * (midpoint [lower2, upper2] / midpoint [lower1, upper1])) =
      1000 * (lower2 + upper2) / (lower1 + upper1) := by
    simp only [midpoint]
    field_simp
    ring
  rw [slipped_rate_iff lower1Pos upper1Pos, SlipsCancel]
  apply and_congr_right
  intro cancels
  rw [(slipped_rate_iff lower1Pos upper1Pos).mpr cancels, shown_iff, tenfold]

theorem platform_price_exact (lower upper : Int) (upperPos : 0 < upper) :
    platformPrice exactArithmetic [lower, upper] = .ok (lower + upper / 2) := by
  have half : upper.tdiv 2 = upper / 2 := Int.tdiv_eq_ediv_of_nonneg upperPos.le
  simp only [← half]
  rfl

end Entry

def PositiveRange : List Int → Prop
  | [lower, upper] => 0 < lower ∧ 0 < upper
  | _ => False

instance : DecidablePred PositiveRange
  | [lower, upper] => inferInstanceAs (Decidable (0 < lower ∧ 0 < upper))
  | [] => inferInstanceAs (Decidable False)
  | [_] => inferInstanceAs (Decidable False)
  | _ :: _ :: _ :: _ => inferInstanceAs (Decidable False)

theorem positive_range_pair {range : List Int} (positive : PositiveRange range) :
    ∃ lower upper, range = [lower, upper] ∧ 0 < lower ∧ 0 < upper := by
  match range, positive with
  | [lower, upper], positive => exact ⟨lower, upper, rfl, positive⟩

def PositivePrices (text : SwiftText) (xPlatData : String × String)
    (items : List DecodingItem) : Prop :=
  ∀ place ∈ places items, ∀ ranges ∈ bothRanges text xPlatData place,
    PositiveRange ranges.1 ∧ PositiveRange ranges.2

theorem positive_pairs {text : SwiftText} {xPlatData : String × String}
    {items : List DecodingItem} (positive : PositivePrices text xPlatData items)
    {place : DecodingItem × String} (member : place ∈ places items)
    {ranges : List Int × List Int} (both : bothRanges text xPlatData place = some ranges) :
    ∃ lower1 upper1 lower2 upper2 : Int, ranges = ([lower1, upper1], [lower2, upper2]) ∧
      0 < lower1 ∧ 0 < upper1 ∧ 0 < upper2 := by
  obtain ⟨first, second⟩ := positive place member ranges both
  obtain ⟨lower1, upper1, same1, lower1Pos, upper1Pos⟩ := positive_range_pair first
  obtain ⟨lower2, upper2, same2, -, upper2Pos⟩ := positive_range_pair second
  exact ⟨lower1, upper1, lower2, upper2, Prod.ext same1 same2, lower1Pos, upper1Pos, upper2Pos⟩

/-- The condition, on every entry of the catalogue that both platforms price. -/
def SlipsCancelThroughout (text : SwiftText) (xPlatData : String × String)
    (items : List DecodingItem) : Prop :=
  ∀ place ∈ places items, ∀ lower1 upper1 lower2 upper2,
    bothRanges text xPlatData place = some ([lower1, upper1], [lower2, upper2]) →
      SlipsCancel lower1 upper1 lower2 upper2

def EntryByMidpoint (entry : XPlat ℚ) : Prop :=
  entry.percentageIncrease = 100 * midpointRatio entry ∧
    (percentageSimple entry.percentageIncrease : ℚ) = roundTenths (100 * midpointRatio entry)

theorem x_plat_entry_exact (item : DecodingItem) (colour : String)
    {lower1 upper1 lower2 upper2 : Int} (upper1Pos : 0 < upper1) (upper2Pos : 0 < upper2) :
    xPlatEntry exactArithmetic item colour [lower1, upper1] [lower2, upper2] = .ok {
      itemName := item.itemName
      itemColour := colour
      percentageIncrease := slippedRate lower1 upper1 lower2 upper2
      platform1Price := [lower1, upper1]
      platform2Price := [lower2, upper2] } := by
  simp only [xPlatEntry, platform_price_exact _ _ upper1Pos, platform_price_exact _ _ upper2Pos]
  rfl

theorem entry_by_midpoint_iff {text : SwiftText} {xPlatData : String × String}
    {place : DecodingItem × String} {entry : XPlat ℚ}
    (made : EntryOf exactArithmetic text xPlatData place entry)
    {lower1 upper1 lower2 upper2 : Int}
    (ranges : bothRanges text xPlatData place = some ([lower1, upper1], [lower2, upper2]))
    (lower1Pos : 0 < lower1) (upper1Pos : 0 < upper1) (upper2Pos : 0 < upper2) :
    EntryByMidpoint entry ↔ SlipsCancel lower1 upper1 lower2 upper2 := by
  obtain ⟨range1, range2, same, built⟩ := made
  obtain ⟨rfl, rfl⟩ := Prod.mk.inj (Option.some.inj (ranges.symm.trans same))
  rw [x_plat_entry_exact _ _ upper1Pos upper2Pos] at built
  obtain rfl := Except.ok.inj built
  rw [slips_cancel_iff lower1Pos upper1Pos, EntryByMidpoint, midpointRatio]

/-- The order by midpoints comes with the percentages, the block having sorted by these. -/
theorem rates_by_midpoint_iff {xPlatItems : List (XPlat ℚ)} (descending : Descending xPlatItems) :
    RatesByMidpoint xPlatItems ↔ ∀ entry ∈ xPlatItems, EntryByMidpoint entry := by
  constructor
  · intro rates entry member
    exact ⟨rates.percentages entry member, rates.shown entry member⟩
  · intro each
    have percentages := fun entry member => (each entry member).1
    refine ⟨percentages, ?_, fun entry member => (each entry member).2⟩
    apply List.Pairwise.imp_of_mem _ descending
    intro first second firstMember secondMember below above
    rw [percentages first firstMember, percentages second secondMember] at below
    linarith

theorem each_entry_iff {text : SwiftText} {xPlatData : String × String}
    {items : List DecodingItem} (positive : PositivePrices text xPlatData items)
    {built : List (XPlat ℚ)}
    (entries : List.Forall₂ (EntryOf exactArithmetic text xPlatData)
      (pricedPlaces text xPlatData items) built) :
    (∀ entry ∈ built, EntryByMidpoint entry) ↔ SlipsCancelThroughout text xPlatData items := by
  constructor
  · intro each place member lower1 upper1 lower2 upper2 ranges
    obtain ⟨entry, present, made⟩ := entry_of_place entries
      (priced_place_of_ranges member ranges)
    obtain ⟨_, _, _, _, same, lower1Pos, upper1Pos, upper2Pos⟩ :=
      positive_pairs positive member ranges
    obtain ⟨⟨rfl, rfl⟩, rfl, rfl⟩ := by simpa using same
    exact (entry_by_midpoint_iff made ranges lower1Pos upper1Pos upper2Pos).mp
      (each entry present)
  · intro cancel entry present
    obtain ⟨place, listed, made⟩ := place_of_entry entries present
    have member := (List.mem_filter.mp listed).1
    obtain ⟨range1, range2, ranges, -⟩ := id made
    obtain ⟨lower1, upper1, lower2, upper2, same, lower1Pos, upper1Pos, upper2Pos⟩ :=
      positive_pairs positive member ranges
    rw [same] at ranges
    exact (entry_by_midpoint_iff made ranges lower1Pos upper1Pos upper2Pos).mpr
      (cancel place member _ _ _ _ ranges)

theorem built_total {text : SwiftText} {xPlatData : String × String} {items : List DecodingItem}
    (positive : PositivePrices text xPlatData items) :
    ∃ built, builtItems exactArithmetic text xPlatData items = .ok built := by
  apply built_items_total
  intro place member ranges both
  obtain ⟨lower1, upper1, lower2, upper2, rfl, -, upper1Pos, upper2Pos⟩ :=
    positive_pairs positive member both
  exact ⟨_, x_plat_entry_exact place.1 place.2 upper1Pos upper2Pos⟩

/-- In exact arithmetic the list that is shown is right if and only if the slips cancel in
every entry. -/
theorem rates_by_midpoint_when (text : SwiftText) (xPlatData : String × String)
    (items : List DecodingItem) (positive : PositivePrices text xPlatData items) :
    ∃ built sorted, builtItems exactArithmetic text xPlatData items = .ok built ∧
      sortItems (built.length + 1) built = .ok sorted ∧
      (RatesByMidpoint sorted ↔ SlipsCancelThroughout text xPlatData items) := by
  obtain ⟨built, rebuilt⟩ := built_total positive
  obtain ⟨sorted, ends, perm, descending⟩ := sort_items_total built (Nat.lt_succ_self _)
  apply Exists.intro built
  apply Exists.intro sorted
  apply And.intro rebuilt
  apply And.intro ends
  rw [rates_by_midpoint_iff descending, ← each_entry_iff positive (built_items_ok rebuilt)]
  exact forall_congr' fun entry => imp_congr_left perm.mem_iff

/-- An item that is traded in one colour, on PC and on Xbox. -/
def tradedItem (itemName : String) (pc xbox : List Int) : DecodingItem where
  itemName := itemName
  itemPriceRange := ofAttributes fun key =>
    if key = "pc_price" then some pc else if key = "xbox_price" then some xbox else none
  itemUrlName := itemName

def wideAndNarrow : List DecodingItem :=
  [tradedItem "Octane" [100, 100] [100, 300], tradedItem "Dominus" [100, 100] [180, 180]]

theorem wide_and_narrow_positive : PositivePrices asciiText ("PC", "Xbox") wideAndNarrow := by
  unfold PositivePrices
  decide +kernel

theorem rates_by_midpoint_when_wide :
    ∃ built sorted, builtItems exactArithmetic asciiText ("PC", "Xbox") wideAndNarrow = .ok built ∧
      sortItems (built.length + 1) built = .ok sorted ∧
      (RatesByMidpoint sorted ↔ SlipsCancelThroughout asciiText ("PC", "Xbox") wideAndNarrow) :=
  rates_by_midpoint_when asciiText ("PC", "Xbox") wideAndNarrow wide_and_narrow_positive

def wideSorted : Except (WhileLoops.Stop Fault) (List (XPlat ℚ)) := do
  let built ← WhileLoops.liftFault
    (builtItems exactArithmetic asciiText ("PC", "Xbox") wideAndNarrow)
  sortItems (built.length + 1) built

/-- The Dominus converts at 180 and comes first, the Octane at 200 after it. -/
theorem wide_range_ranked_below :
    PositivePrices asciiText ("PC", "Xbox") wideAndNarrow ∧
      ∀ built sorted,
        builtItems exactArithmetic asciiText ("PC", "Xbox") wideAndNarrow = .ok built →
        sortItems (built.length + 1) built = .ok sorted → ¬ RatesByMidpoint sorted := by
  apply And.intro wide_and_narrow_positive
  intro built sorted rebuilt ends rates
  have computed : wideSorted = .ok sorted := by
    rw [wideSorted, rebuilt]
    exact ends
  have ranked : wideSorted.toOption.map (List.map midpointRatio) = some [9 / 5, 2] := by
    decide +kernel
  rw [computed] at ranked
  have ratios : sorted.map midpointRatio = [9 / 5, 2] := Option.some.inj ranked
  have ordered : (sorted.map midpointRatio).Pairwise fun first second => ¬ first < second :=
    List.pairwise_map.mpr rates.ordered
  rw [ratios] at ordered
  exact (List.pairwise_cons.mp ordered).1 2 (List.mem_singleton_self _) (by norm_num)

end RlInvestments.ConversionRates
