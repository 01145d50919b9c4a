import RlInvestments.ConversionRates

/-!
# The platforms exchanged

The cross-platform list from one platform to another, and the list the other way round. Over
positive prices and in exact arithmetic the two have the same rows with their prices
exchanged and their rates inverted, and the second is in the opposite order.
-/

namespace RlInvestments.ExchangedPlatforms

open RlInvestments.CatalogueItems RlInvestments.GuardedRuns RlInvestments.OverviewRows
open RlInvestments.CrossPlatformList RlInvestments.CrossPlatformSort
open RlInvestments.ConversionRates

set_option autoImplicit false

def exchanged (entry : XPlat ℚ) : XPlat ℚ :=
  { entry with
    percentageIncrease := 10000 / entry.percentageIncrease
    platform1Price := entry.platform2Price
    platform2Price := entry.platform1Price }

section Place

variable {text : SwiftText} {xPlatData : String × String} {place : DecodingItem × String}

theorem both_ranges_swap (text : SwiftText) (xPlatData : String × String)
    (place : DecodingItem × String) :
    bothRanges text xPlatData.swap place = (bothRanges text xPlatData place).map Prod.swap := by
  simp only [bothRanges, Prod.fst_swap, Prod.snd_swap]
  cases place.1.getColourPrice text place.2 xPlatData.1 <;>
    cases place.1.getColourPrice text place.2 xPlatData.2 <;> rfl

theorem priced_places_swap (text : SwiftText) (xPlatData : String × String)
    (items : List DecodingItem) :
    pricedPlaces text xPlatData.swap items = pricedPlaces text xPlatData items := by
  have same : pricedOnBoth text xPlatData.swap = pricedOnBoth text xPlatData := by
    funext place
    rw [pricedOnBoth, both_ranges_swap, Option.isSome_map]
    rfl
  rw [pricedPlaces, same]
  rfl

theorem positive_swap {items : List DecodingItem} (positive : PositivePrices text xPlatData items) :
    PositivePrices text xPlatData.swap items := by
  intro place member ranges both
  have same : bothRanges text xPlatData.swap place = some ranges := both
  rw [both_ranges_swap] at same
  have ⟨original, isOriginal, swapped⟩ := Option.map_eq_some_iff.mp same
  have ⟨first, second⟩ := positive place member original isOriginal
  rw [← swapped]
  exact ⟨second, first⟩

theorem slipped_rate_inverse (lower1 upper1 lower2 upper2 : Int) :
    slippedRate lower2 upper2 lower1 upper1 =
      10000 / slippedRate lower1 upper1 lower2 upper2 := by
  unfold slippedRate
  rw [← div_div, div_div_eq_mul_div]
  ring

theorem slipped_rate_pos {lower1 upper1 lower2 upper2 : Int} (lower1Pos : 0 < lower1)
    (upper1Pos : 0 < upper1) (lower2Pos : 0 < lower2) (upper2Pos : 0 < upper2) :
    0 < slippedRate lower1 upper1 lower2 upper2 := by
  have first : 0 < lower1 + upper1 / 2 := by omega
  have second : 0 < lower2 + upper2 / 2 := by omega
  unfold slippedRate
  positivity

theorem exchanged_entry {items : List DecodingItem}
    (positive : PositivePrices text xPlatData items) (member : place ∈ places items)
    {entry other : XPlat ℚ} (made : EntryOf exactArithmetic text xPlatData place entry)
    (otherMade : EntryOf exactArithmetic text xPlatData.swap place other) :
    other = exchanged entry ∧ 0 < entry.percentageIncrease := by
  have ⟨range1, range2, ranges, built⟩ := made
  have ⟨other1, other2, otherRanges, otherBuilt⟩ := otherMade
  have ⟨first, second⟩ := positive place member (range1, range2) ranges
  obtain ⟨lower1, upper1, rfl, lower1Pos, upper1Pos⟩ := positive_range_pair first
  obtain ⟨lower2, upper2, rfl, lower2Pos, upper2Pos⟩ := positive_range_pair second
  rw [both_ranges_swap, ranges] at otherRanges
  cases otherRanges
  rw [x_plat_entry_exact _ _ upper1Pos upper2Pos] at built
  rw [x_plat_entry_exact _ _ upper2Pos upper1Pos] at otherBuilt
  cases built
  cases otherBuilt
  constructor
  · rw [exchanged, slipped_rate_inverse]
  · exact slipped_rate_pos lower1Pos upper1Pos lower2Pos upper2Pos

end Place

section Lists

variable {text : SwiftText} {xPlatData : String × String}

theorem exchanged_entries {items : List DecodingItem}
    (positive : PositivePrices text xPlatData items) {visited : List (DecodingItem × String)}
    (among : ∀ place ∈ visited, place ∈ places items) {built other : List (XPlat ℚ)}
    (made : List.Forall₂ (EntryOf exactArithmetic text xPlatData) visited built)
    (otherMade : List.Forall₂ (EntryOf exactArithmetic text xPlatData.swap) visited other) :
    other = built.map exchanged ∧ ∀ entry ∈ built, 0 < entry.percentageIncrease := by
  induction made generalizing other with
  | nil =>
      cases otherMade
      exact ⟨rfl, nofun⟩
  | cons first _ induction =>
      cases otherMade with
      | cons otherFirst rest =>
          have ⟨here, later⟩ := List.forall_mem_cons.mp among
          have ⟨isHead, headPos⟩ := exchanged_entry positive here first otherFirst
          have ⟨isTail, tailPos⟩ := induction later rest
          rw [isHead, isTail]
          exact ⟨rfl, List.forall_mem_cons.mpr ⟨headPos, tailPos⟩⟩

/-- Inverted, positive numbers in descending order are in ascending order. -/
theorem inverted_ascending {rates : List ℚ} (positive : ∀ rate ∈ rates, 0 < rate)
    (descending : rates.Pairwise fun first second => second ≤ first) :
    (rates.map fun rate => 10000 / rate).reverse.Pairwise fun first second => second ≤ first := by
  rw [List.pairwise_reverse, List.pairwise_map]
  apply List.Pairwise.imp_of_mem _ descending
  intro first second _ inRates below
  exact div_le_div_of_nonneg_left (by norm_num) (positive second inRates) below

/-- Over any catalogue with positive prices, the list in the other direction has the same rows
exchanged, and its rates are the inverted ones in the opposite order. -/
theorem exchanged_list (text : SwiftText) (xPlatData : String × String)
    (items : List DecodingItem) (positive : PositivePrices text xPlatData items) :
    ∃ built sorted other otherSorted,
      builtItems exactArithmetic text xPlatData items = .ok built ∧
      sortItems (built.length + 1) built = .ok sorted ∧
      builtItems exactArithmetic text xPlatData.swap items = .ok other ∧
      sortItems (other.length + 1) other = .ok otherSorted ∧
      otherSorted.Perm (sorted.map exchanged) ∧
      otherSorted.map XPlat.percentageIncrease =
        ((sorted.map XPlat.percentageIncrease).map fun rate => 10000 / rate).reverse := by
  have ⟨built, rebuilt⟩ := built_total positive
  have ⟨other, otherRebuilt⟩ := built_total (positive_swap positive)
  have ⟨sorted, ends, perm, descending⟩ := sort_items_total built (Nat.lt_succ_self _)
  have ⟨otherSorted, otherEnds, otherPerm, otherDescending⟩ :=
    sort_items_total other (Nat.lt_succ_self _)
  have otherMade := built_items_ok otherRebuilt
  rw [priced_places_swap] at otherMade
  have among : ∀ place ∈ pricedPlaces text xPlatData items, place ∈ places items :=
    fun place member => List.mem_of_mem_filter member
  have ⟨same, builtPos⟩ := exchanged_entries positive among (built_items_ok rebuilt) otherMade
  have exchangedPerm : otherSorted.Perm (sorted.map exchanged) := by
    apply otherPerm.trans
    rw [same]
    exact (perm.map exchanged).symm
  refine ⟨built, sorted, other, otherSorted, rebuilt, ends, otherRebuilt, otherEnds,
    exchangedPerm, ?_⟩
  have sortedPos : ∀ rate ∈ sorted.map XPlat.percentageIncrease, 0 < rate :=
    List.forall_mem_map.mpr fun entry member => builtPos entry (perm.mem_iff.mp member)
  have rates : (otherSorted.map XPlat.percentageIncrease).Perm
      ((sorted.map XPlat.percentageIncrease).map fun rate => 10000 / rate) := by
    have mapped := exchangedPerm.map XPlat.percentageIncrease
    rw [List.map_map] at mapped
    rw [List.map_map]
    exact mapped
  apply List.Perm.eq_of_pairwise _ _ _ (rates.trans (List.reverse_perm _).symm)
  · exact fun first second => second ≤ first
  · exact fun _ _ _ _ below above => le_antisymm above below
  · exact List.pairwise_map.mpr otherDescending
  · exact inverted_ascending sortedPos (List.pairwise_map.mpr descending)

end Lists

theorem exchanged_list_wide :
    ∃ built sorted other otherSorted,
      builtItems exactArithmetic asciiText ("PC", "Xbox") wideAndNarrow = .ok built ∧
      sortItems (built.length + 1) built = .ok sorted ∧
      builtItems exactArithmetic asciiText ("Xbox", "PC") wideAndNarrow = .ok other ∧
      sortItems (other.length + 1) other = .ok otherSorted ∧
      otherSorted.Perm (sorted.map exchanged) ∧
      otherSorted.map XPlat.percentageIncrease =
        ((sorted.map XPlat.percentageIncrease).map fun rate => 10000 / rate).reverse :=
  exchanged_list asciiText ("PC", "Xbox") wideAndNarrow wide_and_narrow_positive

end RlInvestments.ExchangedPlatforms
