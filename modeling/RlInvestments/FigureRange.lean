import RlInvestments.HeldRecords

/-!
# The range of the figures shown

Quantities come from the steppers and prices from the catalogue, but the price that
was paid is whatever was typed. No handler checks it, and what a row or the total can
hold is decided by what was spent: these are the amounts for which no catalogue with
prices below 2^40 makes a figure leave the 64-bit range.
-/

namespace RlInvestments.FigureRange

open RlInvestments.GuardedRuns RlInvestments.CatalogueItems RlInvestments.InvestmentStore
open RlInvestments.OverviewRows RlInvestments.AppMemory RlInvestments.OverviewHandlers
open RlInvestments.FormSheet RlInvestments.AppRuns RlInvestments.HandlerRules
open RlInvestments.HeldRecords

set_option autoImplicit false

variable {Data : Type} {foundation : Foundation Data}

/-- Catalogue prices: non-negative and below 2^40. -/
def PriceInRange (price : Int) : Prop := 0 ≤ price ∧ price < 2 ^ 40

instance : DecidablePred PriceInRange := fun _ => inferInstanceAs (Decidable (_ ∧ _))

def RangedItem (item : DecodingItem) : Prop :=
  PricesAre (fun price => ∀ element ∈ price, PriceInRange element) item.itemPriceRange

instance (item : DecodingItem) : Decidable (RangedItem item) :=
  inferInstanceAs (Decidable (PricesAre _ _))

structure RangedRecord (record : InvestmentItem) : Prop where
  item : RangedItem record.item
  quantity : 1 ≤ record.quantity ∧ record.quantity ≤ 100
  boughtFor : FitsInt record.boughtFor

variable (foundation) in
def rangedRules : RecordRules foundation where
  record := RangedRecord
  item := RangedItem
  quantity value := 1 ≤ value ∧ value ≤ 100
  boughtFor := FitsInt
  allowed _ := True
  record_item ranged := ranged.item
  record_quantity ranged := ranged.quantity
  record_bought_for ranged := ranged.boughtFor
  requantified ranged admitted := ⟨ranged.item, admitted, ranged.boughtFor⟩
  accepted item quantity boughtFor _ := ⟨item, quantity, boughtFor⟩
  stepper admitted := of_decide_eq_true admitted
  typed := integer_value_fits
  unset := by decide
  preset := by decide
  outside := trivial
  numbering := trivial
  accounting := trivial
  rows _ _ _ _ := raises_only_iff.mpr fun _ _ => trivial
  total _ _ := raises_only_iff.mpr fun _ _ => trivial

def arrivesRanged : Event → Bool
  | .catalogueArrives (some tempItems) => decide (∀ item ∈ tempItems.items, RangedItem item)
  | _ => true

abbrev RangedPrices (s : AppState Data) (event : Event) : Prop :=
  Possible s event ∧ arrivesRanged event = true

variable (foundation) in
def RangedStored (defaults : UserDefaults Data) : Prop :=
  ∀ investment ∈ getSavedInvestments foundation defaults, RangedRecord investment

theorem attach_ranged {items : List DecodingItem} (ranged : ∀ item ∈ items, RangedItem item)
    {investment : InvestmentItem} (held : RangedRecord investment) :
    RangedRecord (attachItem items investment) := by
  rw [attach_item_eq]
  cases found : lastNamed items investment.item.itemName with
  | none => exact held
  | some item => exact ⟨ranged item (last_named_some found).1, held.quantity, held.boughtFor⟩

theorem ranged_admits (s : AppState Data) (event : Event) (guarded : RangedPrices s event) :
    Admitted (rangedRules foundation) s event := by
  refine ⟨guarded.1, ?_⟩
  cases event with
  | catalogueArrives catalogue =>
      cases catalogue with
      | none => exact trivial
      | some tempItems =>
          have ranged := of_decide_eq_true guarded.2
          refine ⟨ranged, fun held updated member => ?_⟩
          obtain ⟨investment, before, rfl⟩ := List.mem_map.mp member
          exact attach_ranged ranged (held investment before)
  | _ => exact trivial

theorem reachable_ranged {s : AppState Data}
    (reachable : Reachable (app foundation) RangedPrices
      (Launched foundation (RangedStored foundation)) s) :
    ∀ record ∈ s.investmentFilteredData, RangedRecord record := by
  have held : Held (rangedRules foundation) s :=
    reachable_held (reachable_mono ranged_admits (fun _ starts => starts) reachable)
  exact fun record member => held.records record (held.subset member)

def spent (record : InvestmentItem) : Int := record.quantity * record.boughtFor

/-- The largest profit that a record can show. -/
def profitBound (record : InvestmentItem) : Int :=
  (2 ^ 40 - 1) * record.quantity + max 0 (-spent record)

/-- What was spent on the records, and what can be gained by them, in 64 bits. -/
structure Moderate (records : List InvestmentItem) : Prop where
  spent : (records.map fun record => max 0 (spent record)).sum < 2 ^ 63
  profit : (records.map profitBound).sum < 2 ^ 63

theorem now_bounds {record : InvestmentItem} (ranged : RangedRecord record) {price : Int}
    (inRange : PriceInRange price) :
    0 ≤ price * record.quantity ∧ price * record.quantity ≤ (2 ^ 40 - 1) * record.quantity := by
  have positive : 0 ≤ record.quantity := by have := ranged.quantity; omega
  refine ⟨Int.mul_nonneg inRange.1 positive, Int.mul_le_mul_of_nonneg_right ?_ positive⟩
  have := inRange.2
  omega

/-- For one record the bounds are exact: they say that the row fits at every price. -/
theorem moderate_row_iff {record : InvestmentItem} (ranged : RangedRecord record) :
    Moderate [record] ↔ ∀ lower upper, PriceInRange lower → PriceInRange upper →
      FitsInt (spent record) ∧ FiguresFit record lower upper := by
  have highest : PriceInRange (2 ^ 40 - 1) := by decide
  have above := (now_bounds ranged highest).1
  have amount : record.quantity * record.boughtFor = spent record := rfl
  constructor
  · rintro ⟨spentFits, profitFits⟩ lower upper lowerRange upperRange
    simp only [List.map_cons, List.map_nil, List.sum_cons, List.sum_nil, profitBound]
      at spentFits profitFits
    have lowerNow := now_bounds ranged lowerRange
    have upperNow := now_bounds ranged upperRange
    refine ⟨?_, ?_, ?_, ?_, ?_⟩ <;> simp only [FitsInt, amount] <;> omega
  · intro fits
    obtain ⟨spentFits, -, nowFits, -, profitFits⟩ := fits 0 (2 ^ 40 - 1) (by decide) highest
    simp only [FitsInt, amount] at spentFits profitFits nowFits
    constructor <;>
      simp only [List.map_cons, List.map_nil, List.sum_cons, List.sum_nil, profitBound] <;> omega

theorem read_in_range {text : SwiftText} {record : InvestmentItem} (ranged : RangedRecord record)
    {i : Nat} {element : Int} (read : unwrapElement (listPrice text record) i = .ok element) :
    PriceInRange element := by
  unfold unwrapElement at read
  split at read
  · exact nomatch read
  · rename_i price found
    split at read
    · exact nomatch read
    · rename_i there
      exact Except.ok.inj read ▸
        get_colour_price_are ranged.item found _ (List.mem_of_getElem? there)

theorem moderate_row (text : SwiftText) {record : InvestmentItem} (ranged : RangedRecord record)
    (moderate : Moderate [record]) :
    RaisesOnly (fun fault => fault ≠ .overflow) (rowFigures text record) := by
  have fits := (moderate_row_iff ranged).mp moderate
  refine row_figures_raises text record
    (fun i _ => unwrap_element_raises (by decide) (by decide) _ i) (.inl ?_) ?_
  · exact (fits 0 0 (by decide) (by decide)).1
  · intro lower upper lowerRead upperRead
    rw [row_price_eq] at lowerRead upperRead
    exact .inl (fits lower upper (read_in_range ranged lowerRead)
      (read_in_range ranged upperRead)).2

structure Within (above profit : Int) (totals : Totals) : Prop where
  spent : totals.totalSpent ≤ above
  soldLower : 0 ≤ totals.totalIfSoldLowerBound ∧ totals.totalIfSoldLowerBound ≤ profit ∧
    totals.totalIfSoldLowerBound - totals.totalSpent ≤ profit
  soldUpper : 0 ≤ totals.totalIfSoldUpperBound ∧ totals.totalIfSoldUpperBound ≤ profit ∧
    totals.totalIfSoldUpperBound - totals.totalSpent ≤ profit

theorem within_next {above profit : Int} {totals : Totals} (within : Within above profit totals)
    {record : InvestmentItem} (ranged : RangedRecord record) {lower upper : Int}
    (lowerRange : PriceInRange lower) (upperRange : PriceInRange upper) :
    Within (above + max 0 (spent record)) (profit + profitBound record)
      (nextTotals totals record lower upper) := by
  have lowerNow := now_bounds ranged lowerRange
  have upperNow := now_bounds ranged upperRange
  obtain ⟨spentBound, lowerBound, upperBound⟩ := within
  have amount : record.boughtFor * record.quantity = spent record := Int.mul_comm _ _
  constructor <;> simp only [nextTotals, profitBound, amount] <;> omega

theorem sums_nonneg {records : List InvestmentItem}
    (ranged : ∀ record ∈ records, RangedRecord record) :
    0 ≤ (records.map fun record => max 0 (spent record)).sum ∧
      0 ≤ (records.map profitBound).sum := by
  induction records with
  | nil => simp
  | cons record records induction =>
      obtain ⟨first, rest⟩ := List.forall_mem_cons.mp ranged
      obtain ⟨restSpent, restProfit⟩ := induction rest
      have positive := first.quantity
      simp only [List.map_cons, List.sum_cons, profitBound]
      omega

/-- The invariant of the loop of `showTotal`. -/
structure TotalsModerate (records : List InvestmentItem) (totals : Totals) : Prop where
  ranged : ∀ record ∈ records, RangedRecord record
  within : ∃ above profit, 0 ≤ above ∧ 0 ≤ profit ∧ Within above profit totals ∧
    above + (records.map fun record => max 0 (spent record)).sum < 2 ^ 63 ∧
    profit + (records.map profitBound).sum < 2 ^ 63

theorem round_moderate (text : SwiftText) {record : InvestmentItem}
    {records : List InvestmentItem} {totals : Totals}
    (moderate : TotalsModerate (record :: records) totals) :
    RaisesOnly (fun fault => fault ≠ .overflow) (addRecord text totals record) ∧
      ∀ next, addRecord text totals record = .ok next → TotalsModerate records next := by
  obtain ⟨first, rest⟩ := List.forall_mem_cons.mp moderate.ranged
  obtain ⟨above, profit, aboveNonneg, profitNonneg, within, spentFits, profitFits⟩ :=
    moderate.within
  obtain ⟨restSpent, restProfit⟩ := sums_nonneg rest
  have amount : record.boughtFor * record.quantity = spent record := Int.mul_comm _ _
  have positive := first.quantity
  rw [List.map_cons, List.sum_cons] at spentFits profitFits
  have bound : profitBound record =
    (2 ^ 40 - 1) * record.quantity + max 0 (-spent record) := rfl
  obtain ⟨spentBound, lowerBound, upperBound⟩ := within
  constructor
  · refine add_record_raises text totals record
      (fun i _ => unwrap_element_raises (by decide) (by decide) _ i) (.inl ?_) ?_ ?_
    · rw [amount]
      constructor <;> unfold FitsInt <;> omega
    · intro lower read
      have now := now_bounds first (read_in_range first read)
      refine .inl ⟨?_, ?_⟩ <;> unfold FitsInt <;> omega
    · intro upper read
      have now := now_bounds first (read_in_range first read)
      refine .inl ⟨?_, ?_⟩ <;> unfold FitsInt <;> omega
  · intro next added
    obtain ⟨lower, upper, lowerRead, upperRead, rfl⟩ := add_record_ok added
    refine ⟨rest, above + max 0 (spent record), profit + profitBound record, by omega, by omega,
      ?_, by omega, by omega⟩
    exact within_next ⟨spentBound, lowerBound, upperBound⟩ first (read_in_range first lowerRead)
      (read_in_range first upperRead)

theorem moderate_total (text : SwiftText) {visible : List InvestmentItem}
    (ranged : ∀ record ∈ visible, RangedRecord record) (moderate : Moderate visible) :
    RaisesOnly (fun fault => fault ≠ .overflow) (showTotal text visible) := by
  have starts : TotalsModerate visible ⟨0, 0, 0⟩ :=
    ⟨ranged, 0, 0, le_rfl, le_rfl, ⟨by decide, by decide, by decide⟩,
      by simpa using moderate.spent, by simpa using moderate.profit⟩
  obtain ⟨rounds, results⟩ := raises_only_foldl_m TotalsModerate
    (fun record records totals kept => round_moderate text kept) starts
  refine raises_only_bind rounds fun totals summed => ?_
  obtain ⟨-, above, profit, -, -, within, spentFits, profitFits⟩ := results totals summed
  simp only [List.map_nil, List.sum_nil] at spentFits profitFits
  obtain ⟨spentBound, lowerBound, upperBound⟩ := within
  refine raises_only_bind (checked_raises (.inl ?_)) fun _ _ => ?_
  · unfold FitsInt
    omega
  · refine raises_only_bind (checked_raises (.inl ?_)) fun _ _ => trivial
    unfold FitsInt
    omega

theorem moderate_of_mem {records : List InvestmentItem}
    (ranged : ∀ record ∈ records, RangedRecord record) (moderate : Moderate records)
    {record : InvestmentItem} (member : record ∈ records) : Moderate [record] := by
  have spentNonneg : ∀ amount ∈ records.map fun record => max 0 (spent record), 0 ≤ amount := by
    intro amount listed
    obtain ⟨other, -, rfl⟩ := List.mem_map.mp listed
    exact le_max_left _ _
  have profitNonneg : ∀ amount ∈ records.map profitBound, 0 ≤ amount := by
    intro amount listed
    obtain ⟨other, among, rfl⟩ := List.mem_map.mp listed
    have positive := (ranged other among).quantity
    unfold profitBound
    omega
  have spentPart := List.single_le_sum spentNonneg _ (List.mem_map_of_mem member)
  have profitPart := List.single_le_sum profitNonneg _ (List.mem_map_of_mem member)
  constructor
  · simpa using spentPart.trans_lt moderate.spent
  · simpa using profitPart.trans_lt moderate.profit

variable (foundation) in
structure FiguresInRange (s : AppState Data) : Prop where
  /-- A visible row has moderate amounts precisely if it fits at all prices in range. -/
  fits : ∀ record ∈ s.investmentFilteredData, Moderate [record] ↔
    ∀ lower upper, PriceInRange lower → PriceInRange upper →
      FitsInt (spent record) ∧ FiguresFit record lower upper
  row : ∀ record ∈ s.investmentFilteredData, Moderate [record] →
    RaisesOnly (fun fault => fault ≠ .overflow) (rowFigures foundation.text record)
  rows : Moderate s.investmentFilteredData →
    RaisesOnly (fun fault => fault ≠ .overflow)
      (buildCells foundation.text s.investments s.investmentFilteredData)
  total : Moderate s.investmentFilteredData →
    RaisesOnly (fun fault => fault ≠ .overflow)
      (showTotal foundation.text s.investmentFilteredData)

/-- Whatever is typed, no figure of a record overflows while what was spent on it is
moderate, and no sum while that holds of the positive parts over the visible list. -/
theorem figures_in_range (foundation : Foundation Data) (s : AppState Data)
    (reachable : Reachable (app foundation) RangedPrices
      (Launched foundation (RangedStored foundation)) s) : FiguresInRange foundation s := by
  have ranged := reachable_ranged reachable
  refine ⟨fun record member => moderate_row_iff (ranged record member),
    fun record member => moderate_row _ (ranged record member), fun moderate => ?_,
    moderate_total _ ranged⟩
  refine build_cells_raises _ _ _ (fun record member => ?_) fun _ _ => .inl (by decide)
  exact moderate_row _ (ranged record member) (moderate_of_mem ranged moderate member)

theorem fresh_ranged : RangedStored foundation .fresh :=
  fun _ absent => absurd absent List.not_mem_nil

def rangedState (events : List Event) :
    Option (AppState (List InvestmentItem ⊕ List InvestmentGroup)) :=
  runEvents (app plainFoundation) RangedPrices (launch plainFoundation .fresh) events

theorem figures_in_range_second_session :
    ∃ s, rangedState secondSession = some s ∧
      amounts s.investmentFilteredData = [(1, 100), (3, 290)] ∧
      FiguresInRange plainFoundation s := by
  have added : (rangedState secondSession).map (fun s => amounts s.investmentFilteredData) =
      some [(1, 100), (3, 290)] := by decide +kernel
  have ⟨s, runs, paid⟩ := Option.map_eq_some_iff.mp added
  have reached : Reachable (app plainFoundation) RangedPrices
      (Launched plainFoundation (RangedStored plainFoundation)) s :=
    reachable_of_fresh_run _ fresh_ranged runs
  exact ⟨s, runs, paid, figures_in_range plainFoundation s reached⟩

/-- Two Octanes are stored for the largest price that can be typed. The app stops, and is
started again with the next catalogue. -/
def largestTyped : List Event :=
  [.catalogueArrives (some ⟨[octane, dominus]⟩), .overviewDidLoad, .itemsNotification,
    .overview .addNewButton, .form .itemSelectionDidLoad, .form (.didSelectItem 0),
    .form (.textChanged "9223372036854775807"), .form (.stepperValueChanged 2), .addButton,
    .catalogueArrives (some ⟨[octane, dominus]⟩)]

theorem largest_typed_overflows :
    ¬ ∀ s, Reachable (app plainFoundation) RangedPrices
        (Launched plainFoundation (RangedStored plainFoundation)) s →
      ∀ record ∈ s.investmentFilteredData,
        RaisesOnly (fun fault => fault ≠ .overflow) (rowFigures asciiText record) := by
  intro ranged
  have overflows : (rangedState largestTyped).map (fun s =>
      s.investmentFilteredData.map fun record =>
      match rowFigures asciiText record with
      | .ok _ => none
      | .error fault => some fault) = some [some .overflow] := by decide +kernel
  obtain ⟨s, runs, faults⟩ := Option.map_eq_some_iff.mp overflows
  obtain ⟨record, records, visible, stops, -⟩ := List.map_eq_cons_iff.mp faults
  have reached : Reachable (app plainFoundation) RangedPrices
      (Launched plainFoundation (RangedStored plainFoundation)) s :=
    reachable_of_fresh_run _ fresh_ranged runs
  have raises := ranged s reached record (visible ▸ List.mem_cons_self)
  cases computed : rowFigures asciiText record with
  | ok figures => simp [computed] at stops
  | error fault =>
      rw [computed] at stops raises
      exact raises (Option.some.inj stops)

end RlInvestments.FigureRange
