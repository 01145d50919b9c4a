import RlInvestments.HeldRecords
import RlInvestments.PublishedPrices

/-!
# The prices of held investments

A record is stored only while its item has a price in its colour on its platform, but a
refresh gives it the last catalogue entry with its name, whose prices are other ones. As
long as every refresh brings a price for each record that it changes, no price is ever
missing where the overview unwraps it.
-/

namespace RlInvestments.HeldPrices

open RlInvestments.GuardedRuns RlInvestments.LastMatchScan RlInvestments.CatalogueItems
open RlInvestments.InvestmentStore RlInvestments.OverviewRows RlInvestments.AppMemory
open RlInvestments.OverviewHandlers RlInvestments.FormSheet RlInvestments.AppRuns
open RlInvestments.HandlerRules RlInvestments.HeldRecords RlInvestments.PublishedPrices

set_option autoImplicit false

variable {Data : Type} {foundation : Foundation Data}

/-- The items that the scrapers publish: each of the 56 prices is `nil` or has two elements. -/
def Publishable (item : DecodingItem) : Prop :=
  PricesAre (fun price => price.length = 2) item.itemPriceRange

instance (item : DecodingItem) : Decidable (Publishable item) :=
  inferInstanceAs (Decidable (PricesAre _ _))

theorem decoded_publishable (item : CatalogueAssembly.Item) : Publishable (decodedItem item) := by
  refine prices_are_of_attributes fun key price found => ?_
  obtain ⟨pair, -, rfl⟩ := Option.map_eq_some_iff.mp found
  rfl

structure PricedRecord (text : SwiftText) (record : InvestmentItem) : Prop where
  publishable : Publishable record.item
  priced : (listPrice text record).isSome = true

theorem price_elements {text : SwiftText} {record : InvestmentItem}
    (held : PricedRecord text record) :
    ∃ price, listPrice text record = some price ∧ price.length = 2 := by
  obtain ⟨price, found⟩ := Option.isSome_iff_exists.mp held.priced
  exact ⟨price, found, get_colour_price_are held.publishable found⟩

theorem price_unwraps {allowed : Fault → Prop} {text : SwiftText} {record : InvestmentItem}
    (held : PricedRecord text record) (i : Nat) (inPair : i < 2) :
    RaisesOnly allowed (unwrapElement (listPrice text record) i) := by
  obtain ⟨price, found, two⟩ := price_elements held
  rw [found, unwrapElement, List.getElem?_eq_getElem (two ▸ inPair)]
  exact trivial

theorem priced_rows (text : SwiftText) (investments visible : List InvestmentItem)
    (subset : visible ⊆ investments) (held : ∀ record ∈ visible, PricedRecord text record) :
    RaisesOnly (fun fault => fault = .overflow) (buildCells text investments visible) := by
  refine build_cells_raises text investments visible (fun record member => ?_)
    fun record member => .inr ?_
  · refine row_figures_raises text record (fun i inPair => ?_) (.inr rfl) fun _ _ _ _ => .inr rfl
    rw [row_price_eq]
    exact price_unwraps (held record member) i inPair
  · cases found : lastPosition (fun investment => decide (record.id = investment.id))
        investments with
    | none =>
        have absent := (last_position_none_iff _ _).mp found record (subset member)
        exact absurd rfl (of_decide_eq_false absent)
    | some i => exact ⟨i, rfl⟩

theorem priced_total (text : SwiftText) (visible : List InvestmentItem)
    (held : ∀ record ∈ visible, PricedRecord text record) :
    RaisesOnly (fun fault => fault = .overflow) (showTotal text visible) := by
  have rounds : RaisesOnly (fun fault => fault = Fault.overflow)
      (visible.foldlM (addRecord text) ⟨0, 0, 0⟩) := by
    refine (raises_only_foldl_m (fun records _ => ∀ record ∈ records, PricedRecord text record)
      (fun record records totals all => ⟨?_, fun _ _ => (List.forall_mem_cons.mp all).2⟩) held).1
    exact add_record_raises text totals record (price_unwraps (all record List.mem_cons_self))
      (.inr rfl) (fun _ _ => .inr rfl) fun _ _ => .inr rfl
  refine raises_only_bind rounds fun _ _ => ?_
  refine raises_only_bind (checked_raises (.inr rfl)) fun _ _ => ?_
  exact raises_only_bind (checked_raises (.inr rfl)) fun _ _ => trivial

variable (foundation) in
def pricedRules : RecordRules foundation where
  record := PricedRecord foundation.text
  item := Publishable
  quantity _ := True
  boughtFor _ := True
  allowed fault := fault ≠ .unwrapNil
  record_item held := held.publishable
  record_quantity _ := trivial
  record_bought_for _ := trivial
  requantified held _ := ⟨held.publishable, held.priced⟩
  accepted publishable _ _ priced := ⟨publishable, priced⟩
  stepper _ := trivial
  typed _ := trivial
  unset := trivial
  preset := trivial
  outside := by decide
  numbering := by decide
  accounting := by decide
  rows investments visible subset held :=
    raises_only_mono (priced_rows foundation.text investments visible subset held)
      fun _ overflow => overflow ▸ by decide
  total visible held :=
    raises_only_mono (priced_total foundation.text visible held)
      fun _ overflow => overflow ▸ by decide

def publishes : Event → Bool
  | .catalogueArrives (some tempItems) => decide (∀ item ∈ tempItems.items, Publishable item)
  | _ => true

/-- Each investment that is named in the catalogue has a price, in its colour on its
platform, in the last entry with its name. -/
def RefreshPriced (text : SwiftText) (items : List DecodingItem)
    (investments : List InvestmentItem) : Prop :=
  ∀ investment ∈ investments, ∀ item ∈ lastNamed items investment.item.itemName,
    (item.getColourPrice text investment.colour investment.platform).isSome = true

instance (text : SwiftText) (items : List DecodingItem) (investments : List InvestmentItem) :
    Decidable (RefreshPriced text items investments) :=
  inferInstanceAs (Decidable (∀ _ ∈ _, ∀ _ ∈ _, _))

variable (foundation) in
def refreshPriced (s : AppState Data) : Event → Bool
  | .catalogueArrives (some tempItems) =>
      decide (RefreshPriced foundation.text tempItems.items s.investments)
  | _ => true

/-- Runs with any catalogues that the scrapers can publish. -/
abbrev Published (s : AppState Data) (event : Event) : Prop :=
  Possible s event ∧ publishes event = true

variable (foundation) in
abbrev PricesRefreshed (s : AppState Data) (event : Event) : Prop :=
  Published s event ∧ refreshPriced foundation s event = true

theorem update_priced {text : SwiftText} {items : List DecodingItem}
    {investments : List InvestmentItem} (publishable : ∀ item ∈ items, Publishable item)
    (refreshed : RefreshPriced text items investments)
    (held : ∀ investment ∈ investments, PricedRecord text investment) :
    ∀ investment ∈ updateInvestments items investments, PricedRecord text investment := by
  intro updated member
  obtain ⟨investment, before, rfl⟩ := List.mem_map.mp member
  rw [attach_item_eq]
  cases found : lastNamed items investment.item.itemName with
  | none => exact held investment before
  | some item => exact ⟨publishable item (last_named_some found).1,
      refreshed investment before item found⟩

theorem refreshed_admits (s : AppState Data) (event : Event)
    (guarded : PricesRefreshed foundation s event) :
    Admitted (pricedRules foundation) s event := by
  obtain ⟨⟨admitted, published⟩, refreshed⟩ := guarded
  refine ⟨admitted, ?_⟩
  cases event with
  | catalogueArrives catalogue =>
      cases catalogue with
      | none => exact trivial
      | some tempItems =>
          have publishable := of_decide_eq_true published
          exact ⟨publishable, update_priced publishable (of_decide_eq_true refreshed)⟩
  | _ => exact trivial

variable (foundation) in
structure StaysPriced (s : AppState Data) : Prop where
  priced : ∀ record ∈ s.investmentFilteredData, ∃ price,
    record.item.getColourPrice foundation.text record.colour record.platform = some price ∧
      2 ≤ price.length
  /-- Nothing but an overflow can stop the app while it builds the visible rows, -/
  rows : RaisesOnly (fun fault => fault = .overflow)
    (buildCells foundation.text s.investments s.investmentFilteredData)
  /-- or while it adds them up, -/
  total : RaisesOnly (fun fault => fault = .overflow)
    (showTotal foundation.text s.investmentFilteredData)
  /-- and the next step unwraps no `nil` in the state that it makes. -/
  steps : ∀ event, PricesRefreshed foundation s event →
    (step foundation s event).fault? ≠ some .unwrapNil

variable (foundation) in
def PricedStored (defaults : UserDefaults Data) : Prop :=
  ∀ investment ∈ getSavedInvestments foundation defaults, PricedRecord foundation.text investment

/-- In every run whose refreshes bring the prices of the held investments, every visible
record has its two prices. -/
theorem held_investments_priced (foundation : Foundation Data) (s : AppState Data)
    (reachable : Reachable (app foundation) (PricesRefreshed foundation)
      (Launched foundation (PricedStored foundation)) s) : StaysPriced foundation s := by
  have admitted : Reachable (app foundation) (Admitted (pricedRules foundation))
      (Launched foundation (HeldStored (pricedRules foundation))) s :=
    reachable_mono refreshed_admits (fun _ starts => starts) reachable
  have held := reachable_held admitted
  have visible : ∀ record ∈ s.investmentFilteredData, PricedRecord foundation.text record :=
    fun record member => held.records record (held.subset member)
  refine ⟨fun record member => ?_, ?_, ?_, ?_⟩
  · obtain ⟨price, found, two⟩ := price_elements (visible record member)
    exact ⟨price, found, two.ge⟩
  · exact priced_rows foundation.text _ _ held.subset visible
  · exact priced_total foundation.text _ visible
  · intro event guarded faults
    exact reachable_allowed admitted (refreshed_admits s event guarded) faults rfl

/-- The condition is exact: any other refresh leaves a visible record without a price. -/
theorem unpriced_refresh_breaks {s : AppState Data} {tempItems : DecodingItems}
    (unpriced : ¬ RefreshPriced foundation.text tempItems.items s.investments) :
    ∃ record ∈ (initializeData foundation (some tempItems) s).investmentFilteredData,
      record.item.getColourPrice foundation.text record.colour record.platform = none := by
  simp only [RefreshPriced, not_forall] at unpriced
  obtain ⟨investment, member, item, found, missing⟩ := unpriced
  refine ⟨attachItem tempItems.items investment, List.mem_map_of_mem member, ?_⟩
  rw [attach_item_eq,
    show lastNamed tempItems.items investment.item.itemName = some item from found]
  exact Option.not_isSome_iff_eq_none.mp missing

def repriced (price : Option (List Int)) : DecodingItems :=
  ⟨[{ octane with itemPriceRange := ofAttributes fun key =>
      if key = "pc_price" then price else none }, dominus]⟩

def repricedState : Option (AppState (List InvestmentItem ⊕ List InvestmentGroup)) :=
  runEvents (app plainFoundation) (PricesRefreshed plainFoundation)
    (launch plainFoundation .fresh)
    (firstSession ++ [.catalogueArrives (some (repriced (some [90, 110])))])

theorem held_investments_priced_repriced :
    ∃ s, repricedState = some s ∧ s.investmentFilteredData.length = 1 ∧
      StaysPriced plainFoundation s := by
  have refreshed : repricedState.map (fun s => s.investmentFilteredData.length) = some 1 := by
    decide +kernel
  obtain ⟨s, runs, one⟩ := Option.map_eq_some_iff.mp refreshed
  refine ⟨s, runs, one, held_investments_priced plainFoundation s ?_⟩
  exact reachable_of_run_events _ _
    (.start ⟨.fresh, fun _ absent => absurd absent List.not_mem_nil, rfl⟩) runs

def unpricedState : Option (AppState (List InvestmentItem ⊕ List InvestmentGroup)) :=
  runEvents (app plainFoundation) Published (launch plainFoundation .fresh)
    (firstSession ++ [.catalogueArrives (some (repriced none))])

/-- The Octane that was added for 100 to 120 is listed again without any price. -/
theorem refresh_removes_price :
    ¬ ∀ s, Reachable (app plainFoundation) Published
        (Launched plainFoundation (PricedStored plainFoundation)) s →
      ∀ record ∈ s.investmentFilteredData, ∃ price,
        record.item.getColourPrice asciiText record.colour record.platform = some price ∧
          2 ≤ price.length := by
  intro priced
  have unpriced : unpricedState.map (fun s => s.investmentFilteredData.map fun record =>
      record.item.getColourPrice asciiText record.colour record.platform) = some [none] := by
    decide +kernel
  obtain ⟨s, runs, prices⟩ := Option.map_eq_some_iff.mp unpriced
  obtain ⟨record, records, visible, missing, -⟩ := List.map_eq_cons_iff.mp prices
  have reached : Reachable (app plainFoundation) Published
      (Launched plainFoundation (PricedStored plainFoundation)) s :=
    reachable_of_run_events _ _
      (.start ⟨.fresh, fun _ absent => absurd absent List.not_mem_nil, rfl⟩) runs
  obtain ⟨price, found, -⟩ := priced s reached record (visible ▸ List.mem_cons_self)
  exact absurd (missing.symm.trans found) (by simp)

end RlInvestments.HeldPrices
