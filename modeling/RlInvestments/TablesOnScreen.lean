import RlInvestments.CatalogueLaws
import RlInvestments.FormRuns
import RlInvestments.RowAccounting
import RlInvestments.TotalOfRows

/-!
# From a scraped table to a row on screen

A price passes through the row loop, the uploaded text, the decoder, the refresh, the
form, the store and the saved defaults before a row of the overview writes it. In every
run the items of the records follow the catalogue, and the rows follow the records; so
each row writes the cell of the tables that were read last.
-/

namespace RlInvestments.TablesOnScreen

open RlInvestments.GuardedRuns RlInvestments.LastMatchScan RlInvestments.PriceCellParser
open RlInvestments.ScrapedTables RlInvestments.CatalogueAssembly RlInvestments.CatalogueItems
open RlInvestments.PublishedPrices RlInvestments.PricePipeline RlInvestments.InvestmentStore
open RlInvestments.OverviewRows RlInvestments.AppMemory RlInvestments.OverviewHandlers
open RlInvestments.FormSheet RlInvestments.AppRuns RlInvestments.HandlerRules
open RlInvestments.StoredDefaults RlInvestments.StoreIdentity RlInvestments.RowAccounting
open RlInvestments.TotalOfRows RlInvestments.CatalogueLaws RlInvestments.FormRuns

set_option autoImplicit false

variable {Data : Type} {foundation : Foundation Data}

structure Titled (text : SwiftText) (colourText onPlatform : String) : Prop where
  colour : ∃ colour, text.uppercased colourText = Colour.title colour
  platform : ∃ platform, text.uppercased onPlatform = platformTitle platform

theorem platform_price_titled {text : SwiftText} {onPlatform : String}
    {pc ps4 switch xbox : Option (List Int)} {price : List Int}
    (found : platformPrice text onPlatform pc ps4 switch xbox = some price) :
    ∃ platform, text.uppercased onPlatform = platformTitle platform := by
  unfold platformPrice at found
  split_ifs at found with onPc onPs4 onSwitch onXbox
  · exact ⟨.pc, onPc⟩
  · exact ⟨.ps4, onPs4⟩
  · exact ⟨.switch, onSwitch⟩
  · exact ⟨.xbox, onXbox⟩

theorem branch_titled {text : SwiftText} {colourText onPlatform : String} (colour : Colour)
    {pc ps4 switch xbox others : Option (List Int)}
    (rest : ∀ price ∈ others, Titled text colourText onPlatform) :
    ∀ price ∈ if text.uppercased colourText = colour.title then
        platformPrice text onPlatform pc ps4 switch xbox else others,
      Titled text colourText onPlatform := by
  intro price found
  split at found
  · rename_i titled
    exact ⟨⟨colour, titled⟩, platform_price_titled found⟩
  · exact rest price found

theorem get_colour_price_titled {text : SwiftText} {item : DecodingItem}
    {colourText onPlatform : String} {price : List Int}
    (found : item.getColourPrice text colourText onPlatform = some price) :
    Titled text colourText onPlatform := by
  have titled : ∀ price ∈ item.getColourPrice text colourText onPlatform,
      Titled text colourText onPlatform := by
    unfold DecodingItem.getColourPrice
    apply branch_titled .default
    apply branch_titled .black
    apply branch_titled .white
    apply branch_titled .grey
    apply branch_titled .crimson
    apply branch_titled .pink
    apply branch_titled .cobalt
    apply branch_titled .skyBlue
    apply branch_titled .burntSienna
    apply branch_titled .saffron
    apply branch_titled .lime
    apply branch_titled .forestGreen
    apply branch_titled .orange
    apply branch_titled .purple
    intro price absent
    cases absent
  exact titled price found

/-- The item is an entry of the catalogue, unless its name is not listed there at all. -/
def Current (items : List DecodingItem) (item : DecodingItem) : Prop :=
  Lists items item.itemName → item ∈ items

instance (items : List DecodingItem) (itemName : String) : Decidable (Lists items itemName) :=
  inferInstanceAs (Decidable (∃ _ ∈ _, _))

instance (items : List DecodingItem) (item : DecodingItem) : Decidable (Current items item) :=
  inferInstanceAs (Decidable (_ → _))

structure FollowsOf (items : List DecodingItem) (investments : List InvestmentItem)
    (filteredData : List DecodingItem) (presented : Presented)
    (selectedItem : Option DecodingItem) : Prop where
  held : ∀ record ∈ investments, Current items record.item
  offered : ∀ item ∈ filteredData, Current items item
  chosen : presented = .form → ∀ item ∈ selectedItem, Current items item

def Follows (s : AppState Data) : Prop :=
  FollowsOf s.items s.investments s.filteredData s.presented s.selectedItem

theorem current_of_mem {items : List DecodingItem} {item : DecodingItem} (member : item ∈ items) :
    Current items item := fun _ => member

theorem current_of_none (item : DecodingItem) : Current [] item := by
  intro listed
  have ⟨_, absent, _⟩ := listed
  exact absurd absent List.not_mem_nil

theorem attach_current (items : List DecodingItem) (investment : InvestmentItem) :
    Current items (attachItem items investment).item := by
  intro listed
  rw [attach_item_name] at listed
  have ⟨last, found⟩ := last_named_listed listed
  rw [attach_item_eq, found]
  exact (last_named_some found).1

theorem nothing_follows {investments : List InvestmentItem} {filteredData : List DecodingItem}
    {presented : Presented} {selectedItem : Option DecodingItem} :
    FollowsOf [] investments filteredData presented selectedItem :=
  ⟨fun _ _ => current_of_none _, fun _ _ => current_of_none _, fun _ _ _ => current_of_none _⟩

theorem launch_follows (defaults : UserDefaults Data) :
    Follows (launch foundation defaults) := nothing_follows

theorem stored_follows {items : List DecodingItem} {investments changed : List InvestmentItem}
    {filteredData : List DecodingItem} {presented presented' : Presented}
    {selectedItem selectedItem' : Option DecodingItem}
    (follows : FollowsOf items investments filteredData presented selectedItem)
    (held : ∀ record ∈ changed, Current items record.item)
    (chosen : presented' = .form → ∀ item ∈ selectedItem', Current items item) :
    FollowsOf items changed filteredData presented' selectedItem' :=
  ⟨held, follows.offered, chosen⟩

/-- A catalogue may come while the form is open only if it lists the form's item as it is. -/
def suitsForm (s : AppState Data) : Event → Bool
  | .catalogueArrives (some tempItems) =>
      decide (s.presented = .form → ∀ item ∈ s.selectedItem, Current tempItems.items item)
  | _ => true

/-- Runs in which the buttons pressed are on screen and catalogues come in time. -/
abbrev Suited (s : AppState Data) (event : Event) : Prop :=
  OnScreen s event ∧ suitsForm s event = true

theorem initialize_follows {s : AppState Data} {catalogue : Option DecodingItems}
    (suits : suitsForm s (.catalogueArrives catalogue) = true) :
    Follows (initializeData foundation catalogue s) := by
  cases catalogue with
  | none => exact nothing_follows
  | some tempItems =>
      constructor
      · intro record member
        have ⟨investment, _, attached⟩ := List.mem_map.mp member
        rw [← attached]
        exact attach_current tempItems.items investment
      · intro item member
        exact current_of_mem member
      · exact of_decide_eq_true suits

theorem reload_data_follows {s : AppState Data} (follows : Follows s) :
    (reloadData foundation s).Ends Follows fun _ _ => True :=
  reload_data_ends s (fun _ _ => follows) fun _ _ => trivial

theorem delete_confirmed_follows {s : AppState Data} (follows : Follows s) :
    (deleteConfirmed foundation s).Ends Follows fun _ _ => True := by
  have removed : Follows (afterRemoval foundation s) := by
    apply stored_follows follows
    · intro record member
      exact follows.held record (List.mem_of_mem_eraseIdx member)
    · intro form
      exact absurd form nothing_not_form
  apply delete_confirmed_ends s
  · intro _ _
    trivial
  · intro row _ _ _ _
    unfold deleteRows
    split
    · exact removed
    · trivial
  · intro _ _
    exact reload_data_follows (s := { afterRemoval foundation s with searchText := "" }) removed

theorem overview_step_follows {s : AppState Data} (follows : Follows s)
    (free : s.presented = .nothing) (event : OverviewEvent) :
    (overviewStep foundation s event).Ends Follows fun _ _ => True := by
  have notForm : s.presented ≠ .form := by
    rw [free]
    exact nothing_not_form
  cases event with
  | searchBarTextDidChange searchText => exact reload_data_follows follows
  | addNewButton =>
      apply add_new_button_ends s _ trivial
      intro _
      apply stored_follows follows follows.held
      intro _ item absent
      cases absent
  | showTotal => exact show_total_ends s follows fun _ _ => trivial
  | editButtonPressed tag =>
      apply edit_investment_ends _ _ trivial
      intro investment there
      apply stored_follows follows follows.held
      intro _ item chosen
      rw [← Option.some.inj chosen]
      exact follows.held investment (List.mem_of_getElem? there)
  | deleteButtonPressed tag =>
      apply stored_follows follows follows.held
      intro form
      exact absurd form alert_not_form
  | stepperValueChanged tag value =>
      apply amount_changed_ends _ _ trivial
      intro investment there
      apply reload_data_follows
      apply stored_follows follows
      · intro record member
        rcases List.mem_or_eq_of_mem_set member with before | rfl
        · exact follows.held record before
        · exact follows.held investment (List.mem_of_getElem? there)
      · intro form
        exact absurd form notForm
  | groupButtonPressed tag => exact group_investment_ends _ (fun _ => follows) trivial
  | rlInsiderChart tag =>
      apply show_chart_ends _ _ trivial
      intro _
      apply stored_follows follows follows.held
      intro form
      exact absurd form chart_not_form

theorem form_step_follows {s : AppState Data} (follows : Follows s) (form : s.presented = .form)
    (event : FormEvent) : (formStep foundation s event).Ends Follows fun _ _ => True := by
  apply form_step_ends s event _ trivial
  intro filteredData selectedItem _ _ _ _ _ edit
  constructor
  · exact follows.held
  · intro item member
    rcases edit.offered with listed | same
    · exact current_of_mem (listed member)
    · exact follows.offered item (same ▸ member)
  · intro _ item chosen
    rcases edit.selected with same | ⟨other, member, same⟩
    · exact follows.chosen form item (same ▸ chosen)
    · have picked : other = item := Option.some.inj (same.symm.trans chosen)
      rw [← picked]
      exact follows.offered other member

theorem store_and_dismiss_follows {s : AppState Data} {investments : List InvestmentItem}
    (follows : Follows s) (held : ∀ record ∈ investments, Current s.items record.item) :
    (storeAndDismiss foundation { s with investments := investments }).Ends Follows
      fun _ _ => True := by
  apply store_and_dismiss_ends
  · intro _ _
    apply stored_follows follows held
    intro form
    exact absurd form nothing_not_form
  · intro _ _
    trivial

theorem add_button_follows {s : AppState Data} (follows : Follows s)
    (form : s.presented = .form) : (addButton foundation s).Ends Follows fun _ _ => True := by
  have accepts : ∀ investment, acceptedInvestment foundation s = some investment →
      Current s.items investment.item := by
    intro investment accepted
    exact follows.chosen form _ (accepted_investment_spec accepted).1
  apply add_button_ends s follows _ _ trivial
  · intro investment accepted _
    apply store_and_dismiss_follows follows
    intro record member
    rcases List.mem_append.mp member with before | added
    · exact follows.held record before
    · rw [List.mem_singleton.mp added]
      exact accepts investment accepted
  · intro investment accepted _ _
    apply store_and_dismiss_follows follows
    intro record member
    rcases List.mem_or_eq_of_mem_set member with before | rfl
    · exact follows.held record before
    · exact accepts record accepted

theorem step_follows {s : AppState Data} (follows : Follows s) {event : Event}
    (admitted : Possible s event) (suits : suitsForm s event = true) :
    (step foundation s event).Ends Follows fun _ _ => True := by
  have closed : ∀ presented : Presented, presented ≠ .form →
      Follows { s with presented := presented } := fun _ notForm =>
    stored_follows follows follows.held fun form => absurd form notForm
  cases event with
  | relaunch => exact launch_follows s.defaults
  | catalogueArrives catalogue => exact initialize_follows suits
  | itemsNotification =>
      exact items_notification_ends s (fun _ _ => follows) (fun _ _ => trivial) fun _ => follows
  | delayedReload => exact reload_data_follows follows
  | traitCollectionDidChange => exact reload_data_follows follows
  | overviewDidLoad => exact view_did_load_ends s (fun _ _ => follows) fun _ _ => trivial
  | overview event => exact overview_step_follows follows (overview_admitted admitted).2 event
  | deleteConfirmed => exact delete_confirmed_follows follows
  | deleteCancelled => exact closed .nothing nothing_not_form
  | form event =>
      have form : s.presented = .form := of_decide_eq_true (Bool.and_eq_true_iff.mp admitted).1
      exact form_step_follows follows form event
  | addButton => exact add_button_follows follows (add_admitted admitted)
  | cancelButton => exact closed .nothing nothing_not_form
  | chartClosed => exact closed .nothing nothing_not_form
  | tab event =>
      apply tab_step_ends s event
      intro filteredData _ _ _ _ _ listed
      constructor
      · exact follows.held
      · intro item member
        rcases listed with subset | same
        · exact current_of_mem (subset member)
        · exact follows.offered item (same ▸ member)
      · exact follows.chosen

theorem reachable_follows {stored : UserDefaults Data → Prop} {s : AppState Data}
    (reachable : Reachable (app foundation) Suited (Launched foundation stored) s) :
    Follows s := by
  apply reachable_invariant Follows _ _ reachable
  · rintro state ⟨defaults, -, rfl⟩
    exact launch_follows defaults
  · intro state event _ follows guarded
    exact ends_mono (step_follows follows guarded.1.1 guarded.2) (fun _ after => after)
      fun _ _ _ => launch_follows _

/-- The condition is exact: after any other catalogue the button stores an item that the
catalogue lists differently. -/
theorem late_catalogue_breaks {s : AppState Data} {tempItems : DecodingItems}
    {record : InvestmentItem} (inStore : TagInStore s)
    (accepted : acceptedInvestment foundation s = some record)
    (stale : ¬ Current tempItems.items record.item) :
    let late := resumed foundation
      (addButton foundation (initializeData foundation (some tempItems) s))
    ∃ held ∈ late.investments, ¬ Current tempItems.items held.item := by
  intro late
  have tagged : TagInStore (initializeData foundation (some tempItems) s) := by
    intro editing
    rw [initialize_investments, updateInvestments, List.length_map]
    exact inStore editing
  have kept : acceptedInvestment foundation (initializeData foundation (some tempItems) s) =
      some record := accepted
  have stored := (accepted_button tagged kept).stored
  exists record
  apply And.intro _ stale
  rw [stored, storeWith]
  split
  · rename_i editing
    exact List.mem_set (tagged editing) record
  · exact List.mem_append_right _ (List.mem_singleton_self record)

def Written (text : SwiftText) (cell : ItemCell) : Prop :=
  ∃ investments, cellForRowAt text investments cell.record = .ok cell

/-- Once the overview has loaded and no notification of new items waits, there is one cell
for each visible record. -/
structure DisplayOf (text : SwiftText) (visible : List InvestmentItem) (cells : List ItemCell)
    (overviewLoaded : Bool) (pendingItems : Nat) : Prop where
  written : ∀ cell ∈ cells, Written text cell
  inStep : overviewLoaded = true → pendingItems = 0 → cells.map ItemCell.record = visible

variable (foundation) in
def OnDisplay (s : AppState Data) : Prop :=
  DisplayOf foundation.text s.investmentFilteredData s.cells s.overviewLoaded s.pendingItems

theorem cells_written {text : SwiftText} {investments visible : List InvestmentItem}
    {cells : List ItemCell} (built : buildCells text investments visible = .ok cells) :
    ∀ cell ∈ cells, Written text cell := by
  have rows := build_cells_forall₂ built
  clear built
  induction rows with
  | nil =>
      intro cell absent
      exact absurd absent List.not_mem_nil
  | cons first rest induction =>
      rw [List.forall_mem_cons]
      apply And.intro _ induction
      exists investments
      rw [(cell_for_row_spec first).1]
      exact first

theorem built_on_display {text : SwiftText} {investments visible : List InvestmentItem}
    {cells : List ItemCell} (built : buildCells text investments visible = .ok cells)
    (overviewLoaded : Bool) (pendingItems : Nat) :
    DisplayOf text visible cells overviewLoaded pendingItems :=
  ⟨cells_written built, fun _ _ => build_cells_records built⟩

theorem launch_on_display (defaults : UserDefaults Data) :
    OnDisplay foundation (launch foundation defaults) :=
  ⟨fun _ absent => absurd absent List.not_mem_nil, fun _ _ => rfl⟩

theorem reload_data_displays (s : AppState Data) :
    (reloadData foundation s).Ends (OnDisplay foundation) fun _ _ => True :=
  reload_data_ends s (fun _ built => built_on_display built _ _) fun _ _ => trivial

theorem delete_confirmed_displays {s : AppState Data} (identified : Identified s)
    (rows : RowsFollow s) (display : OnDisplay foundation s) :
    (deleteConfirmed foundation s).Ends (OnDisplay foundation) fun _ _ => True := by
  apply delete_confirmed_ends s
  · intro _ _
    trivial
  · intro row found _ inStore _
    apply delete_rows_rule identified rows found inStore
    · intro same _
      have ⟨whole, _⟩ := visible_is_store identified rows same
      constructor
      · intro cell member
        exact display.written cell (List.mem_of_mem_eraseIdx member)
      · intro loaded settled
        have shown := display.inStep loaded settled
        change (s.cells.eraseIdx (loweredTag s)).map ItemCell.record =
          s.investments.eraseIdx (loweredTag s)
        rw [← List.eraseIdx_map, shown, whole]
    · intro _
      trivial
  · intro _ _
    exact reload_data_displays { afterRemoval foundation s with searchText := "" }

theorem overview_step_displays {s : AppState Data} (display : OnDisplay foundation s)
    (event : OverviewEvent) :
    (overviewStep foundation s event).Ends (OnDisplay foundation) fun _ _ => True := by
  cases event with
  | searchBarTextDidChange searchText => exact reload_data_displays _
  | addNewButton => exact add_new_button_ends s (fun _ => display) trivial
  | showTotal => exact show_total_ends s display fun _ _ => trivial
  | editButtonPressed tag =>
      exact edit_investment_ends _ (fun _ _ => display) trivial
  | deleteButtonPressed tag => exact display
  | stepperValueChanged tag value =>
      exact amount_changed_ends _ (fun _ _ => reload_data_displays _) trivial
  | groupButtonPressed tag =>
      exact group_investment_ends _ (fun _ => display) trivial
  | rlInsiderChart tag =>
      exact show_chart_ends _ (fun _ => display) trivial

theorem store_and_dismiss_displays (s : AppState Data) :
    (storeAndDismiss foundation s).Ends (OnDisplay foundation) fun _ _ => True := by
  apply store_and_dismiss_ends
  · intro _ built
    exact built_on_display built _ _
  · intro _ _
    trivial

theorem step_displays {s : AppState Data} (identified : Identified s) (rows : RowsFollow s)
    (display : OnDisplay foundation s) (event : Event) :
    (step foundation s event).Ends (OnDisplay foundation) fun _ _ => True := by
  cases event with
  | relaunch => exact launch_on_display s.defaults
  | catalogueArrives catalogue =>
      cases catalogue with
      | none => exact display
      | some tempItems =>
          constructor
          · exact display.written
          · intro _ settled
            exact absurd settled (Nat.succ_ne_zero _)
  | itemsNotification =>
      apply items_notification_ends s
      · intro _ built
        exact built_on_display built _ _
      · intro _ _
        trivial
      · intro unloaded
        constructor
        · exact display.written
        · intro loaded
          exact absurd (unloaded.symm.trans loaded) Bool.false_ne_true
  | delayedReload => exact reload_data_displays _
  | traitCollectionDidChange => exact reload_data_displays s
  | overviewDidLoad =>
      apply view_did_load_ends s
      · intro _ built
        exact built_on_display built _ _
      · intro _ _
        trivial
  | overview event => exact overview_step_displays display event
  | deleteConfirmed => exact delete_confirmed_displays identified rows display
  | deleteCancelled => exact display
  | form event =>
      apply form_step_ends s event _ trivial
      intro _ _ _ _ _ _ _ _
      exact display
  | addButton =>
      apply add_button_ends s display _ _ trivial
      · intro investment _ _
        exact store_and_dismiss_displays _
      · intro investment _ _ _
        exact store_and_dismiss_displays _
  | cancelButton => exact display
  | chartClosed => exact display
  | tab event =>
      apply tab_step_ends s event
      intro _ _ _ _ _ _ _
      exact display

theorem reachable_on_display {s : AppState Data}
    (reachable : Reachable (app foundation) OnScreen
      (Launched foundation (DistinctStored foundation)) s) : OnDisplay foundation s := by
  apply reachable_invariant (OnDisplay foundation) _ _ reachable
  · rintro state ⟨defaults, -, rfl⟩
    exact launch_on_display defaults
  · intro state event before display _
    have identified := reachable_identified (fun _ _ onScreen => onScreen.1) before
    have rows := reachable_rows (fun _ _ onScreen => onScreen) before
    exact ends_mono (step_displays identified rows display event) (fun _ after => after)
      fun _ _ _ => launch_on_display _

structure WritesPrices (cell : ItemCell) (lower upper : Int) : Prop where
  currentPrice : cell.currentPriceLabel =
    "Current Price: " ++ toString lower ++ " - " ++ toString upper
  totalNow : cell.totalNowLabel =
    "Total if Sold Now: " ++ toString (lower * cell.record.quantity) ++ " - " ++
      toString (upper * cell.record.quantity)
  profit : cell.profitLabel =
    "Profit/Loss: " ++
      profitBoundString (lower * cell.record.quantity -
        cell.record.quantity * cell.record.boughtFor) ++ " - " ++
      profitBoundString (upper * cell.record.quantity -
        cell.record.quantity * cell.record.boughtFor)

theorem written_prices {text : SwiftText} {cell : ItemCell} (written : Written text cell) :
    ∃ lower upper, unwrapElement (rowPrice text cell.record) 0 = .ok lower ∧
      unwrapElement (rowPrice text cell.record) 1 = .ok upper ∧ WritesPrices cell lower upper := by
  have ⟨investments, built⟩ := written
  have ⟨_, computed, found⟩ := cell_for_row_spec built
  have ⟨lower, lowerRead, rest⟩ := except_bind_ok
    (same_unless_ok (row_figures_same text cell.record) computed)
  have ⟨upper, upperRead, isExact⟩ := except_bind_ok rest
  have figures : exactFigures cell.record lower upper = cell.figures := Except.ok.inj isExact
  exists lower, upper
  apply And.intro lowerRead
  apply And.intro upperRead
  have ⟨others, again, labels⟩ := except_bind_ok built
  have same : others = cell.figures := Except.ok.inj (again.symm.trans computed)
  simp only [same, ← figures, found] at labels
  have whole := Except.ok.inj labels
  constructor
  · exact (congrArg ItemCell.currentPriceLabel whole).symm
  · exact (congrArg ItemCell.totalNowLabel whole).symm
  · exact (congrArg ItemCell.profitLabel whole).symm

/-- The cell of the tables that a row of the overview shows: that of a listed item with its
name, in its colour and on its platform. -/
structure ShowsCell (text : SwiftText) (tables : PlatformTables) (cell : ItemCell) (row : Row)
    (itemID : String) (colour : Colour) (platform : TablePlatform) (pair : PricePair) :
    Prop where
  listed : row ∈ listedRows tables.pc
  named : row.name = some cell.record.item.itemName
  identified : row.itemID? = some itemID
  coloured : text.uppercased cell.record.colour = colour.title
  onPlatform : text.uppercased cell.record.platform = platformTitle platform
  price : tablePrice (listedRows (tables.tableOf platform)) itemID
    (copiedColumn colour platform) = some pair
  written : WritesPrices cell pair.1 pair.2

def ShowsTables (text : SwiftText) (tables : PlatformTables) (cell : ItemCell) : Prop :=
  ∃ row itemID colour platform pair, ShowsCell text tables cell row itemID colour platform pair

theorem unwrap_pair {pair : PricePair} {lower upper : Int}
    (first : unwrapElement (some (pairList pair)) 0 = .ok lower)
    (second : unwrapElement (some (pairList pair)) 1 = .ok upper) :
    lower = pair.1 ∧ upper = pair.2 :=
  ⟨(Except.ok.inj first).symm, (Except.ok.inj second).symm⟩

theorem published_row_shows {text : SwiftText} {tables : PlatformTables}
    (wellFormed : WellFormed tables) {row : Row} (listed : row ∈ listedRows tables.pc)
    {cell : ItemCell} (written : Written text cell)
    (holds : cell.record.item = decodedItem (publishedItem tables row)) :
    ShowsTables text tables cell := by
  have ⟨itemID, itemName, identified, named⟩ := listed_row_data wellFormed listed
  have ⟨lower, upper, lowerRead, upperRead, writes⟩ := written_prices written
  rw [row_price_eq] at lowerRead upperRead
  cases found : listPrice text cell.record with
  | none =>
      rw [found] at lowerRead
      cases lowerRead
  | some price =>
      have ⟨⟨colour, coloured⟩, ⟨platform, onPlatform⟩⟩ := get_colour_price_titled found
      have published := published_price text tables row colour platform _ _ coloured onPlatform
      rw [← holds] at published
      have copied := published.symm.trans found
      have ⟨pair, cellPrice, isPair⟩ := Option.map_eq_some_iff.mp copied
      rw [found, ← isPair] at lowerRead upperRead
      have ⟨isLower, isUpper⟩ := unwrap_pair lowerRead upperRead
      exists row, itemID, colour, platform, pair
      constructor
      · exact listed
      · rw [holds]
        simp [decodedItem, publishedItem, rowData, named]
      · exact identified
      · exact coloured
      · exact onPlatform
      · simpa [rowData, identified] using cellPrice
      · rw [← isLower, ← isUpper]
        exact writes

/-- In every run, from any defaults and over any number of launches: while the app holds
what was uploaded from the tables, each row of a listed item writes its own price in
the tables, for the colour and the platform of its record. -/
theorem rows_show_tables (foundation : Foundation Data) (s : AppState Data)
    (reachable : Reachable (app foundation) Suited
      (Launched foundation (DistinctStored foundation)) s)
    (tables : PlatformTables) (wellFormed : WellFormed tables) (uploaded : List Char)
    (catalogue : DecodingItems) (uploads : Azure.main tables = .ok uploaded)
    (decodes : decode uploaded = some catalogue) (arrived : s.items = catalogue.items)
    (loaded : s.overviewLoaded = true) (settled : s.pendingItems = 0) :
    s.cells.map ItemCell.record = s.investmentFilteredData ∧
      ∀ cell ∈ s.cells, ∀ row ∈ listedRows tables.pc,
        row.name = some cell.record.item.itemName → ShowsTables foundation.text tables cell := by
  have onScreen : Reachable (app foundation) OnScreen
      (Launched foundation (DistinctStored foundation)) s :=
    reachable_mono (fun _ _ suited => suited.1) (fun _ starts => starts) reachable
  have display := reachable_on_display onScreen
  have identified := reachable_identified (fun _ _ guarded => guarded.1) onScreen
  have follows := reachable_follows reachable
  have shown := display.inStep loaded settled
  have sameText := Except.ok.inj ((main_spec wellFormed).symm.trans uploads)
  have whole := decoded_catalogue wellFormed
  rw [sameText, decodes] at whole
  have items : s.items =
      (listedRows tables.pc).map fun row => decodedItem (publishedItem tables row) := by
    rw [arrived, Option.some.inj whole]
  apply And.intro shown
  intro cell member row listed named
  have visible : cell.record ∈ s.investmentFilteredData := by
    rw [← shown]
    exact List.mem_map_of_mem member
  have current := follows.held cell.record (identified.visible.subset visible)
  rw [items] at current
  have lists : Lists ((listedRows tables.pc).map fun row =>
      decodedItem (publishedItem tables row)) cell.record.item.itemName := by
    exists decodedItem (publishedItem tables row)
    apply And.intro (List.mem_map_of_mem listed)
    simp [decodedItem, publishedItem, rowData, named]
  obtain ⟨source, sourceListed, holds⟩ := List.mem_map.mp (current lists)
  exact published_row_shows wellFormed sourceListed (display.written cell member) holds.symm

/-- Two investments are held before the app is launched again and reads the painted tables. -/
def paintedCatalogue : DecodingItems :=
  ⟨(listedRows paintedTables.pc).map fun row => decodedItem (publishedItem paintedTables row)⟩

def paintedSession : List Event :=
  secondSession ++ [.relaunch, .catalogueArrives (some paintedCatalogue), .overviewDidLoad,
    .itemsNotification]

def paintedState : Option (AppState (List InvestmentItem ⊕ List InvestmentGroup)) :=
  runEvents (app plainFoundation) Suited (launch plainFoundation .fresh) paintedSession

theorem rows_show_tables_painted :
    ∃ s, paintedState = some s ∧
      s.cells.map ItemCell.currentPriceLabel =
        ["Current Price: 3000 - 4000", "Current Price: 300 - 340"] ∧
      s.cells.map ItemCell.record = s.investmentFilteredData ∧
      ∀ cell ∈ s.cells, ∀ row ∈ listedRows paintedTables.pc,
        row.name = some cell.record.item.itemName → ShowsTables asciiText paintedTables cell := by
  have computed : paintedState.map (fun s => (s.cells.map ItemCell.currentPriceLabel,
      decide (s.items = paintedCatalogue.items), s.overviewLoaded, s.pendingItems)) =
        some (["Current Price: 3000 - 4000", "Current Price: 300 - 340"], true, true, 0) := by
    decide +kernel
  have ⟨s, runs, shown⟩ := Option.map_eq_some_iff.mp computed
  simp only [Prod.mk.injEq] at shown
  have ⟨labels, items, loaded, settled⟩ := shown
  have reached : Reachable (app plainFoundation) Suited
      (Launched plainFoundation (DistinctStored plainFoundation)) s :=
    reachable_of_fresh_run _ fresh_distinct runs
  exact ⟨s, runs, labels, rows_show_tables plainFoundation s reached paintedTables
    painted_tables_well_formed _ paintedCatalogue (main_spec painted_tables_well_formed)
    (decoded_catalogue painted_tables_well_formed) (of_decide_eq_true items) loaded settled⟩

end RlInvestments.TablesOnScreen
