import RlInvestments.HandlerRules

/-!
# The price list and the item selection

Two tables show the global `filteredData`: the one of the Prices tab and the one that
the form pushes. The rows of a table are those of its last `reloadData`, while a tap
reads `filteredData` as it is now. The Prices tab resets the list each time it appears,
and an arriving catalogue resets it before its reload has been posted.
-/

namespace RlInvestments.ItemListScreens

open RlInvestments.GuardedRuns RlInvestments.CatalogueItems RlInvestments.InvestmentStore
open RlInvestments.OverviewRows RlInvestments.AppMemory RlInvestments.OverviewHandlers
open RlInvestments.FormSheet RlInvestments.AppRuns RlInvestments.HandlerRules

set_option autoImplicit false

variable {Data : Type} (foundation : Foundation Data)

inductive VisibleScreen where
  | elsewhere
  | prices
  | itemSelection
deriving DecidableEq, Repr

structure ListScreens (Data : Type) where
  memory : AppState Data
  visible : VisibleScreen
  /-- The rows of the Prices table, once its view has loaded. -/
  pricesRows : Option (List DecodingItem)
  /-- The rows of the item selection, while it is on the stack of the form. -/
  selectionRows : Option (List DecodingItem)

inductive ScreenEvent where
  | app (event : Event)
  | pricesDidSelectRow (row : Nat)
  | leavePrices

/-- `launch` with no list on screen. -/
def launched (memory : AppState Data) : ListScreens Data := ⟨memory, .elsewhere, none, none⟩

/-- Where the tables are reloaded, and which of them is on screen, once a step of the app has
changed the memory. A table that appears for the first time loads its rows. -/
def afterStep (s : ListScreens Data) (memory : AppState Data) : Event → ListScreens Data
  | .relaunch => launched memory
  | .itemsNotification => { s with
      memory
      pricesRows := s.pricesRows.map fun _ => memory.filteredData
      selectionRows := s.selectionRows.map fun _ => memory.filteredData }
  | .tab .pricesWillAppear => { s with
      memory, visible := .prices, pricesRows := some (s.pricesRows.getD memory.filteredData) }
  | .tab (.pricesSearch _) => { s with memory, pricesRows := some memory.filteredData }
  | .tab (.pricesPlatformChanged selectedSegmentIndex) =>
      if selectedSegmentIndex < 4 then { s with memory, pricesRows := some memory.filteredData }
      else { s with memory }
  | .form .itemSelectionDidLoad => { s with
      memory, visible := .itemSelection, selectionRows := some memory.filteredData }
  | .form (.itemSearch _) => { s with memory, selectionRows := some memory.filteredData }
  | .form (.didSelectItem _) => { s with memory, visible := .elsewhere, selectionRows := none }
  | .form .selectionBack => { s with memory, visible := .elsewhere, selectionRows := none }
  | .cancelButton => { s with memory, visible := .elsewhere, selectionRows := none }
  | _ => { s with memory }

theorem after_step_memory (s : ListScreens Data) (memory : AppState Data) (event : Event) :
    (afterStep s memory event).memory = memory := by
  unfold afterStep
  split
  case h_5 => split <;> rfl
  all_goals rfl

def screenStep (s : ListScreens Data) : ScreenEvent → Outcome Fault (ListScreens Data)
  | .app event =>
      match step foundation s.memory event with
      | .running memory => .running (afterStep s memory event)
      | .stopped fault memory => .stopped fault { s with memory }
  | .pricesDidSelectRow row =>
      match s.memory.filteredData[row]? with
      | none => .stopped .indexOutOfRange s
      | some _ => .running s
  | .leavePrices => .running { s with visible := .elsewhere }

def screens : System (ListScreens Data) ScreenEvent Fault where
  step := screenStep foundation
  restart s := launched (launch foundation s.memory.defaults)

/-- The rows that can be tapped. -/
def visibleRows (s : ListScreens Data) : List DecodingItem :=
  match s.visible with
  | .elsewhere => []
  | .prices => s.pricesRows.getD []
  | .itemSelection => s.selectionRows.getD []

/-- The controls of a list act while it is on screen, those of the form and of the overview
while neither list is. -/
def onScreen (visible : VisibleScreen) : Event → Bool
  | .tab .pricesWillAppear => decide (visible = .elsewhere)
  | .tab (.pricesSearch _) => decide (visible = .prices)
  | .tab (.pricesPlatformChanged _) => decide (visible = .prices)
  | .form (.itemSearch _) => decide (visible = .itemSelection)
  | .form (.didSelectItem _) => decide (visible = .itemSelection)
  | .form .selectionBack => decide (visible = .itemSelection)
  | .form _ => decide (visible = .elsewhere)
  | .overview _ => decide (visible = .elsewhere)
  | .addButton => decide (visible = .elsewhere)
  | _ => true

def screenPossible (s : ListScreens Data) : ScreenEvent → Bool
  | .app event => possible s.memory event && onScreen s.visible event
  | .pricesDidSelectRow row =>
      decide (s.visible = .prices) && decide (row < (visibleRows s).length)
  | .leavePrices => decide (s.visible = .prices)

/-- Prices appears again only over rows that are the first ones of the catalogue, and a
catalogue arrives only if it begins with the rows on screen. -/
def rowsStay (s : ListScreens Data) : ScreenEvent → Bool
  | .app (.tab .pricesWillAppear) => (s.pricesRows.getD []).isPrefixOf s.memory.items
  | .app (.catalogueArrives (some tempItems)) => (visibleRows s).isPrefixOf tempItems.items
  | _ => true

abbrev RowsStay (s : ListScreens Data) (event : ScreenEvent) : Prop :=
  screenPossible s event = true ∧ rowsStay s event = true

def writesList : Event → Bool
  | .relaunch => true
  | .catalogueArrives _ => true
  | .tab _ => true
  | .form _ => true
  | _ => false

section Frame

variable {foundation} {s : AppState Data} {listed : List DecodingItem}

def Lists (listed : List DecodingItem) (s : AppState Data) : Prop := s.filteredData = listed

theorem reload_data_lists (same : Lists listed s) :
    (reloadData foundation s).Ends (Lists listed) fun _ _ => True :=
  reload_data_ends s (fun _ _ => same) fun _ _ => trivial

theorem overview_step_lists (same : Lists listed s) (event : OverviewEvent) :
    (overviewStep foundation s event).Ends (Lists listed) fun _ _ => True := by
  cases event with
  | searchBarTextDidChange searchText => exact reload_data_lists same
  | addNewButton => exact add_new_button_ends s (fun _ => same) trivial
  | showTotal => exact show_total_ends s same fun _ _ => trivial
  | editButtonPressed tag => exact edit_investment_ends _ (fun _ _ => same) trivial
  | deleteButtonPressed tag => exact same
  | stepperValueChanged tag value =>
      exact amount_changed_ends _ (fun _ _ => reload_data_lists same) trivial
  | groupButtonPressed tag => exact group_investment_ends _ (fun _ => same) trivial
  | rlInsiderChart tag => exact show_chart_ends _ (fun _ => same) trivial

theorem step_lists (same : Lists listed s) {event : Event} (leaves : writesList event = false) :
    (step foundation s event).Ends (Lists listed) fun _ _ => True := by
  cases event with
  | relaunch => exact nomatch leaves
  | catalogueArrives catalogue => exact nomatch leaves
  | itemsNotification =>
      exact items_notification_ends s (fun _ _ => same) (fun _ _ => trivial) fun _ => same
  | delayedReload => exact reload_data_lists same
  | traitCollectionDidChange => exact reload_data_lists same
  | overviewDidLoad => exact view_did_load_ends s (fun _ _ => same) fun _ _ => trivial
  | overview event => exact overview_step_lists same event
  | deleteConfirmed =>
      apply delete_confirmed_ends s fun _ _ => trivial
      · intro row _ _ _ _
        unfold deleteRows
        split
        · exact same
        · trivial
      · intro _ _
        exact reload_data_lists same
  | deleteCancelled => exact same
  | form event => exact nomatch leaves
  | addButton =>
      apply add_button_ends s same _ _ trivial
      · intro _ _ _
        exact store_and_dismiss_ends _ (fun _ _ => same) fun _ _ => trivial
      · intro _ _ _ _
        exact store_and_dismiss_ends _ (fun _ _ => same) fun _ _ => trivial
  | cancelButton => exact same
  | chartClosed => exact same
  | tab event => exact nomatch leaves

end Frame

def tappedItem (s : ListScreens Data) (row : Nat) : Option DecodingItem :=
  s.memory.filteredData[row]?

def TapsOpenShown (s : ListScreens Data) : Prop :=
  ∀ row item, (visibleRows s)[row]? = some item → tappedItem s row = some item

theorem prefix_iff_get {Value : Type} (rows whole : List Value) :
    rows <+: whole ↔ ∀ (i : Nat) value, rows[i]? = some value → whole[i]? = some value := by
  constructor
  · rintro ⟨rest, rfl⟩ i value there
    rw [List.getElem?_append_left (List.getElem?_eq_some_iff.mp there).1]
    exact there
  · intro same
    apply List.prefix_iff_getElem?.mpr
    intro i inside
    exact same i _ (List.getElem?_eq_getElem inside)

theorem taps_open_shown_iff (s : ListScreens Data) :
    TapsOpenShown s ↔ visibleRows s <+: s.memory.filteredData :=
  (prefix_iff_get _ _).symm

theorem launched_taps (memory : AppState Data) : TapsOpenShown (launched memory) :=
  fun _ _ there => nomatch there

theorem reloaded_taps {s : ListScreens Data}
    (reloaded : visibleRows s = s.memory.filteredData ∨ visibleRows s = []) :
    TapsOpenShown s := by
  rw [taps_open_shown_iff]
  rcases reloaded with whole | none
  · rw [whole]
  · rw [none]
    exact List.nil_prefix

section Steps

variable {foundation} {s : ListScreens Data}

theorem app_step_ends {event : Event} {post : ListScreens Data → Prop}
    (ends : (step foundation s.memory event).Ends (fun memory => post (afterStep s memory event))
      fun _ _ => True) : (screenStep foundation s (.app event)).Ends post fun _ _ => True := by
  cases ran : step foundation s.memory event with
  | running memory =>
      rw [ran] at ends
      simp only [screenStep, ran]
      exact ends
  | stopped fault memory =>
      simp only [screenStep, ran]
      trivial

theorem unchanged_taps (taps : TapsOpenShown s) {memory : AppState Data}
    (same : memory.filteredData = s.memory.filteredData) :
    TapsOpenShown { s with memory } := by
  intro row item there
  rw [tappedItem, same]
  exact taps row item there

theorem quiet_step_taps (taps : TapsOpenShown s) {event : Event}
    (leaves : writesList event = false)
    (quiet : ∀ memory, afterStep s memory event = { s with memory }) :
    (screenStep foundation s (.app event)).Ends TapsOpenShown fun _ _ => True := by
  apply app_step_ends
  apply ends_mono (step_lists rfl leaves) _ fun _ _ _ => trivial
  intro memory same
  rw [quiet]
  exact unchanged_taps taps same

theorem notification_taps :
    (screenStep foundation s (.app .itemsNotification)).Ends TapsOpenShown fun _ _ => True := by
  have reloaded : ∀ memory, TapsOpenShown (afterStep s memory .itemsNotification) := by
    intro memory
    apply reloaded_taps
    simp only [visibleRows, afterStep]
    split
    · exact .inr rfl
    · cases s.pricesRows with
      | none => exact .inr rfl
      | some rows => exact .inl rfl
    · cases s.selectionRows with
      | none => exact .inr rfl
      | some rows => exact .inl rfl
  apply app_step_ends
  cases step foundation s.memory .itemsNotification with
  | running memory => exact reloaded memory
  | stopped fault memory => trivial

theorem admitted_on_screen {event : Event} (guarded : RowsStay s (.app event)) :
    onScreen s.visible event = true := (Bool.and_eq_true_iff.mp guarded.1).2

theorem tab_step_taps (taps : TapsOpenShown s) {event : TabEvent}
    (guarded : RowsStay s (.app (.tab event))) :
    (screenStep foundation s (.app (.tab event))).Ends TapsOpenShown fun _ _ => True := by
  apply app_step_ends
  cases event with
  | pricesWillAppear =>
      cases loaded : s.pricesRows with
      | none =>
          apply reloaded_taps
          simp only [visibleRows, afterStep, loaded]
          exact .inl rfl
      | some rows =>
          apply (taps_open_shown_iff _).mpr
          have begins := guarded.2
          simp only [rowsStay, loaded, Option.getD_some, List.isPrefixOf_iff_prefix] at begins
          simp only [visibleRows, afterStep, loaded]
          exact begins
  | pricesSearch searchText =>
      have visible := of_decide_eq_true (admitted_on_screen guarded)
      apply reloaded_taps
      simp only [visibleRows, afterStep, visible]
      exact .inl rfl
  | pricesPlatformChanged selectedSegmentIndex =>
      have visible := of_decide_eq_true (admitted_on_screen guarded)
      simp only [step, ends_running, afterStep]
      split
      · apply reloaded_taps
        simp only [visibleRows, visible]
        exact .inl rfl
      · apply unchanged_taps taps
        simp only [tabStep, AppMemory.pricesPlatformChanged]
        split <;> rfl
  | xPlatformChanged tag selectedSegmentIndex =>
      apply unchanged_taps taps
      simp only [tabStep, AppMemory.xPlatformChanged]
      split <;> rfl

theorem form_step_taps (taps : TapsOpenShown s) {event : FormEvent}
    (guarded : RowsStay s (.app (.form event))) :
    (screenStep foundation s (.app (.form event))).Ends TapsOpenShown fun _ _ => True := by
  apply app_step_ends
  cases event with
  | itemSelectionDidLoad => exact reloaded_taps (.inl rfl)
  | itemSearch searchText =>
      have visible := of_decide_eq_true (admitted_on_screen guarded)
      apply reloaded_taps
      simp only [visibleRows, afterStep, visible]
      exact .inl rfl
  | didSelectItem row =>
      simp only [step, formStep, FormSheet.didSelectItem]
      split
      · trivial
      · exact reloaded_taps (.inr rfl)
  | colourPicked row =>
      simp only [step, formStep, FormSheet.colourPicked]
      split
      · trivial
      · exact unchanged_taps taps rfl
  | platformChanged selectedSegmentIndex =>
      apply unchanged_taps taps
      simp only [formPlatformChanged]
      split <;> rfl
  | textChanged priceString => exact unchanged_taps taps rfl
  | stepperValueChanged value => exact unchanged_taps taps rfl
  | selectionBack => exact reloaded_taps (.inr rfl)

theorem screen_step_taps (taps : TapsOpenShown s) {event : ScreenEvent}
    (guarded : RowsStay s event) :
    (screenStep foundation s event).Ends TapsOpenShown fun _ _ => True := by
  cases event with
  | pricesDidSelectRow row =>
      unfold screenStep
      dsimp only
      split
      · trivial
      · exact taps
  | leavePrices => exact reloaded_taps (.inr rfl)
  | app event =>
      cases event with
      | relaunch => exact launched_taps _
      | catalogueArrives catalogue =>
          cases catalogue with
          | none => exact unchanged_taps taps rfl
          | some tempItems =>
              apply (taps_open_shown_iff _).mpr
              exact List.isPrefixOf_iff_prefix.mp guarded.2
      | itemsNotification => exact notification_taps
      | tab event => exact tab_step_taps taps guarded
      | form event => exact form_step_taps taps guarded
      | cancelButton => exact reloaded_taps (.inr rfl)
      | delayedReload => exact quiet_step_taps taps rfl fun _ => rfl
      | traitCollectionDidChange => exact quiet_step_taps taps rfl fun _ => rfl
      | overviewDidLoad => exact quiet_step_taps taps rfl fun _ => rfl
      | overview event => exact quiet_step_taps taps rfl fun _ => rfl
      | deleteConfirmed => exact quiet_step_taps taps rfl fun _ => rfl
      | deleteCancelled => exact quiet_step_taps taps rfl fun _ => rfl
      | addButton => exact quiet_step_taps taps rfl fun _ => rfl
      | chartClosed => exact quiet_step_taps taps rfl fun _ => rfl

end Steps

def Started (foundation : Foundation Data) (s : ListScreens Data) : Prop :=
  ∃ defaults, s = launched (launch foundation defaults)

/-- In every run in which no row on screen is left behind by the list, a tap opens what the
row shows. -/
theorem taps_open_shown (foundation : Foundation Data) (s : ListScreens Data)
    (reachable : Reachable (screens foundation) RowsStay (Started foundation) s) :
    TapsOpenShown s := by
  apply reachable_invariant TapsOpenShown _ _ reachable
  · rintro state ⟨defaults, rfl⟩
    exact launched_taps _
  · intro state event _ taps guarded
    exact ends_mono (screen_step_taps taps guarded) (fun _ after => after)
      fun _ _ _ => launched_taps _

/-- The condition is exact: any other step puts a row on screen that opens something else. -/
theorem stale_step_breaks {foundation : Foundation Data} {s t : ListScreens Data}
    {event : ScreenEvent} (stale : rowsStay s event = false)
    (ran : screenStep foundation s event = .running t) : ¬ TapsOpenShown t := by
  rw [taps_open_shown_iff]
  have notPrefix : ∀ {rows whole : List DecodingItem}, rows.isPrefixOf whole = false →
      ¬ rows <+: whole := fun differs begins =>
    Bool.false_ne_true (differs.symm.trans (List.isPrefixOf_iff_prefix.mpr begins))
  unfold rowsStay at stale
  split at stale
  · obtain rfl := Outcome.running.inj ran
    cases loaded : s.pricesRows with
    | none =>
        rw [loaded] at stale
        exact nomatch stale
    | some rows =>
        rw [loaded] at stale
        simp only [visibleRows, afterStep, loaded]
        exact notPrefix stale
  · obtain rfl := Outcome.running.inj ran
    exact notPrefix stale
  · exact nomatch stale

/-- The Prices tab with a search for "Dom" over an Octane and a Dominus. -/
def searchedPrices : List ScreenEvent :=
  [.app (.catalogueArrives (some ⟨[octane, dominus]⟩)), .app (.tab .pricesWillAppear),
    .app .itemsNotification, .app (.tab (.pricesSearch "Dom"))]

def searchedScreens : Option (ListScreens (List InvestmentItem ⊕ List InvestmentGroup)) :=
  runEvents (screens plainFoundation) RowsStay (launched (launch plainFoundation .fresh))
    searchedPrices

theorem taps_open_shown_searched :
    ∃ s, searchedScreens = some s ∧ (visibleRows s).map DecodingItem.itemName = ["Dominus"] ∧
      TapsOpenShown s := by
  have computed : searchedScreens.map (fun s => (visibleRows s).map DecodingItem.itemName) =
      some ["Dominus"] := by decide +kernel
  obtain ⟨s, runs, rows⟩ := Option.map_eq_some_iff.mp computed
  refine ⟨s, runs, rows, taps_open_shown plainFoundation s ?_⟩
  exact reachable_of_run_events _ _ (.start ⟨.fresh, rfl⟩) runs

def returnedScreens : Option (ListScreens (List InvestmentItem ⊕ List InvestmentGroup)) :=
  runEvents (screens plainFoundation) (fun s event => screenPossible s event = true)
    (launched (launch plainFoundation .fresh))
    (searchedPrices ++ [.leavePrices, .app (.tab .pricesWillAppear)])

/-- After another tab the row still shows the Dominus, and a tap on it opens the Octane. -/
theorem returned_row_opens_other :
    ¬ ∀ s, Reachable (screens plainFoundation) (fun s event => screenPossible s event = true)
        (Started plainFoundation) s → TapsOpenShown s := by
  intro taps
  have computed : returnedScreens.map (fun s => ((visibleRows s)[0]?.map DecodingItem.itemName,
      (tappedItem s 0).map DecodingItem.itemName)) = some (some "Dominus", some "Octane") := by
    decide +kernel
  obtain ⟨s, runs, result⟩ := Option.map_eq_some_iff.mp computed
  obtain ⟨shown, tapped⟩ := Prod.mk.inj result
  have reached : Reachable (screens plainFoundation)
      (fun s event => screenPossible s event = true) (Started plainFoundation) s :=
    reachable_of_run_events _ _ (.start ⟨.fresh, rfl⟩) runs
  obtain ⟨item, there, name⟩ := Option.map_eq_some_iff.mp shown
  have same := taps s reached 0 item there
  rw [same, Option.map_some, name] at tapped
  exact absurd tapped (by decide)

end RlInvestments.ItemListScreens
