import RlInvestments.FormSheet

/-!
# Runs of the app

An event is one action of the user, or one block that the main queue runs. `possible`
says which of them the screens admit: while the form or the alert covers the overview
only its own controls act, next to the events that come from outside.
-/

namespace RlInvestments.AppRuns

open RlInvestments.CatalogueItems RlInvestments.GuardedRuns RlInvestments.InvestmentStore
open RlInvestments.OverviewRows RlInvestments.AppMemory RlInvestments.OverviewHandlers
open RlInvestments.FormTable RlInvestments.FormSheet

set_option autoImplicit false

/-- The controls of the overview; a cell's buttons carry the cell's tag. -/
inductive OverviewEvent where
  | searchBarTextDidChange (searchText : String)
  | addNewButton
  | showTotal
  | editButtonPressed (tag : Nat)
  | deleteButtonPressed (tag : Nat)
  | stepperValueChanged (tag : Nat) (value : Int)
  | groupButtonPressed (tag : Nat)
  | rlInsiderChart (tag : Nat)

inductive FormEvent where
  | itemSelectionDidLoad
  | itemSearch (searchText : String)
  | didSelectItem (row : Nat)
  | colourPicked (row : Nat)
  | platformChanged (selectedSegmentIndex : Nat)
  | textChanged (priceString : String)
  | stepperValueChanged (value : Int)
  | selectionBack

inductive TabEvent where
  | pricesWillAppear
  | pricesSearch (searchText : String)
  | pricesPlatformChanged (selectedSegmentIndex : Nat)
  | xPlatformChanged (tag : Fin 2) (selectedSegmentIndex : Nat)

inductive Event where
  | relaunch
  | catalogueArrives (catalogue : Option DecodingItems)
  | itemsNotification
  | delayedReload
  | traitCollectionDidChange
  | overviewDidLoad
  | overview (event : OverviewEvent)
  | deleteConfirmed
  | deleteCancelled
  | form (event : FormEvent)
  | addButton
  | cancelButton
  | chartClosed
  | tab (event : TabEvent)

variable {Data : Type} (foundation : Foundation Data)

def overviewStep (s : AppState Data) : OverviewEvent → Outcome Fault (AppState Data)
  | .searchBarTextDidChange searchText => searchBarTextDidChange foundation searchText s
  | .addNewButton => OverviewHandlers.addNewButton foundation s
  | .showTotal => showTotalPressed foundation s
  | .editButtonPressed tag => editInvestment foundation { s with cellTag := tag }
  | .deleteButtonPressed tag => .running (deleteItems { s with cellTag := tag })
  | .stepperValueChanged tag value =>
      amountChangedInvestment foundation { s with cellTag := tag, currentAmount := value }
  | .groupButtonPressed tag => groupInvesment foundation { s with cellTag := tag }
  | .rlInsiderChart tag => showRLInsiderChart { s with cellTag := tag }

def formStep (s : AppState Data) : FormEvent → Outcome Fault (AppState Data)
  | .itemSelectionDidLoad => .running { s with filteredData := s.items }
  | .itemSearch searchText =>
      .running { s with filteredData := searchItems foundation searchText s.items }
  | .didSelectItem row => FormSheet.didSelectItem foundation row s
  | .colourPicked row => FormSheet.colourPicked foundation row s
  | .platformChanged selectedSegmentIndex => .running (formPlatformChanged selectedSegmentIndex s)
  | .textChanged priceString => .running (FormSheet.textChanged priceString s)
  | .stepperValueChanged value => .running (FormSheet.stepperValueChanged value s)
  | .selectionBack => .running (reloadForm foundation s)

def tabStep (s : AppState Data) : TabEvent → AppState Data
  | .pricesWillAppear => { s with filteredData := s.items }
  | .pricesSearch searchText =>
      { s with filteredData := searchItems foundation searchText s.items }
  | .pricesPlatformChanged selectedSegmentIndex =>
      AppMemory.pricesPlatformChanged selectedSegmentIndex s
  | .xPlatformChanged tag selectedSegmentIndex =>
      AppMemory.xPlatformChanged tag selectedSegmentIndex s

def step (s : AppState Data) : Event → Outcome Fault (AppState Data)
  | .relaunch => .running (launch foundation s.defaults)
  | .catalogueArrives catalogue => .running (initializeData foundation catalogue s)
  | .itemsNotification =>
      let s := { s with pendingItems := s.pendingItems - 1 }
      -- Before its view has loaded the overview observes nothing.
      if s.overviewLoaded then reloadTableView foundation s else .running s
  | .delayedReload => reloadData foundation { s with pendingReloads := s.pendingReloads - 1 }
  | .traitCollectionDidChange => reloadData foundation s
  | .overviewDidLoad => viewDidLoad foundation s
  | .overview event => overviewStep foundation s event
  | .deleteConfirmed => OverviewHandlers.deleteConfirmed foundation s
  | .deleteCancelled => .running { s with presented := .nothing }
  | .form event => formStep foundation s event
  | .addButton => FormSheet.addButton foundation s
  | .cancelButton => .running (FormSheet.cancelButton s)
  | .chartClosed => .running { s with presented := .nothing }
  | .tab event => .running (tabStep foundation s event)

/-- A stopped app is launched again from its defaults. -/
def app : System (AppState Data) Event Fault where
  step := step foundation
  restart s := launch foundation s.defaults

/-- The steppers run from 1 to 100. -/
def stepperAdmits (value : Int) : Bool := decide (1 ≤ value ∧ value ≤ 100)

def overviewAdmits (s : AppState Data) : OverviewEvent → Bool
  | .searchBarTextDidChange _ => true
  | .addNewButton => true
  | .showTotal => s.totalBarButtonEnabled
  | .stepperValueChanged _ value => s.totalBarButtonEnabled && stepperAdmits value
  | _ => s.totalBarButtonEnabled

def formAdmits : FormEvent → Bool
  | .stepperValueChanged value => stepperAdmits value
  | _ => true

def possible (s : AppState Data) : Event → Bool
  | .relaunch => true
  | .catalogueArrives _ => true
  | .itemsNotification => decide (0 < s.pendingItems)
  | .delayedReload => decide (0 < s.pendingReloads)
  | .traitCollectionDidChange => s.overviewLoaded
  | .overviewDidLoad => !s.overviewLoaded && decide (s.presented = .nothing)
  | .overview event =>
      s.overviewLoaded && decide (s.presented = .nothing) && overviewAdmits s event
  | .deleteConfirmed => decide (s.presented = .deleteAlert)
  | .deleteCancelled => decide (s.presented = .deleteAlert)
  | .form event => decide (s.presented = .form) && formAdmits event
  | .addButton => decide (s.presented = .form)
  | .cancelButton => decide (s.presented = .form)
  | .chartClosed => decide (s.presented = .chart)
  | .tab _ => decide (s.presented = .nothing ∨ s.presented = .chart)

/-- A row's button is pressed on a cell that is on screen. -/
def fromScreen (s : AppState Data) : Event → Bool
  | .overview (.editButtonPressed tag) => s.cells.any fun cell => cell.tag == tag
  | .overview (.deleteButtonPressed tag) => s.cells.any fun cell => cell.tag == tag
  | .overview (.stepperValueChanged tag _) => s.cells.any fun cell => cell.tag == tag
  | .overview (.groupButtonPressed tag) => s.cells.any fun cell => cell.tag == tag
  | .overview (.rlInsiderChart tag) => s.cells.any fun cell => cell.tag == tag
  | _ => true

abbrev Possible (s : AppState Data) (event : Event) : Prop := possible s event = true

/-- States with which a run can start: launches from defaults of the given kind. -/
def Launched (stored : UserDefaults Data → Prop) (s : AppState Data) : Prop :=
  ∃ defaults, stored defaults ∧ s = launch foundation defaults

theorem reachable_of_fresh_run {guard : AppState Data → Event → Prop}
    [∀ s event, Decidable (guard s event)] {stored : UserDefaults Data → Prop}
    (fresh : stored .fresh) {events : List Event} {s : AppState Data}
    (runs : runEvents (app foundation) guard (launch foundation .fresh) events = some s) :
    Reachable (app foundation) guard (Launched foundation stored) s :=
  reachable_of_run_events _ _ (.start ⟨.fresh, fresh, rfl⟩) runs

def octane : DecodingItem where
  itemName := "Octane"
  itemPriceRange := ofAttributes fun key => if key = "pc_price" then some [100, 120] else none
  itemUrlName := "Octane"

def dominus : DecodingItem where
  itemName := "Dominus"
  itemPriceRange := ofAttributes fun key => if key = "pc_price" then some [300, 340] else none
  itemUrlName := "Dominus"

def addItem (row : Nat) : List Event :=
  [.overview .addNewButton, .form .itemSelectionDidLoad, .form (.didSelectItem row), .addButton]

def firstSession : List Event :=
  [.catalogueArrives (some ⟨[octane, dominus]⟩), .overviewDidLoad, .itemsNotification] ++ addItem 0

def addPieces (row : Nat) (price : String) (pieces : Int) : List Event :=
  [.overview .addNewButton, .form .itemSelectionDidLoad, .form (.didSelectItem row),
    .form (.textChanged price), .form (.stepperValueChanged pieces), .addButton]

def secondSession : List Event := firstSession ++ addPieces 1 "290" 3

def secondState : Option (AppState (List InvestmentItem ⊕ List InvestmentGroup)) :=
  runEvents (app plainFoundation) Possible (launch plainFoundation .fresh) secondSession

def amounts (investments : List InvestmentItem) : List (Int × Int) :=
  investments.map fun record => (record.quantity, record.boughtFor)

example : secondState.map (fun s => s.cells.map ItemCell.profitLabel) =
    some ["Profit/Loss: 0 - 20", "Profit/Loss: 30 - 150"] := by decide +kernel

end RlInvestments.AppRuns
