import RlInvestments.OverviewRows

/-!
# The app's memory

The global variables of `dataManagment.swift`, what the overview and the form keep on
screen, the blocks waiting on the main queue, and the defaults. `launch` gives the
globals their initial values; the functions below are those that save a global or
replace the catalogue.
-/

namespace RlInvestments.AppMemory

open RlInvestments.CatalogueItems RlInvestments.InvestmentStore RlInvestments.OverviewRows

set_option autoImplicit false

/-- What covers the tab that is being used. -/
inductive Presented where
  | nothing
  | deleteAlert
  | form
  | chart
deriving DecidableEq, Repr

/-- What the cells of the form hold, as a reload or one of the cells has written it last. -/
structure FormCells where
  itemText : String
  colourText : String
  selectedSegmentIndex : Nat
  boughtForText : String
  amountText : String
deriving DecidableEq, Repr

structure AppState (Data : Type) where
  defaults : UserDefaults Data
  platform : String
  investments : List InvestmentItem
  groups : List InvestmentGroup
  items : List DecodingItem
  filteredData : List DecodingItem
  investmentFilteredData : List InvestmentItem
  selectedItem : Option DecodingItem
  selectedColour : Option String
  selectedPlatform : String
  selectedAmount : Int
  priceBoughtFor : Int
  selectedID : Int
  cellTag : Nat
  currentAmount : Int
  editingMode : Bool
  xPlatData : String × String
  presented : Presented
  overviewLoaded : Bool
  searchText : String
  cells : List ItemCell
  /-- `totalBarButton.isEnabled`, which is switched together with `tableView.isHidden`. -/
  totalBarButtonEnabled : Bool
  formCells : FormCells
  /-- Blocks of `reloadTableViewDelay` that have not run yet. -/
  pendingReloads : Nat
  /-- Blocks of `initializeData` that will post `reloadItems`. -/
  pendingItems : Nat

variable {Data : Type} (foundation : Foundation Data)

def launch (defaults : UserDefaults Data) : AppState Data where
  defaults := defaults
  platform := savedPlatform defaults
  investments := getSavedInvestments foundation defaults
  groups := getSavedGroups foundation defaults
  items := []
  filteredData := []
  investmentFilteredData := []
  selectedItem := none
  selectedColour := none
  selectedPlatform := savedPlatform defaults
  selectedAmount := 1
  priceBoughtFor := 0
  selectedID := 0
  cellTag := 0
  currentAmount := 0
  editingMode := false
  xPlatData := savedXPlatData defaults
  presented := .nothing
  overviewLoaded := false
  searchText := ""
  cells := []
  totalBarButtonEnabled := false
  formCells := ⟨"", "", 0, "", ""⟩
  pendingReloads := 0
  pendingItems := 0

def saveInvestmentsData (s : AppState Data) : AppState Data :=
  { s with
    investmentFilteredData := s.investments
    defaults := { s.defaults with
      investments := some (foundation.encodeInvestments s.investments) } }

def saveGroupData (s : AppState Data) : AppState Data :=
  { s with
    defaults := { s.defaults with groups := some (foundation.encodeGroups s.groups) } }

def updatePlatform (s : AppState Data) : AppState Data :=
  { s with defaults := { s.defaults with platform := some s.platform } }

def updateXPlatforms (s : AppState Data) : AppState Data :=
  { s with
    defaults := { s.defaults with
      platform1 := some s.xPlatData.1, platform2 := some s.xPlatData.2 } }

/-- The callback of `initializeData`. The catalogue is emptied before it is decoded, so a
text that does not decode leaves it empty. -/
def initializeData (catalogue : Option DecodingItems) (s : AppState Data) : AppState Data :=
  match catalogue with
  | none => { s with items := [] }
  | some tempItems =>
      let saved := saveInvestmentsData foundation { s with
        items := tempItems.items
        filteredData := tempItems.items
        investments := updateInvestments tempItems.items s.investments }
      { saved with pendingItems := s.pendingItems + 1 }

/-- The filter shared by the two item lists. -/
def searchItems (searchText : String) (items : List DecodingItem) : List DecodingItem :=
  let found := items.filter fun item =>
    foundation.text.contains (foundation.text.uppercased item.itemName)
      (foundation.text.uppercased searchText)
  if searchText = "" then items else found

def pricesPlatformChanged (selectedSegmentIndex : Nat) (s : AppState Data) : AppState Data :=
  match selectedSegmentIndex with
  | 0 => updatePlatform { s with platform := "PC" }
  | 1 => updatePlatform { s with platform := "PS4" }
  | 2 => updatePlatform { s with platform := "SWITCH" }
  | 3 => updatePlatform { s with platform := "XBOX" }
  | _ => s

def setXPlatform (tag : Fin 2) (platform : String) (xPlatData : String × String) :
    String × String :=
  match tag with
  | 0 => (platform, xPlatData.2)
  | 1 => (xPlatData.1, platform)

def xPlatformChanged (tag : Fin 2) (selectedSegmentIndex : Nat) (s : AppState Data) :
    AppState Data :=
  match selectedSegmentIndex with
  | 0 => updateXPlatforms { s with xPlatData := setXPlatform tag "PC" s.xPlatData }
  | 1 => updateXPlatforms { s with xPlatData := setXPlatform tag "PS4" s.xPlatData }
  | 2 => updateXPlatforms { s with xPlatData := setXPlatform tag "Switch" s.xPlatData }
  | 3 => updateXPlatforms { s with xPlatData := setXPlatform tag "Xbox" s.xPlatData }
  | _ => s

end RlInvestments.AppMemory
