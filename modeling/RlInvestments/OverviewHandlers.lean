import RlInvestments.FormTable
import RlInvestments.GuardedRuns

/-!
# The handlers of the investment overview

`investmentOverview.swift`, one definition for each handler. Table reloads build a
cell for every visible record and may stop the app; `deleteRows` compares the row
counts and may stop it too.
-/

namespace RlInvestments.OverviewHandlers

open RlInvestments.CatalogueItems RlInvestments.GuardedRuns RlInvestments.InvestmentStore
open RlInvestments.LastMatchScan RlInvestments.OverviewRows RlInvestments.AppMemory
open RlInvestments.FormTable

set_option autoImplicit false

variable {Data : Type} (foundation : Foundation Data)

/-- `tableView.reloadData()`: the number of rows and every cell are asked for again. -/
def reloadData (s : AppState Data) : Outcome Fault (AppState Data) :=
  match buildCells foundation.text s.investments s.investmentFilteredData with
  | .ok cells => .running { s with cells := cells }
  | .error fault => .stopped fault s

/-- `tableView.deleteRows(at: [IndexPath(row: row, section: 0)])`, after the data source
has changed: one row fewer than before has to be reported. -/
def deleteRows (row : Nat) (s : AppState Data) : Outcome Fault (AppState Data) :=
  if row < s.cells.length ∧ s.investmentFilteredData.length + 1 = s.cells.length then
    .running { s with cells := s.cells.eraseIdx row }
  else .stopped .rowAccounting s

def viewDidLoad (s : AppState Data) : Outcome Fault (AppState Data) :=
  (reloadData foundation { s with overviewLoaded := true }).andThen fun s =>
    .running { s with totalBarButtonEnabled := false }

def reloadTableView (s : AppState Data) : Outcome Fault (AppState Data) :=
  (reloadData foundation { s with investmentFilteredData := s.investments }).andThen fun s =>
    .running { s with totalBarButtonEnabled := true }

def matchesSearch (text : SwiftText) (searchText : String) (investment : InvestmentItem) : Bool :=
  text.contains (text.uppercased investment.item.itemName) (text.uppercased searchText)

def searchInvestments (text : SwiftText) (searchText : String)
    (investments : List InvestmentItem) : List InvestmentItem :=
  let found := investments.filter (matchesSearch text searchText)
  if searchText = "" then investments else found

theorem search_investments_sublist (text : SwiftText) (searchText : String)
    (investments : List InvestmentItem) :
    (searchInvestments text searchText investments).Sublist investments := by
  unfold searchInvestments
  split
  · exact List.Sublist.refl _
  · exact List.filter_sublist

def searchBarTextDidChange (searchText : String) (s : AppState Data) :
    Outcome Fault (AppState Data) :=
  reloadData foundation { s with
    searchText := searchText
    investmentFilteredData := searchInvestments foundation.text searchText s.investments }

def deleteItems (s : AppState Data) : AppState Data := { s with presented := .deleteAlert }

/-- Where `investments` has one element fewer than when the tag was set. An empty list
would make the tag negative; the next access stops the app in either case. -/
def lowerCellTag (s : AppState Data) : AppState Data :=
  if s.cellTag = s.investments.length then { s with cellTag := s.cellTag - 1 } else s

/-- The position in the visible list of the investment at `cellTag`, 0 if it is not there.
`investments[cellTag]` is read once for each visible record. -/
def filteredCellTag (s : AppState Data) : Except Fault Nat :=
  match s.investmentFilteredData with
  | [] => .ok 0
  | visible@(_ :: _) =>
      match s.investments[s.cellTag]? with
      | none => .error .indexOutOfRange
      | some selected =>
          .ok ((lastPosition (fun record => decide (selected.id = record.id)) visible).getD 0)

def removeInvestment (s : AppState Data) : Outcome Fault (AppState Data) :=
  if s.cellTag < s.investments.length then
    .running (saveInvestmentsData foundation
      { s with investments := s.investments.eraseIdx s.cellTag })
  else .stopped .indexOutOfRange s

/-- The handler of the "Yes" button. -/
def deleteConfirmed (s : AppState Data) : Outcome Fault (AppState Data) :=
  let s := lowerCellTag { s with presented := .nothing }
  match filteredCellTag s with
  | .error fault => .stopped fault s
  | .ok row =>
      if row < s.investmentFilteredData.length then
        let s := { s with investmentFilteredData := s.investmentFilteredData.eraseIdx row }
        let deleted :=
          if s.searchText = "" ∨ s.searchText = " " then
            (removeInvestment foundation s).andThen (deleteRows row)
          else if s.investmentFilteredData.length = 1 then
            (removeInvestment foundation s).andThen (deleteRows row)
          else
            (removeInvestment foundation s).andThen fun s =>
              reloadData foundation { s with searchText := "" }
        deleted.andThen fun s => .running { s with pendingReloads := s.pendingReloads + 1 }
      else .stopped .indexOutOfRange s

def editInvestment (s : AppState Data) : Outcome Fault (AppState Data) :=
  match s.investments[s.cellTag]? with
  | none => .stopped .indexOutOfRange s
  | some investment => .running (openForm foundation { s with
      editingMode := true
      selectedItem := some investment.item
      selectedColour := some investment.colour
      selectedPlatform := investment.platform
      selectedAmount := investment.quantity
      priceBoughtFor := investment.boughtFor
      selectedID := investment.id })

def amountChangedInvestment (s : AppState Data) : Outcome Fault (AppState Data) :=
  match s.investments[s.cellTag]? with
  | none => .stopped .indexOutOfRange s
  | some investment =>
      let s := saveInvestmentsData foundation { s with
        investments := s.investments.set s.cellTag
          { investment with quantity := s.currentAmount } }
      reloadData foundation { s with
        investmentFilteredData :=
          searchInvestments foundation.text s.searchText s.investments }

def groupInvesment (s : AppState Data) : Outcome Fault (AppState Data) :=
  match s.investments[s.cellTag]? with
  | none => .stopped .indexOutOfRange s
  | some selected => .running (saveGroupData foundation { s with
      groups := regroup foundation.text s.investments selected s.groups })

/-- `viewDidLoad` of the chart reads `investments[cellTag]`. -/
def showRLInsiderChart (s : AppState Data) : Outcome Fault (AppState Data) :=
  match s.investments[s.cellTag]? with
  | none => .stopped .indexOutOfRange s
  | some _ => .running { s with presented := .chart }

/-- The fields of the form for a new record. -/
def newFields (s : AppState Data) : AppState Data :=
  { s with
    editingMode := false
    selectedItem := none
    selectedColour := some "Default"
    selectedPlatform := s.platform
    selectedAmount := 1
    priceBoughtFor := 100 }

/-- `investmentID()` adds one to the highest id, which stops the app at the largest `Int`. -/
def addNewButton (s : AppState Data) : Outcome Fault (AppState Data) :=
  if FitsInt (investmentID s.investments) then
    .running (openForm foundation { newFields s with selectedID := investmentID s.investments })
  else .stopped .overflow (newFields s)

def showTotalPressed (s : AppState Data) : Outcome Fault (AppState Data) :=
  match showTotal foundation.text s.investmentFilteredData with
  | .ok _ => .running s
  | .error fault => .stopped fault s

end RlInvestments.OverviewHandlers
