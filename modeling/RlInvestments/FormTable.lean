import RlInvestments.AppMemory

/-!
# The table of the form

`cellForRowAt` of `addNewInvestment.swift` writes the five cells from the globals when the
form appears and when it is reloaded. In between a cell holds what it wrote itself. A table
draws its cells when the handler that reloaded it has ended.
-/

namespace RlInvestments.FormTable

open RlInvestments.CatalogueItems RlInvestments.InvestmentStore RlInvestments.AppMemory

set_option autoImplicit false

variable {Data : Type} (foundation : Foundation Data)

def segmentTitles : List String := ["PC", "PS4", "Switch", "Xbox"]

/-- The segment that `cellForRowAt` selects for an uppercased platform. Another text leaves the
control as it is. -/
def segmentOf (uppercased : String) : Option Nat :=
  if uppercased = "PC" then some 0
  else if uppercased = "PS4" then some 1
  else if uppercased = "SWITCH" then some 2
  else if uppercased = "XBOX" then some 3
  else none

/-- The value that the stepper takes; it runs from 1 to 100. -/
def stepperShows (amount : Int) : Int := max 1 (min amount 100)

theorem stepper_shows_value {amount : Int} (range : 1 ≤ amount ∧ amount ≤ 100) :
    stepperShows amount = amount := by
  unfold stepperShows
  omega

def formCellForRowAt (s : AppState Data) : FormCells where
  itemText :=
    match s.selectedItem with
    | some item => item.itemName
    | none => "No Item Selected"
  colourText := s.selectedColour.getD "No Colour Selected"
  selectedSegmentIndex :=
    (segmentOf (foundation.text.uppercased s.selectedPlatform)).getD
      s.formCells.selectedSegmentIndex
  boughtForText := toString s.priceBoughtFor
  amountText := toString (stepperShows s.selectedAmount)

def reloadForm (s : AppState Data) : AppState Data :=
  { s with formCells := formCellForRowAt foundation s }

/-- The form is loaded with its first segment selected, and reloads as it appears. -/
def openForm (s : AppState Data) : AppState Data :=
  reloadForm foundation { s with presented := .form, formCells := ⟨"", "", 0, "", "1"⟩ }

end RlInvestments.FormTable
