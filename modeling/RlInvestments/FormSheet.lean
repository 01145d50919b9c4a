import RlInvestments.OverviewHandlers

/-!
# The form for adding and editing

`addNewInvestment.swift`, the cells of its table and the item selection that it pushes.
The fields of the form are the `selected...` globals; pressing the button appends or
overwrites one record.
-/

namespace RlInvestments.FormSheet

open RlInvestments.CatalogueItems RlInvestments.GuardedRuns RlInvestments.InvestmentStore
open RlInvestments.OverviewRows RlInvestments.AppMemory RlInvestments.OverviewHandlers
open RlInvestments.FormTable

set_option autoImplicit false

variable {Data : Type} (foundation : Foundation Data)

def readDigits (digits : List Char) : Int :=
  (digits.takeWhile Char.isDigit).foldl
    (fun value digit => 10 * value + (digit.toNat - '0'.toNat : Nat)) 0

def saturate (value : Int) : Int := max (-2 ^ 63) (min value (2 ^ 63 - 1))

def integerValue (text : String) : Int :=
  match text.toList.dropWhile Char.isWhitespace with
  | '-' :: digits => saturate (-readDigits digits)
  | '+' :: digits => saturate (readDigits digits)
  | digits => saturate (readDigits digits)

theorem saturate_fits (value : Int) : FitsInt (saturate value) := by
  unfold saturate FitsInt
  omega

theorem integer_value_fits (text : String) : FitsInt (integerValue text) := by
  unfold integerValue
  split <;> exact saturate_fits _

theorem unset_price_fits : FitsInt 0 := by decide

theorem preset_price_fits : FitsInt 100 := by decide

def pickerColours : List String :=
  ["Default", "Black", "Titanium White", "Grey", "Crimson", "Pink", "Cobalt", "Sky Blue",
    "Burnt Sienna", "Saffron", "Lime", "Forest Green", "Orange", "Purple"]

/-- The picker posts the reload before it sets the colour, and the table draws after both. -/
def colourPicked (row : Nat) (s : AppState Data) : Outcome Fault (AppState Data) :=
  match pickerColours[row]? with
  | none => .stopped .indexOutOfRange s
  | some colour => .running (reloadForm foundation { s with selectedColour := some colour })

def formPlatformChanged (selectedSegmentIndex : Nat) (s : AppState Data) : AppState Data :=
  let pressed := { s with
    formCells := { s.formCells with selectedSegmentIndex := selectedSegmentIndex } }
  match selectedSegmentIndex with
  | 0 => { pressed with selectedPlatform := "PC" }
  | 1 => { pressed with selectedPlatform := "PS4" }
  | 2 => { pressed with selectedPlatform := "Switch" }
  | 3 => { pressed with selectedPlatform := "Xbox" }
  | _ => s

def textChanged (priceString : String) (s : AppState Data) : AppState Data :=
  { s with
    formCells := { s.formCells with boughtForText := priceString }
    priceBoughtFor := integerValue priceString }

def stepperValueChanged (value : Int) (s : AppState Data) : AppState Data :=
  { s with
    formCells := { s.formCells with amountText := toString value }
    selectedAmount := value }

/-- Choosing an item pops back to the form, which reloads as it appears. -/
def didSelectItem (row : Nat) (s : AppState Data) : Outcome Fault (AppState Data) :=
  match s.filteredData[row]? with
  | none => .stopped .indexOutOfRange s
  | some item => .running (reloadForm foundation { s with
      selectedItem := some item, selectedColour := some "Default" })

/-- The text of the price cell's `textLabel`, which is not its text field and is set nowhere. -/
def boughtForTextLabel : Option String := none

/-- The record that the button stores, if the checks before it pass: an item and a
colour are selected, the price cell's label is not the empty text, and the item has a
price in that colour on that platform. -/
def acceptedInvestment (s : AppState Data) : Option InvestmentItem :=
  match s.selectedItem with
  | none => none
  | some item =>
      match s.selectedColour with
      | none => none
      | some colour =>
          if boughtForTextLabel = some "" then none
          else if (item.getColourPrice foundation.text colour s.selectedPlatform).isNone then none
          else some {
            item := item
            colour := colour
            quantity := s.selectedAmount
            boughtFor := s.priceBoughtFor
            platform := s.selectedPlatform
            id := s.selectedID }

def storeAndDismiss (s : AppState Data) : Outcome Fault (AppState Data) :=
  (reloadTableView foundation (saveInvestmentsData foundation s)).andThen fun s =>
    .running { s with presented := .nothing }

/-- A refused form only shows an alert. -/
def addButton (s : AppState Data) : Outcome Fault (AppState Data) :=
  match acceptedInvestment foundation s with
  | none => .running s
  | some investment =>
      if s.editingMode = false then
        storeAndDismiss foundation { s with investments := s.investments ++ [investment] }
      else if s.cellTag < s.investments.length then
        storeAndDismiss foundation { s with
          investments := s.investments.set s.cellTag investment }
      else .stopped .indexOutOfRange s

def cancelButton (s : AppState Data) : AppState Data := { s with presented := .nothing }

end RlInvestments.FormSheet
