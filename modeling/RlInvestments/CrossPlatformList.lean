import Mathlib.Algebra.Field.Rat
import RlInvestments.OverviewRows
import RlInvestments.WhileLoops

/-!
# The cross-platform list

`xPlatMain.swift`. `reload` rebuilds `xPlatItems` from the catalogue and posts a block
to the main queue that sorts it. The numbers are a parameter: the app computes with
`Int` and `Float`, and the list does not depend on how.
-/

namespace RlInvestments.CrossPlatformList

open RlInvestments.CatalogueItems RlInvestments.GuardedRuns RlInvestments.OverviewRows
open RlInvestments.WhileLoops

set_option autoImplicit false

/-- The addition of two prices, and `platform2Price / platform1Price * 100` of the two
prices of an entry once they are converted. -/
structure RateArithmetic (Percentage : Type) where
  add : Int → Int → Except Fault Int
  rate : (platform1Price platform2Price : Int) → Percentage

/-- Integers of any size and rational percentages. -/
def exactArithmetic : RateArithmetic ℚ where
  add first second := .ok (first + second)
  rate platform1Price platform2Price := platform2Price / platform1Price * 100

structure XPlat (Percentage : Type) where
  itemName : String
  itemColour : String
  percentageIncrease : Percentage
  platform1Price : List Int
  platform2Price : List Int
deriving DecidableEq, Repr

variable {Percentage : Type}

def rowText (entry : XPlat Percentage) (percentageSimple : Int) : String :=
  entry.itemColour ++ " " ++ entry.itemName ++ ": " ++ toString percentageSimple ++ "%"

def xPlatColours : List String :=
  ["Default", "Black", "Titanium White", "Grey", "Crimson", "Pink", "Cobalt", "Sky Blue",
    "Burnt Sienna", "Saffron", "Lime", "Forest Green", "Orange", "Purple"]

variable (arithmetic : RateArithmetic Percentage) (text : SwiftText)

/-- `priceRange![0] + priceRange![1] / 2`, where the division binds first and drops its
fraction. -/
def platformPrice (priceRange : List Int) : Except Fault Int := do
  let first ← unwrapElement (some priceRange) 0
  let second ← unwrapElement (some priceRange) 1
  arithmetic.add first (second.tdiv 2)

def xPlatEntry (item : DecodingItem) (colour : String)
    (platform1PriceRange platform2PriceRange : List Int) : Except Fault (XPlat Percentage) := do
  let platform1Price ← platformPrice arithmetic platform1PriceRange
  let platform2Price ← platformPrice arithmetic platform2PriceRange
  .ok {
    itemName := item.itemName
    itemColour := colour
    percentageIncrease := arithmetic.rate platform1Price platform2Price
    platform1Price := platform1PriceRange
    platform2Price := platform2PriceRange }

/-- One round of the inner loop; a colour without both prices is passed over. -/
def appendEntry (xPlatData : String × String) (item : DecodingItem)
    (xPlatItems : List (XPlat Percentage)) (colour : String) :
    Except Fault (List (XPlat Percentage)) :=
  match item.getColourPrice text colour xPlatData.1,
      item.getColourPrice text colour xPlatData.2 with
  | some platform1PriceRange, some platform2PriceRange => do
      let entry ← xPlatEntry arithmetic item colour platform1PriceRange platform2PriceRange
      .ok (xPlatItems ++ [entry])
  | _, _ => .ok xPlatItems

def builtItems (xPlatData : String × String) (items : List DecodingItem) :
    Except Fault (List (XPlat Percentage)) :=
  items.foldlM (fun xPlatItems item =>
    xPlatColours.foldlM (appendEntry arithmetic text xPlatData item) xPlatItems) []

def element (list : List (XPlat Percentage)) (i : Nat) : Except (Stop Fault) (XPlat Percentage) :=
  match list[i]? with
  | none => .error (.fault .indexOutOfRange)
  | some entry => .ok entry

section Sorting

variable [LE Percentage] [DecidableLE Percentage]

/-- One round of the inner `while`, on `i` and `highestIncrease`. -/
def compareNext (oldList : List (XPlat Percentage)) (position : Nat × Nat) :
    Except (Stop Fault) (Nat × Nat) := do
  let (i, highestIncrease) := position
  let current ← element oldList i
  let highest ← element oldList highestIncrease
  let highestIncrease :=
    if current.percentageIncrease ≥ highest.percentageIncrease then i else highestIncrease
  .ok (i + 1, highestIncrease)

def findHighest (fuel : Nat) (oldList : List (XPlat Percentage)) : Except (Stop Fault) Nat := do
  let (_, highestIncrease) ←
    runWhile (fun position => position.1 != oldList.length) (compareNext oldList) fuel (0, 0)
  .ok highestIncrease

/-- One round of the outer `while`, on `oldList` and `xPlatItems`. -/
def moveHighest (fuel : Nat) (lists : List (XPlat Percentage) × List (XPlat Percentage)) :
    Except (Stop Fault) (List (XPlat Percentage) × List (XPlat Percentage)) := do
  let (oldList, xPlatItems) := lists
  let highestIncrease ← findHighest fuel oldList
  let entry ← element oldList highestIncrease
  .ok (oldList.eraseIdx highestIncrease, xPlatItems ++ [entry])

/-- The block that is posted to the main queue. -/
def sortItems (fuel : Nat) (xPlatItems : List (XPlat Percentage)) :
    Except (Stop Fault) (List (XPlat Percentage)) := do
  let (_, sorted) ←
    runWhile (fun lists => 0 != lists.1.length) (moveHighest fuel) fuel (xPlatItems, [])
  .ok sorted

end Sorting

structure XPlatMain (Percentage : Type) where
  items : List DecodingItem
  xPlatData : String × String
  haveLoaded : Bool
  xPlatItems : List (XPlat Percentage)
  /-- Sort blocks on the main queue that have not run yet. -/
  pendingSorts : Nat

inductive Event where
  /-- Whatever the rest of the app does to the globals that the screen reads. -/
  | globalsChange (items : List DecodingItem) (xPlatData : String × String) (haveLoaded : Bool)
  | reloadPlatforms
  | reloadItems
  | viewWillAppear
  | sortBlock

def reload (s : XPlatMain Percentage) : Outcome (Stop Fault) (XPlatMain Percentage) :=
  match builtItems arithmetic text s.xPlatData s.items with
  | .error fault => .stopped (.fault fault) { s with xPlatItems := [] }
  | .ok xPlatItems => .running { s with
      xPlatItems := xPlatItems, pendingSorts := s.pendingSorts + 1 }

variable [LE Percentage] [DecidableLE Percentage]

/-- The loops of a block are given one evaluation more than the list has entries. -/
def runSort (s : XPlatMain Percentage) : Outcome (Stop Fault) (XPlatMain Percentage) :=
  match sortItems (s.xPlatItems.length + 1) s.xPlatItems with
  | .error stop => .stopped stop { s with xPlatItems := [] }
  | .ok sorted => .running { s with xPlatItems := sorted, pendingSorts := s.pendingSorts - 1 }

def step (s : XPlatMain Percentage) : Event → Outcome (Stop Fault) (XPlatMain Percentage)
  | .globalsChange items xPlatData haveLoaded => .running { s with items, xPlatData, haveLoaded }
  | .reloadPlatforms => reload arithmetic text s
  | .reloadItems => reload arithmetic text s
  | .viewWillAppear => if s.haveLoaded = true then reload arithmetic text s else .running s
  | .sortBlock => runSort s

def restart (s : XPlatMain Percentage) : XPlatMain Percentage :=
  ⟨[], s.xPlatData, false, [], 0⟩

def screen : System (XPlatMain Percentage) Event (Stop Fault) where
  step := step arithmetic text
  restart := restart

/-- A block runs only if it has been posted. -/
def queued (s : XPlatMain Percentage) : Event → Bool
  | .sortBlock => decide (0 < s.pendingSorts)
  | _ => true

def reloads (s : XPlatMain Percentage) : Event → Bool
  | .reloadPlatforms => true
  | .reloadItems => true
  | .viewWillAppear => s.haveLoaded
  | _ => false

end RlInvestments.CrossPlatformList
