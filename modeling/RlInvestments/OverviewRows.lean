import RlInvestments.GuardedRuns
import RlInvestments.InvestmentStore

/-!
# The rows of the overview and its total

`tableView(cellForRowAt:)` for one visible record, and the sums of `showTotal`.
Every product, sum and difference is a Swift `Int` operation, which stops the app
when its result does not fit, and prices are read by force-unwrapping and indexing.
-/

namespace RlInvestments.OverviewRows

open RlInvestments.CatalogueItems RlInvestments.GuardedRuns RlInvestments.InvestmentStore
open RlInvestments.LastMatchScan

set_option autoImplicit false

inductive Fault where
  | unwrapNil
  | indexOutOfRange
  | overflow
  /-- The exception of `UITableView` when its row counts do not add up. -/
  | rowAccounting
deriving DecidableEq, Repr

def checked (value : Int) : Except Fault Int :=
  if FitsInt value then .ok value else .error .overflow

def unwrapElement (price : Option (List Int)) (i : Nat) : Except Fault Int :=
  match price with
  | none => .error .unwrapNil
  | some elements =>
      match elements[i]? with
      | none => .error .indexOutOfRange
      | some element => .ok element

structure RowFigures where
  boughtTotal : Option Int
  priceLower : Int
  priceUpper : Int
  nowLower : Int
  nowUpper : Int
  totalSpent : Int
  profitLowerBound : Int
  profitUpperBound : Int
deriving DecidableEq, Repr

/-- "Total: ..." is written, and its product computed, for more than one piece only. -/
def boughtTotal (record : InvestmentItem) : Except Fault (Option Int) :=
  if 1 < record.quantity then (checked (record.quantity * record.boughtFor)).map some
  else .ok none

/-- The figures of one row, in the order in which `cellForRowAt` computes them. -/
def rowFigures (text : SwiftText) (record : InvestmentItem) : Except Fault RowFigures := do
  let boughtTotal ← boughtTotal record
  let priceRange := record.item.getColourPrice text (text.uppercased record.colour)
    (text.uppercased record.platform)
  let priceLower ← unwrapElement priceRange 0
  let priceUpper ← unwrapElement priceRange 1
  let nowLower ← checked (priceLower * record.quantity)
  let nowUpper ← checked (priceUpper * record.quantity)
  let totalSpent ← checked (record.quantity * record.boughtFor)
  let profitLowerBound ← checked (nowLower - totalSpent)
  let profitUpperBound ← checked (nowUpper - totalSpent)
  .ok { boughtTotal, priceLower, priceUpper, nowLower, nowUpper, totalSpent, profitLowerBound,
        profitUpperBound }

/-- A loss is shown in brackets. -/
def profitBoundString (bound : Int) : String :=
  if bound < 0 then "(" ++ toString bound ++ ")" else toString bound

/-- A cell as `cellForRowAt` leaves it; `record` is the investment it was built from. -/
structure ItemCell where
  record : InvestmentItem
  figures : RowFigures
  itemNameLabel : String
  totalBoughtSpentLabel : String
  currentPriceLabel : String
  totalNowLabel : String
  profitLabel : String
  amountStepper : Int
  tag : Nat

def itemNameLabel (record : InvestmentItem) : String :=
  record.colour ++ " " ++ record.item.itemName

def totalBoughtSpentLabel (record : InvestmentItem) (figures : RowFigures) : String :=
  let bought := "Bought " ++ toString record.quantity ++ " for " ++ toString record.boughtFor
  match figures.boughtTotal with
  | some total => bought ++ " each, Total: " ++ toString total
  | none => bought

def cellForRowAt (text : SwiftText) (investments : List InvestmentItem)
    (record : InvestmentItem) : Except Fault ItemCell := do
  let figures ← rowFigures text record
  let investmentPosition :=
    lastPosition (fun investment => decide (record.id = investment.id)) investments
  match investmentPosition with
  | none => .error .unwrapNil
  | some tag => .ok {
      record
      figures
      itemNameLabel := itemNameLabel record
      totalBoughtSpentLabel := totalBoughtSpentLabel record figures
      currentPriceLabel := "Current Price: " ++ toString figures.priceLower ++ " - " ++
        toString figures.priceUpper
      totalNowLabel := "Total if Sold Now: " ++ toString figures.nowLower ++ " - " ++
        toString figures.nowUpper
      profitLabel := "Profit/Loss: " ++ profitBoundString figures.profitLowerBound ++ " - " ++
        profitBoundString figures.profitUpperBound
      amountStepper := record.quantity
      tag }

/-- The cells that `reloadData` builds for the visible records. -/
def buildCells (text : SwiftText) (investments visible : List InvestmentItem) :
    Except Fault (List ItemCell) :=
  visible.mapM (cellForRowAt text investments)

structure Totals where
  totalSpent : Int
  totalIfSoldLowerBound : Int
  totalIfSoldUpperBound : Int
deriving DecidableEq, Repr

def addRecord (text : SwiftText) (totals : Totals) (record : InvestmentItem) :
    Except Fault Totals := do
  let price := record.item.getColourPrice text record.colour record.platform
  let spent ← checked (record.boughtFor * record.quantity)
  let totalSpent ← checked (totals.totalSpent + spent)
  let lower ← unwrapElement price 0
  let soldLower ← checked (lower * record.quantity)
  let totalIfSoldLowerBound ← checked (totals.totalIfSoldLowerBound + soldLower)
  let upper ← unwrapElement price 1
  let soldUpper ← checked (upper * record.quantity)
  let totalIfSoldUpperBound ← checked (totals.totalIfSoldUpperBound + soldUpper)
  .ok { totalSpent, totalIfSoldLowerBound, totalIfSoldUpperBound }

structure TotalReport where
  totals : Totals
  totalProfitLowerBound : Int
  totalProfitUpperBound : Int
  message : String
deriving DecidableEq, Repr

def totalMessage (totals : Totals) (profitLower profitUpper : Int) : String :=
  "Total Spent : " ++ toString totals.totalSpent ++ "\n" ++
    "Total if Sold Now: " ++ toString totals.totalIfSoldLowerBound ++ " - " ++
    toString totals.totalIfSoldUpperBound ++ "\n" ++
    "Total Profit/Loss: " ++ profitBoundString profitLower ++ " - " ++
    profitBoundString profitUpper

def showTotal (text : SwiftText) (visible : List InvestmentItem) : Except Fault TotalReport := do
  let totals ← visible.foldlM (addRecord text) ⟨0, 0, 0⟩
  let totalProfitLowerBound ← checked (totals.totalIfSoldLowerBound - totals.totalSpent)
  let totalProfitUpperBound ← checked (totals.totalIfSoldUpperBound - totals.totalSpent)
  .ok { totals, totalProfitLowerBound, totalProfitUpperBound,
        message := totalMessage totals totalProfitLowerBound totalProfitUpperBound }

/-- The tag of a cell is the last position of its record's id. -/
theorem cell_for_row_spec {text : SwiftText} {investments : List InvestmentItem}
    {record : InvestmentItem} {cell : ItemCell}
    (built : cellForRowAt text investments record = .ok cell) :
    cell.record = record ∧ rowFigures text record = .ok cell.figures ∧
      lastPosition (fun investment => decide (record.id = investment.id)) investments =
        some cell.tag := by
  obtain ⟨figures, computed, rest⟩ := except_bind_ok built
  cases found : lastPosition (fun investment => decide (record.id = investment.id))
      investments with
  | none => simp [found] at rest
  | some tag =>
      simp only [found, Except.ok.injEq] at rest
      subst rest
      exact ⟨rfl, computed, rfl⟩

theorem build_cells_forall₂ {text : SwiftText} {investments visible : List InvestmentItem}
    {cells : List ItemCell} (built : buildCells text investments visible = .ok cells) :
    List.Forall₂ (fun record cell => cellForRowAt text investments record = .ok cell)
      visible cells := by
  induction visible generalizing cells with
  | nil =>
      obtain rfl : [] = cells := Except.ok.inj built
      exact .nil
  | cons record visible induction =>
      rw [buildCells, List.mapM_cons] at built
      obtain ⟨cell, first, rest⟩ := except_bind_ok built
      obtain ⟨others, later, whole⟩ := except_bind_ok rest
      obtain rfl : cell :: others = cells := Except.ok.inj whole
      exact .cons first (induction later)

theorem build_cells_records {text : SwiftText} {investments visible : List InvestmentItem}
    {cells : List ItemCell} (built : buildCells text investments visible = .ok cells) :
    cells.map ItemCell.record = visible := by
  have rows := build_cells_forall₂ built
  clear built
  induction rows with
  | nil => rfl
  | cons first rest induction =>
      rw [List.map_cons, induction, (cell_for_row_spec first).1]

def rowPrice (text : SwiftText) (record : InvestmentItem) : Option (List Int) :=
  record.item.getColourPrice text (text.uppercased record.colour)
    (text.uppercased record.platform)

/-- The results that the row computes from its two prices are 64-bit integers. -/
structure FiguresFit (record : InvestmentItem) (lower upper : Int) : Prop where
  nowLower : FitsInt (lower * record.quantity)
  nowUpper : FitsInt (upper * record.quantity)
  profitLower : FitsInt (lower * record.quantity - record.quantity * record.boughtFor)
  profitUpper : FitsInt (upper * record.quantity - record.quantity * record.boughtFor)

theorem checked_raises {allowed : Fault → Prop} {value : Int}
    (fits : FitsInt value ∨ allowed .overflow) : RaisesOnly allowed (checked value) := by
  unfold checked
  split
  · exact trivial
  · rename_i outside
    exact fits.resolve_left outside

theorem checked_ok {value result : Int} (computed : checked value = .ok result) :
    result = value ∧ FitsInt value := by
  unfold checked at computed
  split at computed
  · rename_i fits
    exact ⟨(Except.ok.inj computed).symm, fits⟩
  · exact nomatch computed

theorem unwrap_element_raises {allowed : Fault → Prop} (unwrap : allowed .unwrapNil)
    (index : allowed .indexOutOfRange) (price : Option (List Int)) (i : Nat) :
    RaisesOnly allowed (unwrapElement price i) := by
  unfold unwrapElement
  split
  · exact unwrap
  · split
    · exact index
    · exact trivial

theorem row_figures_raises {allowed : Fault → Prop} (text : SwiftText) (record : InvestmentItem)
    (price : ∀ i < 2, RaisesOnly allowed (unwrapElement (rowPrice text record) i))
    (spent : FitsInt (record.quantity * record.boughtFor) ∨ allowed .overflow)
    (figures : ∀ lower upper, unwrapElement (rowPrice text record) 0 = .ok lower →
      unwrapElement (rowPrice text record) 1 = .ok upper →
      FiguresFit record lower upper ∨ allowed .overflow) :
    RaisesOnly allowed (rowFigures text record) := by
  refine raises_only_bind ?_ fun _ _ => ?_
  · unfold boughtTotal
    split
    · have product := checked_raises spent
      revert product
      cases checked (record.quantity * record.boughtFor) with
      | error fault => exact fun product => product
      | ok total => exact fun _ => trivial
    · exact trivial
  refine raises_only_bind (price 0 (by decide)) fun lower lowerRead => ?_
  refine raises_only_bind (price 1 (by decide)) fun upper upperRead => ?_
  have fit := figures lower upper lowerRead upperRead
  refine raises_only_bind (checked_raises (fit.imp_left FiguresFit.nowLower)) fun _ first => ?_
  refine raises_only_bind (checked_raises (fit.imp_left FiguresFit.nowUpper)) fun _ second => ?_
  refine raises_only_bind (checked_raises spent) fun _ third => ?_
  obtain ⟨rfl, -⟩ := checked_ok first
  obtain ⟨rfl, -⟩ := checked_ok second
  obtain ⟨rfl, -⟩ := checked_ok third
  refine raises_only_bind (checked_raises (fit.imp_left FiguresFit.profitLower)) fun _ _ => ?_
  exact raises_only_bind (checked_raises (fit.imp_left FiguresFit.profitUpper)) fun _ _ => trivial

theorem build_cells_raises {allowed : Fault → Prop} (text : SwiftText)
    (investments visible : List InvestmentItem)
    (rows : ∀ record ∈ visible, RaisesOnly allowed (rowFigures text record))
    (present : ∀ record ∈ visible, allowed .unwrapNil ∨ ∃ i,
      lastPosition (fun investment => decide (record.id = investment.id)) investments = some i) :
    RaisesOnly allowed (buildCells text investments visible) := by
  refine raises_only_map_m fun record member => ?_
  refine raises_only_bind (rows record member) fun figures _ => ?_
  rcases present record member with unwrap | ⟨i, found⟩
  · dsimp only
    split
    · exact unwrap
    · exact trivial
  · simp only [found]
    exact trivial

def listPrice (text : SwiftText) (record : InvestmentItem) : Option (List Int) :=
  record.item.getColourPrice text record.colour record.platform

theorem row_price_eq (text : SwiftText) (record : InvestmentItem) :
    rowPrice text record = listPrice text record :=
  get_colour_price_uppercased text record.item record.colour record.platform

def nextTotals (totals : Totals) (record : InvestmentItem) (lower upper : Int) : Totals where
  totalSpent := totals.totalSpent + record.boughtFor * record.quantity
  totalIfSoldLowerBound := totals.totalIfSoldLowerBound + lower * record.quantity
  totalIfSoldUpperBound := totals.totalIfSoldUpperBound + upper * record.quantity

def SumFits (total product : Int) : Prop := FitsInt product ∧ FitsInt (total + product)

theorem checked_sum_raises {allowed : Fault → Prop} {total product : Int}
    {next : Int → Except Fault Totals} (fits : SumFits total product ∨ allowed .overflow)
    (rest : RaisesOnly allowed (next (total + product))) :
    RaisesOnly allowed (do
      let part ← checked product
      let sum ← checked (total + part)
      next sum) := by
  refine raises_only_bind (checked_raises (fits.imp_left And.left)) fun _ first => ?_
  obtain ⟨rfl, -⟩ := checked_ok first
  refine raises_only_bind (checked_raises (fits.imp_left And.right)) fun _ second => ?_
  obtain ⟨rfl, -⟩ := checked_ok second
  exact rest

theorem add_record_raises {allowed : Fault → Prop} (text : SwiftText) (totals : Totals)
    (record : InvestmentItem)
    (price : ∀ i < 2, RaisesOnly allowed (unwrapElement (listPrice text record) i))
    (spent : SumFits totals.totalSpent (record.boughtFor * record.quantity) ∨ allowed .overflow)
    (soldLower : ∀ lower, unwrapElement (listPrice text record) 0 = .ok lower →
      SumFits totals.totalIfSoldLowerBound (lower * record.quantity) ∨ allowed .overflow)
    (soldUpper : ∀ upper, unwrapElement (listPrice text record) 1 = .ok upper →
      SumFits totals.totalIfSoldUpperBound (upper * record.quantity) ∨ allowed .overflow) :
    RaisesOnly allowed (addRecord text totals record) := by
  refine checked_sum_raises spent ?_
  refine raises_only_bind (price 0 (by decide)) fun lower lowerRead => ?_
  refine checked_sum_raises (soldLower lower lowerRead) ?_
  refine raises_only_bind (price 1 (by decide)) fun upper upperRead => ?_
  exact checked_sum_raises (soldUpper upper upperRead) trivial

theorem add_record_ok {text : SwiftText} {totals next : Totals} {record : InvestmentItem}
    (added : addRecord text totals record = .ok next) :
    ∃ lower upper, unwrapElement (listPrice text record) 0 = .ok lower ∧
      unwrapElement (listPrice text record) 1 = .ok upper ∧
      next = nextTotals totals record lower upper := by
  obtain ⟨_, first, rest⟩ := except_bind_ok added
  obtain ⟨_, second, rest⟩ := except_bind_ok rest
  obtain ⟨lower, lowerRead, rest⟩ := except_bind_ok rest
  obtain ⟨_, third, rest⟩ := except_bind_ok rest
  obtain ⟨_, fourth, rest⟩ := except_bind_ok rest
  obtain ⟨upper, upperRead, rest⟩ := except_bind_ok rest
  obtain ⟨_, fifth, rest⟩ := except_bind_ok rest
  obtain ⟨_, sixth, rest⟩ := except_bind_ok rest
  obtain ⟨rfl, -⟩ := checked_ok first
  obtain ⟨rfl, -⟩ := checked_ok second
  obtain ⟨rfl, -⟩ := checked_ok third
  obtain ⟨rfl, -⟩ := checked_ok fourth
  obtain ⟨rfl, -⟩ := checked_ok fifth
  obtain ⟨rfl, -⟩ := checked_ok sixth
  exact ⟨lower, upper, lowerRead, upperRead, (Except.ok.inj rest).symm⟩

end RlInvestments.OverviewRows
