import Mathlib.Data.List.AList
import RlInvestments.PriceCellParser

/-!
# Reading the four platform tables

`getData` and `parseTable` of the two scrapers. A row carries exactly what the
scrapers take from BeautifulSoup: whether the row is an `emptyCell` row, the text
of its first `fnl` element if it has one, the outer HTML of the emptied row, and
the texts of its `td` elements in document order. The two scrapers differ only in
how a row without a name is treated.
-/

namespace RlInvestments.ScrapedTables

open RlInvestments.PriceCellParser

set_option autoImplicit false

inductive PyError where
  | attributeError
  | indexError
  | keyError
deriving DecidableEq, Repr

structure Row where
  emptyCell : Bool
  name : Option String
  outerHTML : String
  cells : List String

/-- The `while` loop deletes in place, so the index moves only past kept rows. -/
def getData : List Row → List Row
  | [] => []
  | row :: table => if row.emptyCell then getData table else row :: getData table

structure Prices where
  default : Option PricePair
  black : Option PricePair
  white : Option PricePair
  grey : Option PricePair
  crimson : Option PricePair
  pink : Option PricePair
  cobalt : Option PricePair
  skyBlue : Option PricePair
  burntSienna : Option PricePair
  saffron : Option PricePair
  lime : Option PricePair
  forestGreen : Option PricePair
  orange : Option PricePair
  purple : Option PricePair
deriving DecidableEq, Repr

def Prices.none : Prices :=
  ⟨.none, .none, .none, .none, .none, .none, .none, .none, .none, .none, .none, .none, .none,
    .none⟩

structure ItemData where
  itemID : String
  itemName : String
deriving DecidableEq, Repr

abbrev PlatformItems := AList fun _ : String => Prices

inductive TablePlatform where
  | pc
  | ps4
  | xbox
  | switch
deriving DecidableEq, Repr

structure Scraped where
  items : List ItemData
  pcItems : PlatformItems
  ps4Items : PlatformItems
  xboxItems : PlatformItems
  switchItems : PlatformItems

def Scraped.empty : Scraped := ⟨[], ∅, ∅, ∅, ∅⟩

def Scraped.itemsOf (scraped : Scraped) : TablePlatform → PlatformItems
  | .pc => scraped.pcItems
  | .ps4 => scraped.ps4Items
  | .xbox => scraped.xboxItems
  | .switch => scraped.switchItems

def Scraped.store (scraped : Scraped) (platform : TablePlatform) (itemID : String)
    (itemObject : Prices) : Scraped :=
  match platform with
  | .pc => { scraped with pcItems := scraped.pcItems.insert itemID itemObject }
  | .ps4 => { scraped with ps4Items := scraped.ps4Items.insert itemID itemObject }
  | .xbox => { scraped with xboxItems := scraped.xboxItems.insert itemID itemObject }
  | .switch => { scraped with switchItems := scraped.switchItems.insert itemID itemObject }

/-- `rowOuter.split('"')[1]`, the first quoted attribute value of the row. -/
def Row.itemID? (row : Row) : Option String :=
  ((row.outerHTML.toList.splitOn '"')[1]?).map String.ofList

/-- `priceStrings[i]`: the cell's price, or `None` when the cell is missing or does not parse. -/
def priceString (tableData : List String) (i : Nat) : Option PricePair :=
  (tableData[i]?).bind parsePrice

def itemObject (tableData : List String) : Prices where
  default := priceString tableData 0
  black := priceString tableData 1
  white := priceString tableData 2
  grey := priceString tableData 3
  crimson := priceString tableData 4
  pink := priceString tableData 5
  cobalt := priceString tableData 6
  skyBlue := priceString tableData 7
  burntSienna := priceString tableData 8
  saffron := priceString tableData 9
  lime := priceString tableData 10
  forestGreen := priceString tableData 11
  orange := priceString tableData 12
  purple := priceString tableData 13

/-- The loop body of `parseTable` once the row's name is known. -/
def parseNamedRow (platform : TablePlatform) (getItemData : Bool) (row : Row)
    (itemName : String) (scraped : Scraped) : Except PyError Scraped :=
  match row.itemID? with
  | none => .error .indexError
  | some itemID =>
      match row.cells with
      | [] => .error .indexError
      | _ :: tableData =>
          let stored := scraped.store platform itemID (itemObject tableData)
          if getItemData then .ok { stored with items := stored.items ++ [⟨itemID, itemName⟩] }
          else .ok stored

/-- One table per page: `https://rl.insider.gg/en/` followed by the platform. -/
structure PlatformTables where
  pc : List Row
  ps4 : List Row
  xbox : List Row
  switch : List Row

def PlatformTables.tableOf (tables : PlatformTables) : TablePlatform → List Row
  | .pc => tables.pc
  | .ps4 => tables.ps4
  | .xbox => tables.xbox
  | .switch => tables.switch

namespace Azure

def parseTable (platform : TablePlatform) (getItemData : Bool) :
    List Row → Scraped → Except PyError Scraped
  | [], scraped => .ok scraped
  | row :: table, scraped =>
      match row.name with
      -- "if the itemName doesnt exist then nothing else will"
      | none => parseTable platform getItemData table scraped
      | some itemName => do
          let scraped ← parseNamedRow platform getItemData row itemName scraped
          parseTable platform getItemData table scraped

def scrape (tables : PlatformTables) : Except PyError Scraped := do
  let scraped ← parseTable .pc true (getData tables.pc) .empty
  let scraped ← parseTable .ps4 false (getData tables.ps4) scraped
  let scraped ← parseTable .xbox false (getData tables.xbox) scraped
  parseTable .switch false (getData tables.switch) scraped

end Azure

namespace JsScrapper

def parseTable (platform : TablePlatform) (getItemData : Bool) :
    List Row → Scraped → Except PyError Scraped
  | [], scraped => .ok scraped
  | row :: table, scraped =>
      match row.name with
      -- `row.find(...)` is `None`, which has no `text`.
      | none => .error .attributeError
      | some itemName => do
          let scraped ← parseNamedRow platform getItemData row itemName scraped
          parseTable platform getItemData table scraped

def scrape (tables : PlatformTables) : Except PyError Scraped := do
  let scraped ← parseTable .pc true (getData tables.pc) .empty
  let scraped ← parseTable .ps4 false (getData tables.ps4) scraped
  let scraped ← parseTable .xbox false (getData tables.xbox) scraped
  parseTable .switch false (getData tables.switch) scraped

end JsScrapper

end RlInvestments.ScrapedTables
