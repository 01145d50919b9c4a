import RlInvestments.GuardedRuns
import RlInvestments.HoverDataParser
import RlInvestments.JoinByPosition
import RlInvestments.UrlNames

/-!
# The items of a section

`getItemsinSection` reads the rows of a section into three lists. A row adds a name for
each of its `fnl` elements, and one url and one set of price texts whatever it holds. The
items are then made by position, for as many names as there are. What the markup library
finds in a text is a parameter of the model.
-/

namespace RlInvestments.SectionItems

open RlInvestments.GuardedRuns RlInvestments.HoverDataParser RlInvestments.JoinByPosition
open RlInvestments.PriceCellParser RlInvestments.UrlNames RlInvestments.WhileLoops

set_option autoImplicit false

/-- The searches that are made in a text. -/
structure Soup where
  /-- `find_all("tr", class_="itemRow")`, each as a text. -/
  itemRows : String → List String
  /-- `find_all("div", class_="fnl")`, the text in each. -/
  fnl : String → List String
  /-- `find_all("td", class_=name)`, each as a text. -/
  cells : String → String → List String

/-- The class of a colour's cells, in the order of the price record. -/
def priceClasses : List String :=
  ["priceDefault", "priceBlack", "priceWhite", "priceGrey", "priceCrimson", "pricePink",
    "priceCobalt", "priceSkyBlue", "priceBurntSienna", "priceSaffron", "priceLime",
    "priceForestGreen", "priceOrange", "pricePurple"]

structure PlatformPrices where
  pcPrice : Option PricePair
  ps4Price : Option PricePair
  switchPrice : Option PricePair
  xboxPrice : Option PricePair
deriving DecidableEq, Repr

structure Item where
  itemName : String
  /-- The prices of each colour, in the order of `priceClasses`. -/
  itemPriceRange : List PlatformPrices
  itemUrlName : String
deriving DecidableEq, Repr

/-- Each cell that is found replaces the text before it. -/
def lastCell (cells : List String) (unparsed : String) : String :=
  cells.foldl (fun _ text => text) unparsed

def unparsedPrice (soup : Soup) (itemRow priceClass : String) : String :=
  lastCell (soup.cells (priceClass ++ " priceRange noHover") itemRow)
    (lastCell (soup.cells (priceClass ++ " priceRange") itemRow) "")

def unparsedPrices (soup : Soup) (itemRow : String) : List String :=
  priceClasses.map (unparsedPrice soup itemRow)

def platformPrices (prices : List (Option PricePair)) : Except PyFault PlatformPrices := do
  let pcPrice ← valueAt .indexError prices 0
  let ps4Price ← valueAt .indexError prices 1
  let switchPrice ← valueAt .indexError prices 2
  let xboxPrice ← valueAt .indexError prices 3
  .ok ⟨pcPrice, ps4Price, switchPrice, xboxPrice⟩

def colourPrices (unparsed : String) : Except (Stop PyFault) PlatformPrices := do
  let prices ← parseprice unparsed
  liftFault (platformPrices prices)

def newPrice (unparsed : List String) : Except (Stop PyFault) (List PlatformPrices) :=
  unparsed.mapM colourPrices

/-- What is read from a row of a section: its `firsts`, `raw` and `third` go into `itemNames`,
`pricesUnparsed` and `urls`. -/
def rowReading (soup : Soup) (extraWords : String) :
    Reading String String (List String) (List PlatformPrices) String Item (Stop PyFault) where
  firsts := soup.fnl
  raw := unparsedPrices soup
  second := newPrice
  third := fun itemRow => liftFault (extractUrl itemRow)
  join := fun itemName price url => ⟨itemName ++ extraWords, price, url⟩
  missing := .fault .indexError

/-- The rows are read first, then all prices are parsed, then the items are made. -/
def getItemsinSection (soup : Soup) (extraWords tableSection : String) :
    Except (Stop PyFault) (List Item) :=
  (rowReading soup extraWords).joinRows (soup.itemRows tableSection)

/-- The same loops, on values that carry the position of their row. -/
def labelledItems (soup : Soup) (extraWords tableSection : String) :
    Except (Stop PyFault) (List (Item × Nat × Nat × Nat)) :=
  (rowReading soup extraWords).labelled.joinRows (soup.itemRows tableSection).zipIdx

def ItemsFromOneRow (soup : Soup) (extraWords tableSection : String) : Prop :=
  ∃ items, labelledItems soup extraWords tableSection = .ok items ∧
    getItemsinSection soup extraWords tableSection = .ok (items.map Prod.fst) ∧
    ∀ item ∈ items, Reading.OneRow item.2

theorem read_platforms_four {platforms : List String} {list : List Char}
    {prices : List (Option PricePair)} (reads : readPlatforms platforms list = .ok prices) :
    prices.length = 4 := by
  obtain ⟨_, _, reads⟩ := except_bind_ok reads
  obtain ⟨_, _, reads⟩ := except_bind_ok reads
  obtain ⟨_, _, reads⟩ := except_bind_ok reads
  obtain ⟨_, _, reads⟩ := except_bind_ok reads
  cases reads
  rfl

theorem parseprice_four {unparsed : String} {prices : List (Option PricePair)}
    (parses : parseprice unparsed = .ok prices) : prices.length = 4 := by
  rw [parseprice] at parses
  split_ifs at parses with empty noHover
  · cases parses
    rfl
  · cases parses
    rfl
  · obtain ⟨_, _, parses⟩ := except_bind_ok parses
    obtain ⟨platforms, _, parses⟩ := except_bind_ok parses
    cases reads : readPlatforms platforms _ with
    | error fault =>
        rw [reads] at parses
        exact nomatch parses
    | ok read =>
        rw [reads] at parses
        cases parses
        exact read_platforms_four reads

theorem colour_prices_completes_iff {unparsed : String} :
    (∃ prices, colourPrices unparsed = .ok prices) ↔
      ∃ prices, parseprice unparsed = .ok prices := by
  rw [colourPrices, bind_completes_iff]
  constructor
  · exact fun ⟨prices, parses, _⟩ => ⟨prices, parses⟩
  · intro ⟨prices, parses⟩
    refine ⟨prices, parses, ?_⟩
    match prices, parseprice_four parses with
    | [pcPrice, ps4Price, switchPrice, xboxPrice], _ => exact ⟨_, rfl⟩

theorem new_price_completes_iff (soup : Soup) (itemRow : String) :
    (∃ price, newPrice (unparsedPrices soup itemRow) = .ok price) ↔
      ∀ priceClass ∈ priceClasses,
        ∃ prices, parseprice (unparsedPrice soup itemRow priceClass) = .ok prices := by
  rw [newPrice, unparsedPrices, map_m_completes_iff, List.forall_mem_map]
  exact forall₂_congr fun _ _ => colour_prices_completes_iff

theorem lift_fault_completes_iff {Value : Type} {read : Except PyFault Value} :
    (∃ value, liftFault read = .ok value) ↔ ∃ value, read = .ok value := by
  cases read with
  | error fault =>
      constructor
      · exact fun ⟨_, completes⟩ => nomatch completes
      · exact fun ⟨_, completes⟩ => nomatch completes
  | ok value => exact ⟨fun _ => ⟨value, rfl⟩, fun _ => ⟨value, rfl⟩⟩

/-- The url loops end, and each of the price texts is one that `parseprice` reads. -/
structure RowReadable (soup : Soup) (itemRow : String) : Prop where
  long : 3 ≤ itemRow.toList.length
  url : Readable itemRow.toList
  prices : ∀ priceClass ∈ priceClasses,
    ∃ prices, parseprice (unparsedPrice soup itemRow priceClass) = .ok prices

theorem get_items_erase (soup : Soup) (extraWords tableSection : String) :
    getItemsinSection soup extraWords tableSection =
      (labelledItems soup extraWords tableSection).map (List.map Prod.fst) :=
  (rowReading soup extraWords).join_rows_erase (soup.itemRows tableSection)

/-- For every section: the items come from one row each exactly if all rows can be read, and
the rows with a name come first and have one name each. -/
theorem items_from_one_row_iff (soup : Soup) (extraWords tableSection : String) :
    ItemsFromOneRow soup extraWords tableSection ↔
      (∀ itemRow ∈ soup.itemRows tableSection, RowReadable soup itemRow) ∧
      OneFirstEach soup.fnl (soup.itemRows tableSection) := by
  have fromOneRow : ItemsFromOneRow soup extraWords tableSection ↔
      (rowReading soup extraWords).FromOneRow (soup.itemRows tableSection) := by
    constructor
    · exact fun ⟨items, completes, _, same⟩ => ⟨items, completes, same⟩
    · intro ⟨items, completes, same⟩
      refine ⟨items, completes, ?_, same⟩
      rw [get_items_erase, labelledItems, completes]
      rfl
  have readable : (∀ itemRow ∈ soup.itemRows tableSection, RowReadable soup itemRow) ↔
      (∀ itemRow ∈ soup.itemRows tableSection,
        ∃ url, (rowReading soup extraWords).third itemRow = .ok url) ∧
      ∀ itemRow ∈ soup.itemRows tableSection,
        ∃ price, (rowReading soup extraWords).second
          ((rowReading soup extraWords).raw itemRow) = .ok price := by
    rw [← forall₂_and]
    refine forall₂_congr fun itemRow _ => ?_
    have url := lift_fault_completes_iff.trans (extract_url_completes_iff itemRow)
    have price := new_price_completes_iff soup itemRow
    exact ⟨fun row => ⟨url.mpr ⟨row.long, row.url⟩, price.mpr row.prices⟩,
      fun ⟨url', price'⟩ => ⟨(url.mp url').1, (url.mp url').2, price.mp price'⟩⟩
  rw [fromOneRow, Reading.from_one_row_iff, readable, and_assoc]
  rfl

def namelessRow : String :=
  "<tr class=\"itemRow\" data-itemurl=\"spacer\" data-sprite=\"1\"></tr>"

def zeframRow : String :=
  "<tr class=\"itemRow\" data-itemurl=\"zefram\" data-sprite=\"2\">" ++
    "<td><div class=\"fnl\">Zefram</div></td></tr>"

def carsSection : String :=
  "[<div id=\"unpaintedCarsPricesContainer\"><table>" ++ namelessRow ++ zeframRow ++
    "</table></div>]"

/-- What is found in a section with a nameless row before a row with one name. -/
def carsSoup : Soup where
  itemRows := fun text => if text = carsSection then [namelessRow, zeframRow] else []
  fnl := fun itemRow => if itemRow = zeframRow then ["Zefram"] else []
  cells := fun _ _ => []

/-- The item gets the prices and the url of the nameless row. -/
theorem nameless_row_shifts :
    getItemsinSection carsSoup "" carsSection =
        .ok [⟨"Zefram", List.replicate 14 ⟨none, none, none, none⟩, "spacer"⟩] ∧
      ¬ ItemsFromOneRow carsSoup "" carsSection := by
  have shifted : labelledItems carsSoup "" carsSection =
      .ok [(⟨"Zefram", List.replicate 14 ⟨none, none, none, none⟩, "spacer"⟩, 1, 0, 0)] := by
    decide +kernel
  constructor
  · rw [get_items_erase, shifted]
    rfl
  · intro ⟨items, completes, _, same⟩
    rw [shifted] at completes
    cases completes
    exact absurd (same _ (List.mem_cons_self ..)).1 (by decide)

end RlInvestments.SectionItems
