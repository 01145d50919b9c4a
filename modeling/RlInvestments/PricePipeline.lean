import RlInvestments.LastMatchScan
import RlInvestments.PublishedPrices

/-!
# From the tables to the price shown

The row loop, the four dictionaries, the merge, the assembled text, the decoder
and `getColourPrice`, composed. A listed row of the PC table becomes one item, and
a price of that item is the parsed cell of its own colour and platform, with the
exception of the `Default` price on PC: there the merge copies the `white` price.
-/

namespace RlInvestments.PricePipeline

open RlInvestments.PriceCellParser RlInvestments.ScrapedTables RlInvestments.CatalogueAssembly
open RlInvestments.CatalogueItems RlInvestments.PublishedPrices RlInvestments.LastMatchScan

set_option autoImplicit false

def hasName (row : Row) : Bool := row.name.isSome

/-- The rows that the Azure scraper does not skip. -/
def isListed (row : Row) : Bool := !row.emptyCell && hasName row

def listedRows (table : List Row) : List Row := table.filter isListed

/-- The price that a table gives for an id and a column. -/
def tablePrice (table : List Row) (itemID : String) (colour : Colour) : Option PricePair :=
  (table.find? fun row => row.itemID? == some itemID).bind fun row =>
    priceString row.cells.tail colour.column

/-- Ids are distinct within a table, a named row has an id and a name cell, and
prices are 64-bit integers. -/
structure WellFormed (tables : PlatformTables) : Prop where
  distinct : ∀ platform, ((tables.tableOf platform).filterMap Row.itemID?).Nodup
  complete : ∀ platform, ∀ row ∈ tables.tableOf platform, row.name.isSome = true →
    row.itemID?.isSome = true ∧ row.cells ≠ []
  fits : ∀ platform, ∀ row ∈ tables.tableOf platform, ∀ cell ∈ row.cells.tail,
    ∀ pair ∈ parsePrice cell, PairFits pair

def rowData (row : Row) : ItemData := ⟨row.itemID?.getD "", row.name.getD ""⟩

def rowPrices (row : Row) : ScrapedTables.Prices := itemObject row.cells.tail

def hasID (itemID : String) (row : Row) : Bool := row.itemID? == some itemID

structure TableRead (platform : TablePlatform) (rows : List Row) (before after : Scraped) :
    Prop where
  prices : ∀ itemID, (after.itemsOf platform).lookup itemID =
    ((lastMatch (hasID itemID) none rows).map rowPrices).or
      ((before.itemsOf platform).lookup itemID)
  others : ∀ other, other ≠ platform → after.itemsOf other = before.itemsOf other

theorem items_of_store (scraped : Scraped) (platform other : TablePlatform) (itemID : String)
    (prices : ScrapedTables.Prices) :
    (scraped.store platform itemID prices).itemsOf other =
      if other = platform then (scraped.itemsOf platform).insert itemID prices
      else scraped.itemsOf other := by
  cases platform <;> cases other <;> rfl

theorem items_store (scraped : Scraped) (platform : TablePlatform) (itemID : String)
    (prices : ScrapedTables.Prices) :
    (scraped.store platform itemID prices).items = scraped.items := by
  cases platform <;> rfl

theorem parse_named_row_spec (platform : TablePlatform) (getItemData : Bool) (row : Row)
    (itemName : String) (named : row.name = some itemName)
    (complete : row.itemID?.isSome = true ∧ row.cells ≠ []) (scraped : Scraped) :
    ∃ result, parseNamedRow platform getItemData row itemName scraped = .ok result ∧
      result.items = scraped.items ++ (if getItemData then [rowData row] else []) ∧
      TableRead platform [row] scraped result := by
  obtain ⟨hasId, nonempty⟩ := complete
  obtain ⟨itemID, identified⟩ := Option.isSome_iff_exists.mp hasId
  obtain ⟨nameCell, tableData, cells⟩ := List.exists_cons_of_ne_nil nonempty
  have read : TableRead platform [row] scraped
      (scraped.store platform itemID (itemObject tableData)) := by
    refine ⟨fun wanted => ?_, fun other different => ?_⟩
    · rw [items_of_store, if_pos rfl, last_match_cons, last_match_nil]
      by_cases same : wanted = itemID
      · subst same
        simp [AList.lookup_insert, hasID, identified, rowPrices, cells]
      · have different : itemID ≠ wanted := fun equal => same equal.symm
        simp [AList.lookup_insert_ne same, hasID, identified, different]
    · rw [items_of_store, if_neg different]
  simp only [parseNamedRow, identified, cells]
  cases getItemData with
  | false => exact ⟨_, rfl, by simp [items_store], read⟩
  | true =>
      refine ⟨_, rfl, by simp [items_store, rowData, identified, named], ?_⟩
      exact ⟨read.prices, read.others⟩

theorem table_read_append {platform : TablePlatform} {rows later : List Row}
    {before middle after : Scraped} (first : TableRead platform rows before middle)
    (second : TableRead platform later middle after) :
    TableRead platform (rows ++ later) before after := by
  refine ⟨fun itemID => ?_, fun other different => ?_⟩
  · rw [second.prices, first.prices, ← Option.or_assoc, last_match_append]
    cases lastMatch (hasID itemID) none later <;> rfl
  · rw [second.others other different, first.others other different]

theorem parse_table_spec (platform : TablePlatform) (getItemData : Bool) (rows : List Row)
    (complete : ∀ row ∈ rows, row.name.isSome = true →
      row.itemID?.isSome = true ∧ row.cells ≠ []) (scraped : Scraped) :
    ∃ result, Azure.parseTable platform getItemData rows scraped = .ok result ∧
      result.items = scraped.items ++
        (if getItemData then (rows.filter hasName).map rowData else []) ∧
      TableRead platform (rows.filter hasName) scraped result := by
  induction rows generalizing scraped with
  | nil => exact ⟨scraped, rfl, by simp, ⟨fun _ => rfl, fun _ _ => rfl⟩⟩
  | cons row rows induction =>
      have rest := induction fun other member => complete other (List.mem_cons_of_mem _ member)
      cases named : row.name with
      | none =>
          have skipped : ¬ hasName row = true := by simp [hasName, named]
          rw [List.filter_cons_of_neg skipped, Azure.parseTable, named]
          exact rest scraped
      | some itemName =>
          have kept : hasName row = true := by simp [hasName, named]
          obtain ⟨middle, rowParsed, rowItems, rowRead⟩ := parse_named_row_spec platform
            getItemData row itemName named (complete row (List.mem_cons_self ..) kept) scraped
          obtain ⟨result, restParsed, restItems, restRead⟩ := rest middle
          rw [List.filter_cons_of_pos kept, Azure.parseTable, named]
          refine ⟨result, ?_, ?_, table_read_append rowRead restRead⟩
          · simp only [rowParsed]
            exact restParsed
          · rw [restItems, rowItems]
            cases getItemData <;> simp

theorem get_data_filter (table : List Row) :
    getData table = table.filter fun row => !row.emptyCell := by
  induction table with
  | nil => rfl
  | cons row table induction =>
      by_cases empty : row.emptyCell = true <;> simp [getData, empty, induction]

theorem listed_rows_eq (table : List Row) :
    (getData table).filter hasName = listedRows table := by
  rw [get_data_filter, List.filter_filter, listedRows]
  congr 1
  funext row
  exact Bool.and_comm _ _

theorem scrape_table {tables : PlatformTables} (wellFormed : WellFormed tables)
    (platform : TablePlatform) (getItemData : Bool) (scraped : Scraped) :
    ∃ result, Azure.parseTable platform getItemData (getData (tables.tableOf platform)) scraped =
        .ok result ∧
      result.items = scraped.items ++
        (if getItemData then (listedRows (tables.tableOf platform)).map rowData else []) ∧
      TableRead platform (listedRows (tables.tableOf platform)) scraped result := by
  rw [← listed_rows_eq]
  refine parse_table_spec platform getItemData _ (fun row member => ?_) scraped
  rw [get_data_filter] at member
  exact wellFormed.complete platform row (List.mem_of_mem_filter member)

theorem listed_at_most_one {tables : PlatformTables} (wellFormed : WellFormed tables)
    (platform : TablePlatform) (itemID : String) :
    lastMatch (hasID itemID) none (listedRows (tables.tableOf platform)) =
      (listedRows (tables.tableOf platform)).find? (hasID itemID) :=
  last_match_find (filter_key_at_most_one
    ((wellFormed.distinct platform).sublist (List.Sublist.filterMap _ List.filter_sublist))
    itemID)

theorem scrape_spec {tables : PlatformTables} (wellFormed : WellFormed tables) :
    ∃ scraped, Azure.scrape tables = .ok scraped ∧
      scraped.items = (listedRows tables.pc).map rowData ∧
      ∀ platform itemID, (scraped.itemsOf platform).lookup itemID =
        ((listedRows (tables.tableOf platform)).find? (hasID itemID)).map rowPrices := by
  obtain ⟨pc, pcParsed, pcItems, pcRead⟩ := scrape_table wellFormed .pc true .empty
  obtain ⟨ps4, ps4Parsed, ps4Items, ps4Read⟩ := scrape_table wellFormed .ps4 false pc
  obtain ⟨xbox, xboxParsed, xboxItems, xboxRead⟩ := scrape_table wellFormed .xbox false ps4
  obtain ⟨result, parsed, items, read⟩ := scrape_table wellFormed .switch false xbox
  refine ⟨result, ?_, ?_, fun platform itemID => ?_⟩
  · change (Azure.parseTable .pc true (getData (tables.tableOf .pc)) .empty >>= _) = _
    rw [pcParsed]
    change (Azure.parseTable .ps4 false (getData (tables.tableOf .ps4)) pc >>= _) = _
    rw [ps4Parsed]
    change (Azure.parseTable .xbox false (getData (tables.tableOf .xbox)) ps4 >>= _) = _
    rw [xboxParsed]
    exact parsed
  · rw [items, xboxItems, ps4Items, pcItems]
    simp [Scraped.empty, PlatformTables.tableOf]
  · rw [← listed_at_most_one wellFormed]
    -- Each dictionary is written while its own table is read, and by no other table.
    cases platform with
    | pc =>
        rw [read.others _ (by decide), xboxRead.others _ (by decide),
          ps4Read.others _ (by decide), pcRead.prices]
        exact Option.or_none
    | ps4 =>
        rw [read.others _ (by decide), xboxRead.others _ (by decide), ps4Read.prices,
          pcRead.others _ (by decide)]
        exact Option.or_none
    | xbox =>
        rw [read.others _ (by decide), xboxRead.prices, ps4Read.others _ (by decide),
          pcRead.others _ (by decide)]
        exact Option.or_none
    | switch =>
        rw [read.prices, xboxRead.others _ (by decide), ps4Read.others _ (by decide),
          pcRead.others _ (by decide)]
        exact Option.or_none

def listedPrices (tables : PlatformTables) (itemID : String) (platform : TablePlatform) :
    ScrapedTables.Prices :=
  (((listedRows (tables.tableOf platform)).find? (hasID itemID)).map rowPrices).getD .none

theorem listed_prices_colour (tables : PlatformTables) (itemID : String)
    (platform : TablePlatform) (colour : Colour) :
    colour.ofPrices (listedPrices tables itemID platform) =
      tablePrice (listedRows (tables.tableOf platform)) itemID colour := by
  unfold listedPrices tablePrice hasID
  cases (listedRows (tables.tableOf platform)).find? fun row => row.itemID? == some itemID with
  | none => cases colour <;> rfl
  | some row => exact item_object_column row.cells.tail colour

def publishedItem (tables : PlatformTables) (row : Row) : Item :=
  let prices := listedPrices tables (rowData row).itemID
  ⟨(rowData row).itemName, newPrice (prices .pc) (prices .ps4) (prices .xbox) (prices .switch),
    (rowData row).itemName⟩

theorem main_spec {tables : PlatformTables} (wellFormed : WellFormed tables) :
    Azure.main tables =
      .ok (jsonString Azure.header ((listedRows tables.pc).map (publishedItem tables))) := by
  obtain ⟨scraped, parsed, items, prices⟩ := scrape_spec wellFormed
  have merged : ∀ row, Azure.oldItem scraped (rowData row) = publishedItem tables row := by
    intro row
    simp only [publishedItem, listedPrices, ← prices]
    rfl
  rw [Azure.main, parsed]
  change Except.ok (jsonString Azure.header (Azure.oldItems scraped)) = _
  rw [Azure.oldItems, items, List.map_map]
  simp only [Function.comp_def, merged]

theorem table_price_fits {tables : PlatformTables} (wellFormed : WellFormed tables)
    (platform : TablePlatform) (itemID : String) (colour : Colour) (pair : PricePair)
    (priced : tablePrice (listedRows (tables.tableOf platform)) itemID colour = some pair) :
    PairFits pair := by
  obtain ⟨row, found, parsed⟩ := Option.bind_eq_some_iff.mp priced
  obtain ⟨cell, present, parses⟩ := Option.bind_eq_some_iff.mp parsed
  exact wellFormed.fits platform row (List.mem_of_mem_filter (List.mem_of_find?_eq_some found))
    cell (List.mem_of_getElem? present) pair parses

/-- What the app decodes of the uploaded text. -/
theorem decoded_catalogue {tables : PlatformTables} (wellFormed : WellFormed tables) :
    decode (jsonString Azure.header ((listedRows tables.pc).map (publishedItem tables))) =
      some ⟨(listedRows tables.pc).map fun row => decodedItem (publishedItem tables row)⟩ := by
  rw [decode_json_string Azure.header azure_header_shape, List.map_map]
  · rfl
  · intro item member entry inside pair present
    obtain ⟨row, -, rfl⟩ := List.mem_map.mp member
    obtain ⟨colour, platform, copied⟩ := new_price_entry _ inside
    rw [copied, listed_prices_colour] at present
    exact table_price_fits wellFormed platform _ colour pair present

theorem published_price (text : SwiftText) (tables : PlatformTables) (row : Row)
    (colour : Colour) (platform : TablePlatform) (colourText onPlatform : String)
    (spelledColour : text.uppercased colourText = colour.title)
    (spelledPlatform : text.uppercased onPlatform = platformTitle platform) :
    (decodedItem (publishedItem tables row)).getColourPrice text colourText onPlatform =
      (tablePrice (listedRows (tables.tableOf platform)) (rowData row).itemID
        (copiedColumn colour platform)).map pairList := by
  rw [get_colour_price_attribute text _ _ rfl colour platform _ _ spelledColour spelledPlatform,
    ← listed_prices_colour]
  exact price_attribute_new_price (listedPrices tables (rowData row).itemID) colour platform

/-- The item has the row's name and, under every spelling of a colour and a platform,
the price that the searched tables give for the row's id; `nil` where they give none. -/
structure ShowsRow (text : SwiftText) (searched : TablePlatform → List Row)
    (item : DecodingItem) (row : Row) : Prop where
  itemName : row.name = some item.itemName
  price : ∀ itemID ∈ row.itemID?, ∀ colour platform colourText onPlatform,
    text.uppercased colourText = Colour.title colour →
    text.uppercased onPlatform = platformTitle platform →
    item.getColourPrice text colourText onPlatform =
      (tablePrice (searched platform) itemID colour).map pairList

/-- The uploaded text decodes to one item for each listed row of the PC table, in table
order, and each shows its row. -/
def PipelineExact (text : SwiftText) (tables : PlatformTables)
    (searched : TablePlatform → List Row) : Prop :=
  ∃ uploaded catalogue, Azure.main tables = .ok uploaded ∧ decode uploaded = some catalogue ∧
    List.Forall₂ (ShowsRow text searched) catalogue.items (listedRows tables.pc)

/-- Every listed PC row has the same price, or none, in its `Default` and in its white cell. -/
def DefaultMatchesWhite (tables : PlatformTables) : Prop :=
  ∀ row ∈ listedRows tables.pc,
    priceString row.cells.tail Colour.default.column =
      priceString row.cells.tail Colour.white.column

/-- No row that the scraper skips holds a price for the id of a listed PC row. -/
def SkippedRowsUnpriced (tables : PlatformTables) : Prop :=
  ∀ row ∈ listedRows tables.pc, ∀ platform, ∀ skipped ∈ tables.tableOf platform,
    skipped.itemID? = row.itemID? → isListed skipped = false →
      ∀ colour, priceString skipped.cells.tail (Colour.column colour) = none

theorem uppercased_colour_title (text : SwiftText) (colour : Colour) :
    text.uppercased colour.title = colour.title := by
  rw [text.uppercased_ascii _ (by cases colour <;> decide)]
  cases colour <;> decide

theorem uppercased_platform_title (text : SwiftText) (platform : TablePlatform) :
    text.uppercased (platformTitle platform) = platformTitle platform := by
  rw [text.uppercased_ascii _ (by cases platform <;> decide)]
  cases platform <;> decide

theorem pair_list_injective : Function.Injective pairList := by
  rintro ⟨lower, upper⟩ ⟨lower', upper'⟩ equal
  simpa [pairList] using equal

theorem table_price_own {table : List Row} (distinct : (table.filterMap Row.itemID?).Nodup)
    {row : Row} (member : row ∈ table) {itemID : String} (identified : row.itemID? = some itemID)
    (colour : Colour) :
    tablePrice table itemID colour = priceString row.cells.tail colour.column := by
  rw [tablePrice, find_of_key distinct member identified]
  rfl

theorem same_row_of_same_id {table : List Row} (distinct : (table.filterMap Row.itemID?).Nodup)
    {row other : Row} (member : row ∈ table) (otherMember : other ∈ table) {itemID : String}
    (identified : row.itemID? = some itemID) (otherIdentified : other.itemID? = some itemID) :
    row = other := by
  have found := find_of_key distinct member identified
  rw [find_of_key distinct otherMember otherIdentified] at found
  exact (Option.some.inj found).symm

theorem listed_distinct {tables : PlatformTables} (wellFormed : WellFormed tables)
    (platform : TablePlatform) :
    ((listedRows (tables.tableOf platform)).filterMap Row.itemID?).Nodup :=
  (wellFormed.distinct platform).sublist (List.Sublist.filterMap _ List.filter_sublist)

theorem listed_price_of_skipped {tables : PlatformTables} (wellFormed : WellFormed tables)
    (platform : TablePlatform) {skipped : Row} (member : skipped ∈ tables.tableOf platform)
    {itemID : String} (identified : skipped.itemID? = some itemID)
    (unlisted : isListed skipped = false) (colour : Colour) :
    tablePrice (listedRows (tables.tableOf platform)) itemID colour = none := by
  have nowhere : (listedRows (tables.tableOf platform)).find?
      (fun row => row.itemID? == some itemID) = none := by
    refine List.find?_eq_none.mpr fun row listed carries => ?_
    obtain rfl := same_row_of_same_id (wellFormed.distinct platform) member
      (List.mem_of_mem_filter listed) identified (eq_of_beq carries)
    exact absurd (List.mem_filter.mp listed).2 (by simp [unlisted])
  rw [tablePrice, nowhere]
  rfl

theorem shows_row_iff (text : SwiftText) {tables : PlatformTables}
    (searched : TablePlatform → List Row) {row : Row} {itemID itemName : String}
    (identified : row.itemID? = some itemID) (named : row.name = some itemName) :
    ShowsRow text searched (decodedItem (publishedItem tables row)) row ↔
      ∀ colour platform, tablePrice (searched platform) itemID colour =
        tablePrice (listedRows (tables.tableOf platform)) itemID
          (copiedColumn colour platform) := by
  have rowID : (rowData row).itemID = itemID := by simp [rowData, identified]
  constructor
  · intro shown colour platform
    have price := shown.price itemID identified colour platform colour.title
      (platformTitle platform) (uppercased_colour_title text colour)
      (uppercased_platform_title text platform)
    rw [published_price text tables row colour platform _ _ (uppercased_colour_title text colour)
      (uppercased_platform_title text platform), rowID] at price
    exact (Option.map_injective pair_list_injective price).symm
  · intro agree
    refine ⟨by simp [decodedItem, publishedItem, rowData, named], ?_⟩
    intro wanted there colour platform colourText onPlatform spelledColour spelledPlatform
    obtain rfl : itemID = wanted := Option.some.inj (identified.symm.trans there)
    rw [published_price text tables row colour platform _ _ spelledColour spelledPlatform, rowID,
      agree]

theorem pipeline_exact_rows {text : SwiftText} {tables : PlatformTables}
    (wellFormed : WellFormed tables) (searched : TablePlatform → List Row) :
    PipelineExact text tables searched ↔ ∀ row ∈ listedRows tables.pc,
      ShowsRow text searched (decodedItem (publishedItem tables row)) row := by
  have decoded := decoded_catalogue wellFormed
  rw [PipelineExact, main_spec wellFormed]
  constructor
  · rintro ⟨uploaded, catalogue, uploads, isDecoded, shown⟩
    obtain rfl := Except.ok.inj uploads
    obtain rfl := Option.some.inj (decoded.symm.trans isDecoded)
    exact List.forall₂_same.mp (List.forall₂_map_left_iff.mp shown)
  · intro shown
    exact ⟨_, _, rfl, decoded, List.forall₂_map_left_iff.mpr (List.forall₂_same.mpr shown)⟩

theorem listed_row_data {tables : PlatformTables} (wellFormed : WellFormed tables) {row : Row}
    (listed : row ∈ listedRows tables.pc) :
    ∃ itemID itemName, row.itemID? = some itemID ∧ row.name = some itemName := by
  obtain ⟨member, kept⟩ := List.mem_filter.mp listed
  have named : row.name.isSome = true := (Bool.and_eq_true_iff.mp kept).2
  obtain ⟨itemID, identified⟩ := Option.isSome_iff_exists.mp
    (wellFormed.complete .pc row member named).1
  obtain ⟨itemName, name⟩ := Option.isSome_iff_exists.mp named
  exact ⟨itemID, itemName, identified, name⟩

theorem copied_column_of_ne {colour : Colour} {platform : TablePlatform}
    (ordinary : ¬ (colour = .default ∧ platform = .pc)) :
    copiedColumn colour platform = colour := if_neg ordinary

/-- Read over the rows that the scraper lists, a row shows its prices exactly when its
`Default` cell matches its white one. -/
theorem shows_listed_iff (text : SwiftText) {tables : PlatformTables}
    (wellFormed : WellFormed tables) {row : Row} (listed : row ∈ listedRows tables.pc) :
    ShowsRow text (fun platform => listedRows (tables.tableOf platform))
        (decodedItem (publishedItem tables row)) row ↔
      priceString row.cells.tail Colour.default.column =
        priceString row.cells.tail Colour.white.column := by
  obtain ⟨itemID, itemName, identified, named⟩ := listed_row_data wellFormed listed
  have own := table_price_own (listed_distinct wellFormed .pc) listed identified
  rw [shows_row_iff text _ identified named, ← own, ← own]
  constructor
  · exact fun agree => agree .default .pc
  · intro same colour platform
    by_cases exceptional : colour = .default ∧ platform = .pc
    · obtain ⟨rfl, rfl⟩ := exceptional
      exact same
    · rw [copied_column_of_ne exceptional]

/-- Read over every row of the tables, a skipped row must moreover have no price. -/
theorem shows_any_iff (text : SwiftText) {tables : PlatformTables}
    (wellFormed : WellFormed tables) {row : Row} (listed : row ∈ listedRows tables.pc) :
    ShowsRow text tables.tableOf (decodedItem (publishedItem tables row)) row ↔
      priceString row.cells.tail Colour.default.column =
        priceString row.cells.tail Colour.white.column ∧
      ∀ platform, ∀ skipped ∈ tables.tableOf platform, skipped.itemID? = row.itemID? →
        isListed skipped = false →
          ∀ colour, priceString skipped.cells.tail (Colour.column colour) = none := by
  obtain ⟨itemID, itemName, identified, named⟩ := listed_row_data wellFormed listed
  have inTable : row ∈ tables.tableOf .pc := List.mem_of_mem_filter listed
  have own := table_price_own (wellFormed.distinct .pc) inTable identified
  have ownListed := table_price_own (listed_distinct wellFormed .pc) listed identified
  rw [shows_row_iff text _ identified named]
  constructor
  · intro agree
    refine ⟨by rw [← own, ← ownListed]; exact agree .default .pc, ?_⟩
    intro platform skipped member same unlisted colour
    rw [← table_price_own (wellFormed.distinct platform) member (same.trans identified), agree]
    exact listed_price_of_skipped wellFormed platform member (same.trans identified) unlisted _
  · rintro ⟨same, unpriced⟩ colour platform
    cases found : (tables.tableOf platform).find? fun other => other.itemID? == some itemID with
    | none =>
        have nowhere : (listedRows (tables.tableOf platform)).find?
            (fun other => other.itemID? == some itemID) = none :=
          List.find?_eq_none.mpr fun other member =>
            List.find?_eq_none.mp found other (List.mem_of_mem_filter member)
        simp only [tablePrice, found, nowhere, Option.bind_none]
    | some other =>
        have member := List.mem_of_find?_eq_some found
        have carries : other.itemID? = some itemID := eq_of_beq
          (List.find?_some (p := fun other : Row => other.itemID? == some itemID) found)
        have otherOwn := table_price_own (wellFormed.distinct platform) member carries
        by_cases kept : isListed other = true
        · have otherListed := table_price_own (listed_distinct wellFormed platform)
            (List.mem_filter.mpr ⟨member, kept⟩) carries
          rw [otherOwn, otherListed]
          by_cases exceptional : colour = .default ∧ platform = .pc
          · obtain ⟨rfl, rfl⟩ := exceptional
            obtain rfl := same_row_of_same_id (wellFormed.distinct .pc) inTable member identified
              carries
            exact same
          · rw [copied_column_of_ne exceptional]
        · have unlisted := Bool.eq_false_iff.mpr kept
          rw [otherOwn, listed_price_of_skipped wellFormed platform member carries unlisted]
          exact unpriced platform other member (carries.trans identified.symm) unlisted colour

/-- The pipeline shows the parsed prices exactly when no `Default` price on PC differs
from the white one that is published in its place and, if the rows which the scraper
skips are to count too, when none of them has a price. -/
theorem pipeline_exact_iff (text : SwiftText) (tables : PlatformTables)
    (wellFormed : WellFormed tables) :
    (PipelineExact text tables (fun platform => listedRows (tables.tableOf platform)) ↔
      DefaultMatchesWhite tables) ∧
    (PipelineExact text tables tables.tableOf ↔
      DefaultMatchesWhite tables ∧ SkippedRowsUnpriced tables) := by
  refine ⟨?_, ?_⟩
  · rw [pipeline_exact_rows wellFormed]
    exact forall₂_congr fun row listed => shows_listed_iff text wellFormed listed
  · rw [pipeline_exact_rows wellFormed, DefaultMatchesWhite, SkippedRowsUnpriced,
      ← forall₂_and]
    exact forall₂_congr fun row listed => shows_any_iff text wellFormed listed

def paintedTable (octane dominus : String) : List Row :=
  [⟨false, some "Octane", "<tr id=\"octane\"></tr>", ["Octane", octane, "-", "3-4k"]⟩,
    ⟨true, none, "<tr></tr>", []⟩,
    ⟨false, some "Dominus", "<tr id=\"dominus\"></tr>", ["Dominus", dominus, "2-3k", dominus]⟩]

/-- The Dominus has no price on Switch, the Octane none on Xbox. -/
def paintedTables : PlatformTables where
  pc := paintedTable "1-2k" "300-340"
  ps4 := paintedTable "1.1-2k" "310-350"
  switch := paintedTable "900-1000" "-"
  xbox := paintedTable "-" "290-330"

theorem painted_tables_well_formed : WellFormed paintedTables where
  distinct platform := by cases platform <;> decide +kernel
  complete platform := by cases platform <;> decide +kernel
  fits platform := by cases platform <;> decide +kernel

theorem pipeline_exact_iff_painted :
    (PipelineExact asciiText paintedTables
        (fun platform => listedRows (paintedTables.tableOf platform)) ↔
      DefaultMatchesWhite paintedTables) ∧
    (PipelineExact asciiText paintedTables paintedTables.tableOf ↔
      DefaultMatchesWhite paintedTables ∧ SkippedRowsUnpriced paintedTables) :=
  pipeline_exact_iff asciiText paintedTables painted_tables_well_formed

/-- The page gives 1000 to 2000 for the unpainted item on PC, the app shows 3000 to 4000. -/
theorem painted_default_price_wrong :
    WellFormed paintedTables ∧
    ¬ PipelineExact asciiText paintedTables
      (fun platform => listedRows (paintedTables.tableOf platform)) ∧
    ¬ PipelineExact asciiText paintedTables paintedTables.tableOf := by
  have painted : ∃ row ∈ listedRows paintedTables.pc,
      priceString row.cells.tail Colour.default.column ≠
        priceString row.cells.tail Colour.white.column := by decide +kernel
  obtain ⟨row, present, different⟩ := painted
  refine ⟨painted_tables_well_formed, fun exact => ?_, fun exact => ?_⟩
  · have shown := (pipeline_exact_rows painted_tables_well_formed _).mp exact row present
    exact different ((shows_listed_iff asciiText painted_tables_well_formed present).mp shown)
  · have shown := (pipeline_exact_rows painted_tables_well_formed _).mp exact row present
    exact different ((shows_any_iff asciiText painted_tables_well_formed present).mp shown).1

end RlInvestments.PricePipeline
