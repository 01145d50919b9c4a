import RlInvestments.IrregularRows
import RlInvestments.JoinByPosition
import RlInvestments.LocalScraperRefinement

/-!
# Which tables can be scraped

The two scrapers stop at different rows. The Azure function needs an id and a name cell
in every row that it lists. The local script needs a name as well, in every row that is
not an `emptyCell` row, and each id of the PC table in the three other tables. Ids may
be repeated: the last row with an id writes its dictionary entry.
-/

namespace RlInvestments.ScrapeCompletion

open RlInvestments.JsonText RlInvestments.GuardedRuns RlInvestments.LastMatchScan
open RlInvestments.JoinByPosition RlInvestments.ScrapedTables RlInvestments.CatalogueAssembly
open RlInvestments.PricePipeline RlInvestments.IrregularRows
open RlInvestments.LocalScraperRefinement

set_option autoImplicit false

def AzureReads (tables : PlatformTables) : Prop :=
  ∀ platform, ∀ row ∈ listedRows (tables.tableOf platform), isComplete row = true

structure LocalReads (tables : PlatformTables) : Prop where
  regular : ∀ platform, ∀ row ∈ getData (tables.tableOf platform), isRegular row = true
  found : ∀ row ∈ getData tables.pc, ∀ platform,
    ∃ other ∈ getData (tables.tableOf platform), other.itemID? = row.itemID?

/-- What the dictionary of a platform holds for an id once its table is read. -/
def lastPrices (tables : PlatformTables) (itemID : String) (platform : TablePlatform) :
    Option Prices :=
  (lastMatch (hasID itemID) none (listedRows (tables.tableOf platform))).map rowPrices

/-- The published item of a row, with the prices of the last rows that have its id. -/
def lastItem (tables : PlatformTables) (row : Row) : Item :=
  let prices := fun platform =>
    (lastPrices tables (rowData row).itemID platform).getD .none
  ⟨(rowData row).itemName, newPrice (prices .pc) (prices .ps4) (prices .xbox) (prices .switch),
    (rowData row).itemName⟩

structure ScrapeRead (tables : PlatformTables) (scraped : Scraped) : Prop where
  items : scraped.items = (listedRows tables.pc).map rowData
  prices : ∀ platform itemID,
    (scraped.itemsOf platform).lookup itemID = lastPrices tables itemID platform

theorem azure_table_read {tables : PlatformTables} (reads : AzureReads tables)
    (platform : TablePlatform) (getItemData : Bool) (scraped : Scraped) :
    ∃ result, Azure.parseTable platform getItemData (getData (tables.tableOf platform)) scraped =
        .ok result ∧
      result.items = scraped.items ++
        (if getItemData then (listedRows (tables.tableOf platform)).map rowData else []) ∧
      TableRead platform (listedRows (tables.tableOf platform)) scraped result := by
  rw [← listed_rows_eq]
  apply parse_table_spec
  intro row kept named
  apply (is_complete_iff row).mp
  apply reads platform
  rw [← listed_rows_eq]
  exact List.mem_filter.mpr ⟨kept, named⟩

theorem azure_scrape_read {tables : PlatformTables} (reads : AzureReads tables) :
    ∃ scraped, Azure.scrape tables = .ok scraped ∧ ScrapeRead tables scraped := by
  have ⟨pc, pcParsed, pcItems, pcRead⟩ := azure_table_read reads .pc true .empty
  have ⟨ps4, ps4Parsed, ps4Items, ps4Read⟩ := azure_table_read reads .ps4 false pc
  have ⟨xbox, xboxParsed, xboxItems, xboxRead⟩ := azure_table_read reads .xbox false ps4
  have ⟨result, parsed, items, read⟩ := azure_table_read reads .switch false xbox
  exists result
  apply And.intro
  · change (Azure.parseTable .pc true (getData (tables.tableOf .pc)) .empty >>= _) = _
    rw [pcParsed]
    change (Azure.parseTable .ps4 false (getData (tables.tableOf .ps4)) pc >>= _) = _
    rw [ps4Parsed]
    change (Azure.parseTable .xbox false (getData (tables.tableOf .xbox)) ps4 >>= _) = _
    rw [xboxParsed]
    exact parsed
  constructor
  · rw [items, xboxItems, ps4Items, pcItems]
    simp [Scraped.empty, PlatformTables.tableOf]
  · intro platform itemID
    cases platform with
    | pc =>
        rw [read.others _ (by decide), xboxRead.others _ (by decide),
          ps4Read.others _ (by decide), pcRead.prices]
        exact Option.or_none
    | ps4 =>
        rw [read.others _ (by decide), xboxRead.others _ (by decide), ps4Read.prices,
          pcRead.others _ (by decide)]
        exact Option.or_none
    | xbox =>
        rw [read.others _ (by decide), xboxRead.prices, ps4Read.others _ (by decide),
          pcRead.others _ (by decide)]
        exact Option.or_none
    | switch =>
        rw [read.prices, xboxRead.others _ (by decide), ps4Read.others _ (by decide),
          pcRead.others _ (by decide)]
        exact Option.or_none

theorem old_item_read {tables : PlatformTables} {scraped : Scraped}
    (read : ScrapeRead tables scraped) (row : Row) :
    Azure.oldItem scraped (rowData row) = lastItem tables row := by
  simp only [lastItem, ← read.prices]
  rfl

theorem azure_main_read {tables : PlatformTables} (reads : AzureReads tables) :
    Azure.main tables =
      .ok (jsonString Azure.header ((listedRows tables.pc).map (lastItem tables))) := by
  have ⟨scraped, scrapes, read⟩ := azure_scrape_read reads
  rw [Azure.main, scrapes]
  change Except.ok (jsonString Azure.header (Azure.oldItems scraped)) = _
  rw [Azure.oldItems, read.items, List.map_map]
  simp only [Function.comp_def, old_item_read read]

theorem parse_table_complete {platform : TablePlatform} {getItemData : Bool} {rows : List Row}
    {scraped result : Scraped}
    (parsed : Azure.parseTable platform getItemData rows scraped = .ok result) :
    ∀ row ∈ rows, hasName row = true → isComplete row = true := by
  intro row member named
  apply Bool.of_not_eq_false
  intro incomplete
  have ⟨error, raised⟩ :=
    parse_table_raises platform getItemData rows ⟨row, member, named, incomplete⟩ scraped
  rw [raised] at parsed
  cases parsed

theorem listed_complete {platform : TablePlatform} {getItemData : Bool} {table : List Row}
    {scraped result : Scraped}
    (parsed : Azure.parseTable platform getItemData (getData table) scraped = .ok result) :
    ∀ row ∈ listedRows table, isComplete row = true := by
  intro row listed
  rw [← listed_rows_eq] at listed
  have ⟨kept, named⟩ := List.mem_filter.mp listed
  exact parse_table_complete parsed row kept named

theorem azure_reads_of_scrape {tables : PlatformTables} {scraped : Scraped}
    (scrapes : Azure.scrape tables = .ok scraped) : AzureReads tables := by
  have ⟨pc, pcParsed, afterPc⟩ := except_bind_ok scrapes
  have ⟨ps4, ps4Parsed, afterPs4⟩ := except_bind_ok afterPc
  have ⟨xbox, xboxParsed, switchParsed⟩ := except_bind_ok afterPs4
  intro platform
  cases platform with
  | pc => exact listed_complete pcParsed
  | ps4 => exact listed_complete ps4Parsed
  | xbox => exact listed_complete xboxParsed
  | switch => exact listed_complete switchParsed

theorem js_parse_table_named {platform : TablePlatform} {getItemData : Bool} {rows : List Row}
    {scraped result : Scraped}
    (parsed : JsScrapper.parseTable platform getItemData rows scraped = .ok result) :
    ∀ row ∈ rows, hasName row = true := by
  induction rows generalizing scraped with
  | nil =>
      intro row absent
      exact absurd absent List.not_mem_nil
  | cons row rows induction =>
      cases named : row.name with
      | none =>
          simp only [JsScrapper.parseTable, named] at parsed
          cases parsed
      | some itemName =>
          simp only [JsScrapper.parseTable, named] at parsed
          obtain ⟨next, _, rest⟩ := except_bind_ok parsed
          rw [List.forall_mem_cons]
          apply And.intro _ (induction rest)
          simp only [hasName, named, Option.isSome_some]

theorem js_parse_table_regular {platform : TablePlatform} {getItemData : Bool} {rows : List Row}
    {scraped result : Scraped}
    (parsed : JsScrapper.parseTable platform getItemData rows scraped = .ok result) :
    ∀ row ∈ rows, isRegular row = true := by
  intro row member
  have named := js_parse_table_named parsed row member
  have complete := parse_table_complete (js_parse_table_azure _ _ _ _ _ parsed) row member named
  rw [isRegular, named, complete]
  rfl

theorem js_parse_table_eq {rows : List Row} (named : ∀ row ∈ rows, hasName row = true)
    (platform : TablePlatform) (getItemData : Bool) (scraped : Scraped) :
    JsScrapper.parseTable platform getItemData rows scraped =
      Azure.parseTable platform getItemData rows scraped := by
  induction rows generalizing scraped with
  | nil => rfl
  | cons row rows induction =>
      rw [List.forall_mem_cons] at named
      have ⟨hasRowName, others⟩ := named
      have ⟨itemName, isName⟩ := Option.isSome_iff_exists.mp hasRowName
      simp only [JsScrapper.parseTable, Azure.parseTable, isName, induction others]

theorem regular_named {row : Row} (regular : isRegular row = true) : hasName row = true :=
  (Bool.and_eq_true_iff.mp regular).1

theorem regular_complete {row : Row} (regular : isRegular row = true) : isComplete row = true :=
  (Bool.and_eq_true_iff.mp regular).2

def AllRegular (tables : PlatformTables) : Prop :=
  ∀ platform, ∀ row ∈ getData (tables.tableOf platform), isRegular row = true

theorem regular_of_js_scrape {tables : PlatformTables} {scraped : Scraped}
    (scrapes : JsScrapper.scrape tables = .ok scraped) : AllRegular tables := by
  have ⟨pc, pcParsed, afterPc⟩ := except_bind_ok scrapes
  have ⟨ps4, ps4Parsed, afterPs4⟩ := except_bind_ok afterPc
  have ⟨xbox, xboxParsed, switchParsed⟩ := except_bind_ok afterPs4
  intro platform
  cases platform with
  | pc => exact js_parse_table_regular pcParsed
  | ps4 => exact js_parse_table_regular ps4Parsed
  | xbox => exact js_parse_table_regular xboxParsed
  | switch => exact js_parse_table_regular switchParsed

theorem js_scrape_eq {tables : PlatformTables} (regular : AllRegular tables) :
    JsScrapper.scrape tables = Azure.scrape tables := by
  have same := fun platform => js_parse_table_eq fun row kept =>
    regular_named (regular platform row kept)
  unfold JsScrapper.scrape Azure.scrape
  simp only [PlatformTables.tableOf] at same
  simp only [same .pc, same .ps4, same .xbox, same .switch]

theorem listed_of_regular {tables : PlatformTables} (regular : AllRegular tables)
    (platform : TablePlatform) :
    listedRows (tables.tableOf platform) = getData (tables.tableOf platform) := by
  rw [← listed_rows_eq]
  apply List.filter_eq_self.mpr
  intro row kept
  exact regular_named (regular platform row kept)

theorem reads_of_regular {tables : PlatformTables} (regular : AllRegular tables) :
    AzureReads tables := by
  intro platform row listed
  rw [listed_of_regular regular] at listed
  exact regular_complete (regular platform row listed)

theorem js_old_item_completes_iff (scraped : Scraped) (i : ItemData) :
    (∃ item, JsScrapper.oldItem scraped i = .ok item) ↔
      ∀ platform, ((scraped.itemsOf platform).lookup i.itemID).isSome = true := by
  constructor
  · intro ⟨item, completes⟩ platform
    unfold JsScrapper.oldItem at completes
    split at completes
    · rename_i pc ps4 xbox switch pcFound ps4Found xboxFound switchFound
      cases platform with
      | pc => exact Option.isSome_of_eq_some pcFound
      | ps4 => exact Option.isSome_of_eq_some ps4Found
      | xbox => exact Option.isSome_of_eq_some xboxFound
      | switch => exact Option.isSome_of_eq_some switchFound
    · cases completes
  · intro found
    have ⟨pc, pcFound⟩ := Option.isSome_iff_exists.mp (found .pc)
    have ⟨ps4, ps4Found⟩ := Option.isSome_iff_exists.mp (found .ps4)
    have ⟨xbox, xboxFound⟩ := Option.isSome_iff_exists.mp (found .xbox)
    have ⟨switch, switchFound⟩ := Option.isSome_iff_exists.mp (found .switch)
    simp only [Scraped.itemsOf] at pcFound ps4Found xboxFound switchFound
    simp only [JsScrapper.oldItem, pcFound, ps4Found, xboxFound, switchFound]
    exact ⟨_, rfl⟩

theorem last_prices_is_some_iff {tables : PlatformTables} (regular : AllRegular tables)
    (itemID : String) (platform : TablePlatform) :
    (lastPrices tables itemID platform).isSome = true ↔
      ∃ other ∈ getData (tables.tableOf platform), other.itemID? = some itemID := by
  rw [lastPrices, Option.isSome_map, listed_of_regular regular]
  constructor
  · intro found
    have ⟨other, isLast⟩ := Option.isSome_iff_exists.mp found
    have ⟨member, carries⟩ := last_match_some isLast
    exact ⟨other, member, eq_of_beq carries⟩
  · intro ⟨other, member, carries⟩
    rw [Option.isSome_iff_ne_none]
    intro nowhere
    have unmatched := (last_match_none_iff _ _).mp nowhere other member
    rw [hasID, carries, beq_self_eq_true] at unmatched
    exact Bool.noConfusion unmatched

theorem js_items_complete_iff {tables : PlatformTables} (regular : AllRegular tables)
    {scraped : Scraped} (read : ScrapeRead tables scraped) :
    (∃ items, JsScrapper.oldItems scraped = .ok items) ↔
      ∀ row ∈ getData tables.pc, ∀ platform,
        ∃ other ∈ getData (tables.tableOf platform), other.itemID? = row.itemID? := by
  have listed : listedRows tables.pc = getData tables.pc := listed_of_regular regular .pc
  rw [JsScrapper.oldItems, map_m_completes_iff, read.items, listed, List.forall_mem_map]
  apply forall₂_congr
  intro row kept
  have complete := (is_complete_iff row).mp (regular_complete (regular .pc row kept))
  have ⟨itemID, identified⟩ := Option.isSome_iff_exists.mp complete.1
  have isID : (rowData row).itemID = itemID := by
    rw [rowData, identified]
    rfl
  rw [js_old_item_completes_iff]
  apply forall_congr'
  intro platform
  rw [isID, read.prices, last_prices_is_some_iff regular, identified]

theorem azure_completes_iff (tables : PlatformTables) :
    (∃ uploaded, Azure.main tables = .ok uploaded) ↔ AzureReads tables := by
  constructor
  · intro ⟨uploaded, completes⟩
    have ⟨scraped, scrapes, _⟩ := except_bind_ok completes
    exact azure_reads_of_scrape scrapes
  · intro reads
    exact ⟨_, azure_main_read reads⟩

theorem local_completes_iff (tables : PlatformTables) :
    (∃ printed, JsScrapper.main tables = .ok printed) ↔ LocalReads tables := by
  constructor
  · intro ⟨printed, completes⟩
    have ⟨scraped, scrapes, rest⟩ := except_bind_ok completes
    have ⟨items, merges, _⟩ := except_bind_ok rest
    have regular := regular_of_js_scrape scrapes
    have ⟨result, azureScrapes, read⟩ := azure_scrape_read (reads_of_regular regular)
    rw [js_scrape_eq regular, azureScrapes] at scrapes
    have same : result = scraped := Except.ok.inj scrapes
    rw [same] at read
    exact ⟨regular, (js_items_complete_iff regular read).mp ⟨items, merges⟩⟩
  · intro reads
    have ⟨scraped, azureScrapes, read⟩ := azure_scrape_read (reads_of_regular reads.regular)
    have ⟨items, merges⟩ := (js_items_complete_iff reads.regular read).mpr reads.found
    exists jsonString JsScrapper.header items
    rw [JsScrapper.main, js_scrape_eq reads.regular, azureScrapes]
    change (JsScrapper.oldItems scraped >>= _) = _
    rw [merges]
    rfl

/-- What either scraper writes is the list of the last items. -/
theorem azure_text_reads {tables : PlatformTables} {uploaded : List Char}
    (completes : Azure.main tables = .ok uploaded) :
    readDocument uploaded =
      some (catalogueJson ((listedRows tables.pc).map (lastItem tables))) := by
  have reads := (azure_completes_iff tables).mp ⟨uploaded, completes⟩
  have text := Except.ok.inj ((azure_main_read reads).symm.trans completes)
  rw [← text]
  exact read_json_string Azure.header azure_header_shape _

theorem local_text_reads {tables : PlatformTables} {printed : List Char}
    (completes : JsScrapper.main tables = .ok printed) :
    readDocument printed =
      some (catalogueJson ((listedRows tables.pc).map (lastItem tables))) := by
  have ⟨scraped, scrapes, rest⟩ := except_bind_ok completes
  have ⟨items, merges, result⟩ := except_bind_ok rest
  have reads := azure_reads_of_scrape (js_scrape_azure tables scraped scrapes)
  have ⟨azureScraped, azureScrapes, read⟩ := azure_scrape_read reads
  rw [js_scrape_azure tables scraped scrapes] at azureScrapes
  rw [← Except.ok.inj azureScrapes] at read
  have same : (listedRows tables.pc).map (lastItem tables) = items := by
    rw [← js_old_items_azure scraped scraped.items items merges, read.items, List.map_map]
    exact List.map_congr_left fun row _ => (old_item_read read row).symm
  rw [same, ← Except.ok.inj result]
  exact read_json_string JsScrapper.header js_header_shape items

/-- For all tables, complete or not and with repeated ids or without: on which of them each
scraper ends, and what its text denotes then. -/
theorem scrapers_complete_iff (tables : PlatformTables) :
    ((∃ uploaded, Azure.main tables = .ok uploaded) ↔ AzureReads tables) ∧
      ((∃ printed, JsScrapper.main tables = .ok printed) ↔ LocalReads tables) ∧
      ∀ text, Azure.main tables = .ok text ∨ JsScrapper.main tables = .ok text →
        readDocument text =
          some (catalogueJson ((listedRows tables.pc).map (lastItem tables))) := by
  apply And.intro (azure_completes_iff tables)
  apply And.intro (local_completes_iff tables)
  intro text completes
  rcases completes with completes | completes
  · exact azure_text_reads completes
  · exact local_text_reads completes

end RlInvestments.ScrapeCompletion
