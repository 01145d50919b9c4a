import RlInvestments.CatalogueAssembly
import RlInvestments.GuardedRuns

/-!
# The deployed scraper refines the local one

The two pipelines are compared step by step: a completed row loop of the local
script is the row loop of the Azure function, a completed merge is its merge, and
the two headers differ in blanks only.
-/

namespace RlInvestments.LocalScraperRefinement

open RlInvestments.JsonText RlInvestments.GuardedRuns RlInvestments.ScrapedTables
open RlInvestments.CatalogueAssembly

set_option autoImplicit false

theorem js_parse_table_azure (platform : TablePlatform) (getItemData : Bool) (table : List Row)
    (scraped result : Scraped)
    (completes : JsScrapper.parseTable platform getItemData table scraped = .ok result) :
    Azure.parseTable platform getItemData table scraped = .ok result := by
  induction table generalizing scraped with
  | nil => exact completes
  | cons row table induction =>
      cases named : row.name with
      | none => simp [JsScrapper.parseTable, named] at completes
      | some itemName =>
          simp only [JsScrapper.parseTable, named] at completes
          obtain ⟨next, rowParsed, rest⟩ := except_bind_ok completes
          simp only [Azure.parseTable, named, rowParsed]
          exact induction next rest

theorem js_scrape_azure (tables : PlatformTables) (result : Scraped)
    (completes : JsScrapper.scrape tables = .ok result) : Azure.scrape tables = .ok result := by
  obtain ⟨pc, pcParsed, afterPc⟩ := except_bind_ok completes
  obtain ⟨ps4, ps4Parsed, afterPs4⟩ := except_bind_ok afterPc
  obtain ⟨xbox, xboxParsed, switchParsed⟩ := except_bind_ok afterPs4
  rw [Azure.scrape, js_parse_table_azure _ _ _ _ _ pcParsed]
  change (Azure.parseTable .ps4 false (getData tables.ps4) pc >>= _) = _
  rw [js_parse_table_azure _ _ _ _ _ ps4Parsed]
  change (Azure.parseTable .xbox false (getData tables.xbox) ps4 >>= _) = _
  rw [js_parse_table_azure _ _ _ _ _ xboxParsed]
  exact js_parse_table_azure _ _ _ _ _ switchParsed

/-- Where the local script finds all four dictionary entries, the defaults of the
Azure function are not used. -/
theorem js_old_item_azure (scraped : Scraped) (i : ItemData) (item : Item)
    (completes : JsScrapper.oldItem scraped i = .ok item) :
    Azure.oldItem scraped i = item := by
  unfold JsScrapper.oldItem at completes
  split at completes
  · rename_i pc ps4 xbox switch pcFound ps4Found xboxFound switchFound
    obtain rfl := Except.ok.inj completes
    simp only [Azure.oldItem, pcFound, ps4Found, xboxFound, switchFound, Option.getD_some]
  · simp at completes

theorem js_old_items_azure (scraped : Scraped) (datas : List ItemData) (oldItems : List Item)
    (completes : datas.mapM (JsScrapper.oldItem scraped) = .ok oldItems) :
    datas.map (Azure.oldItem scraped) = oldItems := by
  induction datas generalizing oldItems with
  | nil => exact Except.ok.inj completes
  | cons i datas induction =>
      rw [List.mapM_cons] at completes
      obtain ⟨item, merged, afterItem⟩ := except_bind_ok completes
      obtain ⟨others, othersMerged, result⟩ := except_bind_ok afterItem
      obtain rfl := Except.ok.inj result
      rw [List.map_cons, js_old_item_azure scraped i item merged, induction others othersMerged]

theorem local_completion_refined (tables : PlatformTables) (printed : List Char)
    (completes : JsScrapper.main tables = .ok printed) :
    ∃ oldItems uploaded,
      Azure.main tables = .ok uploaded ∧
      readDocument printed = some (catalogueJson oldItems) ∧
      readDocument uploaded = some (catalogueJson oldItems) := by
  obtain ⟨scraped, scrapes, afterScrape⟩ := except_bind_ok completes
  obtain ⟨oldItems, merges, result⟩ := except_bind_ok afterScrape
  obtain rfl := Except.ok.inj result
  refine ⟨oldItems, jsonString Azure.header oldItems, ?_, ?_, ?_⟩
  · rw [Azure.main, js_scrape_azure tables scraped scrapes]
    change Except.ok (jsonString Azure.header (scraped.items.map (Azure.oldItem scraped))) = _
    rw [js_old_items_azure scraped scraped.items oldItems merges]
  · exact read_json_string _ js_header_shape oldItems
  · exact read_json_string _ azure_header_shape oldItems

def sampleTable (octane dominus : String) : List Row :=
  [⟨false, some "Octane", "<tr id=\"octane\"></tr>", ["Octane", octane, "5-6k"]⟩,
    ⟨true, none, "<tr></tr>", []⟩,
    ⟨false, some "Dominus", "<tr id=\"dominus\"></tr>", ["Dominus", dominus]⟩]

/-- The Dominus has no price on Switch, the Octane none on Xbox. -/
def sampleTables : PlatformTables where
  pc := sampleTable "1-2k" "300-340"
  ps4 := sampleTable "1.1-2k" "310-350"
  switch := sampleTable "900-1000" "-"
  xbox := sampleTable "-" "290-330"

theorem local_completion_refined_sample :
    ∃ printed oldItems uploaded, JsScrapper.main sampleTables = .ok printed ∧
      Azure.main sampleTables = .ok uploaded ∧
      readDocument printed = some (catalogueJson oldItems) ∧
      readDocument uploaded = some (catalogueJson oldItems) := by
  have finished : (JsScrapper.main sampleTables).toOption.isSome = true := by decide +kernel
  cases completes : JsScrapper.main sampleTables with
  | error error =>
      rw [completes] at finished
      cases finished
  | ok printed =>
      have ⟨oldItems, uploaded, refined⟩ := local_completion_refined sampleTables printed completes
      exact ⟨printed, oldItems, uploaded, rfl, refined⟩

end RlInvestments.LocalScraperRefinement
