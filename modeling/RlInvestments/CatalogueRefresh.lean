import RlInvestments.AppMemory
import RlInvestments.PricePipeline

/-!
# Refreshing from an unchanged catalogue

The scraper tells rows apart by id and publishes no ids; the app finds the item of an
investment again by its name, and takes the last entry with that name. A refresh from
the catalogue that the items were picked from is the identity exactly when no other
entry shares the name of a picked one.
-/

namespace RlInvestments.CatalogueRefresh

open RlInvestments.ScrapedTables RlInvestments.CatalogueAssembly RlInvestments.LastMatchScan
open RlInvestments.CatalogueItems RlInvestments.PublishedPrices RlInvestments.PricePipeline
open RlInvestments.InvestmentStore RlInvestments.AppMemory

set_option autoImplicit false

variable {Data : Type}

def AllPicked (items : List DecodingItem) (investments : List InvestmentItem) : Prop :=
  ∀ investment ∈ investments, ∃ i : Nat, items[i]? = some investment.item

theorem last_named_of_mem {items : List DecodingItem} {item : DecodingItem}
    (member : item ∈ items) :
    ∃ last ∈ items, last.itemName = item.itemName ∧ lastNamed items item.itemName = some last := by
  cases found : lastNamed items item.itemName with
  | none =>
      have unmatched := (last_match_none_iff _ _).mp found item member
      simp at unmatched
  | some last =>
      obtain ⟨present, named⟩ := last_named_some found
      exact ⟨last, present, named, rfl⟩

theorem attach_unchanged_iff {items : List DecodingItem} {investment : InvestmentItem}
    (picked : investment.item ∈ items) :
    attachItem items investment = investment ↔
      lastNamed items investment.item.itemName = some investment.item := by
  obtain ⟨last, -, -, found⟩ := last_named_of_mem picked
  rw [attach_item_eq, found, Option.getD_some, Option.some.injEq]
  exact ⟨congrArg InvestmentItem.item, fun same => same ▸ rfl⟩

theorem update_unchanged_iff {items : List DecodingItem} {investments : List InvestmentItem}
    (picked : AllPicked items investments) :
    updateInvestments items investments = investments ↔
      ∀ investment ∈ investments,
        lastNamed items investment.item.itemName = some investment.item := by
  have each : updateInvestments items investments = investments ↔
      ∀ investment ∈ investments, attachItem items investment = investment := by
    rw [updateInvestments, ← List.map_inj_left, List.map_id']
  rw [each]
  refine forall₂_congr fun investment member => attach_unchanged_iff ?_
  obtain ⟨i, there⟩ := picked investment member
  exact List.mem_of_getElem? there

def NamesDetermine (items : List DecodingItem) : Prop :=
  ∀ first ∈ items, ∀ second ∈ items, first.itemName = second.itemName → first = second

theorem attach_again (items : List DecodingItem) (investment : InvestmentItem) :
    attachItem items (attachItem items investment) = attachItem items investment := by
  rw [attach_item_eq items (attachItem items investment), attach_item_name, attach_item_eq]
  cases lastNamed items investment.item.itemName <;> rfl

variable (foundation : Foundation Data)

/-- What a refresh from a catalogue does to the investments. -/
structure RefreshLaws (catalogue : DecodingItems) : Prop where
  /-- Only the item changes, and only to the last entry with its name. -/
  item : ∀ s : AppState Data, List.Forall₂
    (fun before after => after = { before with
      item := (lastNamed catalogue.items before.item.itemName).getD before.item })
    s.investments (initializeData foundation (some catalogue) s).investments
  unchanged : ∀ s : AppState Data, AllPicked catalogue.items s.investments →
    ((initializeData foundation (some catalogue) s).investments = s.investments ↔
      ∀ investment ∈ s.investments,
        lastNamed catalogue.items investment.item.itemName = some investment.item)
  /-- Every choice of items is left as it is exactly when names determine the entries. -/
  picks : (∀ s : AppState Data, AllPicked catalogue.items s.investments →
    (initializeData foundation (some catalogue) s).investments = s.investments) ↔
      NamesDetermine catalogue.items
  again : ∀ s : AppState Data,
    (initializeData foundation (some catalogue)
      (initializeData foundation (some catalogue) s)).investments =
        (initializeData foundation (some catalogue) s).investments

def holding (item : DecodingItem) : AppState Data :=
  { launch foundation .fresh with investments := [⟨item, "Default", 1, 100, "PC", 0⟩] }

theorem holding_picked {items : List DecodingItem} {item : DecodingItem} (member : item ∈ items) :
    AllPicked items (holding foundation item).investments := by
  intro investment alone
  obtain rfl := List.mem_singleton.mp alone
  exact List.mem_iff_getElem?.mp member

theorem picks_unchanged_iff (catalogue : DecodingItems) :
    (∀ s : AppState Data, AllPicked catalogue.items s.investments →
      (initializeData foundation (some catalogue) s).investments = s.investments) ↔
        NamesDetermine catalogue.items := by
  constructor
  · intro unchanged first firstMember second secondMember same
    have lastFor : ∀ item ∈ catalogue.items,
        lastNamed catalogue.items item.itemName = some item := fun item member =>
      (update_unchanged_iff (holding_picked foundation member)).mp
        (unchanged _ (holding_picked foundation member)) _ (List.mem_singleton_self _)
    have firstLast := lastFor first firstMember
    rw [same, lastFor second secondMember] at firstLast
    exact (Option.some.inj firstLast).symm
  · intro determine s picked
    refine (update_unchanged_iff picked).mpr fun investment member => ?_
    obtain ⟨i, there⟩ := picked investment member
    have present := List.mem_of_getElem? there
    obtain ⟨last, lastMember, named, found⟩ := last_named_of_mem present
    rw [found, determine last lastMember investment.item present named]

theorem refresh_laws (catalogue : DecodingItems) : RefreshLaws foundation catalogue where
  item s := List.forall₂_map_right_iff.mpr (List.forall₂_same.mpr fun investment _ =>
    attach_item_eq catalogue.items investment)
  unchanged _ picked := update_unchanged_iff picked
  picks := picks_unchanged_iff foundation catalogue
  again s := by
    change updateInvestments _ (updateInvestments _ s.investments) = _
    rw [updateInvestments, updateInvestments, List.map_map]
    exact List.map_congr_left fun investment _ => attach_again catalogue.items investment

/-- For a published catalogue: rows of the PC table that share a name have to agree. -/
theorem published_names_determine_iff {tables : PlatformTables} (wellFormed : WellFormed tables) :
    ∃ uploaded catalogue, Azure.main tables = .ok uploaded ∧ decode uploaded = some catalogue ∧
      (NamesDetermine catalogue.items ↔ ∀ first ∈ listedRows tables.pc,
        ∀ second ∈ listedRows tables.pc, first.name = second.name →
          decodedItem (publishedItem tables first) =
            decodedItem (publishedItem tables second)) := by
  refine ⟨_, _, main_spec wellFormed, decoded_catalogue wellFormed, ?_⟩
  simp only [NamesDetermine, List.forall_mem_map]
  refine forall₂_congr fun first firstListed => forall₂_congr fun second secondListed => ?_
  obtain ⟨_, firstName, -, firstNamed⟩ := listed_row_data wellFormed firstListed
  obtain ⟨_, secondName, -, secondNamed⟩ := listed_row_data wellFormed secondListed
  simp [decodedItem, publishedItem, rowData, firstNamed, secondNamed]

def twinRow (itemID price : String) : Row :=
  ⟨false, some "Octane", "<tr id=\"" ++ itemID ++ "\"></tr>", ["Octane", price, "-", price]⟩

def twinTable : List Row := [twinRow "octane" "1-2k", twinRow "octane_import" "5-6k"]

def twinTables : PlatformTables := ⟨twinTable, twinTable, twinTable, twinTable⟩

theorem twin_tables_well_formed : WellFormed twinTables where
  distinct platform := by cases platform <;> decide +kernel
  complete platform := by cases platform <;> decide +kernel
  fits platform := by cases platform <;> decide +kernel

/-- An investment in the first Octane is switched to the second. -/
theorem twin_is_switched :
    WellFormed twinTables ∧
    ¬ ∀ uploaded catalogue, Azure.main twinTables = .ok uploaded →
      decode uploaded = some catalogue →
      ∀ s : AppState (List InvestmentItem ⊕ List InvestmentGroup),
        AllPicked catalogue.items s.investments →
        (initializeData plainFoundation (some catalogue) s).investments = s.investments := by
  refine ⟨twin_tables_well_formed, fun unchanged => ?_⟩
  have determine := (picks_unchanged_iff plainFoundation _).mp
    (unchanged _ _ (main_spec twin_tables_well_formed) (decoded_catalogue twin_tables_well_formed))
  have listed : listedRows twinTables.pc = twinTable := rfl
  rw [listed] at determine
  have named (itemID price : String) :
      (decodedItem (publishedItem twinTables (twinRow itemID price))).itemName = "Octane" := rfl
  have same := determine _ (List.mem_map_of_mem List.mem_cons_self) _
    (List.mem_map_of_mem (List.mem_cons_of_mem _ List.mem_cons_self))
    ((named "octane" "1-2k").trans (named "octane_import" "5-6k").symm)
  have different : (decodedItem (publishedItem twinTables (twinRow "octane" "1-2k"))).getColourPrice
      asciiText "Default" "PC" ≠
        (decodedItem (publishedItem twinTables (twinRow "octane_import" "5-6k"))).getColourPrice
          asciiText "Default" "PC" := by decide +kernel
  exact different (congrArg (fun item => item.getColourPrice asciiText "Default" "PC") same)

end RlInvestments.CatalogueRefresh
