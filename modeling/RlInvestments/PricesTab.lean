import RlInvestments.ItemListScreens
import RlInvestments.PlatformControls
import RlInvestments.PublishedPrices

/-!
# The Prices tab

`ViewController.swift`: the rows of the price list and the alert with the 14 prices of an item.
The tab compares platforms by their exact spelling and picks each price field by hand;
`getColourPrice`, which the investments use, does neither. In every run the two agree, and the
alert says which colours the form would refuse.
-/

namespace RlInvestments.PricesTab

open RlInvestments.GuardedRuns RlInvestments.CatalogueItems RlInvestments.InvestmentStore
open RlInvestments.OverviewRows RlInvestments.AppMemory RlInvestments.OverviewHandlers
open RlInvestments.FormSheet RlInvestments.AppRuns RlInvestments.HandlerRules
open RlInvestments.HeldRecords RlInvestments.StoredDefaults RlInvestments.FormDisplay
open RlInvestments.PlatformControls RlInvestments.ItemListScreens
open RlInvestments.ScrapedTables (TablePlatform)
open RlInvestments.PublishedPrices (Colour colours platformTitle platform_price_attribute)

set_option autoImplicit false

variable {Data : Type} {foundation : Foundation Data}

def createPrice (price : Option (List Int)) : Except Fault String :=
  match price with
  | none => .ok "No Price"
  | some _ => do
      let lowerBound ← unwrapElement price 0
      let upperBound ← unwrapElement price 1
      .ok (toString lowerBound ++ " - " ++ toString upperBound)

/-- The 14 lines of `createMessageForAlert`: what each is headed with, and its price field. -/
def alertPrices (platform : String) (range : Prices) : List (String × Option (List Int)) :=
  if platform = "PC" then
    [("Default", range.pcPrice), ("Black", range.blackPcPrice),
      ("Titanium White", range.whitePcPrice), ("Grey", range.greyPcPrice),
      ("Crimson", range.crimsonPcPrice), ("Pink", range.pinkPcPrice),
      ("Cobalt", range.cobaltPcPrice), ("Sky Blue", range.skyBluePcPrice),
      ("Burnt Sienna", range.burntSiennaPcPrice), ("Saffron", range.saffronPcPrice),
      ("Lime", range.limePcPrice), ("Forest Green", range.forestGreenPcPrice),
      ("Orange", range.orangePcPrice), ("Purple", range.purplePcPrice)]
  else if platform = "PS4" then
    [("Default", range.ps4Price), ("Black", range.blackPs4Price),
      ("Titanium White", range.whitePs4Price), ("Grey", range.greyPs4Price),
      ("Crimson", range.crimsonPs4Price), ("Pink", range.pinkPs4Price),
      ("Cobalt", range.cobaltPs4Price), ("Sky Blue", range.skyBluePs4Price),
      ("Burnt Sienna", range.burntSiennaPs4Price), ("Saffron", range.saffronPs4Price),
      ("Lime", range.limePs4Price), ("Forest Green", range.forestGreenPs4Price),
      ("Orange", range.orangePs4Price), ("Purple", range.purplePs4Price)]
  else if platform = "SWITCH" then
    [("Default", range.switchPrice), ("Black", range.blackSwitchPrice),
      ("Titanium White", range.whiteSwitchPrice), ("Grey", range.greySwitchPrice),
      ("Crimson", range.crimsonSwitchPrice), ("Pink", range.pinkSwitchPrice),
      ("Cobalt", range.cobaltSwitchPrice), ("Sky Blue", range.skyBlueSwitchPrice),
      ("Burnt Sienna", range.burntSiennaSwitchPrice), ("Saffron", range.saffronSwitchPrice),
      ("Lime", range.limeSwitchPrice), ("Forest Green", range.forestGreenSwitchPrice),
      ("Orange", range.orangeSwitchPrice), ("Purple", range.purpleSwitchPrice)]
  else
    [("Default", range.xboxPrice), ("Black", range.blackXboxPrice),
      ("Titanium White", range.whiteXboxPrice), ("Grey", range.greyXboxPrice),
      ("Crimson", range.crimsonXboxPrice), ("Pink", range.pinkXboxPrice),
      ("Cobalt", range.cobaltXboxPrice), ("Sky Blue", range.skyBlueXboxPrice),
      ("Burnt Sienna", range.burntSiennaXboxPrice), ("Saffron", range.saffronXboxPrice),
      ("Lime", range.limeXboxPrice), ("Forest Green", range.forestGreenXboxPrice),
      ("Orange", range.orangeXboxPrice), ("Purple", range.purpleXboxPrice)]

def alertLine (line : String × Option (List Int)) : Except Fault String := do
  let price ← createPrice line.2
  .ok (line.1 ++ " : " ++ price)

/-- Every line but the last one ends with a line break. -/
def createMessageForAlert (platform : String) (item : DecodingItem) : Except Fault String := do
  let lines ← (alertPrices platform item.itemPriceRange).mapM alertLine
  .ok ("\n".intercalate lines)

/-- The price that a row of the list shows. -/
def listedPrice (platform : String) (range : Prices) : Option (List Int) :=
  if platform = "PC" then range.pcPrice
  else if platform = "PS4" then range.ps4Price
  else if platform = "SWITCH" then range.switchPrice
  else range.xboxPrice

/-- `tableView(cellForRowAt:)`. -/
def cellText (platform : String) (item : DecodingItem) : Except Fault String := do
  let price ← createPrice (listedPrice platform item.itemPriceRange)
  .ok (item.itemName ++ " : " ++ price)

/-- The title and the message of the alert that `tableView(didSelectRowAt:)` shows. -/
def didSelectRowAt (row : Nat) (s : AppState Data) : Except Fault (String × String) :=
  match s.filteredData[row]? with
  | none => .error .indexOutOfRange
  | some item => do
      let message ← createMessageForAlert s.platform item
      .ok (item.itemName, message)

def platformsInForce : List TablePlatform := [.pc, .ps4, .switch, .xbox]

def priceAt (range : Prices) (colour : Colour) (platform : TablePlatform) : Option (List Int) :=
  ((range.byColour[colour.column]?).bind (·[platformsInForce.idxOf platform]?)).getD none

theorem get_colour_price_at (text : SwiftText) (item : DecodingItem) (colour : Colour)
    (platform : TablePlatform) {colourText onPlatform : String}
    (spelledColour : text.uppercased colourText = colour.title)
    (spelledPlatform : text.uppercased onPlatform = platformTitle platform) :
    item.getColourPrice text colourText onPlatform =
      priceAt item.itemPriceRange colour platform := by
  rw [← platform_price_attribute text onPlatform platform spelledPlatform
    (priceAt item.itemPriceRange colour)]
  cases colour <;> simp only [DecodingItem.getColourPrice, spelledColour, Colour.title] <;> rfl

theorem alert_prices_at (range : Prices) (platform : TablePlatform) :
    alertPrices (platformTitle platform) range =
      (pickerColours.zip colours).map fun entry =>
        (entry.1, priceAt range entry.2 platform) := by
  cases platform <;> rfl

theorem picker_colour_title (text : SwiftText) {entry : String × Colour}
    (listed : entry ∈ pickerColours.zip colours) : text.uppercased entry.1 = entry.2.title := by
  have titles : ∀ entry ∈ pickerColours.zip colours,
      (entry.1.toList.all fun c => decide (c.toNat < 128)) = true ∧
        asciiUppercase entry.1 = entry.2.title := by decide
  have ⟨ascii, upper⟩ := titles entry listed
  rw [text.uppercased_ascii entry.1 ascii, upper]

def shownPrice : Option (List Int) → String
  | some (lowerBound :: upperBound :: _) => toString lowerBound ++ " - " ++ toString upperBound
  | _ => "No Price"

/-- Each of the 56 prices is `nil` or has two elements at least. -/
def Paired (item : DecodingItem) : Prop :=
  PricesAre (fun price => 2 ≤ price.length) item.itemPriceRange

instance : DecidablePred Paired := fun _ => inferInstanceAs (Decidable (PricesAre _ _))

theorem create_price_shown {price : Option (List Int)}
    (two : ∀ elements ∈ price, 2 ≤ elements.length) :
    createPrice price = .ok (shownPrice price) := by
  match price with
  | none => rfl
  | some (_ :: _ :: _) => rfl
  | some [] => exact absurd (two [] rfl) (by decide)
  | some [_] =>
      have short := two _ rfl
      rw [List.length_singleton] at short
      omega

theorem alert_lines_shown {lines : List (String × Option (List Int))}
    (two : ∀ line ∈ lines, ∀ elements ∈ line.2, 2 ≤ elements.length) :
    lines.mapM alertLine = .ok (lines.map fun line => line.1 ++ " : " ++ shownPrice line.2) := by
  apply map_m_ok
  intro line member
  rw [alertLine, create_price_shown (two line member)]
  rfl

section Agreement

variable (text : SwiftText) {platform : String}

theorem platform_in_force (inForce : platform ∈ pricesTitles) :
    ∃ table, platformTitle table = platform ∧
      text.uppercased platform = platformTitle table := by
  have titles : ∀ platform ∈ pricesTitles, platform ∈ PriceChart.platformSpellings ∧
      ∃ table ∈ platformsInForce, platformTitle table = platform ∧
        asciiUppercase platform = platformTitle table := by decide
  have ⟨spelt, table, _, same, upper⟩ := titles platform inForce
  exact ⟨table, same, (uppercased_spelt text spelt).trans upper⟩

theorem alert_prices_agree (inForce : platform ∈ pricesTitles) (item : DecodingItem) :
    alertPrices platform item.itemPriceRange =
      pickerColours.map fun colour => (colour, item.getColourPrice text colour platform) := by
  have ⟨table, title, spelled⟩ := platform_in_force text inForce
  have names : pickerColours = (pickerColours.zip colours).map Prod.fst := by decide
  have lines := alert_prices_at item.itemPriceRange table
  rw [title] at lines
  rw [lines, names, List.map_map]
  apply List.map_congr_left
  intro entry listed
  rw [← names] at listed
  have found := get_colour_price_at text item entry.2 table
    (picker_colour_title text listed) spelled
  simp only [Function.comp, found]

theorem listed_price_agrees (inForce : platform ∈ pricesTitles) (item : DecodingItem) :
    listedPrice platform item.itemPriceRange = item.getColourPrice text "Default" platform := by
  have ⟨table, title, spelled⟩ := platform_in_force text inForce
  have listed : ("Default", Colour.default) ∈ pickerColours.zip colours := by decide
  have upper := picker_colour_title text listed
  rw [get_colour_price_at text item .default table upper spelled, ← title]
  cases table <;> rfl

end Agreement

theorem int_text_head (value : Int) :
    ∃ first rest, (toString value).toList = first :: rest ∧
      (first = '-' ∨ first.isDigit = true) := by
  rw [int_text]
  split
  · exact ⟨'-', _, rfl, .inl rfl⟩
  · cases shape : Nat.toDigits 10 value.natAbs with
    | nil => exact absurd shape Nat.toDigits_ne_nil
    | cons first rest =>
        have member : first ∈ Nat.toDigits 10 value.natAbs := by
          rw [shape]
          exact List.mem_cons_self
        exact ⟨first, rest, rfl, .inr (JsonText.to_digits_all _ first member)⟩

/-- Two bounds never read as the words for a missing price. -/
theorem shown_price_missing {price : Option (List Int)}
    (two : ∀ elements ∈ price, 2 ≤ elements.length) :
    shownPrice price = "No Price" ↔ price = none := by
  match price with
  | none => simp [shownPrice]
  | some [] => exact absurd (two [] rfl) (by decide)
  | some [_] =>
      have short := two _ rfl
      rw [List.length_singleton] at short
      omega
  | some (lowerBound :: upperBound :: _) =>
      have ⟨first, rest, text, numeral⟩ := int_text_head lowerBound
      have differs : ¬ toString lowerBound ++ " - " ++ toString upperBound = "No Price" := by
        intro same
        have letters := congrArg String.toList same
        rw [String.toList_append, String.toList_append, text] at letters
        have initial : first = 'N' := (List.cons.inj letters).1
        rw [initial] at numeral
        exact absurd numeral (by decide)
      simp only [shownPrice, differs, reduceCtorEq]

variable (foundation) in
def listedRules : RecordRules foundation where
  record investment := Paired investment.item
  item := Paired
  quantity _ := True
  boughtFor _ := True
  allowed _ := True
  record_item paired := paired
  record_quantity _ := trivial
  record_bought_for _ := trivial
  requantified paired _ := paired
  accepted paired _ _ _ := paired
  stepper _ := trivial
  typed _ := trivial
  unset := trivial
  preset := trivial
  outside := trivial
  numbering := trivial
  accounting := trivial
  rows _ _ _ _ := raises_only_iff.mpr fun _ _ => trivial
  total _ _ := raises_only_iff.mpr fun _ _ => trivial

def arrivesPaired : Event → Bool
  | .catalogueArrives (some tempItems) => decide (∀ item ∈ tempItems.items, Paired item)
  | _ => true

abbrev PairedPrices (s : AppState Data) (event : Event) : Prop :=
  Possible s event ∧ arrivesPaired event = true

theorem paired_admits (s : AppState Data) (event : Event) (guarded : PairedPrices s event) :
    Admitted (listedRules foundation) s event := by
  refine ⟨guarded.1, ?_⟩
  cases event with
  | catalogueArrives catalogue =>
      cases catalogue with
      | none => exact trivial
      | some tempItems =>
          have paired : ∀ item ∈ tempItems.items, Paired item := of_decide_eq_true guarded.2
          refine ⟨paired, fun held updated member => ?_⟩
          have ⟨investment, before, same⟩ := List.mem_map.mp member
          have old : Paired investment.item := held investment before
          rw [← same, attach_item_eq]
          change Paired ((lastNamed tempItems.items investment.item.itemName).getD investment.item)
          cases found : lastNamed tempItems.items investment.item.itemName with
          | none => exact old
          | some item => exact paired item (last_named_some found).1
  | _ => exact trivial

structure TabStored (foundation : Foundation Data) (defaults : UserDefaults Data) : Prop where
  settings : SettingsStored defaults
  paired : ∀ investment ∈ getSavedInvestments foundation defaults, Paired investment.item

theorem fresh_tab : TabStored foundation .fresh :=
  ⟨fresh_settings, fun _ absent => absurd absent List.not_mem_nil⟩

def pricesMessage (text : SwiftText) (platform : String) (item : DecodingItem) : String :=
  "\n".intercalate (pickerColours.map fun colour =>
    colour ++ " : " ++ shownPrice (item.getColourPrice text colour platform))

structure TabRight (foundation : Foundation Data) (s : AppState Data) : Prop where
  row : ∀ item ∈ s.filteredData, cellText s.platform item = .ok (item.itemName ++ " : " ++
    shownPrice (item.getColourPrice foundation.text "Default" s.platform))
  tap : ∀ i item, s.filteredData[i]? = some item → didSelectRowAt i s =
    .ok (item.itemName, pricesMessage foundation.text s.platform item)
  /-- "No Price" stands where the form refuses the item, and nowhere else. -/
  missing : ∀ item ∈ s.filteredData, ∀ colour ∈ pickerColours, ∀ form : AppState Data,
    form.selectedItem = some item → form.selectedColour = some colour →
    foundation.text.uppercased form.selectedPlatform = foundation.text.uppercased s.platform →
    (shownPrice (item.getColourPrice foundation.text colour s.platform) = "No Price" ↔
      acceptedInvestment foundation form = none)

theorem same_price_uppercased (text : SwiftText) (item : DecodingItem) (colour : String)
    {first second : String} (same : text.uppercased first = text.uppercased second) :
    item.getColourPrice text colour first = item.getColourPrice text colour second := by
  rw [← get_colour_price_uppercased text item colour first, same,
    get_colour_price_uppercased]

abbrev PairedRuns (foundation : Foundation Data) : AppState Data → Prop :=
  Reachable (app foundation) PairedPrices (Launched foundation (TabStored foundation))

theorem tab_right {s : AppState Data} (reachable : PairedRuns foundation s) :
    TabRight foundation s := by
  have fromControls : Reachable (app foundation) PairedPrices
      (Launched foundation SettingsStored) s := by
    apply reachable_mono (fun _ _ guarded => guarded) _ reachable
    intro start ⟨defaults, stored, same⟩
    exact ⟨defaults, stored.settings, same⟩
  have inForce := (reachable_listed fromControls).platform
  have held : Held (listedRules foundation) s := by
    apply reachable_held
    apply reachable_mono paired_admits _ reachable
    intro start ⟨defaults, stored, same⟩
    exact ⟨defaults, stored.paired, same⟩
  have two : ∀ item ∈ s.filteredData, ∀ colour,
      ∀ elements ∈ item.getColourPrice foundation.text colour s.platform, 2 ≤ elements.length := by
    intro item listed colour elements found
    have paired : Paired item := held.offered item listed
    exact get_colour_price_are paired found
  constructor
  · intro item listed
    have shown := create_price_shown (two item listed "Default")
    rw [cellText, listed_price_agrees foundation.text inForce, shown]
    rfl
  · intro i item there
    have listed := List.mem_of_getElem? there
    have message : createMessageForAlert s.platform item =
        .ok (pricesMessage foundation.text s.platform item) := by
      rw [createMessageForAlert, alert_prices_agree foundation.text inForce, alert_lines_shown]
      · simp only [List.map_map]
        rfl
      · exact List.forall_mem_map.mpr fun colour _ => two item listed colour
    simp only [didSelectRowAt, there, message]
    rfl
  · intro item listed colour _ form chosen painted same
    rw [shown_price_missing (two item listed colour)]
    have labelled : ¬ boughtForTextLabel = some "" := by decide
    have price := same_price_uppercased foundation.text item colour same
    simp only [acceptedInvestment, chosen, painted, if_neg labelled, price]
    cases item.getColourPrice foundation.text colour s.platform with
    | none => simp
    | some elements => simp

/-- The list screens, and what is written in the rows of the Prices table. -/
structure PricesTable (Data : Type) where
  lists : ListScreens Data
  texts : List String

/-- The steps in which the Prices table is reloaded, or loads for the first time. -/
def reloadsPrices (pricesRows : Option (List DecodingItem)) : Event → Bool
  | .itemsNotification => pricesRows.isSome
  | .tab .pricesWillAppear => pricesRows.isNone
  | .tab (.pricesSearch _) => true
  | .tab (.pricesPlatformChanged selectedSegmentIndex) => decide (selectedSegmentIndex < 4)
  | _ => false

def reloads (lists : ListScreens Data) : ScreenEvent → Bool
  | .app event => reloadsPrices lists.pricesRows event
  | _ => false

/-- `reloadData`: `cellForRowAt` draws each row. -/
def drawRows (lists : ListScreens Data) : Outcome Fault (PricesTable Data) :=
  match (lists.pricesRows.getD []).mapM (cellText lists.memory.platform) with
  | .ok texts => .running ⟨lists, texts⟩
  | .error fault => .stopped fault ⟨lists, []⟩

def tableStep (foundation : Foundation Data) (s : PricesTable Data) (event : ScreenEvent) :
    Outcome Fault (PricesTable Data) :=
  match screenStep foundation s.lists event with
  | .running lists =>
      if reloads s.lists event = true then drawRows lists else .running ⟨lists, s.texts⟩
  | .stopped fault lists => .stopped fault ⟨lists, s.texts⟩

def pricesTable (foundation : Foundation Data) : System (PricesTable Data) ScreenEvent Fault where
  step := tableStep foundation
  restart s := ⟨(screens foundation).restart s.lists, []⟩

def screenArrivesPaired : ScreenEvent → Bool
  | .app event => arrivesPaired event
  | _ => true

abbrev PairedTable (s : PricesTable Data) (event : ScreenEvent) : Prop :=
  screenPossible s.lists event = true ∧ screenArrivesPaired event = true

def TableLaunched (foundation : Foundation Data) (s : PricesTable Data) : Prop :=
  ∃ defaults, TabStored foundation defaults ∧ s = ⟨launched (launch foundation defaults), []⟩

section Drawn

theorem relaunch_reachable {s : AppState Data} (reached : PairedRuns foundation s) :
    PairedRuns foundation (launch foundation s.defaults) := by
  have guarded : PairedPrices s .relaunch := ⟨rfl, rfl⟩
  exact .step reached guarded rfl

/-- A step of the list screens leaves a memory that the app can reach. -/
theorem screen_step_reachable {s : PricesTable Data}
    (reached : PairedRuns foundation s.lists.memory)
    {event : ScreenEvent} (guarded : PairedTable s event) :
    (screenStep foundation s.lists event).Ends (fun lists => PairedRuns foundation lists.memory)
      fun _ lists => PairedRuns foundation (launch foundation lists.memory.defaults) := by
  cases event with
  | leavePrices => exact reached
  | pricesDidSelectRow row =>
      simp only [screenStep]
      split
      · exact relaunch_reachable reached
      · exact reached
  | app event =>
      have admitted : PairedPrices s.lists.memory event :=
        ⟨(Bool.and_eq_true_iff.mp guarded.1).1, guarded.2⟩
      cases ran : step foundation s.lists.memory event with
      | running memory =>
          simp only [screenStep, ran, ends_running]
          rw [after_step_memory]
          exact .step reached admitted ran
      | stopped fault memory =>
          simp only [screenStep, ran]
          exact .restart reached admitted ran

theorem reachable_projection {s : PricesTable Data}
    (reachable : Reachable (pricesTable foundation) PairedTable (TableLaunched foundation) s) :
    PairedRuns foundation s.lists.memory := by
  apply reachable_invariant (fun s : PricesTable Data => PairedRuns foundation s.lists.memory) _ _
    reachable
  · intro start ⟨defaults, stored, same⟩
    rw [same]
    exact .start ⟨defaults, stored, rfl⟩
  · intro state event _ reached guarded
    have ends := screen_step_reachable reached guarded
    simp only [pricesTable, tableStep]
    cases ran : screenStep foundation state.lists event with
    | running lists =>
        rw [ran] at ends
        simp only
        split
        · simp only [drawRows]
          split
          · exact ends
          · exact relaunch_reachable ends
        · exact ends
    | stopped fault lists =>
        rw [ran] at ends
        exact ends

def rowText (text : SwiftText) (platform : String) (item : DecodingItem) : String :=
  item.itemName ++ " : " ++ shownPrice (item.getColourPrice text "Default" platform)

/-- The rows of the table say what their items cost on the platform in force. -/
def Drawn (foundation : Foundation Data) (s : PricesTable Data) : Prop :=
  ∀ rows ∈ s.lists.pricesRows,
    s.texts = rows.map (rowText foundation.text s.lists.memory.platform)

theorem reloaded_rows {lists : ListScreens Data} {memory : AppState Data} {event : Event}
    (reloaded : reloadsPrices lists.pricesRows event = true) :
    (afterStep lists memory event).pricesRows = some memory.filteredData := by
  unfold reloadsPrices at reloaded
  split at reloaded
  · have ⟨rows, loaded⟩ := Option.isSome_iff_exists.mp reloaded
    simp only [afterStep, loaded, Option.map_some]
  · have unloaded := Option.isNone_iff_eq_none.mp reloaded
    simp only [afterStep, unloaded, Option.getD_none]
  · rfl
  · simp only [afterStep, if_pos (of_decide_eq_true reloaded)]
  · cases reloaded

theorem kept_rows {lists : ListScreens Data} {memory : AppState Data} {event : Event}
    (kept : reloadsPrices lists.pricesRows event = false) {rows : List DecodingItem}
    (there : rows ∈ (afterStep lists memory event).pricesRows) : rows ∈ lists.pricesRows := by
  unfold afterStep at there
  split at there
  · cases there
  · cases loaded : lists.pricesRows with
    | none =>
        rw [loaded] at there
        cases there
    | some _ =>
        rw [loaded] at kept
        cases kept
  · cases loaded : lists.pricesRows with
    | none =>
        rw [loaded] at kept
        cases kept
    | some _ =>
        rw [loaded] at there
        exact there
  · cases kept
  · rename_i inside
    split at there
    · rename_i inside
      have outside := of_decide_eq_false kept
      exact absurd inside outside
    · exact there
  all_goals exact there

/-- The platform in force changes only where the table is reloaded. -/
theorem kept_platform {s memory : AppState Data} (persisted : Persisted foundation s)
    {pricesRows : Option (List DecodingItem)} {event : Event}
    (kept : reloadsPrices pricesRows event = false)
    (ran : step foundation s event = .running memory) : memory.platform = s.platform := by
  by_cases elsewhere : isTab event = false
  · have same := step_keeps_settings persisted elsewhere
    rw [ran] at same
    exact (Prod.mk.inj same).1
  · cases event with
    | tab event =>
        have written := Outcome.running.inj ran
        cases event with
        | pricesWillAppear => rw [← written]; rfl
        | pricesSearch searchText => rw [← written]; rfl
        | pricesPlatformChanged i =>
            have outside := Nat.le_of_not_lt (of_decide_eq_false kept)
            rw [← written, tabStep, prices_changed_outside s outside]
        | xPlatformChanged tag i =>
            rw [← written]
            simp only [tabStep, xPlatformChanged]
            split <;> rfl
    | _ => exact absurd rfl elsewhere

theorem draw_rows_right {lists : ListScreens Data} (right : TabRight foundation lists.memory)
    (whole : lists.pricesRows = some lists.memory.filteredData) :
    drawRows lists = .running ⟨lists, lists.memory.filteredData.map
      (rowText foundation.text lists.memory.platform)⟩ := by
  have texts := map_m_ok right.row
  simp only [drawRows, whole, Option.getD_some, texts]
  rfl

theorem table_step_drawn {s : PricesTable Data} (reached : PairedRuns foundation s.lists.memory)
    (drawn : Drawn foundation s) {event : ScreenEvent} (guarded : PairedTable s event) :
    (tableStep foundation s event).Ends (Drawn foundation) fun fault _ =>
      ∃ lists, screenStep foundation s.lists event = .stopped fault lists := by
  have ends := screen_step_reachable reached guarded
  unfold tableStep
  cases ran : screenStep foundation s.lists event with
  | stopped fault lists => exact ⟨lists, rfl⟩
  | running lists =>
      rw [ran] at ends
      dsimp only
      cases event with
      | leavePrices =>
          rw [← Outcome.running.inj ran]
          exact drawn
      | pricesDidSelectRow row =>
          simp only [screenStep] at ran
          split at ran
          · cases ran
          · rw [← Outcome.running.inj ran]
            exact drawn
      | app event =>
          simp only [screenStep] at ran
          split at ran
          · rename_i memory moved
            obtain rfl := Outcome.running.inj ran
            have moves := after_step_memory s.lists memory event
            cases again : reloadsPrices s.lists.pricesRows event with
            | true =>
                have whole : (afterStep s.lists memory event).pricesRows =
                    some memory.filteredData := reloaded_rows again
                rw [reloads, again, if_pos rfl, draw_rows_right (tab_right ends)]
                · intro rows there
                  rw [whole, Option.mem_some_iff, ← moves] at there
                  rw [← there]
                · rw [whole, moves]
            | false =>
                rw [reloads, again, if_neg Bool.false_ne_true]
                intro rows there
                have platform := kept_platform (reachable_persisted reached) again moved
                rw [moves, platform]
                exact drawn rows (kept_rows again there)
          · cases ran

structure TableRight (foundation : Foundation Data) (s : PricesTable Data) : Prop where
  drawn : Drawn foundation s
  draws : ∀ event fault next, PairedTable s event →
    tableStep foundation s event = .stopped fault next →
      ∃ lists, screenStep foundation s.lists event = .stopped fault lists

theorem reachable_drawn {s : PricesTable Data}
    (reachable : Reachable (pricesTable foundation) PairedTable (TableLaunched foundation) s) :
    Drawn foundation s := by
  apply reachable_invariant (Drawn foundation) _ _ reachable
  · intro start ⟨defaults, _, same⟩ rows loaded
    rw [same] at loaded
    cases loaded
  · intro state event before drawn guarded
    have ends := table_step_drawn (reachable_projection before) drawn guarded
    apply ends_mono ends (fun _ after => after)
    intro _ next _ rows loaded
    cases loaded

end Drawn

/-- The list and the alert agree with `getColourPrice` in every run, and so do the rows that
are on screen, which are drawn again whenever the platform in force is changed. -/
theorem prices_tab_right (foundation : Foundation Data) :
    (∀ s, PairedRuns foundation s → TabRight foundation s) ∧
      ∀ s, Reachable (pricesTable foundation) PairedTable (TableLaunched foundation) s →
        TableRight foundation s := by
  apply And.intro fun s reachable => tab_right reachable
  intro s reachable
  have reached := reachable_projection reachable
  have drawn := reachable_drawn reachable
  constructor
  · exact drawn
  · intro event fault next guarded stops
    have ends := table_step_drawn reached drawn guarded
    rw [stops] at ends
    exact ends

/-- A catalogue arrives, the tab is opened and left, an item is searched for, and the platform
is changed. -/
def tabSession : List ScreenEvent :=
  [.app (.catalogueArrives (some ⟨[octane, dominus]⟩)), .app (.tab .pricesWillAppear),
    .leavePrices, .app (.tab .pricesWillAppear), .app (.tab (.pricesSearch "Dom")),
    .app (.tab (.pricesPlatformChanged 3))]

def tabShown (events : List ScreenEvent) :
    Option (PricesTable (List InvestmentItem ⊕ List InvestmentGroup)) :=
  runEvents (pricesTable plainFoundation) PairedTable
    ⟨launched (launch plainFoundation .fresh), []⟩ events

theorem prices_tab_right_session :
    ∃ s, tabShown tabSession = some s ∧ s.texts = ["Dominus : No Price"] ∧
      TabRight plainFoundation s.lists.memory ∧ TableRight plainFoundation s := by
  have drawn : (tabShown tabSession).map PricesTable.texts = some ["Dominus : No Price"] := by
    decide +kernel
  have ⟨s, runs, texts⟩ := Option.map_eq_some_iff.mp drawn
  have reached : Reachable (pricesTable plainFoundation) PairedTable
      (TableLaunched plainFoundation) s :=
    reachable_of_run_events _ _ (.start ⟨.fresh, fresh_tab, rfl⟩) runs
  have right := prices_tab_right plainFoundation
  exact ⟨s, runs, texts, right.1 _ (reachable_projection reached), right.2 s reached⟩

end RlInvestments.PricesTab
