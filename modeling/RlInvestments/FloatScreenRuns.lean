import RlInvestments.FloatRates
import RlInvestments.RateRuns

/-!
# The cross-platform screen in `Float`

The runs of the screen with the numbers that the app computes with. As long as no catalogue
has a price of less than one credit, each of them is a run over the rationals that the
percentages are, so that what is known of every run over an ordered type holds of the screen
in single precision: a table that is shown is in order, none of its rows stops the app, and
their figures are those of the exact percentages but for the roundings.
-/

namespace RlInvestments.FloatScreenRuns

open RlInvestments.BinaryFormats RlInvestments.GuardedRuns RlInvestments.CatalogueItems
open RlInvestments.InvestmentStore RlInvestments.AppMemory RlInvestments.AppRuns
open RlInvestments.OverviewRows (Fault checked)
open RlInvestments.HandlerRules RlInvestments.WhileLoops RlInvestments.CrossPlatformSort
open RlInvestments.CrossPlatformList (RateArithmetic XPlat XPlatMain xPlatEntry builtItems
  sortItems rowText)
open RlInvestments.ShownRates RlInvestments.FloatRates RlInvestments.RateRuns

set_option autoImplicit false

def PricedRange (range : List Int) : Prop := PublishableRange range ∧ ¬ ZeroRange range

instance (range : List Int) : Decidable (PricedRange range) :=
  inferInstanceAs (Decidable (_ ∧ _))

def AllPriced (items : List DecodingItem) : Prop :=
  ∀ item ∈ items, PricesAre PricedRange item.itemPriceRange

instance (items : List DecodingItem) : Decidable (AllPriced items) :=
  inferInstanceAs (Decidable (∀ _ ∈ _, PricesAre _ _))

theorem no_items_priced : AllPriced [] := fun _ absent => absurd absent List.not_mem_nil

section Entries

variable {text : SwiftText} {xPlatData : String × String} {items : List DecodingItem}
  {place : DecodingItem × String}

theorem ranges_priced (priced : AllPriced items) (member : place ∈ places items)
    {ranges : List Int × List Int} (both : bothRanges text xPlatData place = some ranges) :
    PricedRange ranges.1 ∧ PricedRange ranges.2 := by
  have ⟨item, held, inColours⟩ := List.mem_flatMap.mp member
  have ⟨colour, _, same⟩ := List.mem_map.mp inColours
  have prices := priced item held
  rw [← same] at both
  unfold bothRanges at both
  split at both
  · rename_i range1 range2 found1 found2
    rw [← Option.some.inj both]
    exact ⟨get_colour_price_are prices found1, get_colour_price_are prices found2⟩
  · cases both

def roundedArithmetic : RateArithmetic ℚ where
  add := floatArithmetic.add
  rate := floatRate

theorem rounded_entry (priced : AllPriced items) (member : place ∈ places items)
    {ranges : List Int × List Int} (both : bothRanges text xPlatData place = some ranges) :
    ∃ entry, xPlatEntry roundedArithmetic place.1 place.2 ranges.1 ranges.2 = .ok entry ∧
      xPlatEntry floatArithmetic place.1 place.2 ranges.1 ranges.2 =
        .ok (convertEntry .finite entry) ∧
      Priced (convertEntry .finite entry) := by
  have ⟨range1, range2⟩ := ranges
  have ⟨⟨publishable1, positive⟩, publishable2, _⟩ := ranges_priced priced member both
  obtain ⟨lower1, upper1, rfl, nonneg1, ordered1, bounded1⟩ := publishable_range_pair publishable1
  obtain ⟨lower2, upper2, rfl, nonneg2, ordered2, bounded2⟩ := publishable_range_pair publishable2
  have inBounds := publishable_priced place.1 place.2 publishable1 positive publishable2
  have percentage :=
    percentage_eq inBounds.positive inBounds.bounded1 inBounds.nonneg inBounds.bounded2
  have price1 : CrossPlatformList.platformPrice roundedArithmetic [lower1, upper1] =
      .ok (lower1 + upper1 / 2) := (platform_price_publishable nonneg1 ordered1 bounded1).1
  have price2 : CrossPlatformList.platformPrice roundedArithmetic [lower2, upper2] =
      .ok (lower2 + upper2 / 2) := (platform_price_publishable nonneg2 ordered2 bounded2).1
  refine ⟨{
    itemName := place.1.itemName
    itemColour := place.2
    percentageIncrease := floatRate (lower1 + upper1 / 2) (lower2 + upper2 / 2)
    platform1Price := [lower1, upper1]
    platform2Price := [lower2, upper2] }, ?_, ?_, ?_⟩
  · rw [xPlatEntry, price1, price2]
    rfl
  · rw [x_plat_entry_publishable place.1 place.2 publishable1 publishable2]
    exact congrArg _ (congrArg (fun rate => XPlat.mk _ _ rate _ _) percentage)
  · exact { inBounds with computed := percentage.symm }

theorem float_entry (priced : AllPriced items) (member : place ∈ places items) {entry : XPlat ℚ}
    (made : EntryOf roundedArithmetic text xPlatData place entry) :
    EntryOf floatArithmetic text xPlatData place (convertEntry .finite entry) ∧
      Priced (convertEntry .finite entry) := by
  have ⟨range1, range2, both, computed⟩ := made
  have ⟨_, rounded, float, pricedEntry⟩ := rounded_entry priced member both
  cases Except.ok.inj (computed.symm.trans rounded)
  exact ⟨⟨range1, range2, both, float⟩, pricedEntry⟩

theorem float_entries (priced : AllPriced items) {rounded : List (XPlat ℚ)}
    (made : List.Forall₂ (EntryOf roundedArithmetic text xPlatData)
      (pricedPlaces text xPlatData items) rounded) :
    List.Forall₂ (EntryOf floatArithmetic text xPlatData) (pricedPlaces text xPlatData items)
      (rounded.map (convertEntry .finite)) :=
  made_image made fun _ listed _ entryMade =>
    (float_entry priced (List.mem_filter.mp listed).1 entryMade).1

variable (text xPlatData) in
theorem built_rounded (priced : AllPriced items) :
    ∃ rounded, builtItems roundedArithmetic text xPlatData items = .ok rounded ∧
      builtItems floatArithmetic text xPlatData items =
        .ok (rounded.map (convertEntry .finite)) := by
  have ⟨rounded, built⟩ : ∃ rounded,
      builtItems roundedArithmetic text xPlatData items = .ok rounded := by
    apply built_items_total
    intro place member ranges both
    have ⟨entry, made, _⟩ := rounded_entry priced member both
    exact ⟨entry, made⟩
  exact ⟨rounded, built, built_items_of_entries (float_entries priced (built_items_ok built))⟩

end Entries

/-- What the row of a rational percentage is drawn as. -/
def roundedRow (entry : XPlat ℚ) : Except Fault String := cellForRowAt (convertEntry .finite entry)

theorem rounded_rows (entries : List (XPlat ℚ)) :
    (entries.map (convertEntry .finite)).mapM cellForRowAt = entries.mapM roundedRow := by
  induction entries with
  | nil => rfl
  | cons entry entries induction =>
      rw [List.map_cons, List.mapM_cons, List.mapM_cons, induction]
      rfl

variable {Data : Type} {foundation : Foundation Data}

def inFloat (s : RateScreen Data ℚ) : RateScreen Data FloatValue where
  memory := s.memory
  haveLoaded := s.haveLoaded
  viewLoaded := s.viewLoaded
  xPlatItems := s.xPlatItems.map (convertEntry .finite)
  pendingSorts := s.pendingSorts
  pendingPlatforms := s.pendingPlatforms
  title := s.title
  tableHidden := s.tableHidden
  rows := s.rows.map (convertEntry .finite)
  texts := s.texts
  settingsOpen := s.settingsOpen
  sheetPressed := s.sheetPressed
  built := s.built

variable (foundation) in
theorem reload_in_float {s : RateScreen Data ℚ} (priced : AllPriced s.memory.items) :
    reload floatArithmetic foundation (inFloat s) =
      (reload roundedArithmetic foundation s).map inFloat := by
  have ⟨rounded, built, floatBuilt⟩ :=
    built_rounded foundation.text s.memory.xPlatData priced
  have float : CrossPlatformList.reload floatArithmetic foundation.text (listOf (inFloat s)) =
      .running { listOf (inFloat s) with
        xPlatItems := rounded.map (convertEntry .finite)
        pendingSorts := s.pendingSorts + 1 } := by
    rw [CrossPlatformList.reload]
    simp only [listOf, inFloat, floatBuilt]
  have exactly : CrossPlatformList.reload roundedArithmetic foundation.text (listOf s) =
      .running { listOf s with
        xPlatItems := rounded
        pendingSorts := s.pendingSorts + 1 } := by
    rw [CrossPlatformList.reload]
    simp only [listOf, built]
  rw [reload, reload, float, exactly]
  rfl

variable (foundation) in
theorem reload_posted_in_float {s : RateScreen Data ℚ} (priced : AllPriced s.memory.items) :
    reloadPosted floatArithmetic foundation (inFloat s) =
      (reloadPosted roundedArithmetic foundation s).map inFloat := by
  have same := reload_in_float foundation priced
  cases loaded : s.viewLoaded with
  | false =>
      have floatLoaded : (inFloat s).viewLoaded = false := loaded
      rw [reloadPosted, reloadPosted, loaded, floatLoaded]
      rfl
  | true =>
      have floatLoaded : (inFloat s).viewLoaded = true := loaded
      rw [reloadPosted, reloadPosted, loaded, floatLoaded]
      exact same

theorem view_will_appear_in_float {s : RateScreen Data ℚ} (priced : AllPriced s.memory.items) :
    viewWillAppear floatArithmetic foundation (inFloat s) =
      (viewWillAppear roundedArithmetic foundation s).map inFloat := by
  have same : ∀ t : RateScreen Data ℚ, t.memory = s.memory →
      (if t.haveLoaded then reload floatArithmetic foundation (inFloat t)
        else .running (inFloat t)) =
      (if t.haveLoaded then reload roundedArithmetic foundation t else .running t).map inFloat := by
    intro t memory
    rw [← memory] at priced
    cases t.haveLoaded with
    | false => rfl
    | true => exact reload_in_float foundation priced
  cases loaded : s.viewLoaded with
  | false =>
      have floatLoaded : (inFloat s).viewLoaded = false := loaded
      rw [viewWillAppear, viewWillAppear, loaded, floatLoaded]
      exact same { viewDidLoad s with tableHidden := true } rfl
  | true =>
      have floatLoaded : (inFloat s).viewLoaded = true := loaded
      rw [viewWillAppear, viewWillAppear, loaded, floatLoaded]
      exact same { s with tableHidden := true } rfl

theorem reload_table_in_float (s : RateScreen Data ℚ) :
    reloadTableView cellForRowAt (inFloat s) = (reloadTableView roundedRow s).map inFloat := by
  have drawn : (inFloat s).xPlatItems.mapM cellForRowAt = s.xPlatItems.mapM roundedRow :=
    rounded_rows s.xPlatItems
  simp only [reloadTableView, drawn]
  cases s.xPlatItems.mapM roundedRow with
  | error fault => rfl
  | ok texts => rfl

theorem sort_block_in_float (s : RateScreen Data ℚ) :
    sortBlock cellForRowAt (inFloat s) = (sortBlock roundedRow s).map inFloat := by
  have sorts := sort_items_convert finite_le_iff (s.xPlatItems.length + 1) s.xPlatItems
  have counted : (s.xPlatItems.map (convertEntry FloatValue.finite)).length = s.xPlatItems.length :=
    List.length_map _
  unfold sortBlock CrossPlatformList.runSort
  simp only [listOf, inFloat, counted, sorts]
  cases sortItems (s.xPlatItems.length + 1) s.xPlatItems with
  | error stop => rfl
  | ok sorted =>
      exact reload_table_in_float { s with
        xPlatItems := sorted, pendingSorts := s.pendingSorts - 1 }

def arrivesPriced : ScreenEvent → Bool
  | .app (.catalogueArrives (some tempItems)) => decide (AllPriced tempItems.items)
  | _ => true

structure ReadsPriced (s : RateScreen Data ℚ) : Prop where
  items : AllPriced s.memory.items
  read : ∀ read ∈ s.built, AllPriced read.1

variable (foundation) in
theorem step_items_priced {s : AppState Data} {event : Event} (priced : AllPriced s.items)
    (arrives : arrivesPriced (.app event) = true) :
    (step foundation s event).Ends (fun t => AllPriced t.items) fun _ _ => True := by
  cases writes : writesGlobals event with
  | false =>
      apply ends_mono (step_keeps_globals writes) _ fun _ _ _ => trivial
      intro t same
      have items : t.items = s.items := (Prod.mk.inj same).1
      rw [items]
      exact priced
  | true =>
      cases event with
      | relaunch => exact no_items_priced
      | catalogueArrives catalogue =>
          cases catalogue with
          | none => exact no_items_priced
          | some tempItems =>
              have arrived : AllPriced tempItems.items := of_decide_eq_true arrives
              exact arrived
      | itemsNotification =>
          exact items_notification_ends s (fun _ _ => priced) (fun _ _ => trivial) fun _ => priced
      | tab event => exact tab_step_ends s event fun _ _ _ _ _ _ _ => priced
      | _ => cases writes

theorem app_step_in_float {s : RateScreen Data ℚ} {event : Event}
    (priced : AllPriced s.memory.items) (arrives : arrivesPriced (.app event) = true) :
    screenStep floatArithmetic foundation cellForRowAt (inFloat s) (.app event) =
      (screenStep roundedArithmetic foundation roundedRow s (.app event)).map inFloat := by
  have items := step_items_priced foundation priced arrives
  have memory : (inFloat s).memory = s.memory := rfl
  rw [screenStep, screenStep, memory]
  cases ran : step foundation s.memory event with
  | stopped fault after => rfl
  | running after =>
      rw [ran] at items
      cases event with
      | itemsNotification =>
          have posted := reload_posted_in_float foundation (s := { s with memory := after }) items
          change (reloadPosted floatArithmetic foundation
            (inFloat { s with memory := after })).andThen _ =
              Outcome.map inFloat ((reloadPosted roundedArithmetic foundation
                { s with memory := after }).andThen _)
          rw [posted]
          cases reloadPosted roundedArithmetic foundation { s with memory := after } with
          | running next => rfl
          | stopped fault next => rfl
      | tab event => cases event with | _ => rfl
      | _ => rfl

/-- The step lemma: a step in `Float` is one over the rationals. -/
theorem screen_step_in_float {s : RateScreen Data ℚ} {event : ScreenEvent}
    (priced : AllPriced s.memory.items) (arrives : arrivesPriced event = true) :
    screenStep floatArithmetic foundation cellForRowAt (inFloat s) event =
      (screenStep roundedArithmetic foundation roundedRow s event).map inFloat := by
  cases event with
  | app event => exact app_step_in_float priced arrives
  | viewWillAppear => exact view_will_appear_in_float priced
  | sortBlock => exact sort_block_in_float s
  | platformsBlock =>
      exact reload_posted_in_float foundation
        (s := { s with pendingPlatforms := s.pendingPlatforms - 1 }) priced
  | settingsButton => rfl
  | doneButton => rfl
  | settingsSwiped => rfl
  | didSelectRow row =>
      simp only [screenStep, inFloat, List.getElem?_map]
      cases s.xPlatItems[row]? with
      | none => rfl
      | some entry => rfl

theorem reload_reads_priced {s : RateScreen Data ℚ} (priced : ReadsPriced s) :
    (reload roundedArithmetic foundation s).Ends ReadsPriced fun _ _ => True := by
  apply ends_mono (reload_reads s) _ fun _ _ _ => trivial
  intro t ⟨_, _, same⟩
  rw [same]
  constructor
  · exact priced.items
  · intro read isRead
    cases isRead
    exact priced.items

theorem reload_posted_priced {s : RateScreen Data ℚ} (priced : ReadsPriced s) :
    (reloadPosted roundedArithmetic foundation s).Ends ReadsPriced fun _ _ => True := by
  unfold reloadPosted
  split
  · exact reload_reads_priced priced
  · exact priced

theorem screen_step_priced {s : RateScreen Data ℚ} {event : ScreenEvent} (priced : ReadsPriced s)
    (arrives : arrivesPriced event = true) :
    (screenStep roundedArithmetic foundation roundedRow s event).Ends ReadsPriced
      fun _ _ => True := by
  cases event with
  | app event =>
      apply app_step_ends
      apply ends_mono (step_items_priced foundation priced.items arrives) _ fun _ _ _ => trivial
      intro memory items
      have kept : ReadsPriced { s with memory } := ⟨items, priced.read⟩
      cases event with
      | relaunch => exact ⟨items, fun _ isRead => nomatch isRead⟩
      | itemsNotification =>
          apply ends_and_then_running
          apply ends_mono (reload_posted_priced kept) _ fun _ _ _ => trivial
          intro t after
          exact ⟨after.items, after.read⟩
      | tab event => cases event with | _ => exact ⟨items, priced.read⟩
      | _ => exact kept
  | viewWillAppear =>
      have ⟨title, same⟩ := view_will_appear_eq roundedArithmetic foundation s
      have kept : ReadsPriced { s with viewLoaded := true, title, tableHidden := true } :=
        ⟨priced.items, priced.read⟩
      change (viewWillAppear roundedArithmetic foundation s).Ends _ _
      rw [same]
      split
      · exact reload_reads_priced kept
      · exact kept
  | sortBlock =>
      change (sortBlock roundedRow s).Ends _ _
      unfold sortBlock
      split
      · trivial
      · exact reload_table_view_ends fun _ _ => ⟨priced.items, priced.read⟩
  | platformsBlock =>
      have kept : ReadsPriced { s with pendingPlatforms := s.pendingPlatforms - 1 } :=
        ⟨priced.items, priced.read⟩
      exact reload_posted_priced kept
  | settingsButton => exact ⟨priced.items, priced.read⟩
  | doneButton => exact ⟨priced.items, priced.read⟩
  | settingsSwiped => exact ⟨priced.items, priced.read⟩
  | didSelectRow row =>
      simp only [screenStep]
      split
      · trivial
      · exact priced

/-- A table that is shown. Each row can be drawn and tapped. -/
structure RowsRight (foundation : Foundation Data) (s : RateScreen Data FloatValue) : Prop where
  drawn : s.rows.mapM cellForRowAt = .ok s.texts
  near : ∀ entry ∈ s.rows, ShownNear entry
  ordered : s.rows.Pairwise StandsAbove
  tapped : ∀ (row : Nat) entry, s.rows[row]? = some entry →
    screenStep floatArithmetic foundation cellForRowAt s (.didSelectRow row) = .running s ∧
      tappedAlert s row = some (entry.itemName, alertMessage s.memory.xPlatData entry)

structure RowsCurrent (text : SwiftText) (s : RateScreen Data FloatValue) : Prop where
  visible : s.tableHidden = false
  title : s.title = titleText s.memory.xPlatData
  complete : ∃ entries, s.rows.Perm entries ∧
    List.Forall₂ (EntryOf floatArithmetic text s.memory.xPlatData)
      (pricedPlaces text s.memory.xPlatData s.memory.items) entries
  prices : ∀ entry ∈ s.rows, ∃ item ∈ s.memory.items, item.itemName = entry.itemName ∧
    item.getColourPrice text entry.itemColour s.memory.xPlatData.1 = some entry.platform1Price ∧
    item.getColourPrice text entry.itemColour s.memory.xPlatData.2 = some entry.platform2Price

abbrev PricedRuns {Percentage : Type} (s : RateScreen Data Percentage) (event : ScreenEvent) :
    Prop :=
  Kept s event ∧ arrivesPriced event = true

theorem kept_of_in_float {s : RateScreen Data ℚ} {event : ScreenEvent}
    (kept : PricedRuns (inFloat s) event) : PricedRuns s event := by
  have ⟨⟨screen, current⟩, arrives⟩ := kept
  refine ⟨⟨?_, ?_⟩, arrives⟩
  · cases event with
    | app event =>
        cases event with
        | tab event =>
            cases event with
            | _ => exact screen
        | _ => exact screen
    | didSelectRow row =>
        have counted : (s.rows.map (convertEntry FloatValue.finite)).length = s.rows.length :=
          List.length_map _
        simp only [screenPossible, inFloat, counted] at screen
        exact screen
    | _ => exact screen
  · cases event with
    | app event => exact current
    | _ => exact current

theorem reachable_priced {s : RateScreen Data ℚ}
    (reachable : Reachable (rateScreen roundedArithmetic foundation roundedRow) PricedRuns
      (Started foundation) s) : ReadsPriced s := by
  have empty : ∀ memory : AppState Data, memory.items = [] →
      ReadsPriced (launched memory : RateScreen Data ℚ) := by
    intro memory none
    refine ⟨?_, fun _ isRead => nomatch isRead⟩
    change AllPriced memory.items
    rw [none]
    exact no_items_priced
  apply reachable_invariant ReadsPriced _ _ reachable
  · intro start ⟨defaults, same⟩
    rw [same]
    exact empty _ rfl
  · intro before event _ priced guarded
    exact ends_mono (screen_step_priced priced guarded.2) (fun _ after => after)
      fun _ _ _ => empty _ rfl

/-- Every run in `Float` is one over the rationals. -/
theorem reachable_in_float {s : RateScreen Data FloatValue}
    (reachable : Reachable (rateScreen floatArithmetic foundation cellForRowAt) PricedRuns
      (Started foundation) s) :
    ∃ rounded : RateScreen Data ℚ,
      Reachable (rateScreen roundedArithmetic foundation roundedRow) PricedRuns
        (Started foundation) rounded ∧ s = inFloat rounded := by
  apply reachable_image inFloat _ _ _ _ reachable
  · intro start ⟨defaults, same⟩
    exact ⟨launched (launch foundation defaults), ⟨defaults, rfl⟩, same⟩
  · exact fun _ _ kept => kept_of_in_float kept
  · intro before event reached guarded
    exact screen_step_in_float (reachable_priced reached).items guarded.2
  · exact fun _ => rfl

section Screen

variable {rounded : RateScreen Data ℚ}

theorem items_in_float_priced (sound : Sound roundedArithmetic foundation.text roundedRow rounded)
    (priced : ReadsPriced rounded) (listed : rounded.built ≠ none) :
    ∀ entry ∈ rounded.xPlatItems, Priced (convertEntry .finite entry) := by
  intro entry present
  cases built : rounded.built with
  | none => exact absurd built listed
  | some read =>
      have ⟨entries, made, perm⟩ := sound.entries read built
      have ⟨place, inPlaces, entryMade⟩ := place_of_entry made (perm.mem_iff.mp present)
      exact (float_entry (priced.read read built) (List.mem_filter.mp inPlaces).1 entryMade).2

theorem sort_block_runs (sound : Sound roundedArithmetic foundation.text roundedRow rounded)
    (priced : ReadsPriced rounded) (posted : 0 < rounded.pendingSorts) :
    ∃ t, sortBlock roundedRow rounded = .running t := by
  have listed : rounded.built ≠ none := by
    intro none
    have ⟨empty, _⟩ := sound.unbuilt none
    omega
  have entriesPriced := items_in_float_priced sound priced listed
  have sorts := run_sort_ends (listOf rounded)
  unfold sortBlock
  cases ran : CrossPlatformList.runSort (listOf rounded) with
  | stopped stop after =>
      rw [ran] at sorts
      exact sorts.elim
  | running after =>
      rw [ran] at sorts
      have ⟨perm, _⟩ := sorts
      have draws : RaisesOnly (fun _ => False) (after.xPlatItems.mapM roundedRow) := by
        apply raises_only_map_m
        intro entry present
        have shown := priced_shown (entriesPriced entry (perm.mem_iff.mp present))
        rw [roundedRow, shown.text]
        trivial
      simp only [reloadTableView]
      cases drawn : after.xPlatItems.mapM roundedRow with
      | error fault =>
          rw [drawn] at draws
          exact draws.elim
      | ok texts => exact ⟨_, rfl⟩

theorem rows_right (sound : Sound roundedArithmetic foundation.text roundedRow rounded)
    (priced : ReadsPriced rounded) (visible : rounded.tableHidden = false) :
    RowsRight foundation (inFloat rounded) := by
  have listed : rounded.built ≠ none := by
    intro none
    have ⟨_, hidden⟩ := sound.unbuilt none
    exact absurd (visible.symm.trans hidden) Bool.false_ne_true
  have entriesPriced := items_in_float_priced sound priced listed
  have ⟨same, descending, drawn⟩ := sound.shown visible
  have rows : (inFloat rounded).rows = rounded.xPlatItems.map (convertEntry .finite) := by
    rw [← same]
    rfl
  constructor
  · rw [rows, rounded_rows]
    exact drawn
  · rw [rows]
    intro entry present
    have ⟨original, held, isEntry⟩ := List.mem_map.mp present
    rw [← isEntry]
    exact priced_shown (entriesPriced original held)
  · rw [rows, List.pairwise_map]
    apply List.Pairwise.imp_of_mem _ descending
    intro first second firstHeld secondHeld ordered
    exact priced_above (entriesPriced first firstHeld) (entriesPriced second secondHeld) ordered
  · intro row entry there
    rw [rows] at there
    have found : (inFloat rounded).xPlatItems[row]? = some entry := there
    constructor
    · simp only [screenStep, found]
    · rw [tappedAlert, found]
      rfl

theorem rows_current (priced : ReadsPriced rounded)
    (current : ShowsCurrent roundedArithmetic foundation.text rounded) :
    RowsCurrent foundation.text (inFloat rounded) := by
  constructor
  · exact current.visible
  · exact current.title
  · have ⟨entries, perm, made⟩ := current.complete
    exact ⟨entries.map (convertEntry .finite), perm.map _, float_entries priced.items made⟩
  · intro entry present
    have ⟨original, held, isEntry⟩ := List.mem_map.mp present
    rw [← isEntry]
    exact current.prices original held

end Screen

/-- In whatever order things happen: no row stops a block that sorts and shows the table; a table
that is shown is in order, each of its rows is drawn with the exact percentage but for the
roundings, and a tap opens it; and once nothing waits, the rows are those of the platforms and
the catalogue in force. -/
theorem float_screen_right (foundation : Foundation Data) (s : RateScreen Data FloatValue)
    (reachable : Reachable (rateScreen floatArithmetic foundation cellForRowAt) PricedRuns
      (Started foundation) s) :
    (0 < s.pendingSorts → ∃ t, sortBlock cellForRowAt s = .running t) ∧
      (s.tableHidden = false → RowsRight foundation s) ∧
      (Settled s → RowsCurrent foundation.text s) := by
  have ⟨rounded, reached, same⟩ := reachable_in_float reachable
  have sound := reachable_sound (reachable_mono (fun _ _ guarded => guarded.1)
    (fun _ started => started) reached)
  have priced := reachable_priced reached
  rw [same]
  constructor
  · intro posted
    have ⟨t, runs⟩ := sort_block_runs sound priced posted
    rw [sort_block_in_float, runs]
    exact ⟨inFloat t, rfl⟩
  · constructor
    · exact rows_right sound priced
    · intro settled
      have original : Settled rounded := ⟨settled.viewLoaded, settled.haveLoaded, settled.items,
        settled.sorts, settled.platforms, settled.settings⟩
      exact rows_current priced (sound_current sound original)

def thirdItems : List DecodingItem :=
  [ConversionRates.tradedItem "Octane" [200, 200] [67, 67],
    ConversionRates.tradedItem "Dominus" [100, 100] [180, 180]]

def floatSession : List ScreenEvent :=
  [.app (.catalogueArrives (some ⟨thirdItems⟩)), .viewWillAppear, .app .itemsNotification,
    .sortBlock, .didSelectRow 1]

def floatScreen :
    Option (RateScreen (List InvestmentItem ⊕ List InvestmentGroup) FloatValue) :=
  runEvents (rateScreen floatArithmetic plainFoundation cellForRowAt) PricedRuns
    (launched (launch plainFoundation .fresh)) floatSession

theorem float_screen_right_session :
    ∃ s, floatScreen = some s ∧ s.texts = ["Default Dominus: 180%", "Default Octane: 33%"] ∧
      RowsRight plainFoundation s ∧ RowsCurrent plainFoundation.text s := by
  have computed : floatScreen.map (fun s => (s.texts,
      [s.viewLoaded, s.haveLoaded, s.settingsOpen],
      [s.memory.pendingItems, s.pendingSorts, s.pendingPlatforms])) =
        some (["Default Dominus: 180%", "Default Octane: 33%"],
          [true, true, false], [0, 0, 0]) := by decide +kernel
  have ⟨s, runs, shown⟩ := Option.map_eq_some_iff.mp computed
  simp only [Prod.mk.injEq, List.cons.injEq, and_true] at shown
  have ⟨rows, ⟨viewLoaded, haveLoaded, settings⟩, items, sorts, platforms⟩ := shown
  have settled : Settled s := ⟨viewLoaded, haveLoaded, items, sorts, platforms, settings⟩
  have reachable : Reachable (rateScreen floatArithmetic plainFoundation cellForRowAt) PricedRuns
      (Started plainFoundation) s := reachable_of_run_events _ _ (.start ⟨.fresh, rfl⟩) runs
  have ⟨_, right, current⟩ := float_screen_right plainFoundation s reachable
  have rowsCurrent := current settled
  exact ⟨s, runs, rows, right rowsCurrent.visible, rowsCurrent⟩

end RlInvestments.FloatScreenRuns
