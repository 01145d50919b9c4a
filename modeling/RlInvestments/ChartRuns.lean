import RlInvestments.PriceChart

/-!
# Charts that open

The colour and the platform of a stored record always come from the app's own lists,
through adding, editing, refreshes and relaunches. The url name comes from the catalogue,
so a chart opens for as long as every stored name is one that fits into an address.
-/

namespace RlInvestments.ChartRuns

open RlInvestments.CatalogueItems RlInvestments.GuardedRuns RlInvestments.InvestmentStore
open RlInvestments.OverviewRows RlInvestments.AppMemory RlInvestments.OverviewHandlers
open RlInvestments.FormSheet RlInvestments.AppRuns RlInvestments.HandlerRules
open RlInvestments.StoredDefaults RlInvestments.UriText RlInvestments.PriceChart

set_option autoImplicit false

variable {Data : Type} {foundation : Foundation Data} {named : String → Prop}

/-- The records, and everything that a record can get its colour and its platform from. -/
structure FromLists (named : String → Prop) (investments : List InvestmentItem)
    (selectedColour : Option String) (selectedPlatform platform : String) : Prop where
  records : ∀ record ∈ investments, Charted named record
  colour : ∀ colour, selectedColour = some colour → colour ∈ pickerColours
  selectedPlatform : selectedPlatform ∈ platformSpellings
  platform : platform ∈ platformSpellings

def Charting (named : String → Prop) (s : AppState Data) : Prop :=
  FromLists named s.investments s.selectedColour s.selectedPlatform s.platform

variable (foundation) in
def stored (s : AppState Data) : Event → List InvestmentItem
  | .addButton => (acceptedInvestment foundation s).toList
  | .catalogueArrives (some tempItems) => updateInvestments tempItems.items s.investments
  | _ => []

variable (foundation named) in
def Stores (s : AppState Data) (event : Event) : Prop :=
  ∀ record ∈ stored foundation s event, named record.item.itemUrlName

instance [DecidablePred named] (s : AppState Data) (event : Event) :
    Decidable (Stores foundation named s event) :=
  inferInstanceAs (Decidable (∀ record ∈ _, _))

theorem launch_charting {defaults : UserDefaults Data}
    (records : ∀ record ∈ getSavedInvestments foundation defaults, Charted named record)
    (platform : savedPlatform defaults ∈ platformSpellings) :
    Charting named (launch foundation defaults) :=
  ⟨records, nofun, platform, platform⟩

theorem from_lists_records {s : AppState Data} (charting : Charting named s)
    {investments : List InvestmentItem} (records : ∀ record ∈ investments, Charted named record) :
    FromLists named investments s.selectedColour s.selectedPlatform s.platform :=
  ⟨records, charting.colour, charting.selectedPlatform, charting.platform⟩

theorem charted_set {investments : List InvestmentItem} {record : InvestmentItem} (tag : Nat)
    (charted : ∀ record ∈ investments, Charted named record) (changed : Charted named record) :
    ∀ record' ∈ investments.set tag record, Charted named record' := by
  intro record' member
  rcases List.mem_or_eq_of_mem_set member with kept | rfl
  · exact charted record' kept
  · exact changed

theorem initialize_charting {s : AppState Data} (charting : Charting named s)
    (catalogue : Option DecodingItems)
    (stores : Stores foundation named s (.catalogueArrives catalogue)) :
    Charting named (initializeData foundation catalogue s) := by
  cases catalogue with
  | none => exact charting
  | some tempItems =>
      apply from_lists_records charting
      intro record member
      obtain ⟨old, oldMember, rfl⟩ := List.mem_map.mp member
      have before := charting.records old oldMember
      constructor
      · rw [attach_item_eq]
        exact before.colour
      · rw [attach_item_platform]
        exact before.platform
      · exact stores _ member

theorem reload_data_charting {s : AppState Data} (charting : Charting named s) :
    (reloadData foundation s).Ends (Charting named) fun _ => Charting named :=
  reload_data_ends s (fun _ _ => charting) fun _ _ => charting

theorem delete_confirmed_charting {s : AppState Data} (charting : Charting named s) :
    (deleteConfirmed foundation s).Ends (Charting named) fun _ => Charting named := by
  have removed : Charting named (afterRemoval foundation s) :=
    from_lists_records charting fun record member =>
      charting.records record (List.mem_of_mem_eraseIdx member)
  refine delete_confirmed_ends s (fun _ _ => charting) ?_ ?_
  · intro row _ _ _ _
    unfold deleteRows
    split
    · exact removed
    · exact removed
  · exact fun _ _ => reload_data_ends _ (fun _ _ => removed) fun _ _ => removed

theorem overview_step_charting {s : AppState Data} (charting : Charting named s)
    (event : OverviewEvent) :
    (overviewStep foundation s event).Ends (Charting named) fun _ => Charting named := by
  cases event with
  | searchBarTextDidChange searchText => exact reload_data_charting charting
  | addNewButton =>
      have filled : Charting named (newFields s) := by
        refine ⟨charting.records, ?_, charting.platform, charting.platform⟩
        intro colour selected
        obtain rfl := Option.some.inj selected
        decide
      exact add_new_button_ends s (fun _ => filled) filled
  | showTotal => exact show_total_ends s charting fun _ _ => charting
  | editButtonPressed tag =>
      apply edit_investment_ends _ _ charting
      intro investment there
      have charted := charting.records investment (List.mem_of_getElem? there)
      refine ⟨charting.records, ?_, charted.platform, charting.platform⟩
      intro colour selected
      obtain rfl := Option.some.inj selected
      exact charted.colour
  | deleteButtonPressed tag => exact charting
  | stepperValueChanged tag value =>
      apply amount_changed_ends _ _ charting
      intro investment there
      have charted := charting.records investment (List.mem_of_getElem? there)
      apply reload_data_charting
      apply from_lists_records charting
      exact charted_set tag charting.records ⟨charted.colour, charted.platform, charted.urlName⟩
  | groupButtonPressed tag => exact group_investment_ends _ (fun _ => charting) charting
  | rlInsiderChart tag => exact show_chart_ends _ (fun _ => charting) charting

theorem form_step_charting {s : AppState Data} (charting : Charting named s) (event : FormEvent) :
    (formStep foundation s event).Ends (Charting named) fun _ => Charting named := by
  cases event with
  | itemSelectionDidLoad => exact charting
  | itemSearch searchText => exact charting
  | didSelectItem row =>
      simp only [formStep, FormSheet.didSelectItem]
      split
      · exact charting
      · refine ⟨charting.records, ?_, charting.selectedPlatform, charting.platform⟩
        intro colour selected
        obtain rfl := Option.some.inj selected
        decide
  | colourPicked row =>
      simp only [formStep, FormSheet.colourPicked]
      split
      · exact charting
      · rename_i picked there
        refine ⟨charting.records, ?_, charting.selectedPlatform, charting.platform⟩
        intro colour selected
        obtain rfl := Option.some.inj selected
        exact List.mem_of_getElem? there
  | platformChanged selectedSegmentIndex =>
      have shows : ∀ platform ∈ platformSpellings,
          FromLists named s.investments s.selectedColour platform s.platform :=
        fun platform spelt => ⟨charting.records, charting.colour, spelt, charting.platform⟩
      simp only [formStep, formPlatformChanged]
      split
      · exact shows "PC" (by decide)
      · exact shows "PS4" (by decide)
      · exact shows "Switch" (by decide)
      · exact shows "Xbox" (by decide)
      · exact charting
  | textChanged priceString => exact charting
  | stepperValueChanged value => exact charting
  | selectionBack => exact charting

theorem tab_step_charting {s : AppState Data} (charting : Charting named s) (event : TabEvent) :
    Charting named (tabStep foundation s event) := by
  cases event with
  | pricesWillAppear => exact charting
  | pricesSearch searchText => exact charting
  | pricesPlatformChanged selectedSegmentIndex =>
      have shows : ∀ platform ∈ platformSpellings,
          FromLists named s.investments s.selectedColour s.selectedPlatform platform :=
        fun platform spelt => ⟨charting.records, charting.colour, charting.selectedPlatform, spelt⟩
      simp only [tabStep, AppMemory.pricesPlatformChanged]
      split
      · exact shows "PC" (by decide)
      · exact shows "PS4" (by decide)
      · exact shows "SWITCH" (by decide)
      · exact shows "XBOX" (by decide)
      · exact charting
  | xPlatformChanged tag selectedSegmentIndex =>
      simp only [tabStep, AppMemory.xPlatformChanged]
      split <;> exact charting

theorem accepted_charted {s : AppState Data} (charting : Charting named s)
    (stores : Stores foundation named s .addButton) {investment : InvestmentItem}
    (accepted : acceptedInvestment foundation s = some investment) : Charted named investment := by
  have ⟨_, coloured, _, _, platform, _⟩ := accepted_investment_spec accepted
  have name := stores investment (Option.mem_toList.mpr accepted)
  exact ⟨charting.colour _ coloured, platform ▸ charting.selectedPlatform, name⟩

theorem add_button_charting {s : AppState Data} (charting : Charting named s)
    (stores : Stores foundation named s .addButton) :
    (addButton foundation s).Ends (Charting named) fun _ => Charting named := by
  have dismisses : ∀ t : AppState Data, Charting named t →
      (storeAndDismiss foundation t).Ends (Charting named) fun _ => Charting named :=
    fun t after => store_and_dismiss_ends t (fun _ _ => after) fun _ _ => after
  apply add_button_ends s charting _ _ charting
  · intro investment accepted _
    apply dismisses
    apply from_lists_records charting
    rw [List.forall_mem_append, List.forall_mem_singleton]
    exact ⟨charting.records, accepted_charted charting stores accepted⟩
  · intro investment accepted _ _
    apply dismisses
    apply from_lists_records charting
    exact charted_set s.cellTag charting.records (accepted_charted charting stores accepted)

/-- The step lemma, for the memory left by any handler, finished or stopped. -/
theorem step_charting {s : AppState Data} (persisted : Persisted foundation s)
    (charting : Charting named s) {event : Event} (stores : Stores foundation named s event) :
    (step foundation s event).Ends (Charting named) fun _ => Charting named := by
  cases event with
  | relaunch =>
      apply launch_charting
      · rw [persisted.investments]
        exact charting.records
      · rw [persisted.platform]
        exact charting.platform
  | catalogueArrives catalogue => exact initialize_charting charting catalogue stores
  | itemsNotification =>
      exact items_notification_ends s (fun _ _ => charting) (fun _ _ => charting) fun _ => charting
  | delayedReload => exact reload_data_charting charting
  | traitCollectionDidChange => exact reload_data_charting charting
  | overviewDidLoad => exact view_did_load_ends s (fun _ _ => charting) fun _ _ => charting
  | overview event => exact overview_step_charting charting event
  | deleteConfirmed => exact delete_confirmed_charting charting
  | deleteCancelled => exact charting
  | form event => exact form_step_charting charting event
  | addButton => exact add_button_charting charting stores
  | cancelButton => exact charting
  | chartClosed => exact charting
  | tab event => exact tab_step_charting charting event

variable (foundation named) in
structure ChartedStored (defaults : UserDefaults Data) : Prop where
  records : ∀ record ∈ getSavedInvestments foundation defaults, Charted named record
  platform : savedPlatform defaults ∈ platformSpellings

theorem fresh_charted : ChartedStored foundation named .fresh :=
  ⟨fun _ member => absurd member List.not_mem_nil, List.mem_cons_self ..⟩

theorem reachable_charting {guard : AppState Data → Event → Prop} {s : AppState Data}
    (stores : ∀ s event, guard s event → Stores foundation named s event)
    (reachable : Reachable (app foundation) guard
      (Launched foundation (ChartedStored foundation named)) s) : Charting named s := by
  apply reachable_invariant (Charting named) _ _ reachable
  · rintro state ⟨defaults, stored, rfl⟩
    exact launch_charting stored.records stored.platform
  · intro state event before charting guarded
    have persisted := reachable_persisted before
    have after := ends_and (step_charting persisted charting (stores state event guarded))
      (step_persisted persisted event)
    refine ends_mono after (fun _ both => both.1) ?_
    rintro fault next ⟨charted, saved⟩
    apply launch_charting
    · rw [saved.investments]
      exact charted.records
    · rw [saved.platform]
      exact charted.platform

/-- The colour is found in the chart's list, the chart is shown, and its address has a `URL`. -/
structure Opens (foundation : Foundation Data) (web : WebFoundation) (s : AppState Data)
    (tag : Nat) : Prop where
  colour : ∃ record, s.investments[tag]? = some record ∧
    colours.idxOf record.colour < colours.length
  loads : ∃ shown urlString,
    step foundation s (.overview (.rlInsiderChart tag)) = .running shown ∧
      chartDidLoad foundation web shown = .ok urlString

variable {web : WebFoundation}

theorem charted_colour {record : InvestmentItem} (charted : Charted named record) :
    colours.idxOf record.colour < colours.length :=
  List.idxOf_lt_length_of_mem charted.colour

theorem opens_of_charted {s : AppState Data} {tag : Nat} {record : InvestmentItem}
    (there : s.investments[tag]? = some record) (charted : Charted AllowedUrlName record) :
    Opens foundation web s tag := by
  have shows : step foundation s (.overview (.rlInsiderChart tag)) =
      .running { s with cellTag := tag, presented := .chart } := by
    simp only [step, overviewStep, showRLInsiderChart, there]
  have loads : ∃ urlString,
      chartDidLoad foundation web { s with cellTag := tag, presented := .chart } = .ok urlString :=
    chart_loads there charted
  obtain ⟨urlString, loads⟩ := loads
  exact ⟨⟨record, there, charted_colour charted⟩, _, urlString, shows, loads⟩

/-- In every run, of any catalogue: the colour is found, and the chart of a record opens if its
url name is allowed, and traps if there is a character in it that no address may have. -/
theorem chart_opens_or_traps (foundation : Foundation Data) (web : WebFoundation)
    (s : AppState Data)
    (reachable : Reachable (app foundation) Possible
      (Launched foundation (ChartedStored foundation fun _ => True)) s)
    (tag : Nat) (record : InvestmentItem) (there : s.investments[tag]? = some record) :
    colours.idxOf record.colour < colours.length ∧
      (AllowedUrlName record.item.itemUrlName → Opens foundation web s tag) ∧
      ((∃ letter ∈ record.item.itemUrlName.toList, letter ≠ ' ' ∧ isUriChar letter = false) →
        chartDidLoad foundation web { s with cellTag := tag } = .error .unwrapNil) := by
  have charting := reachable_charting (fun _ _ _ _ _ => trivial) reachable
  have charted := charting.records record (List.mem_of_getElem? there)
  refine ⟨charted_colour charted, ?_, ?_⟩
  · exact fun allowed => opens_of_charted there ⟨charted.colour, charted.platform, allowed⟩
  · rintro ⟨letter, member, notSpace, forbidden⟩
    exact chart_traps there charted member notSpace forbidden

variable (foundation) in
def StoringAllowed (s : AppState Data) (event : Event) : Prop :=
  Possible s event ∧ Stores foundation AllowedUrlName s event

instance (s : AppState Data) (event : Event) : Decidable (StoringAllowed foundation s event) :=
  inferInstanceAs (Decidable (_ ∧ _))

/-- While the url names that are stored are allowed, every chart opens. -/
theorem chart_opens (foundation : Foundation Data) (web : WebFoundation) (s : AppState Data)
    (reachable : Reachable (app foundation) (StoringAllowed foundation)
      (Launched foundation (ChartedStored foundation AllowedUrlName)) s)
    (tag : Nat) (valid : tag < s.investments.length) : Opens foundation web s tag := by
  have charting := reachable_charting (fun _ _ guarded => guarded.2) reachable
  have there := List.getElem?_eq_getElem valid
  exact opens_of_charted there (charting.records _ (List.mem_of_getElem? there))

theorem chart_opens_first_session :
    ∃ s, runEvents (app plainFoundation) (StoringAllowed plainFoundation)
        (launch plainFoundation .fresh) firstSession = some s ∧
      s.investments.length = 1 ∧ Opens plainFoundation asciiWeb s 0 := by
  have added : (runEvents (app plainFoundation) (StoringAllowed plainFoundation)
      (launch plainFoundation .fresh) firstSession).map (fun s => s.investments.length) =
        some 1 := by decide +kernel
  obtain ⟨s, runs, one⟩ := Option.map_eq_some_iff.mp added
  refine ⟨s, runs, one, chart_opens plainFoundation asciiWeb s ?_ 0 (by omega)⟩
  exact reachable_of_fresh_run _ fresh_charted runs

def pinata : DecodingItem := { octane with itemName := "Piñata", itemUrlName := "Piñata" }

/-- The one item of the catalogue is added. -/
def pinataSession : List Event :=
  [.catalogueArrives (some ⟨[pinata]⟩), .overviewDidLoad, .itemsNotification] ++ addItem 0

/-- A letter beyond ASCII in a name of the catalogue is enough. -/
theorem pinata_chart_traps :
    ∃ s : AppState (List InvestmentItem ⊕ List InvestmentGroup),
      Reachable (app plainFoundation) Possible
        (Launched plainFoundation fun defaults => defaults = .fresh) s ∧
      0 < s.investments.length ∧
      ∀ web, chartDidLoad plainFoundation web { s with cellTag := 0 } = .error .unwrapNil ∧
        ¬ Opens plainFoundation web s 0 := by
  have added : (runEvents (app plainFoundation) Possible (launch plainFoundation .fresh)
      pinataSession).map (fun s => s.investments.map fun record => record.item.itemUrlName) =
        some ["Piñata"] := by decide +kernel
  obtain ⟨s, runs, names⟩ := Option.map_eq_some_iff.mp added
  obtain ⟨record, only, name⟩ := List.map_eq_singleton_iff.mp names
  have there : s.investments[0]? = some record := by
    rw [only]
    rfl
  have reachable : Reachable (app plainFoundation) Possible
      (Launched plainFoundation fun defaults => defaults = .fresh) s :=
    reachable_of_run_events _ _ (.start ⟨.fresh, rfl, rfl⟩) runs
  have traps : ∀ web, chartDidLoad plainFoundation web { s with cellTag := 0 } =
      .error .unwrapNil := by
    intro web
    have charted : Reachable (app plainFoundation) Possible
        (Launched plainFoundation (ChartedStored plainFoundation fun _ => True)) s :=
      reachable_of_fresh_run _ fresh_charted runs
    apply (chart_opens_or_traps plainFoundation web s charted 0 record there).2.2
    rw [name]
    exact ⟨'ñ', by decide, by decide, by decide⟩
  refine ⟨s, reachable, by rw [only]; exact Nat.one_pos, fun web => ⟨traps web, ?_⟩⟩
  rintro ⟨-, shown, urlString, runs, loads⟩
  simp only [step, overviewStep, showRLInsiderChart, there, Outcome.running.injEq] at runs
  have same : chartDidLoad plainFoundation web shown =
      chartDidLoad plainFoundation web { s with cellTag := 0 } := by
    rw [← runs]
    rfl
  rw [same, traps web] at loads
  cases loads

end RlInvestments.ChartRuns
