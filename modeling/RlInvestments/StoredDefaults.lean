import RlInvestments.HandlerRules

/-!
# The defaults hold what the memory holds

Every handler that changes the investments, the groups or a platform saves it before
it ends, and before anything that can stop the app, so that a relaunch reads back the
memory that was left.
-/

namespace RlInvestments.StoredDefaults

open RlInvestments.GuardedRuns RlInvestments.InvestmentStore RlInvestments.OverviewRows
open RlInvestments.AppMemory RlInvestments.OverviewHandlers RlInvestments.FormSheet
open RlInvestments.AppRuns RlInvestments.HandlerRules

set_option autoImplicit false

variable {Data : Type} {foundation : Foundation Data}

variable (foundation) in
structure ReadsBack (defaults : UserDefaults Data) (investments : List InvestmentItem)
    (groups : List InvestmentGroup) (platform : String) (xPlatData : String × String) : Prop where
  investments : getSavedInvestments foundation defaults = investments
  groups : getSavedGroups foundation defaults = groups
  platform : savedPlatform defaults = platform
  xPlatData : savedXPlatData defaults = xPlatData

variable (foundation) in
def Persisted (s : AppState Data) : Prop :=
  ReadsBack foundation s.defaults s.investments s.groups s.platform s.xPlatData

theorem launch_persisted (defaults : UserDefaults Data) :
    Persisted foundation (launch foundation defaults) := ⟨rfl, rfl, rfl, rfl⟩

/-- Saving repairs whatever was done to the investments before. -/
theorem save_investments_persisted {s : AppState Data} {before : List InvestmentItem}
    (persisted : ReadsBack foundation s.defaults before s.groups s.platform s.xPlatData) :
    Persisted foundation (saveInvestmentsData foundation s) where
  investments := by
    simp only [saveInvestmentsData, getSavedInvestments, foundation.investments_round_trip]
  groups := persisted.groups
  platform := persisted.platform
  xPlatData := persisted.xPlatData

theorem save_group_persisted {s : AppState Data} {before : List InvestmentGroup}
    (persisted : ReadsBack foundation s.defaults s.investments before s.platform s.xPlatData) :
    Persisted foundation (saveGroupData foundation s) where
  investments := persisted.investments
  groups := by simp only [saveGroupData, getSavedGroups, foundation.groups_round_trip]
  platform := persisted.platform
  xPlatData := persisted.xPlatData

theorem update_platform_persisted {s : AppState Data} {before : String}
    (persisted : ReadsBack foundation s.defaults s.investments s.groups before s.xPlatData) :
    Persisted foundation (updatePlatform s) :=
  ⟨persisted.investments, persisted.groups, rfl, persisted.xPlatData⟩

theorem update_x_platforms_persisted {s : AppState Data} {before : String × String}
    (persisted : ReadsBack foundation s.defaults s.investments s.groups s.platform before) :
    Persisted foundation (updateXPlatforms s) :=
  ⟨persisted.investments, persisted.groups, persisted.platform, rfl⟩

theorem initialize_persisted (catalogue : Option CatalogueItems.DecodingItems)
    {s : AppState Data} (persisted : Persisted foundation s) :
    Persisted foundation (initializeData foundation catalogue s) := by
  cases catalogue with
  | none => exact persisted
  | some tempItems => exact save_investments_persisted persisted

theorem reload_data_persisted {s : AppState Data} (persisted : Persisted foundation s) :
    (reloadData foundation s).Ends (Persisted foundation) (fun _ => Persisted foundation) :=
  reload_data_ends s (fun _ _ => persisted) fun _ _ => persisted

theorem tab_step_persisted {s : AppState Data} (persisted : Persisted foundation s)
    (event : TabEvent) : Persisted foundation (tabStep foundation s event) := by
  cases event with
  | pricesWillAppear => exact persisted
  | pricesSearch searchText => exact persisted
  | pricesPlatformChanged selectedSegmentIndex =>
      simp only [tabStep, AppMemory.pricesPlatformChanged]
      split
      iterate 4 exact update_platform_persisted persisted
      exact persisted
  | xPlatformChanged tag selectedSegmentIndex =>
      simp only [tabStep, AppMemory.xPlatformChanged]
      split
      iterate 4 exact update_x_platforms_persisted persisted
      exact persisted

theorem delete_confirmed_persisted {s : AppState Data} (persisted : Persisted foundation s) :
    (deleteConfirmed foundation s).Ends (Persisted foundation) (fun _ => Persisted foundation) := by
  have removed : Persisted foundation (afterRemoval foundation s) :=
    save_investments_persisted persisted
  refine delete_confirmed_ends s (fun _ _ => persisted) ?_ ?_
  · intro row _ _ _ _
    unfold deleteRows
    split
    · exact removed
    · exact removed
  · exact fun _ _ => reload_data_ends _ (fun _ _ => removed) fun _ _ => removed

theorem overview_step_persisted {s : AppState Data} (persisted : Persisted foundation s)
    (event : OverviewEvent) :
    (overviewStep foundation s event).Ends (Persisted foundation)
      (fun _ => Persisted foundation) := by
  cases event with
  | searchBarTextDidChange searchText => exact reload_data_persisted persisted
  | addNewButton => exact add_new_button_ends s (fun _ => persisted) persisted
  | showTotal => exact show_total_ends s persisted fun _ _ => persisted
  | editButtonPressed tag => exact edit_investment_ends _ (fun _ _ => persisted) persisted
  | deleteButtonPressed tag => exact persisted
  | stepperValueChanged tag value =>
      refine amount_changed_ends _ (fun investment _ => ?_) persisted
      exact reload_data_persisted (save_investments_persisted persisted)
  | groupButtonPressed tag =>
      exact group_investment_ends _ (fun _ => save_group_persisted persisted) persisted
  | rlInsiderChart tag => exact show_chart_ends _ (fun _ => persisted) persisted

theorem store_and_dismiss_persisted {s : AppState Data} {before : List InvestmentItem}
    (persisted : ReadsBack foundation s.defaults before s.groups s.platform s.xPlatData) :
    (storeAndDismiss foundation s).Ends (Persisted foundation) (fun _ => Persisted foundation) :=
  have saved := save_investments_persisted persisted
  store_and_dismiss_ends s (fun _ _ => saved) fun _ _ => saved

theorem step_persisted {s : AppState Data} (persisted : Persisted foundation s) (event : Event) :
    (step foundation s event).Ends (Persisted foundation) (fun _ => Persisted foundation) := by
  cases event with
  | relaunch => exact (ends_running _).mpr (launch_persisted s.defaults)
  | catalogueArrives catalogue => exact initialize_persisted catalogue persisted
  | itemsNotification =>
      exact items_notification_ends s (fun _ _ => persisted) (fun _ _ => persisted)
        fun _ => persisted
  | delayedReload => exact reload_data_persisted persisted
  | traitCollectionDidChange => exact reload_data_persisted persisted
  | overviewDidLoad => exact view_did_load_ends s (fun _ _ => persisted) fun _ _ => persisted
  | overview event => exact overview_step_persisted persisted event
  | deleteConfirmed => exact delete_confirmed_persisted persisted
  | deleteCancelled => exact persisted
  | form event =>
      exact form_step_ends s event (fun _ _ _ _ _ _ _ _ => persisted) persisted
  | addButton =>
      exact add_button_ends s persisted (fun _ _ _ => store_and_dismiss_persisted persisted)
        (fun _ _ _ _ => store_and_dismiss_persisted persisted) persisted
  | cancelButton => exact persisted
  | chartClosed => exact persisted
  | tab event => exact tab_step_persisted persisted event

theorem reachable_persisted {guard : AppState Data → Event → Prop}
    {stored : UserDefaults Data → Prop} {s : AppState Data}
    (reachable : Reachable (app foundation) guard (Launched foundation stored) s) :
    Persisted foundation s := by
  refine memory_invariant (Persisted foundation) ?_
    (fun s event persisted _ => step_persisted persisted event) ?_ reachable
  · rintro s ⟨defaults, -, rfl⟩
    exact launch_persisted defaults
  · intro s _
    exact launch_persisted s.defaults

/-- In every run, of whatever handlers in whatever order and from whatever defaults, the
defaults read back as the memory: at each launch, after each handler, and in the memory
that a stopped handler leaves behind. -/
theorem defaults_read_back (foundation : Foundation Data) (guard : AppState Data → Event → Prop)
    (s : AppState Data)
    (reachable : Reachable (app foundation) guard (Launched foundation fun _ => True) s) :
    Persisted foundation s ∧
      ∀ event, (step foundation s event).Ends (Persisted foundation)
        (fun _ => Persisted foundation) :=
  have persisted := reachable_persisted reachable
  ⟨persisted, step_persisted persisted⟩

theorem defaults_read_back_second_session :
    ∃ s, secondState = some s ∧ amounts s.investments = [(1, 100), (3, 290)] ∧
      Persisted plainFoundation s ∧
      ∀ event, (step plainFoundation s event).Ends (Persisted plainFoundation)
        (fun _ => Persisted plainFoundation) := by
  have added : secondState.map (fun s => amounts s.investments) =
      some [(1, 100), (3, 290)] := by decide +kernel
  have ⟨s, runs, paid⟩ := Option.map_eq_some_iff.mp added
  have reached : Reachable (app plainFoundation) Possible
      (Launched plainFoundation fun _ => True) s :=
    reachable_of_fresh_run _ trivial runs
  exact ⟨s, runs, paid, defaults_read_back plainFoundation Possible s reached⟩

end RlInvestments.StoredDefaults
