import RlInvestments.FormRuns
import RlInvestments.KeyedLedger
import RlInvestments.StoreIdentity

/-!
# The portfolio and its journal

What the store is for: the holding under each id. An event opens a holding, changes or
closes one, or values all of them anew; every other event leaves the portfolio alone,
whether its handler ends or stops the app. The store after a run is the replay of the
journal of its events over the store before it, across relaunches too.
-/

namespace RlInvestments.PortfolioJournal

open RlInvestments.GuardedRuns RlInvestments.CatalogueItems RlInvestments.InvestmentStore
open RlInvestments.OverviewRows RlInvestments.AppMemory RlInvestments.OverviewHandlers
open RlInvestments.FormSheet RlInvestments.AppRuns RlInvestments.HandlerRules
open RlInvestments.StoredDefaults RlInvestments.StoreIdentity RlInvestments.FormRuns
open RlInvestments.KeyedLedger

set_option autoImplicit false

variable {Data : Type} {foundation : Foundation Data}

abbrev Portfolio := Ledger Int InvestmentItem

def portfolio (investments : List InvestmentItem) : Portfolio :=
  ofList InvestmentItem.id investments

variable (foundation) in
/-- What an event does to the portfolio, read off the state before it. -/
def recorded (s : AppState Data) : Event → Entry Int InvestmentItem
  | .catalogueArrives (some tempItems) => .revalued (attachItem tempItems.items)
  | .overview (.stepperValueChanged tag value) =>
      match s.investments[tag]? with
      | none => .nothing
      | some investment => .changed investment.id fun holding => { holding with quantity := value }
  | .deleteConfirmed =>
      match s.investments[loweredTag s]? with
      | none => .nothing
      | some investment =>
          -- With nothing visible there is no row to take away, and the app stops first.
          if s.investmentFilteredData.isEmpty then .nothing else .closed investment.id
  | .addButton =>
      match acceptedInvestment foundation s with
      | none => .nothing
      | some investment =>
          if s.editingMode then .changed investment.id fun _ => investment
          else .opened investment.id investment
  | _ => .nothing

/-- The store lists the investments in the order in which they were made. -/
def Ascending (investments : List InvestmentItem) : Prop :=
  (investments.map InvestmentItem.id).Pairwise (· < ·)

structure Leads (entry : Entry Int InvestmentItem) (before after : List InvestmentItem) :
    Prop where
  portfolio : portfolio after = entry.apply (portfolio before)
  count : after.length + entry.closes = before.length + entry.opens
  ascends : Ascending before → Ascending after

theorem leads_nothing (investments : List InvestmentItem) :
    Leads .nothing investments investments := ⟨rfl, rfl, fun ascending => ascending⟩

theorem ascending_of_ids {before after : List InvestmentItem}
    (same : after.map InvestmentItem.id = before.map InvestmentItem.id)
    (ascending : Ascending before) : Ascending after := by
  rw [Ascending, same]
  exact ascending

theorem leads_opened {investments : List InvestmentItem} {investment : InvestmentItem}
    (fresh : ∀ other ∈ investments, other.id < investment.id) :
    Leads (.opened investment.id investment) investments (investments ++ [investment]) where
  portfolio := of_list_append fun other member => (fresh other member).ne
  count := List.length_append
  ascends ascending := by
    rw [Ascending, List.map_append, List.pairwise_append]
    refine ⟨ascending, List.pairwise_singleton _ _, ?_⟩
    intro id earlier last new
    have ⟨other, member, same⟩ := List.mem_map.mp earlier
    rw [← same, List.mem_singleton.mp new]
    exact fresh other member

theorem leads_changed {investments : List InvestmentItem} (distinct : DistinctIDs investments)
    {tag : Nat} {old : InvestmentItem} (there : investments[tag]? = some old)
    {update : InvestmentItem → InvestmentItem} (same : (update old).id = old.id) :
    Leads (.changed old.id update) investments (investments.set tag (update old)) where
  portfolio := of_list_set distinct there same
  count := List.length_set
  ascends ascending := by
    apply ascending_of_ids (set_ids _) ascending
    rw [there, Option.map_some, same]

theorem leads_closed {investments : List InvestmentItem} (distinct : DistinctIDs investments)
    {tag : Nat} {old : InvestmentItem} (there : investments[tag]? = some old) :
    Leads (.closed old.id) investments (investments.eraseIdx tag) where
  portfolio := of_list_erase distinct there
  count := by
    have inStore := (List.getElem?_eq_some_iff.mp there).1
    have shorter := List.length_eraseIdx_of_lt inStore
    have kept : (investments.eraseIdx tag).length + 1 = investments.length := by omega
    exact kept
  ascends ascending := by
    rw [Ascending, ← List.eraseIdx_map]
    exact ascending.sublist (List.eraseIdx_sublist _ _)

theorem leads_revalued (investments : List InvestmentItem) (items : List DecodingItem) :
    Leads (.revalued (attachItem items)) investments (updateInvestments items investments) where
  portfolio := of_list_map fun investment _ => attach_item_id items investment
  count := List.length_map _
  ascends := ascending_of_ids (update_investments_ids items investments)

abbrev Leaves (entry : Entry Int InvestmentItem) (before : List InvestmentItem)
    (outcome : Outcome Fault (AppState Data)) : Prop :=
  outcome.Ends (fun t => Leads entry before t.investments)
    fun _ t => Leads entry before t.investments

theorem reload_data_leaves {entry : Entry Int InvestmentItem} {before : List InvestmentItem}
    {s : AppState Data} (records : Leads entry before s.investments) :
    Leaves entry before (reloadData foundation s) :=
  reload_data_ends s (fun _ _ => records) fun _ _ => records

variable (foundation) in
theorem delete_nothing_visible {s : AppState Data} (empty : s.investmentFilteredData = []) :
    ∃ t, deleteConfirmed foundation s = .stopped .indexOutOfRange t ∧
      t.investments = s.investments := by
  unfold deleteConfirmed
  rw [lower_cell_tag_eq]
  simp only [filteredCellTag, empty, List.length_nil, Nat.not_lt_zero, if_false]
  exact ⟨_, rfl, rfl⟩

theorem delete_confirmed_leaves {s : AppState Data} (identified : Identified s) :
    Leaves (recorded foundation s .deleteConfirmed) s.investments
      (deleteConfirmed foundation s) := by
  by_cases empty : s.investmentFilteredData = []
  · have nothing : recorded foundation s .deleteConfirmed = .nothing := by
      simp only [recorded, empty, List.isEmpty_nil, if_true]
      split <;> rfl
    have ⟨t, stops, same⟩ := delete_nothing_visible foundation empty
    rw [stops, nothing]
    change Leads .nothing s.investments t.investments
    rw [same]
    exact leads_nothing s.investments
  · have visible : ¬ s.investmentFilteredData.isEmpty = true := by simpa using empty
    have removed : loweredTag s < s.investments.length →
        Leads (recorded foundation s .deleteConfirmed) s.investments
          (s.investments.eraseIdx (loweredTag s)) := by
      intro inStore
      have there := List.getElem?_eq_getElem inStore
      simp only [recorded, there, if_neg visible]
      exact leads_closed identified.distinct there
    apply delete_confirmed_ends s
    · intro blocked _
      have missing := List.getElem?_eq_none_iff.mpr (blocked.resolve_right empty)
      simp only [recorded, missing]
      exact leads_nothing s.investments
    · intro row _ _ inStore _
      unfold deleteRows
      split <;> exact removed inStore
    · intro inStore _
      apply reload_data_leaves
      exact removed inStore

theorem overview_step_leaves {s : AppState Data} (identified : Identified s)
    (event : OverviewEvent) :
    Leaves (recorded foundation s (.overview event)) s.investments
      (overviewStep foundation s event) := by
  have kept := leads_nothing s.investments
  cases event with
  | searchBarTextDidChange searchText => exact reload_data_leaves kept
  | addNewButton => exact add_new_button_ends s (fun _ => kept) kept
  | showTotal => exact show_total_ends s kept fun _ _ => kept
  | editButtonPressed tag => exact edit_investment_ends _ (fun _ _ => kept) kept
  | deleteButtonPressed tag => exact kept
  | stepperValueChanged tag value =>
      cases found : s.investments[tag]? with
      | none =>
          simp only [recorded, overviewStep, amountChangedInvestment, found]
          exact kept
      | some investment =>
          simp only [recorded, overviewStep, amountChangedInvestment, found]
          apply reload_data_leaves
          exact leads_changed identified.distinct found rfl
  | groupButtonPressed tag => exact group_investment_ends _ (fun _ => kept) kept
  | rlInsiderChart tag => exact show_chart_ends _ (fun _ => kept) kept

theorem store_and_dismiss_leaves {entry : Entry Int InvestmentItem}
    {before : List InvestmentItem} {s : AppState Data}
    (records : Leads entry before s.investments) :
    Leaves entry before (storeAndDismiss foundation s) :=
  store_and_dismiss_ends s (fun _ _ => records) fun _ _ => records

theorem add_button_leaves {s : AppState Data} (identified : Identified s)
    (form : s.presented = .form) :
    Leaves (recorded foundation s .addButton) s.investments (addButton foundation s) := by
  cases accepted : acceptedInvestment foundation s with
  | none =>
      rw [refused_button accepted]
      simp only [recorded, accepted]
      exact leads_nothing s.investments
  | some investment =>
      have selected := (accepted_investment_spec accepted).2.2.2.2.2.1
      by_cases editing : s.editingMode = true
      · have notAdding : ¬ s.editingMode = false := by simp [editing]
        have ⟨old, there, same⟩ := Option.map_eq_some_iff.mp (identified.editing form editing)
        have sameID : investment.id = old.id := selected.trans same.symm
        have inStore := (List.getElem?_eq_some_iff.mp there).1
        simp only [recorded, addButton, accepted, if_neg notAdding, if_pos editing, if_pos inStore]
        apply store_and_dismiss_leaves
        rw [sameID]
        exact leads_changed identified.distinct there sameID
      · have adding := Bool.eq_false_of_not_eq_true editing
        simp only [recorded, addButton, accepted, if_pos adding, if_neg editing]
        apply store_and_dismiss_leaves
        apply leads_opened
        rw [selected]
        exact identified.adding form adding

/-- The step lemma: what an event does to the store is its entry, and it is done before
anything can stop the app. -/
theorem step_leaves {s : AppState Data} (identified : Identified s)
    (persisted : Persisted foundation s) {event : Event} (admitted : Possible s event) :
    Leaves (recorded foundation s event) s.investments (step foundation s event) := by
  have kept := leads_nothing s.investments
  cases event with
  | relaunch =>
      have saved : getSavedInvestments foundation s.defaults = s.investments :=
        persisted.investments
      have again : Leads .nothing s.investments
          (getSavedInvestments foundation s.defaults) := by
        rw [saved]
        exact kept
      exact again
  | catalogueArrives catalogue =>
      cases catalogue with
      | none => exact kept
      | some tempItems => exact leads_revalued s.investments tempItems.items
  | itemsNotification =>
      exact items_notification_ends s (fun _ _ => kept) (fun _ _ => kept) fun _ => kept
  | delayedReload => exact reload_data_leaves kept
  | traitCollectionDidChange => exact reload_data_leaves kept
  | overviewDidLoad => exact view_did_load_ends s (fun _ _ => kept) fun _ _ => kept
  | overview event => exact overview_step_leaves identified event
  | deleteConfirmed => exact delete_confirmed_leaves identified
  | deleteCancelled => exact kept
  | form event => exact form_step_ends s event (fun _ _ _ _ _ _ _ _ => kept) kept
  | addButton => exact add_button_leaves identified (add_admitted admitted)
  | cancelButton => exact kept
  | chartClosed => exact kept
  | tab event => exact tab_step_ends s event fun _ _ _ _ _ _ _ => kept

theorem next_leads {s : AppState Data} (identified : Identified s)
    (persisted : Persisted foundation s) {event : Event} (admitted : Possible s event) :
    Leads (recorded foundation s event) s.investments
      ((app foundation).next s event).investments := by
  apply ends_next (app foundation) fun t : AppState Data =>
    Leads (recorded foundation s event) s.investments t.investments
  apply ends_mono
    (ends_and (step_leaves identified persisted admitted) (step_persisted persisted event))
  · exact fun _ after => after.1
  · intro _ t ⟨left, saved⟩
    have again : Leads (recorded foundation s event) s.investments
        (getSavedInvestments foundation t.defaults) := by
      rw [saved.investments]
      exact left
    exact again

theorem recorded_fits {s : AppState Data} (identified : Identified s) {event : Event}
    (admitted : Possible s event) :
    (recorded foundation s event).Fits (portfolio s.investments) := by
  have held : ∀ {tag : Nat} {investment : InvestmentItem},
      s.investments[tag]? = some investment →
      (portfolio s.investments investment.id).isSome = true := by
    intro tag investment there
    rw [portfolio, of_list_own identified.distinct (List.mem_of_getElem? there)]
    rfl
  unfold recorded
  split
  · trivial
  · split
    · trivial
    · rename_i investment there
      exact held there
  · split
    · trivial
    · rename_i investment there
      split
      · trivial
      · exact held there
  · split
    · trivial
    · rename_i investment accepted
      have form := add_admitted admitted
      have selected := (accepted_investment_spec accepted).2.2.2.2.2.1
      split
      · rename_i editing
        have ⟨old, there, same⟩ := Option.map_eq_some_iff.mp (identified.editing form editing)
        rw [selected, ← same]
        exact held there
      · rename_i notEditing
        apply of_list_none_iff.mpr
        intro other member
        rw [selected]
        exact (identified.adding form (Bool.eq_false_of_not_eq_true notEditing) other member).ne
  · trivial

def portfolioOf (s : AppState Data) : Portfolio := portfolio s.investments

def heldCount (s : AppState Data) : Nat := s.investments.length

theorem step_recorded {s : AppState Data} (identified : Identified s)
    (persisted : Persisted foundation s) {event : Event} (admitted : Possible s event) :
    Records (app foundation) (recorded foundation) portfolioOf heldCount
      s event := by
  have leads := next_leads identified persisted admitted
  exact ⟨recorded_fits identified admitted, leads.portfolio, leads.count⟩

/-- Stored investments in the order of their ids. -/
def AscendingStored (foundation : Foundation Data) (defaults : UserDefaults Data) : Prop :=
  Ascending (getSavedInvestments foundation defaults)

theorem fresh_ascending : AscendingStored foundation .fresh := List.Pairwise.nil

theorem reachable_ascending {guard : AppState Data → Event → Prop}
    (admits : ∀ s event, guard s event → Possible s event) {s : AppState Data}
    (reachable : Reachable (app foundation) guard
      (Launched foundation (AscendingStored foundation)) s) :
    Identified s ∧ Ascending s.investments := by
  have identified : ∀ {state : AppState Data}, Reachable (app foundation) guard
      (Launched foundation (AscendingStored foundation)) state → Identified state := by
    intro state before
    apply reachable_identified admits
    apply reachable_mono (fun _ _ same => same) _ before
    intro start ⟨defaults, ascending, same⟩
    exact ⟨defaults, ascending.imp ne_of_lt, same⟩
  constructor
  · exact identified reachable
  · apply next_invariant (fun s => Ascending s.investments) _ _ reachable
    · intro start ⟨defaults, ascending, same⟩
      rw [same]
      exact ascending
    · intro state event before ascending guarded
      have persisted := reachable_persisted before
      exact (next_leads (identified before) persisted (admits _ _ guarded)).ascends ascending

structure Journaled (foundation : Foundation Data) (s : AppState Data) (events : List Event)
    (t : AppState Data) : Prop where
  replays : Replays (app foundation) (recorded foundation) portfolioOf heldCount s events t
  ascending : Ascending t.investments
  saved : getSavedInvestments foundation t.defaults = t.investments

/-- The store after a run, in memory and in the defaults, is the replay of the run's journal
over the store before it, in the order in which the investments were made, wherever the app
was stopped or launched again on the way. -/
theorem store_is_replay (foundation : Foundation Data) (s t : AppState Data)
    (events : List Event)
    (reachable : Reachable (app foundation) Possible
      (Launched foundation (AscendingStored foundation)) s)
    (runs : runEvents (app foundation) Possible s events = some t) :
    Journaled foundation s events t := by
  have admits : ∀ (s : AppState Data) event, Possible s event → Possible s event :=
    fun _ _ admitted => admitted
  have later := reachable_of_run_events _ _ reachable runs
  constructor
  · apply run_replays _ reachable runs
    intro state event before admitted
    exact step_recorded (reachable_ascending admits before).1 (reachable_persisted before) admitted
  · exact (reachable_ascending admits later).2
  · exact (reachable_persisted later).investments

def journaledSession : List Event :=
  firstSession ++ addItem 1 ++
    [.overview (.stepperValueChanged 1 7), .relaunch, .overviewDidLoad,
      .catalogueArrives (some ⟨[octane, dominus]⟩), .itemsNotification,
      .overview (.deleteButtonPressed 0), .deleteConfirmed]

theorem store_is_replay_session :
    ∃ t, runEvents (app plainFoundation) Possible (launch plainFoundation .fresh)
        journaledSession = some t ∧
      t.investments.map InvestmentItem.quantity = [7] ∧
      Journaled plainFoundation (launch plainFoundation .fresh) journaledSession t := by
  have deleted : (runEvents (app plainFoundation) Possible (launch plainFoundation .fresh)
      journaledSession).map (fun t => t.investments.map InvestmentItem.quantity) =
        some [7] := by decide +kernel
  have ⟨t, runs, seven⟩ := Option.map_eq_some_iff.mp deleted
  have reachable : Reachable (app plainFoundation) Possible
      (Launched plainFoundation (AscendingStored plainFoundation))
        (launch plainFoundation .fresh) := .start ⟨.fresh, fresh_ascending, rfl⟩
  exact ⟨t, runs, seven, store_is_replay plainFoundation _ t journaledSession reachable runs⟩

end RlInvestments.PortfolioJournal
