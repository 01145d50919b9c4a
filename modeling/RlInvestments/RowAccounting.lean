import RlInvestments.StoreIdentity

/-!
# The rows of the table and the rows that are counted

The cells on screen show a sublist of the store, and unless a save has just made the
whole store visible they show exactly the visible list. Whether deleting a row keeps
the table's count right is decided by these two facts and the number of cells.
-/

namespace RlInvestments.RowAccounting

open RlInvestments.GuardedRuns RlInvestments.LastMatchScan RlInvestments.CatalogueItems
open RlInvestments.InvestmentStore RlInvestments.OverviewRows RlInvestments.AppMemory
open RlInvestments.OverviewHandlers RlInvestments.FormSheet RlInvestments.AppRuns
open RlInvestments.HandlerRules RlInvestments.StoreIdentity

set_option autoImplicit false

variable {Data : Type} {foundation : Foundation Data}

def storeIDs (investments : List InvestmentItem) : List Int :=
  investments.map InvestmentItem.id

def cellIDs (cells : List ItemCell) : List Int := cells.map fun cell => cell.record.id

structure RowsOf (investments visible : List InvestmentItem) (cells : List ItemCell)
    (presented : Presented) : Prop where
  known : (cellIDs cells).Sublist (storeIDs investments)
  inStep : cellIDs cells = storeIDs visible ∨ visible = investments
  alert : presented = .deleteAlert → investments ≠ [] → visible ≠ []

def RowsFollow (s : AppState Data) : Prop :=
  RowsOf s.investments s.investmentFilteredData s.cells s.presented

theorem built_cell_ids {text : SwiftText} {investments visible : List InvestmentItem}
    {cells : List ItemCell} (built : buildCells text investments visible = .ok cells) :
    cellIDs cells = storeIDs visible := by
  rw [storeIDs, ← build_cells_records built, List.map_map]
  rfl

theorem built_rows {text : SwiftText} {investments visible : List InvestmentItem}
    {cells : List ItemCell} {presented : Presented} (sublist : visible.Sublist investments)
    (alert : presented = .deleteAlert → investments ≠ [] → visible ≠ [])
    (built : buildCells text investments visible = .ok cells) :
    RowsOf investments visible cells presented where
  known := by
    rw [built_cell_ids built]
    exact sublist.map _
  inStep := .inl (built_cell_ids built)
  alert := alert

/-- A save makes the whole store visible; the cells may stay as they are. -/
theorem saved_rows {investments changed visible : List InvestmentItem} {cells : List ItemCell}
    {presented : Presented} (rows : RowsOf investments visible cells presented)
    (same : storeIDs changed = storeIDs investments) (presented' : Presented) :
    RowsOf changed changed cells presented' where
  known := same ▸ rows.known
  inStep := .inr rfl
  alert := fun _ nonempty => nonempty

theorem rows_not_alert {investments visible : List InvestmentItem} {cells : List ItemCell}
    {presented presented' : Presented} (rows : RowsOf investments visible cells presented)
    (closed : presented' ≠ .deleteAlert) : RowsOf investments visible cells presented' :=
  ⟨rows.known, rows.inStep, fun alert => absurd alert closed⟩

theorem launch_rows (defaults : UserDefaults Data) : RowsFollow (launch foundation defaults) :=
  ⟨List.nil_sublist _, .inl rfl, fun alert => nomatch alert⟩

/-- With as many cells as investments the visible list is the store itself. -/
theorem visible_is_store {s : AppState Data} (identified : Identified s) (rows : RowsFollow s)
    (same : s.cells.length = s.investments.length) :
    s.investmentFilteredData = s.investments ∧ cellIDs s.cells = storeIDs s.investments := by
  have cells : cellIDs s.cells = storeIDs s.investments :=
    rows.known.eq_of_length (by simpa [cellIDs, storeIDs] using same)
  refine ⟨?_, cells⟩
  rcases rows.inStep with shown | saved
  · refine identified.visible.eq_of_length ?_
    have lengths := congrArg List.length (shown.symm.trans cells)
    simpa [storeIDs] using lengths
  · exact saved

theorem deleted_row_is_tag {s : AppState Data} (identified : Identified s)
    (whole : s.investmentFilteredData = s.investments)
    (inStore : loweredTag s < s.investments.length) : deletedRow s = .ok (loweredTag s) := by
  obtain ⟨selected, there⟩ : ∃ selected, s.investments[loweredTag s]? = some selected :=
    ⟨_, List.getElem?_eq_getElem inStore⟩
  have found := last_position_of_key InvestmentItem.id identified.distinct there
  unfold deletedRow filteredCellTag
  dsimp only
  rw [whole]
  cases store : s.investments with
  | nil =>
      rw [store] at inStore
      exact absurd inStore (Nat.not_lt_zero _)
  | cons head tail =>
      rw [store] at there found
      simp only [there, found, Option.getD_some]

theorem store_ids_erase (investments : List InvestmentItem) (i : Nat) :
    storeIDs (investments.eraseIdx i) = (storeIDs investments).eraseIdx i :=
  (List.eraseIdx_map InvestmentItem.id investments i).symm

theorem cell_ids_erase (cells : List ItemCell) (i : Nat) :
    cellIDs (cells.eraseIdx i) = (cellIDs cells).eraseIdx i :=
  (List.eraseIdx_map (fun cell : ItemCell => cell.record.id) cells i).symm

theorem after_removal_length (s : AppState Data)
    (inStore : loweredTag s < s.investments.length) :
    (afterRemoval foundation s).investmentFilteredData.length + 1 = s.investments.length := by
  change (s.investments.eraseIdx (loweredTag s)).length + 1 = _
  rw [List.length_eraseIdx_of_lt inStore]
  omega

/-- The table accepts the deletion of a row exactly when it shows the whole store. -/
theorem delete_rows_rule {s : AppState Data} {post : AppState Data → Prop}
    {fallback : Fault → AppState Data → Prop} (identified : Identified s) (rows : RowsFollow s)
    {row : Nat} (found : deletedRow s = .ok row) (inStore : loweredTag s < s.investments.length)
    (accepted : s.cells.length = s.investments.length → row = loweredTag s →
      post { afterRemoval foundation s with cells := s.cells.eraseIdx (loweredTag s) })
    (refused : s.cells.length ≠ s.investments.length →
      fallback .rowAccounting (afterRemoval foundation s)) :
    (deleteRows row (afterRemoval foundation s)).Ends post fallback := by
  have counts : s.cells = (afterRemoval foundation s).cells := rfl
  by_cases same : s.cells.length = s.investments.length
  · obtain ⟨whole, -⟩ := visible_is_store identified rows same
    obtain rfl := Except.ok.inj ((deleted_row_is_tag identified whole inStore).symm.trans found)
    rw [deleteRows, if_pos]
    · exact accepted same rfl
    · rw [← counts, same, after_removal_length s inStore]
      exact ⟨inStore, rfl⟩
  · rw [deleteRows, if_neg]
    · exact refused same
    · rw [← counts, after_removal_length s inStore]
      exact fun accepts => same accepts.2.symm

theorem reload_data_rows {s : AppState Data} (sublist : s.investmentFilteredData.Sublist
      s.investments)
    (alert : s.presented = .deleteAlert → s.investments ≠ [] → s.investmentFilteredData ≠ []) :
    (reloadData foundation s).Ends RowsFollow fun _ _ => True :=
  reload_data_ends s (fun _ built => built_rows sublist alert built) fun _ _ => trivial

theorem delete_confirmed_rows {s : AppState Data} (identified : Identified s)
    (rows : RowsFollow s) :
    (deleteConfirmed foundation s).Ends RowsFollow fun _ _ => True := by
  refine delete_confirmed_ends s (fun _ _ => trivial) ?_ ?_
  · intro row found _ inStore _
    refine delete_rows_rule identified rows found inStore (fun same _ => ?_) fun _ => trivial
    obtain ⟨-, cells⟩ := visible_is_store identified rows same
    refine ⟨?_, .inr rfl, fun alert => nomatch alert⟩
    change (cellIDs (s.cells.eraseIdx (loweredTag s))).Sublist
      (storeIDs (s.investments.eraseIdx (loweredTag s)))
    rw [cell_ids_erase, store_ids_erase, cells]
  · exact fun _ _ => reload_data_rows (List.Sublist.refl _) fun _ nonempty => nonempty

theorem overview_step_rows {s : AppState Data} (rows : RowsFollow s)
    (free : s.presented = .nothing) {event : OverviewEvent}
    (pressed : fromScreen s (.overview event) = true) :
    (overviewStep foundation s event).Ends RowsFollow fun _ _ => True := by
  have noAlert : s.presented ≠ .deleteAlert := by simp [free]
  cases event with
  | searchBarTextDidChange searchText =>
      exact reload_data_rows (search_investments_sublist _ _ _) fun alert => absurd alert noAlert
  | addNewButton =>
      exact add_new_button_ends s (fun _ => rows_not_alert rows nofun) trivial
  | showTotal => exact show_total_ends s rows fun _ _ => trivial
  | editButtonPressed tag =>
      exact edit_investment_ends _ (fun _ _ => rows_not_alert rows nofun) trivial
  | deleteButtonPressed tag =>
      refine ⟨rows.known, rows.inStep, fun _ nonempty => ?_⟩
      rcases rows.inStep with shown | saved
      · -- The pressed cell shows one of the visible records.
        obtain ⟨cell, member, -⟩ := List.any_eq_true.mp pressed
        have listed : cell.record.id ∈ storeIDs s.investmentFilteredData :=
          shown ▸ List.mem_map_of_mem member
        intro empty
        rw [show s.investmentFilteredData = [] from empty] at listed
        exact nomatch listed
      · exact saved ▸ nonempty
  | stepperValueChanged tag value =>
      refine amount_changed_ends _ (fun investment _ => ?_) trivial
      exact reload_data_rows (search_investments_sublist _ _ _) fun alert => absurd alert noAlert
  | groupButtonPressed tag => exact group_investment_ends _ (fun _ => rows) trivial
  | rlInsiderChart tag =>
      exact show_chart_ends _ (fun _ => rows_not_alert rows nofun) trivial

theorem store_and_dismiss_rows {s : AppState Data} :
    (storeAndDismiss foundation s).Ends RowsFollow fun _ _ => True :=
  store_and_dismiss_ends s
    (fun _ built => built_rows (List.Sublist.refl _) (fun alert => nomatch alert) built)
    fun _ _ => trivial

theorem step_rows {s : AppState Data} (identified : Identified s) (rows : RowsFollow s)
    {event : Event} (admitted : Possible s event) (pressed : fromScreen s event = true) :
    (step foundation s event).Ends RowsFollow fun _ _ => True := by
  cases event with
  | relaunch => exact (ends_running _).mpr (launch_rows s.defaults)
  | catalogueArrives catalogue =>
      cases catalogue with
      | none => exact rows
      | some tempItems =>
          exact saved_rows rows (update_investments_ids tempItems.items s.investments) _
  | itemsNotification =>
      exact items_notification_ends s
        (fun _ built => built_rows (List.Sublist.refl _) (fun _ nonempty => nonempty) built)
        (fun _ _ => trivial) fun _ => rows
  | delayedReload => exact reload_data_rows identified.visible rows.alert
  | traitCollectionDidChange => exact reload_data_rows identified.visible rows.alert
  | overviewDidLoad =>
      exact view_did_load_ends s (fun _ built => built_rows identified.visible rows.alert built)
        fun _ _ => trivial
  | overview event =>
      exact overview_step_rows rows (overview_admitted admitted).2 pressed
  | deleteConfirmed => exact delete_confirmed_rows identified rows
  | deleteCancelled => exact rows_not_alert rows nofun
  | form event => exact form_step_ends s event (fun _ _ _ _ _ _ _ _ => rows) trivial
  | addButton =>
      exact add_button_ends s rows (fun _ _ _ => store_and_dismiss_rows)
        (fun _ _ _ _ => store_and_dismiss_rows) trivial
  | cancelButton => exact rows_not_alert rows nofun
  | chartClosed => exact rows_not_alert rows nofun
  | tab event => exact tab_step_ends s event fun _ _ _ _ _ _ _ => rows

abbrev OnScreen (s : AppState Data) (event : Event) : Prop :=
  Possible s event ∧ fromScreen s event = true

theorem reachable_rows {guard : AppState Data → Event → Prop} {s : AppState Data}
    (admits : ∀ s event, guard s event → OnScreen s event)
    (reachable : Reachable (app foundation) guard
      (Launched foundation (DistinctStored foundation)) s) : RowsFollow s := by
  refine reachable_invariant RowsFollow ?_ ?_ reachable
  · rintro s ⟨defaults, -, rfl⟩
    exact launch_rows defaults
  · intro s event before rows guarded
    obtain ⟨admitted, pressed⟩ := admits s event guarded
    have identified := reachable_identified (fun s event ok => (admits s event ok).1) before
    exact ends_mono (step_rows identified rows admitted pressed) (fun _ after => after)
      fun _ next _ => launch_rows next.defaults

theorem reload_counts {s : AppState Data} {post : AppState Data → Prop}
    (posts : ∀ cells, post { s with cells := cells }) :
    (reloadData foundation s).Ends post fun fault _ => fault ≠ .rowAccounting := by
  have rows : RaisesOnly (fun fault => fault ≠ Fault.rowAccounting)
      (buildCells foundation.text s.investments s.investmentFilteredData) := by
    refine build_cells_raises foundation.text _ _ (fun record _ => ?_)
      fun _ _ => .inl (by decide)
    exact row_figures_raises foundation.text record
      (fun i _ => unwrap_element_raises (by decide) (by decide) _ i) (.inr (by decide))
      fun _ _ _ _ => .inr (by decide)
  exact reload_data_ends s (fun cells _ => posts cells) (raises_only_iff.mp rows)

/-- The exception of the table view is avoided exactly when no row is deleted, because
the tag is out of range or the table is reloaded, or when the table has as many rows as
there are investments. -/
theorem delete_rows_accounting (foundation : Foundation Data) (s : AppState Data)
    (reachable : Reachable (app foundation) OnScreen
      (Launched foundation (DistinctStored foundation)) s)
    (admitted : Possible s .deleteConfirmed) :
    (step foundation s .deleteConfirmed).fault? ≠ some .rowAccounting ↔
      s.investments.length ≤ loweredTag s ∨ ReloadsTable s ∨
        s.cells.length = s.investments.length := by
  have rows := reachable_rows (fun _ _ onScreen => onScreen) reachable
  have identified := reachable_identified (fun _ _ onScreen => onScreen.1) reachable
  constructor
  · intro accounted
    by_contra otherwise
    rw [not_or, not_or, Nat.not_le] at otherwise
    obtain ⟨inStore, deletes, different⟩ := otherwise
    have stops : (step foundation s .deleteConfirmed).Ends (fun _ => False)
        fun fault _ => fault = .rowAccounting := by
      refine delete_confirmed_ends s (fun blocked _ => ?_) ?_ ?_
      · rcases blocked with gone | empty
        · omega
        · have nonempty : s.investments ≠ [] := List.ne_nil_of_length_pos (by omega)
          exact absurd empty (rows.alert (delete_admitted admitted) nonempty)
      · intro row found _ _ _
        exact delete_rows_rule identified rows found inStore
          (fun same _ => absurd same different) fun _ => rfl
      · exact fun _ reloads => absurd reloads deletes
    cases outcome : step foundation s .deleteConfirmed with
    | running t =>
        rw [outcome] at stops
        exact stops
    | stopped fault t =>
        rw [outcome] at stops accounted
        exact accounted (congrArg some stops)
  · intro condition faults
    have accounted : (step foundation s .deleteConfirmed).Ends (fun _ => True)
        fun fault _ => fault ≠ .rowAccounting := by
      refine delete_confirmed_ends s (fun _ _ => by decide) ?_ ?_
      · intro row found _ inStore deletes
        refine delete_rows_rule identified rows found inStore (fun _ _ => trivial) ?_
        rcases condition with gone | reloads | same
        · exact absurd inStore (Nat.not_lt.mpr gone)
        · exact absurd reloads deletes
        · exact fun different => absurd same different
      · exact fun _ _ => reload_counts fun _ => trivial
    obtain ⟨_, impossible⟩ := ends_fault accounted faults
    exact impossible rfl

/-- Of two Octanes and a Dominus, a search for the Octanes lists two rows. -/
def searchedSession : List Event :=
  firstSession ++ addItem 0 ++ addItem 1 ++
    [.overview (.searchBarTextDidChange "Octane"), .overview (.deleteButtonPressed 0)]

def searchedState : Option (AppState (List InvestmentItem ⊕ List InvestmentGroup)) :=
  runEvents (app plainFoundation) OnScreen (launch plainFoundation .fresh) searchedSession

theorem delete_rows_accounting_searched :
    ∃ s, searchedState = some s ∧
      ((step plainFoundation s .deleteConfirmed).fault? ≠ some .rowAccounting ↔
        s.investments.length ≤ loweredTag s ∨ ReloadsTable s ∨
          s.cells.length = s.investments.length) := by
  have asked : searchedState.map (fun s => possible s .deleteConfirmed) = some true := by
    decide +kernel
  obtain ⟨s, runs, admitted⟩ := Option.map_eq_some_iff.mp asked
  refine ⟨s, runs, delete_rows_accounting plainFoundation s ?_ admitted⟩
  exact reachable_of_fresh_run _ fresh_distinct runs

/-- Deleting one of the two rows leaves two investments, and the table two rows. -/
theorem searched_delete_breaks_accounting :
    ¬ ∀ s, Reachable (app plainFoundation) OnScreen
        (Launched plainFoundation (DistinctStored plainFoundation)) s →
      Possible s .deleteConfirmed →
      (step plainFoundation s .deleteConfirmed).fault? ≠ some .rowAccounting := by
  intro accounted
  have breaks : searchedState.map (fun s =>
      (possible s .deleteConfirmed, (step plainFoundation s .deleteConfirmed).fault?)) =
        some (true, some .rowAccounting) := by decide +kernel
  obtain ⟨s, runs, result⟩ := Option.map_eq_some_iff.mp breaks
  obtain ⟨admitted, faults⟩ := Prod.mk.inj result
  refine accounted s ?_ admitted faults
  exact reachable_of_fresh_run _ fresh_distinct runs

end RlInvestments.RowAccounting
