import RlInvestments.RowAccounting

/-!
# A row's buttons and the investment that the row shows

A cell carries a position in the store, and deleting a row moves the positions of all
later rows while their cells stay on screen. As long as no row is deleted in front of
another one, the tag of every cell is the position of the record that it shows, and
its buttons act on that record.
-/

namespace RlInvestments.RowTags

open RlInvestments.GuardedRuns RlInvestments.LastMatchScan RlInvestments.CatalogueItems
open RlInvestments.InvestmentStore RlInvestments.OverviewRows RlInvestments.AppMemory
open RlInvestments.OverviewHandlers RlInvestments.FormSheet RlInvestments.AppRuns
open RlInvestments.HandlerRules RlInvestments.StoreIdentity RlInvestments.RowAccounting

set_option autoImplicit false

variable {Data : Type} {foundation : Foundation Data}

def Tagged (investments : List InvestmentItem) (cells : List ItemCell) : Prop :=
  ∀ cell ∈ cells, investments[cell.tag]?.map InvestmentItem.id = some cell.record.id

def TagsMatch (s : AppState Data) : Prop := Tagged s.investments s.cells

theorem built_tagged {text : SwiftText} {investments visible : List InvestmentItem}
    {cells : List ItemCell} (built : buildCells text investments visible = .ok cells) :
    Tagged investments cells := by
  have rows := build_cells_forall₂ built
  clear built
  induction rows with
  | nil => exact fun cell member => nomatch member
  | cons first rest induction =>
      refine List.forall_mem_cons.mpr ⟨?_, induction⟩
      obtain ⟨same, -, position⟩ := cell_for_row_spec first
      obtain ⟨⟨investment, there, matched⟩, -⟩ := (last_position_some_iff _ _ _).mp position
      rw [there, same]
      exact congrArg some (of_decide_eq_true matched).symm

theorem tagged_of_ids {investments changed : List InvestmentItem} {cells : List ItemCell}
    (tagged : Tagged investments cells) (same : storeIDs changed = storeIDs investments) :
    Tagged changed cells := by
  intro cell member
  have there := tagged cell member
  rw [← List.getElem?_map] at there ⊢
  rw [← storeIDs, same]
  exact there

/-- A confirmed delete after which every cell that stays has the right tag: the table is
reloaded, or refuses the deletion, or the investment is the last of the store. -/
def SafeDelete (s : AppState Data) : Prop :=
  ReloadsTable s ∨ s.cells.length ≠ s.investments.length ∨
    loweredTag s + 1 = s.investments.length

instance (s : AppState Data) : Decidable (SafeDelete s) := inferInstanceAs (Decidable (_ ∨ _))

theorem erase_last_tagged {investments : List InvestmentItem} {cells : List ItemCell} {tag : Nat}
    (distinct : DistinctIDs investments) (whole : cellIDs cells = storeIDs investments)
    (tagged : Tagged investments cells) (last : tag + 1 = investments.length) :
    Tagged (investments.eraseIdx tag) (cells.eraseIdx tag) := by
  intro cell member
  obtain ⟨row, other, shown⟩ := List.mem_eraseIdx_iff_getElem?.mp member
  have there := tagged cell (List.mem_of_getElem? shown)
  obtain ⟨investment, found, -⟩ := Option.map_eq_some_iff.mp there
  obtain ⟨inStore, -⟩ := List.getElem?_eq_some_iff.mp found
  have rowID : (storeIDs investments)[row]? = some cell.record.id := by
    rw [← whole, cellIDs, List.getElem?_map, shown]
    rfl
  have earlier : cell.tag ≠ tag := by
    rintro rfl
    have tagID : (storeIDs investments)[cell.tag]? = some cell.record.id := by
      rw [storeIDs, List.getElem?_map, there]
    have inRange := (List.getElem?_eq_some_iff.mp rowID).1
    exact other ((List.getElem?_inj inRange distinct).mp (rowID.trans tagID.symm))
  rw [List.getElem?_eraseIdx_of_lt (by omega)]
  exact there

def safeEvent (s : AppState Data) : Event → Bool
  | .deleteConfirmed => decide (SafeDelete s)
  | _ => true

/-- Runs on the screen in which every confirmed delete is safe. -/
abbrev Safely (s : AppState Data) (event : Event) : Prop :=
  OnScreen s event ∧ safeEvent s event = true

theorem reload_data_tags (s : AppState Data) :
    (reloadData foundation s).Ends TagsMatch fun _ _ => True :=
  reload_data_ends s (fun _ built => built_tagged built) fun _ _ => trivial

theorem delete_confirmed_tags {s : AppState Data} (identified : Identified s)
    (rows : RowsFollow s) (tags : TagsMatch s) (safe : SafeDelete s) :
    (deleteConfirmed foundation s).Ends TagsMatch fun _ _ => True := by
  refine delete_confirmed_ends s (fun _ _ => trivial) ?_ fun _ _ => reload_data_tags _
  intro row found _ inStore deletes
  refine delete_rows_rule identified rows found inStore (fun same _ => ?_) fun _ => trivial
  have last : loweredTag s + 1 = s.investments.length :=
    (safe.resolve_left deletes).resolve_left fun different => different same
  obtain ⟨-, whole⟩ := visible_is_store identified rows same
  exact erase_last_tagged identified.distinct whole tags last

theorem overview_step_tags {s : AppState Data} (tags : TagsMatch s) (event : OverviewEvent) :
    (overviewStep foundation s event).Ends TagsMatch fun _ _ => True := by
  cases event with
  | searchBarTextDidChange searchText => exact reload_data_tags _
  | addNewButton => exact add_new_button_ends s (fun _ => tags) trivial
  | showTotal => exact show_total_ends s tags fun _ _ => trivial
  | editButtonPressed tag => exact edit_investment_ends _ (fun _ _ => tags) trivial
  | deleteButtonPressed tag => exact tags
  | stepperValueChanged tag value =>
      exact amount_changed_ends _ (fun _ _ => reload_data_tags _) trivial
  | groupButtonPressed tag => exact group_investment_ends _ (fun _ => tags) trivial
  | rlInsiderChart tag => exact show_chart_ends _ (fun _ => tags) trivial

theorem store_and_dismiss_tags (s : AppState Data) :
    (storeAndDismiss foundation s).Ends TagsMatch fun _ _ => True :=
  store_and_dismiss_ends s (fun _ built => built_tagged built) fun _ _ => trivial

theorem step_tags {s : AppState Data} (identified : Identified s) (rows : RowsFollow s)
    (tags : TagsMatch s) {event : Event} (safe : safeEvent s event = true) :
    (step foundation s event).Ends TagsMatch fun _ _ => True := by
  cases event with
  | relaunch => exact fun cell member => nomatch member
  | catalogueArrives catalogue =>
      cases catalogue with
      | none => exact tags
      | some tempItems =>
          exact tagged_of_ids tags (update_investments_ids tempItems.items s.investments)
  | itemsNotification =>
      exact items_notification_ends s (fun _ built => built_tagged built) (fun _ _ => trivial)
        fun _ => tags
  | delayedReload => exact reload_data_tags _
  | traitCollectionDidChange => exact reload_data_tags s
  | overviewDidLoad =>
      exact view_did_load_ends s (fun _ built => built_tagged built) fun _ _ => trivial
  | overview event => exact overview_step_tags tags event
  | deleteConfirmed => exact delete_confirmed_tags identified rows tags (of_decide_eq_true safe)
  | deleteCancelled => exact tags
  | form event => exact form_step_ends s event (fun _ _ _ _ _ _ _ _ => tags) trivial
  | addButton =>
      exact add_button_ends s tags (fun _ _ _ => store_and_dismiss_tags _)
        (fun _ _ _ _ => store_and_dismiss_tags _) trivial
  | cancelButton => exact tags
  | chartClosed => exact tags
  | tab event => exact tab_step_ends s event fun _ _ _ _ _ _ _ => tags

theorem reachable_tags {s : AppState Data}
    (reachable : Reachable (app foundation) Safely
      (Launched foundation (DistinctStored foundation)) s) : TagsMatch s := by
  refine reachable_invariant TagsMatch ?_ ?_ reachable
  · rintro s ⟨defaults, -, rfl⟩
    exact fun cell member => nomatch member
  · intro s event before tags guarded
    have rows := reachable_rows (fun _ _ safely => safely.1) before
    have identified := reachable_identified (fun _ _ safely => safely.1.1) before
    exact ends_mono (step_tags identified rows tags guarded.2) (fun _ after => after)
      fun _ _ _ cell member => nomatch member

def isAnswer : Event → Bool
  | .relaunch => true
  | .deleteConfirmed => true
  | .deleteCancelled => true
  | .addButton => true
  | .cancelButton => true
  | .chartClosed => true
  | _ => false

abbrev Waiting (s : AppState Data) (event : Event) : Prop :=
  s.presented ≠ .nothing ∧ Possible s event ∧ isAnswer event = false

/-- What an open alert or form relies on is as it was when it opened. -/
def Held (opened t : AppState Data) : Prop :=
  t.presented = opened.presented ∧ storeIDs t.investments = storeIDs opened.investments ∧
    t.cellTag = opened.cellTag ∧ t.editingMode = opened.editingMode ∧
    t.selectedID = opened.selectedID

theorem waiting_step {opened t : AppState Data} (held : Held opened t) {event : Event}
    (waiting : Waiting t event) :
    (step foundation t event).Ends (Held opened) fun _ _ => True := by
  obtain ⟨covered, admitted, notAnswer⟩ := waiting
  cases event with
  | catalogueArrives catalogue =>
      cases catalogue with
      | none => exact held
      | some tempItems =>
          have ids := update_investments_ids tempItems.items t.investments
          exact ⟨held.1, ids.trans held.2.1, held.2.2⟩
  | itemsNotification =>
      exact items_notification_ends t (fun _ _ => held) (fun _ _ => trivial) fun _ => held
  | delayedReload => exact reload_data_ends _ (fun _ _ => held) fun _ _ => trivial
  | traitCollectionDidChange => exact reload_data_ends t (fun _ _ => held) fun _ _ => trivial
  | overviewDidLoad => exact view_did_load_ends t (fun _ _ => held) fun _ _ => trivial
  | overview event => exact absurd (overview_admitted admitted).2 covered
  | form event => exact form_step_ends t event (fun _ _ _ _ _ _ _ _ => held) trivial
  | tab event => exact tab_step_ends t event fun _ _ _ _ _ _ _ => held
  | relaunch => exact nomatch notAnswer
  | deleteConfirmed => exact nomatch notAnswer
  | deleteCancelled => exact nomatch notAnswer
  | addButton => exact nomatch notAnswer
  | cancelButton => exact nomatch notAnswer
  | chartClosed => exact nomatch notAnswer

theorem waiting_held {opened t : AppState Data}
    (reachable : Reachable (app foundation) Waiting (fun s => s = opened) t)
    (covered : t.presented ≠ .nothing) : Held opened t := by
  refine (reachable_invariant (fun t => t.presented = .nothing ∨ Held opened t) ?_ ?_
    reachable).resolve_left covered
  · rintro s rfl
    exact .inr ⟨rfl, rfl, rfl, rfl, rfl⟩
  · intro t event _ held waiting
    exact ends_mono (waiting_step (held.resolve_left waiting.1) waiting) (fun _ after => .inr after)
      fun _ _ _ => .inl rfl

theorem waiting_on_screen {s : AppState Data} {event : Event} (waiting : Waiting s event) :
    OnScreen s event := by
  refine ⟨waiting.2.1, ?_⟩
  cases event with
  | overview event => exact absurd (overview_admitted waiting.2.1).2 waiting.1
  | _ => rfl

def updateAt (investments : List InvestmentItem) (id : Int)
    (update : InvestmentItem → InvestmentItem) : List InvestmentItem :=
  investments.map fun investment => if investment.id = id then update investment else investment

/-- A cell's buttons act on the investment with the id that the cell shows. -/
structure ActsOnShown (foundation : Foundation Data) (s : AppState Data) (cell : ItemCell) :
    Prop where
  tag : s.investments[cell.tag]?.map InvestmentItem.id = some cell.record.id
  /-- However long the alert stays open, confirming removes that investment and no other. -/
  delete : Possible s (.overview (.deleteButtonPressed cell.tag)) →
    ∀ t, Reachable (app foundation) Waiting
        (fun u => u = deleteItems { s with cellTag := cell.tag }) t →
      t.presented = .deleteAlert →
      storeIDs t.investments = storeIDs s.investments ∧
      (step foundation t .deleteConfirmed).state.investments =
        t.investments.filter fun investment => decide (investment.id ≠ cell.record.id)
  /-- The form opens with that investment, and its button changes no other. -/
  edit : ∃ investment ∈ s.investments, investment.id = cell.record.id ∧
    ∃ opened, overviewStep foundation s (.editButtonPressed cell.tag) = .running opened ∧
      opened.selectedItem = some investment.item ∧ opened.selectedID = investment.id ∧
      ∀ t, Reachable (app foundation) Waiting (fun u => u = opened) t → t.presented = .form →
        storeIDs t.investments = storeIDs s.investments ∧
        ∃ update, (step foundation t .addButton).state.investments =
          updateAt t.investments cell.record.id update
  stepper : ∀ value,
    (overviewStep foundation s (.stepperValueChanged cell.tag value)).state.investments =
      updateAt s.investments cell.record.id fun investment =>
        { investment with quantity := value }
  chart : ∃ shown, overviewStep foundation s (.rlInsiderChart cell.tag) = .running shown ∧
    shown.investments = s.investments ∧
    shown.investments[shown.cellTag]?.map InvestmentItem.id = some cell.record.id

theorem reload_data_investments (s : AppState Data) :
    (reloadData foundation s).state.investments = s.investments := by
  have kept : (reloadData foundation s).Ends (fun t => t.investments = s.investments)
      fun _ t => t.investments = s.investments :=
    reload_data_ends s (fun _ _ => rfl) fun _ _ => rfl
  exact ends_state.mp kept

theorem stepper_acts {s : AppState Data} (distinct : DistinctIDs s.investments) {tag : Nat}
    {investment : InvestmentItem} (there : s.investments[tag]? = some investment) (value : Int) :
    (overviewStep foundation s (.stepperValueChanged tag value)).state.investments =
      updateAt s.investments investment.id fun other => { other with quantity := value } := by
  simp only [overviewStep, amountChangedInvestment, there]
  rw [reload_data_investments]
  exact set_at_key InvestmentItem.id distinct there fun other => { other with quantity := value }

theorem confirmed_delete_acts {t : AppState Data} (identified : Identified t)
    (rows : RowsFollow t) (alert : t.presented = .deleteAlert) {investment : InvestmentItem}
    (there : t.investments[t.cellTag]? = some investment) :
    (step foundation t .deleteConfirmed).state.investments =
      t.investments.filter fun other => decide (other.id ≠ investment.id) := by
  obtain ⟨inStore, -⟩ := List.getElem?_eq_some_iff.mp there
  have lowered : loweredTag t = t.cellTag := if_neg (Nat.ne_of_lt inStore)
  have removed : (afterRemoval foundation t).investments =
      t.investments.filter fun other => decide (other.id ≠ investment.id) := by
    rw [← erase_at_key InvestmentItem.id identified.distinct there, ← lowered]
    rfl
  have ends : (step foundation t .deleteConfirmed).Ends
      (fun u => u.investments = t.investments.filter fun other =>
        decide (other.id ≠ investment.id))
      fun _ u => u.investments = t.investments.filter fun other =>
        decide (other.id ≠ investment.id) := by
    refine delete_confirmed_ends t (fun blocked _ => ?_) ?_ ?_
    · rcases blocked with gone | empty
      · omega
      · exact absurd empty (rows.alert alert (List.ne_nil_of_length_pos (by omega)))
    · intro row found _ inStore _
      exact delete_rows_rule identified rows found inStore (fun _ _ => removed) fun _ => removed
    · exact fun _ _ => reload_data_ends _ (fun _ _ => removed) fun _ _ => removed
  exact ends_state.mp ends

theorem confirmed_edit_acts {t : AppState Data} (distinct : DistinctIDs t.investments)
    (editing : t.editingMode = true) {investment : InvestmentItem}
    (there : t.investments[t.cellTag]? = some investment) :
    ∃ update, (step foundation t .addButton).state.investments =
      updateAt t.investments investment.id update := by
  have unchanged : t.investments = updateAt t.investments investment.id id := by
    unfold updateAt
    simp
  cases accepted : acceptedInvestment foundation t with
  | none =>
      refine ⟨id, ?_⟩
      simp only [step, addButton, accepted]
      exact unchanged
  | some edited =>
      obtain ⟨inStore, -⟩ := List.getElem?_eq_some_iff.mp there
      refine ⟨fun _ => edited, ?_⟩
      have written := set_at_key InvestmentItem.id distinct there fun _ => edited
      have ends : (storeAndDismiss foundation { t with
          investments := t.investments.set t.cellTag edited }).Ends
          (fun u => u.investments = t.investments.set t.cellTag edited)
          fun _ u => u.investments = t.investments.set t.cellTag edited :=
        store_and_dismiss_ends _ (fun _ _ => rfl) fun _ _ => rfl
      have notAdding : ¬ t.editingMode = false := by simp [editing]
      simp only [step, addButton, accepted, if_neg notAdding, if_pos inStore]
      exact (ends_state.mp ends).trans written

theorem acts_on_shown {s : AppState Data}
    (reachable : Reachable (app foundation) OnScreen
      (Launched foundation (DistinctStored foundation)) s)
    (tags : TagsMatch s) {cell : ItemCell} (shown : cell ∈ s.cells) :
    ActsOnShown foundation s cell := by
  have identified := reachable_identified (fun _ _ onScreen => onScreen.1) reachable
  have tagged := tags cell shown
  obtain ⟨investment, there, same⟩ := Option.map_eq_some_iff.mp tagged
  -- What an alert or form opened for this cell finds at its tag while it waits.
  have waited : ∀ opened t : AppState Data, Held opened t → opened.cellTag = cell.tag →
      opened.investments = s.investments →
      storeIDs t.investments = storeIDs s.investments ∧
        ∃ held, t.investments[t.cellTag]? = some held ∧ held.id = cell.record.id := by
    intro opened t held openedTag openedStore
    have ids : storeIDs t.investments = storeIDs s.investments := by
      rw [held.2.1, openedStore]
    have position : (storeIDs t.investments)[t.cellTag]? = some cell.record.id := by
      rw [ids, held.2.2.1, openedTag, storeIDs, List.getElem?_map, tagged]
    rw [storeIDs, List.getElem?_map] at position
    exact ⟨ids, Option.map_eq_some_iff.mp position⟩
  refine ⟨tagged, ?_, ?_, ?_, ?_⟩
  · intro possible t waiting alert
    have pressed : Reachable (app foundation) OnScreen
        (Launched foundation (DistinctStored foundation))
        (deleteItems { s with cellTag := cell.tag }) :=
      .step reachable ⟨possible, List.any_eq_true.mpr ⟨cell, shown, beq_self_eq_true _⟩⟩ rfl
    have later := reachable_trans pressed
      (reachable_mono (fun _ _ => waiting_on_screen) (fun _ same => same) waiting)
    have held := waiting_held waiting (by rw [alert]; decide)
    obtain ⟨ids, removed, found, removedID⟩ := waited _ t held rfl rfl
    refine ⟨ids, ?_⟩
    rw [← removedID]
    exact confirmed_delete_acts (reachable_identified (fun _ _ onScreen => onScreen.1) later)
      (reachable_rows (fun _ _ onScreen => onScreen) later) alert found
  · refine ⟨investment, List.mem_of_getElem? there, same, ?_⟩
    simp only [overviewStep, editInvestment, there]
    refine ⟨_, rfl, rfl, rfl, fun t waiting form => ?_⟩
    have held := waiting_held waiting (by rw [form]; decide)
    obtain ⟨ids, edited, found, editedID⟩ := waited _ t held rfl rfl
    refine ⟨ids, ?_⟩
    rw [← editedID]
    exact confirmed_edit_acts (distinct_of_ids identified.distinct ids) held.2.2.2.1 found
  · intro value
    rw [← same]
    exact stepper_acts identified.distinct there value
  · simp only [overviewStep, showRLInsiderChart, there]
    exact ⟨_, rfl, rfl, tagged⟩

/-- In every run whose confirmed deletes are safe, the buttons of every cell on screen act
on the investment that the cell shows. -/
theorem buttons_act_on_shown (foundation : Foundation Data) (s : AppState Data)
    (reachable : Reachable (app foundation) Safely
      (Launched foundation (DistinctStored foundation)) s) :
    ∀ cell ∈ s.cells, ActsOnShown foundation s cell := by
  intro cell shown
  have onScreen := reachable_mono (fun _ _ safely => safely.1) (fun _ starts => starts) reachable
  exact acts_on_shown onScreen (reachable_tags reachable) shown

/-- Two investments, of which the last one is deleted. -/
def lastDeletedState : Option (AppState (List InvestmentItem ⊕ List InvestmentGroup)) :=
  runEvents (app plainFoundation) Safely (launch plainFoundation .fresh)
    (firstSession ++ addItem 1 ++ [.overview (.deleteButtonPressed 1), .deleteConfirmed])

theorem buttons_act_on_shown_last_deleted :
    ∃ s, lastDeletedState = some s ∧ s.cells.map ItemCell.tag = [0] ∧
      ∀ cell ∈ s.cells, ActsOnShown plainFoundation s cell := by
  have deleted : lastDeletedState.map (fun s => s.cells.map ItemCell.tag) = some [0] := by
    decide +kernel
  obtain ⟨s, runs, tags⟩ := Option.map_eq_some_iff.mp deleted
  refine ⟨s, runs, tags, buttons_act_on_shown plainFoundation s ?_⟩
  exact reachable_of_fresh_run _ fresh_distinct runs

/-- Three investments, of which the first one is deleted; its table is not yet reloaded. -/
def firstDeletedState : Option (AppState (List InvestmentItem ⊕ List InvestmentGroup)) :=
  runEvents (app plainFoundation) OnScreen (launch plainFoundation .fresh)
    (firstSession ++ addItem 0 ++ addItem 1 ++
      [.overview (.deleteButtonPressed 0), .deleteConfirmed])

/-- The second Octane's cell now has the tag of the Dominus. -/
theorem first_delete_leaves_stale_tags :
    ¬ ∀ s, Reachable (app plainFoundation) OnScreen
        (Launched plainFoundation (DistinctStored plainFoundation)) s →
      ∀ cell ∈ s.cells, ActsOnShown plainFoundation s cell := by
  intro acts
  have stale : firstDeletedState.map (fun s => s.cells.map fun cell =>
      decide (s.investments[cell.tag]?.map InvestmentItem.id = some cell.record.id)) =
        some [false, false] := by decide +kernel
  obtain ⟨s, runs, wrong⟩ := Option.map_eq_some_iff.mp stale
  obtain ⟨cell, rest, cells, mismatch, -⟩ := List.map_eq_cons_iff.mp wrong
  refine of_decide_eq_false mismatch (acts s ?_ cell (cells ▸ List.mem_cons_self)).tag
  exact reachable_of_fresh_run _ fresh_distinct runs

end RlInvestments.RowTags
