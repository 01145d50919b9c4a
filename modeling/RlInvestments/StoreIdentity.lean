import RlInvestments.StoredDefaults

/-!
# The identity of investments

Ids are pairwise distinct, the visible list is a sublist of the store, and an open form
holds an id that is either larger than all others or the id of the record it edits.
All three survive every handler and every relaunch.
-/

namespace RlInvestments.StoreIdentity

open RlInvestments.GuardedRuns RlInvestments.LastMatchScan RlInvestments.CatalogueItems
open RlInvestments.InvestmentStore RlInvestments.OverviewRows RlInvestments.AppMemory
open RlInvestments.OverviewHandlers RlInvestments.FormSheet RlInvestments.AppRuns
open RlInvestments.HandlerRules RlInvestments.StoredDefaults

set_option autoImplicit false

variable {Data : Type} {foundation : Foundation Data}

def DistinctIDs (investments : List InvestmentItem) : Prop :=
  (investments.map InvestmentItem.id).Nodup

structure Consistent (investments visible : List InvestmentItem) (presented : Presented)
    (editingMode : Bool) (selectedID : Int) (cellTag : Nat) : Prop where
  distinct : DistinctIDs investments
  visible : visible.Sublist investments
  adding : presented = .form → editingMode = false →
    ∀ investment ∈ investments, investment.id < selectedID
  editing : presented = .form → editingMode = true →
    investments[cellTag]?.map InvestmentItem.id = some selectedID

def Identified (s : AppState Data) : Prop :=
  Consistent s.investments s.investmentFilteredData s.presented s.editingMode s.selectedID
    s.cellTag

def Distinct (s : AppState Data) : Prop := DistinctIDs s.investments

theorem distinct_of_ids {investments changed : List InvestmentItem}
    (distinct : DistinctIDs investments)
    (same : changed.map InvestmentItem.id = investments.map InvestmentItem.id) :
    DistinctIDs changed := by
  rw [DistinctIDs, same]
  exact distinct

theorem distinct_append {investments : List InvestmentItem} (distinct : DistinctIDs investments)
    {investment : InvestmentItem} (above : ∀ other ∈ investments, other.id < investment.id) :
    DistinctIDs (investments ++ [investment]) := by
  rw [DistinctIDs, List.map_append, List.nodup_append]
  refine ⟨distinct, by simp, ?_⟩
  rintro id member other alone rfl
  obtain ⟨older, olderMember, rfl⟩ := List.mem_map.mp member
  have smaller := above older olderMember
  simp only [List.map_cons, List.map_nil, List.mem_singleton] at alone
  omega

theorem set_ids {investments : List InvestmentItem} {tag : Nat} {investment : InvestmentItem}
    (same : investments[tag]?.map InvestmentItem.id = some investment.id) :
    (investments.set tag investment).map InvestmentItem.id =
      investments.map InvestmentItem.id := by
  obtain ⟨old, found, sameID⟩ := Option.map_eq_some_iff.mp same
  obtain ⟨inStore, rfl⟩ := List.getElem?_eq_some_iff.mp found
  rw [List.map_set, ← sameID, ← List.map_set, List.set_getElem_self]

theorem launch_identified {defaults : UserDefaults Data}
    (distinct : DistinctIDs (getSavedInvestments foundation defaults)) :
    Identified (launch foundation defaults) where
  distinct := distinct
  visible := List.nil_sublist _
  adding := fun form => nomatch form
  editing := fun form => nomatch form

theorem consistent_closed {investments visible : List InvestmentItem} {presented : Presented}
    (distinct : DistinctIDs investments) (sublist : visible.Sublist investments)
    (closed : presented ≠ .form) (editingMode : Bool) (selectedID : Int) (cellTag : Nat) :
    Consistent investments visible presented editingMode selectedID cellTag :=
  ⟨distinct, sublist, fun form => absurd form closed, fun form => absurd form closed⟩

theorem nothing_not_form : Presented.nothing ≠ .form := by decide

theorem alert_not_form : Presented.deleteAlert ≠ .form := by decide

theorem chart_not_form : Presented.chart ≠ .form := by decide

theorem initialize_identified (catalogue : Option DecodingItems) {s : AppState Data}
    (identified : Identified s) : Identified (initializeData foundation catalogue s) := by
  cases catalogue with
  | none => exact identified
  | some tempItems =>
      have ids := update_investments_ids tempItems.items s.investments
      refine ⟨distinct_of_ids identified.distinct ids, List.Sublist.refl _, ?_, ?_⟩
      · intro form adding investment member
        obtain ⟨old, oldMember, rfl⟩ := List.mem_map.mp member
        rw [attach_item_id]
        exact identified.adding form adding old oldMember
      · intro form editing
        have before := identified.editing form editing
        rw [← List.getElem?_map] at before ⊢
        exact ids ▸ before

theorem reload_data_identified {s : AppState Data} (identified : Identified s) :
    (reloadData foundation s).Ends Identified fun _ => Distinct :=
  reload_data_ends s (fun _ _ => identified) fun _ _ => identified.distinct

theorem delete_confirmed_identified {s : AppState Data} (identified : Identified s) :
    (deleteConfirmed foundation s).Ends Identified fun _ => Distinct := by
  have distinct : DistinctIDs (s.investments.eraseIdx (loweredTag s)) :=
    identified.distinct.sublist (List.Sublist.map _ (List.eraseIdx_sublist _ _))
  have removed : Identified (afterRemoval foundation s) :=
    consistent_closed distinct (List.Sublist.refl _) nothing_not_form _ _ _
  refine delete_confirmed_ends s (fun _ _ => identified.distinct) ?_ ?_
  · intro row _ _ _ _
    unfold deleteRows
    split
    · exact removed
    · exact distinct
  · exact fun _ _ => reload_data_identified (s := { afterRemoval foundation s with
      searchText := "" }) removed

theorem overview_step_identified {s : AppState Data} (identified : Identified s)
    (closed : s.presented = .nothing) (event : OverviewEvent) :
    (overviewStep foundation s event).Ends Identified fun _ => Distinct := by
  have notForm : s.presented ≠ .form := by simp [closed]
  have distinct := identified.distinct
  have tagged : ∀ tag, Identified { s with cellTag := tag } := fun tag =>
    consistent_closed distinct identified.visible notForm _ _ _
  cases event with
  | searchBarTextDidChange searchText =>
      refine reload_data_identified (consistent_closed distinct ?_ notForm _ _ _)
      exact search_investments_sublist _ _ _
  | addNewButton =>
      refine add_new_button_ends s (fun _ => ?_) distinct
      exact ⟨distinct, identified.visible, fun _ _ => investment_id_above s.investments,
        fun _ editing => nomatch editing⟩
  | showTotal => exact show_total_ends s identified fun _ _ => distinct
  | editButtonPressed tag =>
      refine edit_investment_ends _ (fun investment found => ?_) distinct
      exact ⟨distinct, identified.visible, fun _ adding => (nomatch adding),
        fun _ _ => congrArg _ found⟩
  | deleteButtonPressed tag =>
      exact consistent_closed distinct identified.visible alert_not_form _ _ _
  | stepperValueChanged tag value =>
      refine amount_changed_ends _ (fun investment found => ?_) distinct
      refine reload_data_identified (consistent_closed ?_ ?_ notForm _ _ _)
      · exact distinct_of_ids distinct (set_ids (congrArg _ found))
      · exact search_investments_sublist _ _ _
  | groupButtonPressed tag => exact group_investment_ends _ (fun _ => tagged tag) distinct
  | rlInsiderChart tag =>
      refine show_chart_ends _ (fun _ => ?_) distinct
      exact consistent_closed distinct identified.visible chart_not_form _ _ _

theorem store_and_dismiss_identified {s : AppState Data}
    (distinct : DistinctIDs s.investments) :
    (storeAndDismiss foundation s).Ends Identified fun _ => Distinct :=
  store_and_dismiss_ends s
    (fun _ _ => consistent_closed distinct (List.Sublist.refl _) nothing_not_form _ _ _)
    fun _ _ => distinct

theorem add_button_identified {s : AppState Data} (identified : Identified s)
    (form : s.presented = .form) : (addButton foundation s).Ends Identified fun _ => Distinct := by
  refine add_button_ends s identified ?_ ?_ identified.distinct
  · intro investment accepted adding
    have selected := (accepted_investment_spec accepted).2.2.2.2.2.1
    refine store_and_dismiss_identified (distinct_append identified.distinct ?_)
    rw [selected]
    exact identified.adding form adding
  · intro investment accepted editing _
    have selected := (accepted_investment_spec accepted).2.2.2.2.2.1
    refine store_and_dismiss_identified (distinct_of_ids identified.distinct (set_ids ?_))
    rw [selected]
    exact identified.editing form editing

theorem step_identified {s : AppState Data} (identified : Identified s)
    (persisted : Persisted foundation s) {event : Event} (admitted : Possible s event) :
    (step foundation s event).Ends Identified fun _ => Distinct := by
  have distinct := identified.distinct
  have closed : ∀ presented : Presented, presented ≠ .form →
      Identified { s with presented := presented } := fun presented notForm =>
    consistent_closed distinct identified.visible notForm _ _ _
  cases event with
  | relaunch =>
      refine (ends_running _).mpr (launch_identified ?_)
      rw [persisted.investments]
      exact distinct
  | catalogueArrives catalogue => exact initialize_identified catalogue identified
  | itemsNotification =>
      exact items_notification_ends s
        (fun _ _ => ⟨distinct, List.Sublist.refl _, identified.adding, identified.editing⟩)
        (fun _ _ => distinct) fun _ => identified
  | delayedReload => exact reload_data_identified identified
  | traitCollectionDidChange => exact reload_data_identified identified
  | overviewDidLoad => exact view_did_load_ends s (fun _ _ => identified) fun _ _ => distinct
  | overview event =>
      exact overview_step_identified identified (overview_admitted admitted).2 event
  | deleteConfirmed => exact delete_confirmed_identified identified
  | deleteCancelled => exact closed .nothing nothing_not_form
  | form event =>
      exact form_step_ends s event (fun _ _ _ _ _ _ _ _ => identified) distinct
  | addButton => exact add_button_identified identified (add_admitted admitted)
  | cancelButton => exact closed .nothing nothing_not_form
  | chartClosed => exact closed .nothing nothing_not_form
  | tab event => exact tab_step_ends s event fun _ _ _ _ _ _ _ => identified

/-- Defaults whose investments have distinct ids; a fresh installation has none at all. -/
def DistinctStored (foundation : Foundation Data) (defaults : UserDefaults Data) : Prop :=
  DistinctIDs (getSavedInvestments foundation defaults)

theorem fresh_distinct : DistinctStored foundation .fresh := List.nodup_nil

theorem reachable_identified {guard : AppState Data → Event → Prop} {s : AppState Data}
    (admits : ∀ s event, guard s event → Possible s event)
    (reachable : Reachable (app foundation) guard
      (Launched foundation (DistinctStored foundation)) s) : Identified s := by
  refine reachable_invariant Identified ?_ ?_ reachable
  · rintro s ⟨defaults, distinct, rfl⟩
    exact launch_identified distinct
  · intro s event before identified guarded
    have persisted := reachable_persisted before
    refine ends_mono (ends_and (step_identified identified persisted (admits s event guarded))
      (step_persisted persisted event)) (fun _ after => after.1) ?_
    rintro fault next ⟨distinct, saved⟩
    refine launch_identified ?_
    rw [saved.investments]
    exact distinct

/-- The loop of `cellForRowAt` finds exactly one position for a visible record, and the
record there is the record itself. -/
theorem visible_position {investments visible : List InvestmentItem}
    (distinct : DistinctIDs investments) (sublist : visible.Sublist investments)
    {record : InvestmentItem} (member : record ∈ visible) :
    ∃ i, lastPosition (fun investment => decide (record.id = investment.id)) investments = some i ∧
      investments[i]? = some record ∧
      ∀ j other, investments[j]? = some other → other.id = record.id → j = i := by
  obtain ⟨i, there⟩ := List.mem_iff_getElem?.mp (sublist.subset member)
  refine ⟨i, last_position_of_key InvestmentItem.id distinct there, there, ?_⟩
  intro j other otherThere same
  exact get_eq_of_same_key InvestmentItem.id distinct otherThere there same

structure KeepsIdentity (investments visible : List InvestmentItem) : Prop where
  distinct : DistinctIDs investments
  nonneg : 0 ≤ investmentID investments
  fresh : ∀ investment ∈ investments, investment.id < investmentID investments
  sublist : visible.Sublist investments
  position : ∀ record ∈ visible, ∃ i,
    lastPosition (fun investment => decide (record.id = investment.id)) investments = some i ∧
      investments[i]? = some record ∧
      ∀ j other, investments[j]? = some other → other.id = record.id → j = i

theorem store_identity (foundation : Foundation Data) (s : AppState Data)
    (reachable : Reachable (app foundation) Possible
      (Launched foundation (DistinctStored foundation)) s) :
    KeepsIdentity s.investments s.investmentFilteredData := by
  have identified := reachable_identified (fun _ _ admitted => admitted) reachable
  exact ⟨identified.distinct, investment_id_nonneg s.investments,
    investment_id_above s.investments, identified.visible,
    fun record => visible_position identified.distinct identified.visible⟩

/-- Of two records the first is deleted, and another one is added. -/
def refilledState : Option (AppState (List InvestmentItem ⊕ List InvestmentGroup)) :=
  runEvents (app plainFoundation) Possible (launch plainFoundation .fresh)
    (secondSession ++ [.overview (.deleteButtonPressed 0), .deleteConfirmed] ++
      addPieces 0 "110" 2)

theorem store_identity_refilled :
    ∃ s, refilledState = some s ∧ s.investments.map InvestmentItem.id = [1, 2] ∧
      amounts s.investmentFilteredData = [(3, 290), (2, 110)] ∧
      KeepsIdentity s.investments s.investmentFilteredData := by
  have refilled : refilledState.map (fun s => (s.investments.map InvestmentItem.id,
      amounts s.investmentFilteredData)) = some ([1, 2], [(3, 290), (2, 110)]) := by
    decide +kernel
  have ⟨s, runs, result⟩ := Option.map_eq_some_iff.mp refilled
  have ⟨ids, paid⟩ := Prod.mk.inj result
  have reached : Reachable (app plainFoundation) Possible
      (Launched plainFoundation (DistinctStored plainFoundation)) s :=
    reachable_of_fresh_run _ fresh_distinct runs
  exact ⟨s, runs, ids, paid, store_identity plainFoundation s reached⟩

end RlInvestments.StoreIdentity
