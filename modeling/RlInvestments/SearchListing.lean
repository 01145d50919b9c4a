import RlInvestments.RowAccounting

/-!
# What is listed and what the search asks for

Typing and the steppers recompute the visible list from the search text. A save and
`reloadTableView` show the whole store instead, whatever the text; the list is still
the one that was asked for when the text hides none of the investments.
-/

namespace RlInvestments.SearchListing

open RlInvestments.GuardedRuns RlInvestments.CatalogueItems RlInvestments.InvestmentStore
open RlInvestments.OverviewRows RlInvestments.AppMemory RlInvestments.OverviewHandlers
open RlInvestments.FormSheet RlInvestments.AppRuns RlInvestments.HandlerRules
open RlInvestments.StoreIdentity RlInvestments.RowAccounting

set_option autoImplicit false

variable {Data : Type} {foundation : Foundation Data}

/-- The visible list holds, in store order, the investments whose name contains the text
when both are uppercased, and all investments when there is no text. -/
def Listed (text : SwiftText) (searchText : String)
    (investments visible : List InvestmentItem) : Prop :=
  visible =
    if searchText = "" then investments
    else investments.filter fun investment =>
      text.contains (text.uppercased investment.item.itemName) (text.uppercased searchText)

theorem search_listed (text : SwiftText) (searchText : String)
    (investments : List InvestmentItem) :
    Listed text searchText investments (searchInvestments text searchText investments) := rfl

def hidesNone (text : SwiftText) (searchText : String) (investments : List InvestmentItem) :
    Bool :=
  decide (searchText = "") || investments.all (matchesSearch text searchText)

theorem hides_none_iff {text : SwiftText} {searchText : String}
    {investments : List InvestmentItem} :
    hidesNone text searchText investments = true ↔
      Listed text searchText investments investments := by
  unfold hidesNone Listed
  by_cases empty : searchText = ""
  · simp [empty]
  · simp only [empty, decide_false, Bool.false_or, if_false, List.all_eq_true]
    exact List.filter_eq_self.symm.trans eq_comm

theorem hides_none_sublist {text : SwiftText} {searchText : String}
    {fewer investments : List InvestmentItem} (sublist : fewer.Sublist investments)
    (none : hidesNone text searchText investments = true) :
    hidesNone text searchText fewer = true := by
  simp only [hidesNone, Bool.or_eq_true, List.all_eq_true] at none ⊢
  exact none.imp_right fun all investment member => all investment (sublist.subset member)

theorem hides_none_update (text : SwiftText) (searchText : String) (items : List DecodingItem)
    (investments : List InvestmentItem) :
    hidesNone text searchText (updateInvestments items investments) =
      hidesNone text searchText investments := by
  have names : matchesSearch text searchText ∘ attachItem items =
      matchesSearch text searchText := by
    funext investment
    simp only [Function.comp_apply, matchesSearch, attach_item_name]
  rw [hidesNone, hidesNone, updateInvestments, List.all_map, names]

variable (foundation) in
/-- From the first `reloadTableView` on, when the total's button is enabled. -/
def ListsSearched (s : AppState Data) : Prop :=
  s.totalBarButtonEnabled = true →
    Listed foundation.text s.searchText s.investments s.investmentFilteredData

variable (foundation) in
/-- The steps that make the whole store visible hide none of it. -/
def searchedEvent (s : AppState Data) : Event → Bool
  | .catalogueArrives (some _) =>
      !s.totalBarButtonEnabled || hidesNone foundation.text s.searchText s.investments
  | .itemsNotification =>
      !s.overviewLoaded || hidesNone foundation.text s.searchText s.investments
  | .addButton =>
      match acceptedInvestment foundation s with
      | none => true
      | some investment =>
          hidesNone foundation.text s.searchText
            (if s.editingMode = false then s.investments ++ [investment]
            else s.investments.set s.cellTag investment)
  | _ => true

variable (foundation) in
abbrev Unhidden (s : AppState Data) (event : Event) : Prop :=
  OnScreen s event ∧ searchedEvent foundation s event = true

theorem reload_data_lists {s : AppState Data} (lists : ListsSearched foundation s) :
    (reloadData foundation s).Ends (ListsSearched foundation) fun _ _ => True :=
  reload_data_ends s (fun _ _ => lists) fun _ _ => trivial

/-- A row is deleted only from a table that shows the whole store, of which the text then
hides nothing. -/
theorem delete_confirmed_lists {s : AppState Data} (identified : Identified s)
    (rows : RowsFollow s) (lists : ListsSearched foundation s) :
    (deleteConfirmed foundation s).Ends (ListsSearched foundation) fun _ _ => True := by
  refine delete_confirmed_ends s (fun _ _ => trivial) ?_ ?_
  · intro row found _ inStore _
    refine delete_rows_rule identified rows found inStore (fun same _ enabled => ?_)
      fun _ => trivial
    obtain ⟨whole, -⟩ := visible_is_store identified rows same
    have before := lists enabled
    rw [whole] at before
    have after := hides_none_sublist (List.eraseIdx_sublist s.investments (loweredTag s))
      (hides_none_iff.mpr before)
    exact hides_none_iff.mp after
  · exact fun _ _ => reload_data_lists fun _ => (if_pos rfl).symm

theorem overview_step_lists {s : AppState Data} (lists : ListsSearched foundation s)
    (event : OverviewEvent) :
    (overviewStep foundation s event).Ends (ListsSearched foundation) fun _ _ => True := by
  cases event with
  | searchBarTextDidChange searchText =>
      exact reload_data_lists fun _ => search_listed _ searchText s.investments
  | addNewButton => exact add_new_button_ends s (fun _ => lists) trivial
  | showTotal => exact show_total_ends s lists fun _ _ => trivial
  | editButtonPressed tag => exact edit_investment_ends _ (fun _ _ => lists) trivial
  | deleteButtonPressed tag => exact lists
  | stepperValueChanged tag value =>
      refine amount_changed_ends _ (fun investment _ => ?_) trivial
      exact reload_data_lists fun _ => search_listed _ s.searchText _
  | groupButtonPressed tag => exact group_investment_ends _ (fun _ => lists) trivial
  | rlInsiderChart tag => exact show_chart_ends _ (fun _ => lists) trivial

theorem store_and_dismiss_lists {s : AppState Data}
    (unhidden : hidesNone foundation.text s.searchText s.investments = true) :
    (storeAndDismiss foundation s).Ends (ListsSearched foundation) fun _ _ => True :=
  store_and_dismiss_ends s (fun _ _ _ => hides_none_iff.mp unhidden) fun _ _ => trivial

theorem add_button_lists {s : AppState Data} (lists : ListsSearched foundation s)
    (unhidden : searchedEvent foundation s .addButton = true) :
    (addButton foundation s).Ends (ListsSearched foundation) fun _ _ => True := by
  refine add_button_ends s lists ?_ ?_ trivial
  · intro investment accepted adding
    simp only [searchedEvent, accepted, adding, if_true] at unhidden
    exact store_and_dismiss_lists unhidden
  · intro investment accepted editing _
    simp only [searchedEvent, accepted, editing, Bool.true_eq_false, if_false] at unhidden
    exact store_and_dismiss_lists unhidden

theorem step_lists {s : AppState Data} (identified : Identified s) (rows : RowsFollow s)
    (lists : ListsSearched foundation s) {event : Event}
    (unhidden : searchedEvent foundation s event = true) :
    (step foundation s event).Ends (ListsSearched foundation) fun _ _ => True := by
  cases event with
  | relaunch => exact fun enabled => absurd enabled Bool.false_ne_true
  | catalogueArrives catalogue =>
      cases catalogue with
      | none => exact lists
      | some tempItems =>
          intro enabled
          have enabledBefore : s.totalBarButtonEnabled = true := enabled
          simp only [searchedEvent, enabledBefore, Bool.not_true, Bool.false_or] at unhidden
          rw [← hides_none_update foundation.text s.searchText tempItems.items] at unhidden
          exact hides_none_iff.mp unhidden
  | itemsNotification =>
      cases loaded : s.overviewLoaded with
      | false =>
          simp only [step, loaded]
          exact lists
      | true =>
          simp only [searchedEvent, loaded, Bool.not_true, Bool.false_or] at unhidden
          exact items_notification_ends s (fun _ _ _ => hides_none_iff.mp unhidden)
            (fun _ _ => trivial) fun _ => lists
  | delayedReload => exact reload_data_lists lists
  | traitCollectionDidChange => exact reload_data_lists lists
  | overviewDidLoad =>
      exact view_did_load_ends s (fun _ _ enabled => absurd enabled Bool.false_ne_true)
        fun _ _ => trivial
  | overview event => exact overview_step_lists lists event
  | deleteConfirmed => exact delete_confirmed_lists identified rows lists
  | deleteCancelled => exact lists
  | form event => exact form_step_ends s event (fun _ _ _ _ _ _ _ _ => lists) trivial
  | addButton => exact add_button_lists lists unhidden
  | cancelButton => exact lists
  | chartClosed => exact lists
  | tab event => exact tab_step_ends s event fun _ _ _ _ _ _ _ => lists

/-- The condition is exact: a step that shows what the text hides breaks the listing. -/
theorem hidden_step_breaks {s t : AppState Data} {event : Event}
    (hides : searchedEvent foundation s event = false)
    (ran : step foundation s event = .running t) : ¬ ListsSearched foundation t := by
  have stored : ∀ {u : AppState Data},
      hidesNone foundation.text u.searchText u.investments = false →
      (storeAndDismiss foundation u).Ends (fun t => ¬ ListsSearched foundation t)
        fun _ _ => True := fun shows =>
    store_and_dismiss_ends _
      (fun _ _ lists => Bool.false_ne_true (shows.symm.trans (hides_none_iff.mpr (lists rfl))))
      fun _ _ => trivial
  have breaks : (step foundation s event).Ends (fun t => ¬ ListsSearched foundation t)
      fun _ _ => True := by
    cases event with
    | catalogueArrives catalogue =>
        cases catalogue with
        | none => exact absurd hides.symm Bool.false_ne_true
        | some tempItems =>
            simp only [searchedEvent, Bool.or_eq_false_iff, Bool.not_eq_false'] at hides
            obtain ⟨enabled, shows⟩ := hides
            rw [← hides_none_update foundation.text s.searchText tempItems.items] at shows
            intro lists
            exact Bool.false_ne_true (shows.symm.trans (hides_none_iff.mpr (lists enabled)))
    | itemsNotification =>
        simp only [searchedEvent, Bool.or_eq_false_iff, Bool.not_eq_false'] at hides
        obtain ⟨loaded, shows⟩ := hides
        refine items_notification_ends s (fun _ _ lists => ?_) (fun _ _ => trivial) fun unloaded =>
          absurd (loaded.symm.trans unloaded) (by decide)
        exact Bool.false_ne_true (shows.symm.trans (hides_none_iff.mpr (lists rfl)))
    | addButton =>
        simp only [searchedEvent] at hides
        split at hides
        · exact absurd hides.symm Bool.false_ne_true
        · rename_i investment accepted
          simp only [step, addButton, accepted]
          split
          · rename_i adding
            exact stored (by simpa only [if_pos adding] using hides)
          · rename_i editing
            split
            · exact stored (by simpa only [if_neg editing] using hides)
            · trivial
    | _ => exact absurd hides.symm Bool.false_ne_true
  rw [ran] at breaks
  exact breaks

/-- In every run in which no step stores or shows what the search hides, the visible list
is the one that the search asks for, from the first reload on. -/
theorem listed_is_searched (foundation : Foundation Data) (s : AppState Data)
    (reachable : Reachable (app foundation) (Unhidden foundation)
      (Launched foundation (DistinctStored foundation)) s)
    (reloaded : s.totalBarButtonEnabled = true) :
    Listed foundation.text s.searchText s.investments s.investmentFilteredData := by
  refine reachable_invariant (ListsSearched foundation) ?_ ?_ reachable reloaded
  · rintro s ⟨defaults, -, rfl⟩ enabled
    exact nomatch enabled
  · intro s event before lists unhidden
    have rows := reachable_rows (fun _ _ guarded => guarded.1) before
    have identified := reachable_identified (fun _ _ guarded => guarded.1.1) before
    exact ends_mono (step_lists identified rows lists unhidden.2) (fun _ after => after)
      fun _ _ _ enabled => nomatch enabled

def octaneSearch : List Event :=
  firstSession ++ addItem 1 ++ [.overview (.searchBarTextDidChange "Octane")]

def octaneListed : Option (AppState (List InvestmentItem ⊕ List InvestmentGroup)) :=
  runEvents (app plainFoundation) (Unhidden plainFoundation) (launch plainFoundation .fresh)
    octaneSearch

theorem listed_is_searched_octane :
    ∃ s, octaneListed = some s ∧ s.investmentFilteredData.length = 1 ∧
      Listed asciiText s.searchText s.investments s.investmentFilteredData := by
  have searched : octaneListed.map (fun s =>
      (s.investmentFilteredData.length, s.totalBarButtonEnabled)) = some (1, true) := by
    decide +kernel
  obtain ⟨s, runs, result⟩ := Option.map_eq_some_iff.mp searched
  obtain ⟨one, reloaded⟩ := Prod.mk.inj result
  refine ⟨s, runs, one, listed_is_searched plainFoundation s ?_ reloaded⟩
  exact reachable_of_fresh_run _ fresh_distinct runs

def octaneAdded : Option (AppState (List InvestmentItem ⊕ List InvestmentGroup)) :=
  runEvents (app plainFoundation) OnScreen (launch plainFoundation .fresh)
    (octaneSearch ++ addItem 0)

/-- Adding another Octane while the search is on lists the Dominus again. -/
theorem adding_lists_hidden :
    ¬ ∀ s, Reachable (app plainFoundation) OnScreen
        (Launched plainFoundation (DistinctStored plainFoundation)) s →
      s.totalBarButtonEnabled = true →
      Listed asciiText s.searchText s.investments s.investmentFilteredData := by
  intro listed
  have added : octaneAdded.map (fun s => (s.totalBarButtonEnabled,
      storeIDs s.investmentFilteredData,
      storeIDs (searchInvestments asciiText s.searchText s.investments))) =
        some (true, [0, 1, 2], [0, 2]) := by decide +kernel
  obtain ⟨s, runs, result⟩ := Option.map_eq_some_iff.mp added
  simp only [Prod.mk.injEq] at result
  obtain ⟨reloaded, visible, asked⟩ := result
  have reached : Reachable (app plainFoundation) OnScreen
      (Launched plainFoundation (DistinctStored plainFoundation)) s :=
    reachable_of_fresh_run _ fresh_distinct runs
  have same := congrArg storeIDs (listed s reached reloaded)
  rw [visible] at same
  exact absurd (same.trans asked) (by decide)

end RlInvestments.SearchListing
