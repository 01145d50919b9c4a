import RlInvestments.GroupLoops
import RlInvestments.PortfolioJournal

/-!
# The groups and their journal

The group button is the only thing that writes a group: it opens one for a name and a
platform, or fills the one that is there again. The groups after a run are the replay of
the buttons pressed in it, each read off the store of its time, whatever is added, edited,
deleted or refreshed between them.
-/

namespace RlInvestments.GroupJournal

open RlInvestments.GuardedRuns RlInvestments.CatalogueItems RlInvestments.InvestmentStore
open RlInvestments.OverviewRows RlInvestments.AppMemory RlInvestments.OverviewHandlers
open RlInvestments.FormSheet RlInvestments.AppRuns RlInvestments.HandlerRules
open RlInvestments.StoredDefaults RlInvestments.StoreIdentity RlInvestments.GroupLoops
open RlInvestments.KeyedLedger
open RlInvestments.PortfolioJournal (Ascending AscendingStored fresh_ascending reachable_ascending)

set_option autoImplicit false

section Lists

variable {text : SwiftText} {investments : List InvestmentItem} {selected : InvestmentItem}
  {groups : List InvestmentGroup}

variable (text) in
/-- The groups under their names and platforms. -/
abbrev register (groups : List InvestmentGroup) : Ledger (String × String) InvestmentGroup :=
  ofList (groupKey text) groups

variable (text) in
def hasGroup (groups : List InvestmentGroup) (selected : InvestmentItem) : Bool :=
  groups.any fun group => decide (groupKey text group = investmentKey text selected)

theorem has_group_iff : hasGroup text groups selected = true ↔
    ∃ group ∈ groups, groupKey text group = investmentKey text selected := by
  simp only [hasGroup, List.any_eq_true, decide_eq_true_eq]

theorem reset_by_key (group : InvestmentGroup) :
    reset text investments selected group =
      if groupKey text group = investmentKey text selected then
        { group with itemIDS := likeIDs text investments selected }
      else group := by
  by_cases same : groupKey text group = investmentKey text selected
  · rw [if_pos same, reset, if_pos ((same_key_iff group selected).mpr same)]
    rw [← collected_ids same]
    rfl
  · rw [if_neg same, reset_other same]

theorem regroup_by_key :
    regroup text investments selected groups =
      if hasGroup text groups selected then
        groups.map fun group =>
          if groupKey text group = investmentKey text selected then
            { group with itemIDS := likeIDs text investments selected }
          else group
      else groups ++ [⟨selected.item.itemName, selected.platform,
        likeIDs text investments selected⟩] := by
  have compared : (groups.any fun group => sameNameAndPlatform text group selected) =
      hasGroup text groups selected := by
    rw [hasGroup]
    congr 1
    funext group
    rw [Bool.eq_iff_iff, same_key_iff, decide_eq_true_eq]
  have resets : reset text investments selected = fun group =>
      if groupKey text group = investmentKey text selected then
        { group with itemIDS := likeIDs text investments selected }
      else group := funext reset_by_key
  rw [← group_loops_eq, groupLoops]
  simp only [visit_loop_eq, compared, resets]
  by_cases found : hasGroup text groups selected = true
  · rw [if_pos found, if_pos found]
  · rw [if_neg found, if_neg found]
    congr 1
    · apply (List.map_congr_left _).trans (List.map_id _)
      intro group member
      apply if_neg
      exact fun same => found (has_group_iff.mpr ⟨group, member, same⟩)
    · rw [new_group_eq, ← collected_ids (new_group_key investments selected), new_group_eq]
      rfl

/-- A group holds at least the investment it was made for, and its ids are in store order. -/
def Formed (group : InvestmentGroup) : Prop :=
  group.itemIDS ≠ [] ∧ group.itemIDS.Pairwise (· < ·)

theorem like_ids_formed (ascending : Ascending investments) (member : selected ∈ investments) :
    likeIDs text investments selected ≠ [] ∧
      (likeIDs text investments selected).Pairwise (· < ·) := by
  constructor
  · exact List.ne_nil_of_mem (selected_included member)
  · exact ascending.sublist (List.filter_sublist.map InvestmentItem.id)

variable (text) in
/-- What an entry makes of the groups. No key is taken away, and none becomes another one. -/
structure Leads (entry : Entry (String × String) InvestmentGroup)
    (before after : List InvestmentGroup) : Prop where
  register : register text after = entry.apply (register text before)
  count : after.length + entry.closes = before.length + entry.opens
  keys : before.map (groupKey text) <+: after.map (groupKey text)
  distinct : DistinctKeys text before → DistinctKeys text after
  formed : (∀ group ∈ before, Formed group) → ∀ group ∈ after, Formed group

theorem leads_nothing (groups : List InvestmentGroup) : Leads text .nothing groups groups :=
  ⟨rfl, rfl, List.prefix_rfl, fun distinct => distinct, fun formed => formed⟩

variable (text) in
/-- The entry of a group button. -/
def pressed (investments : List InvestmentItem) (selected : InvestmentItem)
    (groups : List InvestmentGroup) : Entry (String × String) InvestmentGroup :=
  if hasGroup text groups selected then
    .changed (investmentKey text selected) fun group =>
      { group with itemIDS := likeIDs text investments selected }
  else .opened (investmentKey text selected) ⟨selected.item.itemName, selected.platform,
    likeIDs text investments selected⟩

theorem leads_pressed (ascending : Ascending investments) (member : selected ∈ investments) :
    Leads text (pressed text investments selected groups) groups
      (regroup text investments selected groups) := by
  have like : likeIDs text investments selected ≠ [] ∧
      (likeIDs text investments selected).Pairwise (· < ·) := like_ids_formed ascending member
  have distinct : DistinctKeys text groups →
      DistinctKeys text (regroup text investments selected groups) := by
    intro before
    rw [← group_loops_eq]
    exact (group_loops_grouped member before).distinct
  rw [regroup_by_key] at distinct ⊢
  unfold pressed
  by_cases found : hasGroup text groups selected = true
  · rw [if_pos found] at distinct ⊢
    rw [if_pos found]
    constructor
    · exact of_list_map_at fun group _ same => same
    · exact List.length_map _
    · have keys : (groups.map fun group =>
          if groupKey text group = investmentKey text selected then
            { group with itemIDS := likeIDs text investments selected }
          else group).map (groupKey text) = groups.map (groupKey text) := by
        rw [List.map_map]
        apply List.map_congr_left
        intro group _
        simp only [Function.comp]
        split <;> rfl
      rw [keys]
    · exact distinct
    · intro formed group present
      have ⟨old, oldPresent, same⟩ := List.mem_map.mp present
      rw [← same]
      split
      · exact like
      · exact formed old oldPresent
  · rw [if_neg found] at distinct ⊢
    rw [if_neg found]
    constructor
    · apply of_list_append
      intro group present same
      exact found (has_group_iff.mpr ⟨group, present, same⟩)
    · exact List.length_append
    · rw [List.map_append]
      exact List.prefix_append _ _
    · exact distinct
    · intro formed group present
      cases List.mem_append.mp present with
      | inl older => exact formed group older
      | inr added =>
          rw [List.mem_singleton.mp added]
          exact like

theorem pressed_fits :
    (pressed text investments selected groups).Fits (register text groups) := by
  unfold pressed
  by_cases found : hasGroup text groups selected = true
  · rw [if_pos found]
    have ⟨group, present, same⟩ := has_group_iff.mp found
    apply Option.isSome_iff_ne_none.mpr
    intro missing
    exact of_list_none_iff.mp missing group present same
  · rw [if_neg found]
    apply of_list_none_iff.mpr
    intro group present same
    exact found (has_group_iff.mpr ⟨group, present, same⟩)

end Lists

variable {Data : Type} {foundation : Foundation Data}

variable (foundation) in
def recorded (s : AppState Data) : Event → Entry (String × String) InvestmentGroup
  | .overview (.groupButtonPressed tag) =>
      match s.investments[tag]? with
      | none => .nothing
      | some selected => pressed foundation.text s.investments selected s.groups
  | _ => .nothing

variable (foundation) in
abbrev Leaves (entry : Entry (String × String) InvestmentGroup) (before : List InvestmentGroup)
    (outcome : Outcome Fault (AppState Data)) : Prop :=
  outcome.Ends (fun t => Leads foundation.text entry before t.groups)
    fun _ t => Leads foundation.text entry before t.groups

theorem overview_step_leaves {s : AppState Data} (ascending : Ascending s.investments)
    (event : OverviewEvent) :
    Leaves foundation (recorded foundation s (.overview event)) s.groups
      (overviewStep foundation s event) := by
  have kept : Leads foundation.text .nothing s.groups s.groups := leads_nothing s.groups
  cases event with
  | searchBarTextDidChange searchText =>
      exact reload_data_ends _ (fun _ _ => kept) fun _ _ => kept
  | addNewButton => exact add_new_button_ends s (fun _ => kept) kept
  | showTotal => exact show_total_ends s kept fun _ _ => kept
  | editButtonPressed tag => exact edit_investment_ends _ (fun _ _ => kept) kept
  | deleteButtonPressed tag => exact kept
  | stepperValueChanged tag value =>
      apply amount_changed_ends _ _ kept
      intro _ _
      exact reload_data_ends _ (fun _ _ => kept) fun _ _ => kept
  | groupButtonPressed tag =>
      cases found : s.investments[tag]? with
      | none =>
          simp only [recorded, overviewStep, groupInvesment, found]
          exact kept
      | some selected =>
          simp only [recorded, overviewStep, groupInvesment, found]
          exact leads_pressed ascending (List.mem_of_getElem? found)
  | rlInsiderChart tag => exact show_chart_ends _ (fun _ => kept) kept

theorem store_and_dismiss_leaves {before : List InvestmentGroup} {s : AppState Data}
    (kept : Leads foundation.text .nothing before s.groups) :
    Leaves foundation .nothing before (storeAndDismiss foundation s) :=
  store_and_dismiss_ends s (fun _ _ => kept) fun _ _ => kept

/-- The step lemma: every handler but the group button leaves the groups alone. -/
theorem step_leaves {s : AppState Data} (persisted : Persisted foundation s)
    (ascending : Ascending s.investments) (event : Event) :
    Leaves foundation (recorded foundation s event) s.groups
      (step foundation s event) := by
  have kept : Leads foundation.text .nothing s.groups s.groups := leads_nothing s.groups
  cases event with
  | relaunch =>
      have saved : getSavedGroups foundation s.defaults = s.groups := persisted.groups
      have again : Leads foundation.text .nothing s.groups
          (getSavedGroups foundation s.defaults) := by
        rw [saved]
        exact kept
      exact again
  | catalogueArrives catalogue =>
      cases catalogue with
      | none => exact kept
      | some tempItems => exact kept
  | itemsNotification =>
      exact items_notification_ends s (fun _ _ => kept) (fun _ _ => kept) fun _ => kept
  | delayedReload => exact reload_data_ends _ (fun _ _ => kept) fun _ _ => kept
  | traitCollectionDidChange => exact reload_data_ends s (fun _ _ => kept) fun _ _ => kept
  | overviewDidLoad => exact view_did_load_ends s (fun _ _ => kept) fun _ _ => kept
  | overview event => exact overview_step_leaves ascending event
  | deleteConfirmed =>
      apply delete_confirmed_ends s fun _ _ => kept
      · intro row _ _ _ _
        unfold deleteRows
        split <;> exact kept
      · intro _ _
        exact reload_data_ends _ (fun _ _ => kept) fun _ _ => kept
  | deleteCancelled => exact kept
  | form event => exact form_step_ends s event (fun _ _ _ _ _ _ _ _ => kept) kept
  | addButton =>
      apply add_button_ends s kept _ _ kept
      · exact fun _ _ _ => store_and_dismiss_leaves kept
      · exact fun _ _ _ _ => store_and_dismiss_leaves kept
  | cancelButton => exact kept
  | chartClosed => exact kept
  | tab event => exact tab_step_ends s event fun _ _ _ _ _ _ _ => kept

theorem next_leads {s : AppState Data} (persisted : Persisted foundation s)
    (ascending : Ascending s.investments) (event : Event) :
    Leads foundation.text (recorded foundation s event) s.groups
      ((app foundation).next s event).groups := by
  apply ends_next (app foundation) fun t : AppState Data =>
    Leads foundation.text (recorded foundation s event) s.groups t.groups
  apply ends_mono (ends_and (step_leaves persisted ascending event)
    (step_persisted persisted event))
  · exact fun _ after => after.1
  · intro _ t ⟨left, saved⟩
    have again : Leads foundation.text (recorded foundation s event) s.groups
        (getSavedGroups foundation t.defaults) := by
      rw [saved.groups]
      exact left
    exact again

theorem recorded_fits (s : AppState Data) (event : Event) :
    (recorded foundation s event).Fits (register foundation.text s.groups) := by
  unfold recorded
  split
  · split
    · trivial
    · exact pressed_fits
  · trivial

variable (foundation) in
def registerOf (s : AppState Data) : Ledger (String × String) InvestmentGroup :=
  register foundation.text s.groups

def groupCount (s : AppState Data) : Nat := s.groups.length

structure GroupsStored (foundation : Foundation Data) (defaults : UserDefaults Data) : Prop where
  ascending : AscendingStored foundation defaults
  distinct : DistinctKeys foundation.text (getSavedGroups foundation defaults)
  formed : ∀ group ∈ getSavedGroups foundation defaults, Formed group

theorem fresh_groups : GroupsStored foundation .fresh where
  ascending := fresh_ascending
  distinct := List.nodup_nil
  formed := fun _ absent => absurd absent List.not_mem_nil

structure GroupsJournaled (foundation : Foundation Data) (s : AppState Data)
    (events : List Event) (t : AppState Data) : Prop where
  replays : Replays (app foundation) (recorded foundation) (registerOf foundation) groupCount
    s events t
  keys : s.groups.map (groupKey foundation.text) <+: t.groups.map (groupKey foundation.text)
  distinct : DistinctKeys foundation.text t.groups
  formed : ∀ group ∈ t.groups, Formed group
  saved : getSavedGroups foundation t.defaults = t.groups

abbrev Runs (foundation : Foundation Data) (s : AppState Data) : Prop :=
  Reachable (app foundation) Possible (Launched foundation (GroupsStored foundation)) s

theorem runs_ascending {s : AppState Data} (runs : Runs foundation s) :
    Ascending s.investments := by
  have reachable : Reachable (app foundation) Possible
      (Launched foundation (AscendingStored foundation)) s := by
    apply reachable_mono (fun _ _ same => same) _ runs
    intro start ⟨defaults, stored, same⟩
    exact ⟨defaults, stored.ascending, same⟩
  exact (reachable_ascending (fun _ _ admitted => admitted) reachable).2

theorem runs_next_leads {s : AppState Data} (runs : Runs foundation s) (event : Event) :
    Leads foundation.text (recorded foundation s event) s.groups
      ((app foundation).next s event).groups :=
  next_leads (reachable_persisted runs) (runs_ascending runs) event

theorem runs_groups {s : AppState Data} (runs : Runs foundation s) :
    DistinctKeys foundation.text s.groups ∧ ∀ group ∈ s.groups, Formed group := by
  apply next_invariant (fun s : AppState Data =>
    DistinctKeys foundation.text s.groups ∧ ∀ group ∈ s.groups, Formed group) _ _ runs
  · intro start ⟨defaults, stored, same⟩
    rw [same]
    exact ⟨stored.distinct, stored.formed⟩
  · intro state event before ⟨distinct, formed⟩ _
    have leads := runs_next_leads before event
    exact ⟨leads.distinct distinct, leads.formed formed⟩

/-- The groups after a run are the replay of its group buttons, and what was a group before
is one after it. -/
theorem groups_are_replay (foundation : Foundation Data) (s t : AppState Data)
    (events : List Event)
    (reachable : Reachable (app foundation) Possible
      (Launched foundation (GroupsStored foundation)) s)
    (runs : runEvents (app foundation) Possible s events = some t) :
    GroupsJournaled foundation s events t := by
  have later : Runs foundation t := reachable_of_run_events _ _ reachable runs
  have ⟨distinct, formed⟩ := runs_groups later
  constructor
  · apply run_replays _ reachable runs
    intro state event before _
    have leads := runs_next_leads before event
    exact ⟨recorded_fits state event, leads.register, leads.count⟩
  · have between : Reachable (app foundation) Possible (fun start => start = s) t :=
      reachable_of_run_events _ _ (.start rfl) runs
    apply next_invariant (fun t : AppState Data =>
      s.groups.map (groupKey foundation.text) <+: t.groups.map (groupKey foundation.text))
      _ _ between
    · intro start same
      rw [same]
    · intro state event before keys _
      exact keys.trans (runs_next_leads (reachable_trans reachable before) event).keys
  · exact distinct
  · exact formed
  · exact (reachable_persisted later).groups

/-- A group is made, its investment is joined by another one and deleted, and the button is
pressed again on the other one after a relaunch. -/
def groupedSession : List Event :=
  firstSession ++ [.overview (.groupButtonPressed 0)] ++ addItem 0 ++
    [.overview (.deleteButtonPressed 0), .deleteConfirmed, .relaunch,
      .catalogueArrives (some ⟨[octane, dominus]⟩), .overviewDidLoad, .itemsNotification,
      .overview (.groupButtonPressed 0)]

theorem groups_are_replay_session :
    ∃ t, runEvents (app plainFoundation) Possible (launch plainFoundation .fresh)
        groupedSession = some t ∧
      t.groups = [⟨"Octane", "PC", [1]⟩] ∧
      GroupsJournaled plainFoundation (launch plainFoundation .fresh) groupedSession t := by
  have grouped : (runEvents (app plainFoundation) Possible (launch plainFoundation .fresh)
      groupedSession).map AppState.groups = some [⟨"Octane", "PC", [1]⟩] := by decide +kernel
  have ⟨t, runs, one⟩ := Option.map_eq_some_iff.mp grouped
  have reachable : Runs plainFoundation (launch plainFoundation .fresh) :=
    .start ⟨.fresh, fresh_groups, rfl⟩
  exact ⟨t, runs, one, groups_are_replay plainFoundation _ t groupedSession reachable runs⟩

end RlInvestments.GroupJournal
