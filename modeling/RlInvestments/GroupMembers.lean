import RlInvestments.RowAccounting

/-!
# Groups and the investments they point at

`groupInvesment` collects the ids of a name and a platform when its button is pressed,
and nothing else writes a group: it is reset and filled again, never pruned. A group is
therefore right for as long as no investment in it is deleted, and none is edited to
another name or platform.
-/

namespace RlInvestments.GroupMembers

open RlInvestments.GuardedRuns RlInvestments.CatalogueItems RlInvestments.InvestmentStore
open RlInvestments.OverviewRows RlInvestments.AppMemory RlInvestments.OverviewHandlers
open RlInvestments.FormSheet RlInvestments.AppRuns RlInvestments.HandlerRules
open RlInvestments.StoredDefaults RlInvestments.StoreIdentity RlInvestments.RowAccounting

set_option autoImplicit false

/-- The investment has the name of the group, and its platform ignoring case. -/
def BelongsTo (text : SwiftText) (group : InvestmentGroup) (investment : InvestmentItem) : Prop :=
  investment.item.itemName = group.itemName ∧
    text.uppercased investment.platform = text.uppercased group.platform

def GroupRight (text : SwiftText) (investments : List InvestmentItem)
    (group : InvestmentGroup) : Prop :=
  ∀ id ∈ group.itemIDS, ∃ investment ∈ investments, investment.id = id ∧
    BelongsTo text group investment

def GroupsRight (text : SwiftText) (investments : List InvestmentItem)
    (groups : List InvestmentGroup) : Prop :=
  ∀ group ∈ groups, GroupRight text investments group

/-- Some group points at the id. -/
def isGrouped (groups : List InvestmentGroup) (id : Int) : Bool :=
  groups.any fun group => decide (id ∈ group.itemIDS)

theorem is_grouped_iff {groups : List InvestmentGroup} {id : Int} :
    isGrouped groups id = true ↔ ∃ group ∈ groups, id ∈ group.itemIDS := by
  simp only [isGrouped, List.any_eq_true, decide_eq_true_eq]

def Alike (text : SwiftText) (first second : InvestmentItem) : Prop :=
  first.item.itemName = second.item.itemName ∧
    text.uppercased first.platform = text.uppercased second.platform

instance (text : SwiftText) (first second : InvestmentItem) : Decidable (Alike text first second) :=
  inferInstanceAs (Decidable (_ ∧ _))

section Lists

variable {text : SwiftText} {investments changed : List InvestmentItem}
  {groups : List InvestmentGroup}

theorem belongs_to_alike {group : InvestmentGroup} {first second : InvestmentItem}
    (alike : Alike text first second) :
    BelongsTo text group first ↔ BelongsTo text group second := by
  rw [BelongsTo, BelongsTo, alike.1, alike.2]

theorem groups_right_mono (right : GroupsRight text investments groups)
    (kept : ∀ investment ∈ investments, isGrouped groups investment.id = true →
      ∃ next ∈ changed, next.id = investment.id ∧ Alike text next investment) :
    GroupsRight text changed groups := by
  intro group member id grouped
  obtain ⟨investment, held, rfl, belongs⟩ := right group member id grouped
  obtain ⟨next, present, same, alike⟩ :=
    kept investment held (is_grouped_iff.mpr ⟨group, member, grouped⟩)
  exact ⟨next, present, same, (belongs_to_alike alike).mpr belongs⟩

theorem groups_right_superset (right : GroupsRight text investments groups)
    (subset : investments ⊆ changed) : GroupsRight text changed groups :=
  groups_right_mono right fun investment held _ =>
    ⟨investment, subset held, rfl, rfl, rfl⟩

theorem groups_right_update (right : GroupsRight text investments groups)
    (items : List DecodingItem) :
    GroupsRight text (updateInvestments items investments) groups := by
  apply groups_right_mono right
  intro investment held _
  exact ⟨attachItem items investment, List.mem_map_of_mem held, attach_item_id items investment,
    attach_item_name items investment, by rw [attach_item_platform]⟩

theorem groups_right_erase {tag : Nat} (right : GroupsRight text investments groups)
    (ungrouped : ∀ removed, investments[tag]? = some removed →
      isGrouped groups removed.id = false) :
    GroupsRight text (investments.eraseIdx tag) groups := by
  apply groups_right_mono right
  intro investment held grouped
  obtain ⟨i, there⟩ := List.getElem?_of_mem held
  have elsewhere : i ≠ tag := by
    rintro rfl
    exact Bool.false_ne_true ((ungrouped investment there).symm.trans grouped)
  exact ⟨investment, List.mem_eraseIdx_iff_getElem?.mpr ⟨i, elsewhere, there⟩, rfl, rfl, rfl⟩

theorem groups_right_set {tag : Nat} {old new : InvestmentItem}
    (right : GroupsRight text investments groups) (there : investments[tag]? = some old)
    (sameID : new.id = old.id)
    (alike : isGrouped groups old.id = true → Alike text new old) :
    GroupsRight text (investments.set tag new) groups := by
  apply groups_right_mono right
  intro investment held grouped
  obtain ⟨i, position⟩ := List.getElem?_of_mem held
  by_cases here : i = tag
  · subst here
    obtain rfl : old = investment := Option.some.inj (there.symm.trans position)
    exact ⟨new, List.mem_set (List.getElem?_eq_some_iff.mp there).1 new, sameID, alike grouped⟩
  · have kept : (investments.set tag new)[i]? = some investment := by
      rw [List.getElem?_set_ne fun same => here same.symm]
      exact position
    exact ⟨investment, List.mem_of_getElem? kept, rfl, rfl, rfl⟩

/-- What is collected belongs to the group it is collected for. -/
theorem collected_right (group : InvestmentGroup) :
    GroupRight text investments
      { group with itemIDS := collectIDs text investments group.itemName group.platform } := by
  intro id collected
  obtain ⟨investment, chosen, rfl⟩ := List.mem_map.mp collected
  obtain ⟨held, belongs⟩ := List.mem_filter.mp chosen
  simp only [Bool.and_eq_true, beq_iff_eq] at belongs
  exact ⟨investment, held, rfl, belongs⟩

theorem groups_right_regroup (right : GroupsRight text investments groups)
    (selected : InvestmentItem) :
    GroupsRight text investments (regroup text investments selected groups) := by
  have reset : ∀ group ∈ groups.map (fun group =>
      if group.itemName == selected.item.itemName &&
          text.uppercased group.platform == text.uppercased selected.platform then
        { group with itemIDS := collectIDs text investments group.itemName group.platform }
      else group), GroupRight text investments group := by
    intro group member
    obtain ⟨old, oldMember, rfl⟩ := List.mem_map.mp member
    split
    · exact collected_right old
    · exact right old oldMember
  intro group member
  unfold regroup at member
  dsimp only at member
  split at member
  · exact reset group member
  · rcases List.mem_append.mp member with older | added
    · exact reset group older
    · obtain rfl := List.mem_singleton.mp added
      exact collected_right ⟨selected.item.itemName, selected.platform, []⟩

end Lists

variable {Data : Type} {foundation : Foundation Data}

variable (foundation) in
/-- A confirmed delete of an investment that no group points at, and an accepted edit that
changes neither the name nor the platform of one that a group points at. -/
def groupedEvent (s : AppState Data) : Event → Bool
  | .deleteConfirmed =>
      match s.investments[loweredTag s]? with
      | none => true
      | some removed => !isGrouped s.groups removed.id
  | .addButton =>
      match acceptedInvestment foundation s, s.investments[s.cellTag]? with
      | some investment, some edited =>
          !s.editingMode || !isGrouped s.groups edited.id ||
            decide (Alike foundation.text investment edited)
      | _, _ => true
  | _ => true

variable (foundation) in
abbrev KeepsGroups (s : AppState Data) (event : Event) : Prop :=
  Possible s event ∧ groupedEvent foundation s event = true

variable (foundation) in
def Grouped (s : AppState Data) : Prop := GroupsRight foundation.text s.investments s.groups

theorem reload_data_grouped {s : AppState Data} (grouped : Grouped foundation s) :
    (reloadData foundation s).Ends (Grouped foundation) fun _ => Grouped foundation :=
  reload_data_ends s (fun _ _ => grouped) fun _ _ => grouped

theorem delete_confirmed_grouped {s : AppState Data} (grouped : Grouped foundation s)
    (keeps : groupedEvent foundation s .deleteConfirmed = true) :
    (deleteConfirmed foundation s).Ends (Grouped foundation) fun _ => Grouped foundation := by
  have removed : Grouped foundation (afterRemoval foundation s) := by
    apply groups_right_erase grouped
    intro removed there
    simpa only [groupedEvent, there, Bool.not_eq_true'] using keeps
  apply delete_confirmed_ends s fun _ _ => grouped
  · intro row _ _ _ _
    unfold deleteRows
    split <;> exact removed
  · intro _ _
    apply reload_data_grouped
    exact removed

theorem overview_step_grouped {s : AppState Data} (grouped : Grouped foundation s)
    (event : OverviewEvent) :
    (overviewStep foundation s event).Ends (Grouped foundation) fun _ => Grouped foundation := by
  cases event with
  | searchBarTextDidChange searchText => exact reload_data_grouped grouped
  | addNewButton => exact add_new_button_ends s (fun _ => grouped) grouped
  | showTotal => exact show_total_ends s grouped fun _ _ => grouped
  | editButtonPressed tag => exact edit_investment_ends _ (fun _ _ => grouped) grouped
  | deleteButtonPressed tag => exact grouped
  | stepperValueChanged tag value =>
      apply amount_changed_ends _ _ grouped
      intro investment there
      apply reload_data_grouped
      exact groups_right_set grouped there rfl fun _ => ⟨rfl, rfl⟩
  | groupButtonPressed tag =>
      apply regroup_ends _ _ grouped
      intro selected _
      exact groups_right_regroup grouped selected
  | rlInsiderChart tag => exact show_chart_ends _ (fun _ => grouped) grouped

theorem store_and_dismiss_grouped {s : AppState Data} (grouped : Grouped foundation s) :
    (storeAndDismiss foundation s).Ends (Grouped foundation) fun _ => Grouped foundation :=
  store_and_dismiss_ends s (fun _ _ => grouped) fun _ _ => grouped

theorem add_button_grouped {s : AppState Data} (identified : Identified s)
    (form : s.presented = .form) (grouped : Grouped foundation s)
    (keeps : groupedEvent foundation s .addButton = true) :
    (addButton foundation s).Ends (Grouped foundation) fun _ => Grouped foundation := by
  apply add_button_ends s grouped _ _ grouped
  · intro investment _ _
    apply store_and_dismiss_grouped
    exact groups_right_superset grouped (List.subset_append_left _ _)
  · intro investment accepted editing inStore
    have there := List.getElem?_eq_getElem inStore
    have selected := (accepted_investment_spec accepted).2.2.2.2.2.1
    have sameID := identified.editing form editing
    rw [there, Option.map_some] at sameID
    apply store_and_dismiss_grouped
    apply groups_right_set grouped there (selected.trans (Option.some.inj sameID).symm)
    intro isMember
    simpa [groupedEvent, accepted, there, editing, isMember] using keeps

/-- The step lemma. A handler that stops has saved what it has changed. -/
theorem step_grouped {s : AppState Data} (identified : Identified s)
    (persisted : Persisted foundation s) (grouped : Grouped foundation s) {event : Event}
    (guarded : KeepsGroups foundation s event) :
    (step foundation s event).Ends (Grouped foundation) fun _ => Grouped foundation := by
  cases event with
  | relaunch =>
      change GroupsRight foundation.text (getSavedInvestments foundation s.defaults)
        (getSavedGroups foundation s.defaults)
      rw [persisted.investments, persisted.groups]
      exact grouped
  | catalogueArrives catalogue =>
      cases catalogue with
      | none => exact grouped
      | some tempItems => exact groups_right_update grouped tempItems.items
  | itemsNotification =>
      exact items_notification_ends s (fun _ _ => grouped) (fun _ _ => grouped) fun _ => grouped
  | delayedReload => exact reload_data_grouped grouped
  | traitCollectionDidChange => exact reload_data_grouped grouped
  | overviewDidLoad => exact view_did_load_ends s (fun _ _ => grouped) fun _ _ => grouped
  | overview event => exact overview_step_grouped grouped event
  | deleteConfirmed => exact delete_confirmed_grouped grouped guarded.2
  | deleteCancelled => exact grouped
  | form event => exact form_step_ends s event (fun _ _ _ _ _ _ _ _ => grouped) grouped
  | addButton => exact add_button_grouped identified (add_admitted guarded.1) grouped guarded.2
  | cancelButton => exact grouped
  | chartClosed => exact grouped
  | tab event => exact tab_step_ends s event fun _ _ _ _ _ _ _ => grouped

structure GroupedStored (foundation : Foundation Data) (defaults : UserDefaults Data) : Prop where
  distinct : DistinctStored foundation defaults
  groups : GroupsRight foundation.text (getSavedInvestments foundation defaults)
    (getSavedGroups foundation defaults)

theorem fresh_grouped : GroupedStored foundation .fresh where
  distinct := fresh_distinct
  groups := fun _ absent => absurd absent List.not_mem_nil

/-- While no grouped investment is deleted, or edited to another name or platform, groups
never point at the wrong investment. -/
theorem groups_never_wrong (foundation : Foundation Data) (s : AppState Data)
    (reachable : Reachable (app foundation) (KeepsGroups foundation)
      (Launched foundation (GroupedStored foundation)) s) :
    GroupsRight foundation.text s.investments s.groups := by
  apply reachable_invariant (Grouped foundation) _ _ reachable
  · rintro state ⟨defaults, stored, rfl⟩
    exact stored.groups
  · intro state event before grouped guarded
    have persisted := reachable_persisted before
    have admits : ∀ s event, KeepsGroups foundation s event → Possible s event :=
      fun _ _ admitted => admitted.1
    have identified : Identified state := by
      apply reachable_identified admits
      apply reachable_mono (fun _ _ same => same) _ before
      rintro start ⟨defaults, stored, rfl⟩
      exact ⟨defaults, stored.distinct, rfl⟩
    apply ends_mono (ends_and (step_grouped identified persisted grouped guarded)
      (step_persisted persisted event)) fun _ after => after.1
    rintro fault next ⟨right, saved⟩
    change GroupsRight foundation.text (getSavedInvestments foundation next.defaults)
      (getSavedGroups foundation next.defaults)
    rw [saved.investments, saved.groups]
    exact right

theorem wrong_without_holder {text : SwiftText} {investments : List InvestmentItem}
    {groups : List InvestmentGroup} {id : Int} (isMember : isGrouped groups id = true)
    (absent : ∀ investment ∈ investments, investment.id ≠ id) :
    ¬ GroupsRight text investments groups := by
  intro right
  obtain ⟨group, member, points⟩ := is_grouped_iff.mp isMember
  obtain ⟨investment, held, same, -⟩ := right group member id points
  exact absent investment held same

theorem wrong_unlike_holder {text : SwiftText} {investments : List InvestmentItem}
    {groups : List InvestmentGroup} {tag : Nat} {old new : InvestmentItem}
    (right : GroupsRight text investments groups) (distinct : DistinctIDs investments)
    (there : investments[tag]? = some old) (sameID : new.id = old.id)
    (isMember : isGrouped groups old.id = true) (unlike : ¬ Alike text new old) :
    ¬ GroupsRight text (investments.set tag new) groups := by
  intro after
  have inStore := (List.getElem?_eq_some_iff.mp there).1
  have distinctAfter : DistinctIDs (investments.set tag new) := by
    apply distinct_of_ids distinct
    exact set_ids (by rw [there, Option.map_some, sameID])
  obtain ⟨group, member, points⟩ := is_grouped_iff.mp isMember
  obtain ⟨before, held, same, belongs⟩ := right group member old.id points
  obtain rfl : before = old := by
    exact List.inj_on_of_nodup_map distinct held (List.mem_of_getElem? there) same
  obtain ⟨holder, heldAfter, sameAfter, belongsAfter⟩ := after group member before.id points
  obtain rfl : holder = new := by
    apply List.inj_on_of_nodup_map distinctAfter heldAfter (List.mem_set inStore new)
    rw [sameAfter, sameID]
  exact unlike ⟨belongsAfter.1.trans belongs.1.symm, belongsAfter.2.trans belongs.2.symm⟩

/-- A confirmed delete of a grouped investment leaves a group with an id that nobody has. -/
theorem grouped_delete_breaks {s t : AppState Data} (identified : Identified s)
    (breaks : groupedEvent foundation s .deleteConfirmed = false)
    (ran : step foundation s .deleteConfirmed = .running t) : ¬ Grouped foundation t := by
  have wrong : ¬ Grouped foundation (afterRemoval foundation s) := by
    simp only [groupedEvent] at breaks
    split at breaks
    · exact nomatch breaks
    · rename_i removed there
      apply wrong_without_holder (by simpa using breaks : isGrouped s.groups removed.id = true)
      intro investment rest same
      obtain ⟨i, elsewhere, position⟩ := List.mem_eraseIdx_iff_getElem?.mp rest
      apply elsewhere
      exact LastMatchScan.get_eq_of_same_key InvestmentItem.id identified.distinct position there
        same
  have ends : (deleteConfirmed foundation s).Ends (fun t => ¬ Grouped foundation t)
      fun _ _ => True := by
    apply delete_confirmed_ends s fun _ _ => trivial
    · intro row _ _ _ _
      unfold deleteRows
      split
      · exact wrong
      · trivial
    · intro _ _
      exact reload_data_ends _ (fun _ _ => wrong) fun _ _ => trivial
  rw [show deleteConfirmed foundation s = .running t from ran] at ends
  exact ends

/-- An accepted edit of a grouped investment to another name or platform leaves a group with
the id of an investment that does not belong to it. -/
theorem grouped_edit_breaks {s t : AppState Data} (identified : Identified s)
    (form : s.presented = .form) (grouped : Grouped foundation s)
    (breaks : groupedEvent foundation s .addButton = false)
    (ran : step foundation s .addButton = .running t) : ¬ Grouped foundation t := by
  simp only [groupedEvent] at breaks
  split at breaks
  · rename_i investment edited accepted there
    simp only [Bool.or_eq_false_iff, Bool.not_eq_false', decide_eq_false_iff_not] at breaks
    obtain ⟨⟨editing, isMember⟩, unlike⟩ := breaks
    have selected := (accepted_investment_spec accepted).2.2.2.2.2.1
    have sameID := identified.editing form editing
    rw [there, Option.map_some] at sameID
    have wrong := wrong_unlike_holder grouped identified.distinct there
      (selected.trans (Option.some.inj sameID).symm) isMember unlike
    have ends : (addButton foundation s).Ends (fun t => ¬ Grouped foundation t)
        fun _ _ => True := by
      unfold addButton
      rw [accepted]
      dsimp only
      rw [if_neg (by simp [editing]), if_pos (List.getElem?_eq_some_iff.mp there).1]
      exact store_and_dismiss_ends _ (fun _ _ => wrong) fun _ _ => trivial
    rw [show addButton foundation s = .running t from ran] at ends
    exact ends
  · exact nomatch breaks

def groupedSession : List Event :=
  firstSession ++ addItem 1 ++ [.overview (.groupButtonPressed 0),
    .overview (.deleteButtonPressed 1), .deleteConfirmed]

def groupedState : Option (AppState (List InvestmentItem ⊕ List InvestmentGroup)) :=
  runEvents (app plainFoundation) (KeepsGroups plainFoundation)
    (launch plainFoundation .fresh) groupedSession

theorem groups_never_wrong_octane :
    ∃ s, groupedState = some s ∧ s.groups = [⟨"Octane", "PC", [0]⟩] ∧
      GroupsRight asciiText s.investments s.groups := by
  have computed : groupedState.map (fun s => s.groups) = some [⟨"Octane", "PC", [0]⟩] := by
    decide +kernel
  obtain ⟨s, runs, groups⟩ := Option.map_eq_some_iff.mp computed
  refine ⟨s, runs, groups, groups_never_wrong plainFoundation s ?_⟩
  exact reachable_of_fresh_run _ fresh_grouped runs

/-- The Octane is grouped and deleted, and a Dominus is added. -/
def reusedID : Option (AppState (List InvestmentItem ⊕ List InvestmentGroup)) :=
  runEvents (app plainFoundation) OnScreen (launch plainFoundation .fresh)
    (firstSession ++ [.overview (.groupButtonPressed 0), .overview (.deleteButtonPressed 0),
      .deleteConfirmed] ++ addItem 1)

/-- The Dominus gets the id that the group of the Octane points at. -/
theorem group_points_at_other_item :
    ¬ ∀ s, Reachable (app plainFoundation) OnScreen
        (Launched plainFoundation (GroupedStored plainFoundation)) s →
      GroupsRight asciiText s.investments s.groups := by
  intro right
  have computed : reusedID.map (fun s => (s.groups, s.investments.map fun investment =>
      investment.item.itemName)) = some ([⟨"Octane", "PC", [0]⟩], ["Dominus"]) := by
    decide +kernel
  obtain ⟨s, runs, result⟩ := Option.map_eq_some_iff.mp computed
  obtain ⟨groups, names⟩ := Prod.mk.inj result
  have reached : Reachable (app plainFoundation) OnScreen
      (Launched plainFoundation (GroupedStored plainFoundation)) s :=
    reachable_of_fresh_run _ fresh_grouped runs
  have member : (⟨"Octane", "PC", [0]⟩ : InvestmentGroup) ∈ s.groups := by
    rw [groups]
    exact List.mem_singleton_self _
  obtain ⟨investment, held, -, named, -⟩ :=
    right s reached _ member 0 (List.mem_singleton_self _)
  have other := List.mem_map_of_mem (f := fun investment : InvestmentItem =>
    investment.item.itemName) held
  rw [names, named] at other
  exact absurd (List.mem_singleton.mp other) (by decide)

end RlInvestments.GroupMembers
