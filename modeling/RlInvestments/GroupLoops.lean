import RlInvestments.GroupMembers
import RlInvestments.WhileLoops

/-!
# The loops of `groupInvesment`

The first loop resets every group with the name and platform of the selected
investment and fills it again in place; if there was none, a new group is filled and
appended. Either way the group ends up with exactly the matching investments.
-/

namespace RlInvestments.GroupLoops

open RlInvestments.GuardedRuns RlInvestments.WhileLoops RlInvestments.CatalogueItems
open RlInvestments.LastMatchScan
open RlInvestments.InvestmentStore RlInvestments.OverviewRows RlInvestments.AppMemory
open RlInvestments.OverviewHandlers RlInvestments.AppRuns RlInvestments.GroupMembers

set_option autoImplicit false

variable (text : SwiftText)

def sameNameAndPlatform (group : InvestmentGroup) (investment : InvestmentItem) : Bool :=
  investment.item.itemName == group.itemName &&
    text.uppercased investment.platform == text.uppercased group.platform

def appendMember (investment : InvestmentItem) (group : InvestmentGroup) : InvestmentGroup :=
  if sameNameAndPlatform text group investment then
    { group with itemIDS := group.itemIDS ++ [investment.id] }
  else group

/-- `while a != investments.count`, on `groups[i]`. -/
def fillGroup (investments : List InvestmentItem) (i : Nat) (groups : List InvestmentGroup) :
    List InvestmentGroup :=
  forPositions investments.length (fun groups a =>
    match investments[a]? with
    | none => groups
    | some investment => groups.modify i (appendMember text investment)) groups

/-- One round of `while i != groups.count`, on `groups` and `groupAlreadyExists`. -/
def visitGroup (investments : List InvestmentItem) (selected : InvestmentItem)
    (state : List InvestmentGroup × Bool) (i : Nat) : List InvestmentGroup × Bool :=
  match state.1[i]? with
  | none => state
  | some group =>
      if sameNameAndPlatform text group selected then
        (fillGroup text investments i
          (state.1.modify i fun group => { group with itemIDS := [] }), true)
      else state

/-- The loop that fills `newGroup`. -/
def newGroup (investments : List InvestmentItem) (selected : InvestmentItem) : InvestmentGroup :=
  investments.foldl (fun group investment => appendMember text investment group)
    ⟨selected.item.itemName, selected.platform, []⟩

def groupLoops (investments : List InvestmentItem) (selected : InvestmentItem)
    (groups : List InvestmentGroup) : List InvestmentGroup :=
  let (groups, groupAlreadyExists) :=
    forPositions groups.length (visitGroup text investments selected) (groups, false)
  if groupAlreadyExists then groups else groups ++ [newGroup text investments selected]

variable {text}

def collected (text : SwiftText) (investments : List InvestmentItem) (group : InvestmentGroup) :
    InvestmentGroup :=
  { group with itemIDS := collectIDs text investments group.itemName group.platform }

theorem collected_append (investments : List InvestmentItem) (investment : InvestmentItem)
    (group : InvestmentGroup) :
    collected text (investments ++ [investment]) group =
      appendMember text investment (collected text investments group) := by
  have ids : ∀ members, collectIDs text members group.itemName group.platform =
      (members.filter (sameNameAndPlatform text group)).map InvestmentItem.id := fun _ => rfl
  have appended : appendMember text investment (collected text investments group) =
      if sameNameAndPlatform text group investment then
        { group with
          itemIDS := collectIDs text investments group.itemName group.platform ++ [investment.id] }
      else collected text investments group := rfl
  rw [appended, collected, ids, List.filter_append, List.map_append, ← ids]
  cases same : sameNameAndPlatform text group investment with
  | true =>
      rw [List.filter_cons_of_pos same]
      rfl
  | false =>
      have differs : ¬ sameNameAndPlatform text group investment = true := by simp [same]
      rw [List.filter_cons_of_neg differs, List.filter_nil, List.map_nil, List.append_nil]
      rfl

theorem fill_group_eq (investments : List InvestmentItem) (i : Nat)
    (groups : List InvestmentGroup) :
    fillGroup text investments i (groups.modify i fun group => { group with itemIDS := [] }) =
      groups.modify i (collected text investments) := by
  refine (for_positions_invariant
    (fun a filled => filled = groups.modify i (collected text (investments.take a)))
    ?_ rfl).trans (by rw [List.take_length])
  rintro a filled below rfl
  rw [List.getElem?_eq_getElem below]
  dsimp only
  rw [List.modify_modify_eq, List.take_succ_eq_append_getElem below]
  congr 1
  funext group
  exact (collected_append _ _ _).symm

theorem new_group_eq (investments : List InvestmentItem) (selected : InvestmentItem) :
    newGroup text investments selected =
      collected text investments ⟨selected.item.itemName, selected.platform, []⟩ := by
  have loop : ∀ before members, members.foldl
      (fun group investment => appendMember text investment group)
      (collected text before ⟨selected.item.itemName, selected.platform, []⟩) =
        collected text (before ++ members) ⟨selected.item.itemName, selected.platform, []⟩ := by
    intro before members
    induction members generalizing before with
    | nil => rw [List.append_nil, List.foldl_nil]
    | cons investment members induction =>
        rw [List.foldl_cons, ← collected_append, induction, List.append_assoc]
        rfl
  exact loop [] investments

def reset (text : SwiftText) (investments : List InvestmentItem) (selected : InvestmentItem)
    (group : InvestmentGroup) : InvestmentGroup :=
  if sameNameAndPlatform text group selected then collected text investments group else group

variable (text) in
theorem visit_group_eq (investments : List InvestmentItem) (selected : InvestmentItem)
    (visited : List InvestmentGroup) (group : InvestmentGroup) (rest : List InvestmentGroup)
    (groupAlreadyExists : Bool) :
    visitGroup text investments selected (visited ++ group :: rest, groupAlreadyExists)
        visited.length =
      (visited ++ reset text investments selected group :: rest,
        groupAlreadyExists || sameNameAndPlatform text group selected) := by
  have here : (visited ++ group :: rest)[visited.length]? = some group := by simp
  unfold visitGroup reset
  simp only [here]
  cases same : sameNameAndPlatform text group selected with
  | true =>
      rw [if_pos rfl, if_pos rfl, fill_group_eq, modify_after, Bool.or_true]
  | false => rw [if_neg Bool.false_ne_true, if_neg Bool.false_ne_true, Bool.or_false]

theorem visit_loop_eq (investments : List InvestmentItem) (selected : InvestmentItem)
    (groups : List InvestmentGroup) :
    forPositions groups.length (visitGroup text investments selected) (groups, false) =
      (groups.map (reset text investments selected),
        groups.any fun group => sameNameAndPlatform text group selected) := by
  refine (for_positions_invariant
    (fun i state => state =
      ((groups.take i).map (reset text investments selected) ++ groups.drop i,
        (groups.take i).any fun group => sameNameAndPlatform text group selected))
    ?_ rfl).trans (by rw [List.take_length, List.drop_length, List.append_nil])
  rintro i state below rfl
  have visited : ((groups.take i).map (reset text investments selected)).length = i := by
    rw [List.length_map, List.length_take_of_le (Nat.le_of_lt below)]
  have round := visit_group_eq text investments selected
    ((groups.take i).map (reset text investments selected)) groups[i] (groups.drop (i + 1))
    ((groups.take i).any fun group => sameNameAndPlatform text group selected)
  rw [visited, ← List.drop_eq_getElem_cons below] at round
  rw [round, List.take_succ_eq_append_getElem below, List.map_append, List.any_append,
    List.append_assoc]
  simp

/-- The loops in place and `regroup` are the same function. -/
theorem group_loops_eq (investments : List InvestmentItem) (selected : InvestmentItem)
    (groups : List InvestmentGroup) :
    groupLoops text investments selected groups = regroup text investments selected groups := by
  have compared : ∀ group : InvestmentGroup, sameNameAndPlatform text group selected =
      (group.itemName == selected.item.itemName &&
        text.uppercased group.platform == text.uppercased selected.platform) := by
    intro group
    rw [sameNameAndPlatform, Bool.beq_comm, Bool.beq_comm (a := text.uppercased group.platform)]
  have reset_eq : reset text investments selected = fun group =>
      if group.itemName == selected.item.itemName &&
          text.uppercased group.platform == text.uppercased selected.platform then
        collected text investments group
      else group := by
    funext group
    rw [reset, compared]
  unfold groupLoops regroup
  simp only [visit_loop_eq, new_group_eq, compared, reset_eq]
  rfl

section Keys

variable (text)

/-- Groups are told apart by their name and their platform ignoring case. -/
def groupKey (group : InvestmentGroup) : String × String :=
  (group.itemName, text.uppercased group.platform)

def investmentKey (investment : InvestmentItem) : String × String :=
  (investment.item.itemName, text.uppercased investment.platform)

def DistinctKeys (groups : List InvestmentGroup) : Prop := (groups.map (groupKey text)).Nodup

def likeIDs (investments : List InvestmentItem) (selected : InvestmentItem) : List Int :=
  (investments.filter fun investment =>
    decide (investmentKey text investment = investmentKey text selected)).map InvestmentItem.id

/-- The groups for the selected investment. -/
def groupsFor (selected : InvestmentItem) (groups : List InvestmentGroup) : List InvestmentGroup :=
  groups.filter fun group => decide (groupKey text group = investmentKey text selected)

def otherGroups (selected : InvestmentItem) (groups : List InvestmentGroup) :
    List InvestmentGroup :=
  groups.filter fun group => decide (groupKey text group ≠ investmentKey text selected)

structure GroupedExactly (investments : List InvestmentItem) (selected : InvestmentItem)
    (before after : List InvestmentGroup) : Prop where
  one : ∃ group, groupsFor text selected after = [group] ∧
    group.itemIDS = likeIDs text investments selected
  included : selected.id ∈ likeIDs text investments selected
  others : otherGroups text selected after = otherGroups text selected before
  distinct : DistinctKeys text after

end Keys

theorem same_key_iff (group : InvestmentGroup) (investment : InvestmentItem) :
    sameNameAndPlatform text group investment = true ↔
      groupKey text group = investmentKey text investment := by
  simp only [sameNameAndPlatform, Bool.and_eq_true, beq_iff_eq, groupKey, investmentKey,
    Prod.mk.injEq]
  exact and_congr eq_comm eq_comm

theorem collected_key (investments : List InvestmentItem) (group : InvestmentGroup) :
    groupKey text (collected text investments group) = groupKey text group := rfl

theorem reset_key (investments : List InvestmentItem) (selected : InvestmentItem)
    (group : InvestmentGroup) :
    groupKey text (reset text investments selected group) = groupKey text group := by
  unfold reset
  split
  · exact collected_key investments group
  · rfl

theorem reset_other {investments : List InvestmentItem} {selected : InvestmentItem}
    {group : InvestmentGroup} (other : groupKey text group ≠ investmentKey text selected) :
    reset text investments selected group = group :=
  if_neg fun same => other ((same_key_iff group selected).mp same)

theorem collected_ids {investments : List InvestmentItem} {selected : InvestmentItem}
    {group : InvestmentGroup} (same : groupKey text group = investmentKey text selected) :
    (collected text investments group).itemIDS = likeIDs text investments selected := by
  have collects : (collected text investments group).itemIDS =
      (investments.filter (sameNameAndPlatform text group)).map InvestmentItem.id := rfl
  rw [collects, likeIDs]
  congr 1
  refine List.filter_congr fun investment _ => ?_
  rw [Bool.eq_iff_iff, same_key_iff, same, decide_eq_true_eq]
  exact eq_comm

theorem selected_included {investments : List InvestmentItem} {selected : InvestmentItem}
    (member : selected ∈ investments) : selected.id ∈ likeIDs text investments selected :=
  List.mem_map_of_mem (List.mem_filter.mpr ⟨member, decide_eq_true rfl⟩)

theorem reset_grouped {investments : List InvestmentItem} {selected : InvestmentItem}
    {groups : List InvestmentGroup} (member : selected ∈ investments)
    (distinct : DistinctKeys text groups) {group : InvestmentGroup} (present : group ∈ groups)
    (same : groupKey text group = investmentKey text selected) :
    GroupedExactly text investments selected groups
      (groups.map (reset text investments selected)) where
  one := by
    have alone : groupsFor text selected groups = [group] := by
      rw [groupsFor, ← same]
      exact filter_of_key (groupKey text) distinct present
    refine ⟨collected text investments group, ?_, collected_ids same⟩
    rw [groupsFor, List.filter_map]
    simp only [Function.comp_def, reset_key]
    rw [← groupsFor, alone, List.map_singleton, reset, if_pos ((same_key_iff _ _).mpr same)]
  included := selected_included member
  others := by
    rw [otherGroups, List.filter_map]
    simp only [Function.comp_def, reset_key]
    have kept : ∀ other ∈ otherGroups text selected groups,
        reset text investments selected other = id other := fun other chosen =>
      reset_other (of_decide_eq_true (List.mem_filter.mp chosen).2)
    exact (List.map_congr_left kept).trans (List.map_id _)
  distinct := by
    have keys : (groups.map (reset text investments selected)).map (groupKey text) =
        groups.map (groupKey text) := by
      simp only [List.map_map, Function.comp_def, reset_key]
    rw [DistinctKeys, keys]
    exact distinct

theorem new_group_key (investments : List InvestmentItem) (selected : InvestmentItem) :
    groupKey text (newGroup text investments selected) = investmentKey text selected := by
  rw [new_group_eq]
  rfl

theorem appended_grouped {investments : List InvestmentItem} {selected : InvestmentItem}
    {groups : List InvestmentGroup} (member : selected ∈ investments)
    (distinct : DistinctKeys text groups)
    (absent : ∀ group ∈ groups, groupKey text group ≠ investmentKey text selected) :
    GroupedExactly text investments selected groups
      (groups ++ [newGroup text investments selected]) where
  one := by
    have none_ : groupsFor text selected groups = [] :=
      List.filter_eq_nil_iff.mpr fun group present => by simpa using absent group present
    refine ⟨newGroup text investments selected, ?_, ?_⟩
    · rw [groupsFor, List.filter_append, ← groupsFor, none_, List.nil_append]
      exact List.filter_cons_of_pos (decide_eq_true (new_group_key investments selected))
    · rw [new_group_eq]
      exact collected_ids rfl
  included := selected_included member
  others := by
    have chosen : otherGroups text selected [newGroup text investments selected] = [] :=
      List.filter_eq_nil_iff.mpr fun group new => by
        rw [List.mem_singleton.mp new, new_group_key]
        simp
    rw [otherGroups, List.filter_append, ← otherGroups, ← otherGroups, chosen, List.append_nil]
  distinct := by
    rw [DistinctKeys, List.map_append, List.nodup_append]
    refine ⟨distinct, List.nodup_singleton _, ?_⟩
    intro key old fresh new
    obtain ⟨group, present, rfl⟩ := List.mem_map.mp old
    have added : fresh = investmentKey text selected :=
      (List.mem_singleton.mp new).trans (new_group_key investments selected)
    rw [added]
    exact absent group present

theorem group_loops_grouped {investments : List InvestmentItem} {selected : InvestmentItem}
    {groups : List InvestmentGroup} (member : selected ∈ investments)
    (distinct : DistinctKeys text groups) :
    GroupedExactly text investments selected groups
      (groupLoops text investments selected groups) := by
  unfold groupLoops
  simp only [visit_loop_eq]
  split
  · rename_i found
    obtain ⟨group, present, same⟩ := List.any_eq_true.mp found
    exact reset_grouped member distinct present ((same_key_iff group selected).mp same)
  · rename_i missing
    have absent : ∀ group ∈ groups, groupKey text group ≠ investmentKey text selected :=
      fun group present same => missing
        (List.any_eq_true.mpr ⟨group, present, (same_key_iff group selected).mpr same⟩)
    have kept : groups.map (reset text investments selected) = groups :=
      (List.map_congr_left fun group present => reset_other (absent group present)).trans
        (List.map_id _)
    rw [kept]
    exact appended_grouped member distinct absent

theorem group_loops_again {investments : List InvestmentItem} {selected : InvestmentItem}
    {before after : List InvestmentGroup}
    (grouped : GroupedExactly text investments selected before after) :
    groupLoops text investments selected after = after := by
  obtain ⟨group, alone, exact_⟩ := grouped.one
  have member : group ∈ groupsFor text selected after := alone ▸ List.mem_singleton_self group
  obtain ⟨present, same⟩ := List.mem_filter.mp member
  have found : (after.any fun group => sameNameAndPlatform text group selected) = true :=
    List.any_eq_true.mpr ⟨group, present, (same_key_iff _ _).mpr (of_decide_eq_true same)⟩
  have kept : ∀ other ∈ after, reset text investments selected other = id other := by
    intro other otherPresent
    by_cases key : groupKey text other = investmentKey text selected
    · have chosen : other ∈ groupsFor text selected after :=
        List.mem_filter.mpr ⟨otherPresent, decide_eq_true key⟩
      rw [alone, List.mem_singleton] at chosen
      subst chosen
      rw [reset, if_pos ((same_key_iff _ _).mpr key)]
      have ids : collectIDs text investments other.itemName other.platform = other.itemIDS :=
        (collected_ids key).trans exact_.symm
      rw [collected, ids]
      rfl
    · exact reset_other key
  unfold groupLoops
  simp only [visit_loop_eq, found, if_true]
  exact (List.map_congr_left kept).trans (List.map_id _)

variable {Data : Type}

/-- Pressing the group button of an investment leaves exactly one group for it, with exactly
the investments like it, and touches no other group; pressing it again changes nothing. -/
theorem group_button_exact (foundation : Foundation Data) (s : AppState Data)
    (selected : InvestmentItem) (there : s.investments[s.cellTag]? = some selected)
    (distinct : DistinctKeys foundation.text s.groups) :
    ∃ t, groupInvesment foundation s = .running t ∧
      t.groups = groupLoops foundation.text s.investments selected s.groups ∧
      GroupedExactly foundation.text s.investments selected s.groups t.groups ∧
      groupInvesment foundation t = .running t := by
  have member := List.mem_of_getElem? there
  have grouped := group_loops_grouped member distinct
  have again := group_loops_again grouped
  rw [group_loops_eq] at grouped again
  refine ⟨saveGroupData foundation { s with
    groups := regroup foundation.text s.investments selected s.groups }, ?_, ?_, grouped, ?_⟩
  · simp only [groupInvesment, there]
  · exact (group_loops_eq _ _ _).symm
  · rw [group_loops_eq] at again
    simp only [groupInvesment, saveGroupData, there, again]

def twoSpellings : AppState (List InvestmentItem ⊕ List InvestmentGroup) :=
  { launch plainFoundation .fresh with
    investments := [⟨octane, "Default", 1, 90, "PC", 0⟩, ⟨octane, "Default", 2, 95, "pc", 1⟩]
    groups := [⟨"Dominus", "PS4", [7]⟩] }

theorem group_button_exact_two_spellings :
    ∃ t, groupInvesment plainFoundation twoSpellings = .running t ∧
      t.groups = groupLoops asciiText twoSpellings.investments
        ⟨octane, "Default", 1, 90, "PC", 0⟩ twoSpellings.groups ∧
      GroupedExactly asciiText twoSpellings.investments ⟨octane, "Default", 1, 90, "PC", 0⟩
        twoSpellings.groups t.groups ∧
      groupInvesment plainFoundation t = .running t :=
  group_button_exact plainFoundation twoSpellings _ rfl (List.nodup_singleton _)

example : groupLoops asciiText twoSpellings.investments ⟨octane, "Default", 1, 90, "PC", 0⟩
    twoSpellings.groups = [⟨"Dominus", "PS4", [7]⟩, ⟨"Octane", "PC", [0, 1]⟩] := by
  decide +kernel

end RlInvestments.GroupLoops
