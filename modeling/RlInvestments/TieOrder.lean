import RlInvestments.CrossPlatformSort
import RlInvestments.StableSort

/-!
# Rows with equal rates

The sort block takes the last of the highest entries each time, so that it computes the
stable descending sort of the reversed list: entries with equal percentages come out in the
opposite order. A block that runs over a list already sorted turns them round again, and
their order tells whether an even or an odd number of blocks has run since the reload.
-/

namespace RlInvestments.TieOrder

open RlInvestments.CatalogueItems RlInvestments.GuardedRuns RlInvestments.OverviewRows
open RlInvestments.WhileLoops RlInvestments.CrossPlatformList RlInvestments.CrossPlatformSort
open RlInvestments.StableSort

set_option autoImplicit false

section Block

variable {Percentage : Type} [LinearOrder Percentage]

def sortedBackwards (entries : List (XPlat Percentage)) : List (XPlat Percentage) :=
  sortByKey XPlat.percentageIncrease entries.reverse

/-- The entry at `highestIncrease` is above all those that were visited after it. -/
structure LastHighest (oldList : List (XPlat Percentage)) (position : Nat × Nat) : Prop where
  highest : HighestSoFar oldList position
  later : ∀ top, oldList[position.2]? = some top → ∀ j, position.2 < j → j < position.1 →
    ∀ entry, oldList[j]? = some entry → entry.percentageIncrease < top.percentageIncrease

theorem compare_next_last {oldList : List (XPlat Percentage)} {position : Nat × Nat}
    (holds : LastHighest oldList position) (goesOn : position.1 ≠ oldList.length) :
    ∃ next, compareNext oldList position = .ok next ∧ LastHighest oldList next ∧
      next.1 = position.1 + 1 := by
  have ⟨next, ran, highest, moved⟩ := compare_next_highest holds.highest goesOn
  refine ⟨next, ran, ⟨highest, ?_⟩, moved⟩
  obtain ⟨i, highestIncrease⟩ := position
  have ⟨top, isTop, _⟩ := holds.highest.highest
  have inside : i < oldList.length := lt_of_le_of_ne holds.highest.visited goesOn
  have there : oldList[i]? = some oldList[i] := List.getElem?_eq_getElem inside
  have computed : compareNext oldList (i, highestIncrease) = .ok (i + 1,
      if oldList[i].percentageIncrease ≥ top.percentageIncrease then i else highestIncrease) := by
    simp only [compareNext, element_some there, element_some isTop]
    rfl
  obtain rfl := Except.ok.inj (computed.symm.trans ran)
  intro chosen isChosen j after before entry found
  by_cases above : oldList[i].percentageIncrease ≥ top.percentageIncrease
  · rw [if_pos above] at after
    omega
  · rw [if_neg above] at after isChosen
    obtain rfl := Option.some.inj (isTop.symm.trans isChosen)
    rcases Nat.lt_succ_iff_lt_or_eq.mp before with earlier | same
    · exact holds.later top isTop j after earlier entry found
    · rw [same, there] at found
      rw [← Option.some.inj found]
      exact not_le.mp above

theorem find_highest_last {oldList : List (XPlat Percentage)} (nonempty : 0 < oldList.length)
    {fuel : Nat} (enough : oldList.length < fuel) :
    ∃ highestIncrease, findHighest fuel oldList = .ok highestIncrease ∧
      LastHighest oldList (oldList.length, highestIncrease) := by
  have starts : LastHighest oldList (0, 0) := by
    constructor
    · apply HighestSoFar.mk (Nat.zero_le _)
      exact ⟨oldList[0], List.getElem?_eq_getElem nonempty,
        fun j before => absurd before (Nat.not_lt_zero j)⟩
    · intro _ _ j _ before
      exact absurd before (Nat.not_lt_zero j)
  have round : ∀ position, LastHighest oldList position →
      (position.1 != oldList.length) = true →
      ∃ next, compareNext oldList position = .ok next ∧ LastHighest oldList next ∧
        oldList.length - next.1 < oldList.length - position.1 := by
    intro position holds goesOn
    have different : position.1 ≠ oldList.length := by simpa using goesOn
    have ⟨next, ran, after, moved⟩ := compare_next_last holds different
    have visited := holds.highest.visited
    exact ⟨next, ran, after, by omega⟩
  have ⟨⟨i, highestIncrease⟩, ends, holds, stops⟩ :=
    run_while_total (LastHighest oldList) (fun position => oldList.length - position.1) round
      starts (Nat.lt_of_le_of_lt (Nat.sub_le _ _) enough)
  have last : i = oldList.length := by simpa using stops
  refine ⟨highestIncrease, ?_, last ▸ holds⟩
  rw [findHighest, ends]
  rfl

theorem last_highest_split {oldList : List (XPlat Percentage)} {highestIncrease : Nat}
    (holds : LastHighest oldList (oldList.length, highestIncrease)) :
    ∃ front top back, oldList = front ++ top :: back ∧ front.length = highestIncrease ∧
      (∀ entry ∈ front, entry.percentageIncrease ≤ top.percentageIncrease) ∧
      ∀ entry ∈ back, entry.percentageIncrease < top.percentageIncrease := by
  have ⟨top, isTop, upTo⟩ := holds.highest.highest
  obtain ⟨inside, rfl⟩ := List.getElem?_eq_some_iff.mp isTop
  refine ⟨oldList.take highestIncrease, oldList[highestIncrease],
    oldList.drop (highestIncrease + 1), ?_, ?_, ?_, ?_⟩
  · rw [List.getElem_cons_drop, List.take_append_drop]
  · rw [List.length_take, Nat.min_eq_left (Nat.le_of_lt inside)]
  · intro entry member
    have ⟨j, there⟩ := List.getElem?_of_mem (List.mem_of_mem_take member)
    exact upTo j (List.getElem?_eq_some_iff.mp there).1 entry there
  · intro entry member
    have ⟨j, there⟩ := List.getElem?_of_mem member
    rw [List.getElem?_drop] at there
    exact holds.later _ isTop _ (by omega) (List.getElem?_eq_some_iff.mp there).1 entry there

/-- The invariant: what has been moved, before what the sort would make of the rest. -/
structure MovedSorted (built : List (XPlat Percentage))
    (lists : List (XPlat Percentage) × List (XPlat Percentage)) : Prop where
  sorted : lists.2 ++ sortedBackwards lists.1 = sortedBackwards built
  fewer : lists.1.length ≤ built.length

theorem move_highest_sorted {built : List (XPlat Percentage)}
    {lists : List (XPlat Percentage) × List (XPlat Percentage)} (holds : MovedSorted built lists)
    (nonempty : 0 < lists.1.length) {fuel : Nat} (enough : built.length < fuel) :
    ∃ next, moveHighest fuel lists = .ok next ∧ MovedSorted built next ∧
      next.1.length < lists.1.length := by
  obtain ⟨oldList, xPlatItems⟩ := lists
  have ⟨highestIncrease, found, last⟩ :=
    find_highest_last nonempty (Nat.lt_of_le_of_lt holds.fewer enough)
  obtain ⟨front, top, back, rfl, position, upTo, below⟩ := last_highest_split last
  have there : (front ++ top :: back)[highestIncrease]? = some top := by
    rw [← position, List.getElem?_append_right (Nat.le_refl _), Nat.sub_self]
    rfl
  have taken : (front ++ top :: back).eraseIdx highestIncrease = front ++ back := by
    rw [← position, List.eraseIdx_append_of_length_le (Nat.le_refl _), Nat.sub_self]
    rfl
  have ran : moveHighest fuel (front ++ top :: back, xPlatItems) =
      .ok (front ++ back, xPlatItems ++ [top]) := by
    rw [moveHighest, found]
    change (element (front ++ top :: back) highestIncrease >>= _) = _
    rw [element_some there]
    change Except.ok ((front ++ top :: back).eraseIdx highestIncrease, _) = _
    rw [taken]
  have shorter : (front ++ back).length < (front ++ top :: back).length := by
    rw [List.length_append, List.length_append, List.length_cons]
    omega
  have sorted := holds.sorted
  have fewer := holds.fewer
  refine ⟨_, ran, ⟨?_, ?_⟩, shorter⟩
  · rw [sortedBackwards, sort_reverse_last_highest upTo below] at sorted
    rw [List.append_assoc]
    exact sorted
  · exact Nat.le_trans (Nat.le_of_lt shorter) fewer

/-- A block computes the stable sort of the reversed list. -/
theorem sort_items_eq (xPlatItems : List (XPlat Percentage)) {fuel : Nat}
    (enough : xPlatItems.length < fuel) :
    sortItems fuel xPlatItems = .ok (sortedBackwards xPlatItems) := by
  have starts : MovedSorted xPlatItems (xPlatItems, []) := ⟨rfl, Nat.le_refl _⟩
  have round : ∀ lists, MovedSorted xPlatItems lists → (0 != lists.1.length) = true →
      ∃ next, moveHighest fuel lists = .ok next ∧ MovedSorted xPlatItems next ∧
        next.1.length < lists.1.length := by
    intro lists holds goesOn
    have different : 0 ≠ lists.1.length := by simpa using goesOn
    exact move_highest_sorted holds (by omega) enough
  have ⟨⟨oldList, sorted⟩, ends, holds, stops⟩ :=
    run_while_total (MovedSorted xPlatItems) (fun lists => lists.1.length) round starts enough
  have emptied : 0 = oldList.length := by simpa using stops
  obtain rfl := List.eq_nil_of_length_eq_zero emptied.symm
  have whole := holds.sorted
  rw [sortedBackwards, List.reverse_nil] at whole
  rw [sortItems, ends, ← whole]
  change Except.ok sorted = Except.ok (sorted ++ [])
  rw [List.append_nil]

/-- The list after a number of blocks. -/
def afterBlocks (entries : List (XPlat Percentage)) : Nat → List (XPlat Percentage)
  | 0 => entries
  | blocks + 1 =>
      if blocks % 2 = 0 then sortByKey XPlat.percentageIncrease entries.reverse
      else sortByKey XPlat.percentageIncrease entries

theorem one_more_block (entries : List (XPlat Percentage)) (blocks : Nat) :
    sortedBackwards (afterBlocks entries blocks) = afterBlocks entries (blocks + 1) := by
  cases blocks with
  | zero => rfl
  | succ blocks =>
      rw [sortedBackwards, afterBlocks, afterBlocks]
      by_cases even : blocks % 2 = 0
      · have odd : ¬ (blocks + 1) % 2 = 0 := by omega
        rw [if_pos even, if_neg odd]
        exact sort_reverse_sort_reverse entries
      · have next : (blocks + 1) % 2 = 0 := by omega
        rw [if_neg even, if_pos next]
        exact sort_reverse_sort entries

/-- The same entries, in order once a block has run; entries with equal percentages stand in
the order of the catalogue after an even number of blocks, and the other way round after an
odd one. -/
structure TiesTurned (entries : List (XPlat Percentage)) (blocks : Nat)
    (xPlatItems : List (XPlat Percentage)) : Prop where
  perm : xPlatItems.Perm entries
  descending : 0 < blocks → Descending xPlatItems
  ties : ∀ percentage, StableSort.ties XPlat.percentageIncrease percentage xPlatItems =
    if blocks % 2 = 0 then StableSort.ties XPlat.percentageIncrease percentage entries
    else (StableSort.ties XPlat.percentageIncrease percentage entries).reverse

theorem after_blocks_turned (entries : List (XPlat Percentage)) (blocks : Nat) :
    TiesTurned entries blocks (afterBlocks entries blocks) := by
  cases blocks with
  | zero => exact ⟨List.Perm.refl _, fun none => absurd none (Nat.lt_irrefl 0), fun _ => rfl⟩
  | succ blocks =>
      rw [afterBlocks]
      by_cases even : blocks % 2 = 0
      · have odd : ¬ (blocks + 1) % 2 = 0 := by omega
        rw [if_pos even]
        constructor
        · exact (sort_perm _ _).trans (List.reverse_perm entries)
        · exact fun _ => sort_descending _ _
        · intro percentage
          rw [if_neg odd, sort_ties, ties_reverse]
      · have next : (blocks + 1) % 2 = 0 := by omega
        rw [if_neg even]
        constructor
        · exact sort_perm _ _
        · exact fun _ => sort_descending _ _
        · intro percentage
          rw [if_pos next, sort_ties]

end Block

section Runs

variable {Percentage : Type} [LinearOrder Percentage] {arithmetic : RateArithmetic Percentage}
  {text : SwiftText}

def isBlock : Event → Bool
  | .sortBlock => true
  | _ => false

theorem run_sort_eq (s : XPlatMain Percentage) :
    (runSort s).Ends (fun after => after.xPlatItems = sortedBackwards s.xPlatItems)
      fun _ _ => False := by
  unfold runSort
  rw [sort_items_eq s.xPlatItems (Nat.lt_succ_self _)]
  rfl

variable (arithmetic text) in
theorem quiet_next {s : XPlatMain Percentage} {event : Event} (quiet : reloads s event = false) :
    ((screen arithmetic text).next s event).xPlatItems =
      if isBlock event then sortedBackwards s.xPlatItems else s.xPlatItems := by
  apply ends_next (screen arithmetic text) fun after : XPlatMain Percentage =>
    after.xPlatItems = if isBlock event then sortedBackwards s.xPlatItems else s.xPlatItems
  cases event with
  | globalsChange items xPlatData haveLoaded => rfl
  | reloadPlatforms => cases quiet
  | reloadItems => cases quiet
  | viewWillAppear =>
      have unloaded : ¬ s.haveLoaded = true := by
        rw [show s.haveLoaded = false from quiet]
        exact Bool.false_ne_true
      change (step arithmetic text s .viewWillAppear).Ends _ _
      rw [step, if_neg unloaded]
      rfl
  | sortBlock =>
      exact ends_mono (run_sort_eq s) (fun _ after => after) fun _ _ impossible => impossible.elim

/-- The run lemma. -/
theorem quiet_run_blocks {entries : List (XPlat Percentage)} {s later : XPlatMain Percentage}
    {blocks : Nat} {events : List Event} (before : s.xPlatItems = afterBlocks entries blocks)
    (runs : runEvents (screen arithmetic text) Quiet s events = some later) :
    later.xPlatItems = afterBlocks entries (blocks + events.countP isBlock) := by
  induction events generalizing s blocks with
  | nil =>
      rw [← Option.some.inj runs]
      exact before
  | cons event events induction =>
      rw [run_events_cons] at runs
      split at runs
      · rename_i quiet
        have after := quiet_next arithmetic text quiet.2
        cases block : isBlock event with
        | true =>
            rw [block, if_pos rfl, before, one_more_block] at after
            rw [induction after runs, List.countP_cons_of_pos block]
            congr 1
            omega
        | false =>
            rw [block, if_neg Bool.false_ne_true, before] at after
            rw [induction after runs,
              List.countP_cons_of_neg (by rw [block]; exact Bool.false_ne_true)]
      · cases runs

/-- Whatever is waiting when a reload is made, and in whatever order things happen until the
next one: the number of blocks that have run says how the rows with equal rates stand. -/
theorem equal_rates_turn (arithmetic : RateArithmetic Percentage) (text : SwiftText)
    {s reloaded later : XPlatMain Percentage} {event : Event} {events : List Event}
    (reloading : reloads s event = true)
    (reloadRuns : step arithmetic text s event = .running reloaded)
    (quietRuns : runEvents (screen arithmetic text) Quiet reloaded events = some later) :
    ∃ entries, List.Forall₂ (EntryOf arithmetic text s.xPlatData)
        (pricedPlaces text s.xPlatData s.items) entries ∧
      TiesTurned entries (events.countP isBlock) later.xPlatItems := by
  have built : (step arithmetic text s event).Ends _ _ := reloading_step_ends reloading
  rw [reloadRuns] at built
  have start : reloaded.xPlatItems = afterBlocks reloaded.xPlatItems 0 := rfl
  have later := quiet_run_blocks start quietRuns
  rw [Nat.zero_add] at later
  refine ⟨reloaded.xPlatItems, built.1, ?_⟩
  rw [later]
  exact after_blocks_turned _ _

end Runs

def evenItem : DecodingItem where
  itemName := "Octane"
  itemPriceRange := ofAttributes fun key =>
    if key = "pc_price" then some [80, 40]
    else if key = "xbox_price" then some [40, 20]
    else if key = "black_pc_price" then some [30, 20]
    else if key = "black_xbox_price" then some [15, 10]
    else none
  itemUrlName := "Octane"

/-- The screen when it appears, with a block of an earlier reload still waiting. -/
def evenScreen : XPlatMain ℚ := ⟨[evenItem], ("PC", "Xbox"), true, [], 1⟩

def evenReloaded : XPlatMain ℚ := (step exactArithmetic asciiText evenScreen .viewWillAppear).state

def evenBlocks : List Event := [.sortBlock, .sortBlock]

theorem equal_rates_turn_twice :
    ∃ later, runEvents (screen exactArithmetic asciiText) Quiet evenReloaded evenBlocks =
        some later ∧
      later.xPlatItems.map XPlat.itemColour = ["Default", "Black"] ∧
      ∃ entries, List.Forall₂ (EntryOf exactArithmetic asciiText evenScreen.xPlatData)
          (pricedPlaces asciiText evenScreen.xPlatData evenScreen.items) entries ∧
        TiesTurned entries (evenBlocks.countP isBlock) later.xPlatItems := by
  have computed : (runEvents (screen exactArithmetic asciiText) Quiet evenReloaded evenBlocks).map
      (fun later => later.xPlatItems.map XPlat.itemColour) = some ["Default", "Black"] := by
    decide +kernel
  have ⟨later, runs, colours⟩ := Option.map_eq_some_iff.mp computed
  have reloading : reloads evenScreen .viewWillAppear = true := rfl
  have reloadRuns : step exactArithmetic asciiText evenScreen .viewWillAppear =
      .running evenReloaded := running_of_no_fault (by decide +kernel)
  exact ⟨later, runs, colours, equal_rates_turn exactArithmetic asciiText reloading reloadRuns runs⟩

end RlInvestments.TieOrder
