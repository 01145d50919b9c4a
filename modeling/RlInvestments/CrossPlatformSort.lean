import RlInvestments.CrossPlatformList

/-!
# Rebuilding and sorting the cross-platform list

What `reload` builds is one entry for each catalogue position and colour with both
prices. The block of a reload is a selection sort whose rounds move the last of the
highest entries. However many blocks are waiting, after one of them the list is what
the last reload built, in descending order.
-/

namespace RlInvestments.CrossPlatformSort

open RlInvestments.CatalogueItems RlInvestments.GuardedRuns RlInvestments.OverviewRows
open RlInvestments.WhileLoops RlInvestments.CrossPlatformList

set_option autoImplicit false

theorem related_of_mem {First Second : Type} {relation : First → Second → Prop}
    {firsts : List First} {seconds : List Second}
    (related : List.Forall₂ relation firsts seconds) {first : First} (member : first ∈ firsts) :
    ∃ second ∈ seconds, relation first second := by
  induction related with
  | nil => exact absurd member List.not_mem_nil
  | cons head _ induction =>
      rcases List.mem_cons.mp member with rfl | later
      · exact ⟨_, List.mem_cons_self .., head⟩
      · obtain ⟨second, present, holds⟩ := induction later
        exact ⟨second, List.mem_cons_of_mem _ present, holds⟩

section Building

variable {Percentage : Type} {arithmetic : RateArithmetic Percentage} {text : SwiftText}

def bothRanges (text : SwiftText) (xPlatData : String × String)
    (place : DecodingItem × String) : Option (List Int × List Int) :=
  match place.1.getColourPrice text place.2 xPlatData.1,
      place.1.getColourPrice text place.2 xPlatData.2 with
  | some platform1PriceRange, some platform2PriceRange =>
      some (platform1PriceRange, platform2PriceRange)
  | _, _ => none

def places (items : List DecodingItem) : List (DecodingItem × String) :=
  items.flatMap fun item => xPlatColours.map fun colour => (item, colour)

def pricedOnBoth (text : SwiftText) (xPlatData : String × String)
    (place : DecodingItem × String) : Bool :=
  (bothRanges text xPlatData place).isSome

/-- The places that get an entry. -/
def pricedPlaces (text : SwiftText) (xPlatData : String × String) (items : List DecodingItem) :
    List (DecodingItem × String) :=
  (places items).filter (pricedOnBoth text xPlatData)

theorem priced_place_of_ranges {text : SwiftText} {xPlatData : String × String}
    {items : List DecodingItem} {place : DecodingItem × String} (member : place ∈ places items)
    {ranges : List Int × List Int} (both : bothRanges text xPlatData place = some ranges) :
    place ∈ pricedPlaces text xPlatData items := by
  apply List.mem_filter.mpr
  exact ⟨member, by rw [pricedOnBoth, both]; rfl⟩

/-- The entry of a place: its names, its two ranges and the rate between them. -/
def EntryOf (arithmetic : RateArithmetic Percentage) (text : SwiftText)
    (xPlatData : String × String) (place : DecodingItem × String) (entry : XPlat Percentage) :
    Prop :=
  ∃ platform1PriceRange platform2PriceRange,
    bothRanges text xPlatData place = some (platform1PriceRange, platform2PriceRange) ∧
      xPlatEntry arithmetic place.1 place.2 platform1PriceRange platform2PriceRange = .ok entry

theorem append_entry_eq (xPlatData : String × String) (place : DecodingItem × String)
    (xPlatItems : List (XPlat Percentage)) :
    appendEntry arithmetic text xPlatData place.1 xPlatItems place.2 =
      match bothRanges text xPlatData place with
      | none => .ok xPlatItems
      | some ranges =>
          xPlatEntry arithmetic place.1 place.2 ranges.1 ranges.2 >>= fun entry =>
            .ok (xPlatItems ++ [entry]) := by
  unfold appendEntry bothRanges
  cases place.1.getColourPrice text place.2 xPlatData.1 <;>
    cases place.1.getColourPrice text place.2 xPlatData.2 <;> rfl

def appendPlace (arithmetic : RateArithmetic Percentage) (text : SwiftText)
    (xPlatData : String × String) (xPlatItems : List (XPlat Percentage))
    (place : DecodingItem × String) : Except Fault (List (XPlat Percentage)) :=
  appendEntry arithmetic text xPlatData place.1 xPlatItems place.2

theorem fold_places (xPlatData : String × String) (items : List DecodingItem)
    (xPlatItems : List (XPlat Percentage)) :
    items.foldlM (fun xPlatItems item =>
        xPlatColours.foldlM (appendEntry arithmetic text xPlatData item) xPlatItems) xPlatItems =
      (places items).foldlM (appendPlace arithmetic text xPlatData) xPlatItems := by
  induction items generalizing xPlatItems with
  | nil => rfl
  | cons item items induction =>
      rw [places, List.flatMap_cons, List.foldlM_append, List.foldlM_map, List.foldlM_cons]
      simp only [induction]
      rfl

theorem append_places_ok {xPlatData : String × String} {visited : List (DecodingItem × String)}
    {xPlatItems result : List (XPlat Percentage)}
    (ends : visited.foldlM (appendPlace arithmetic text xPlatData) xPlatItems = .ok result) :
    ∃ entries, result = xPlatItems ++ entries ∧
      List.Forall₂ (EntryOf arithmetic text xPlatData)
        (visited.filter (pricedOnBoth text xPlatData)) entries := by
  induction visited generalizing xPlatItems with
  | nil =>
      obtain rfl := Except.ok.inj ends
      exact ⟨[], (List.append_nil _).symm, .nil⟩
  | cons place visited induction =>
      rw [List.foldlM_cons, appendPlace, append_entry_eq] at ends
      obtain ⟨next, first, rest⟩ := except_bind_ok ends
      cases ranges : bothRanges text xPlatData place with
      | none =>
          rw [ranges] at first
          obtain rfl := Except.ok.inj first
          have passed : ¬ pricedOnBoth text xPlatData place = true := by
            simp [pricedOnBoth, ranges]
          rw [List.filter_cons_of_neg passed]
          exact induction rest
      | some both =>
          rw [ranges] at first
          obtain ⟨entry, made, appended⟩ := except_bind_ok first
          obtain rfl := Except.ok.inj appended
          obtain ⟨entries, rfl, described⟩ := induction rest
          have kept : pricedOnBoth text xPlatData place = true := by simp [pricedOnBoth, ranges]
          rw [List.filter_cons_of_pos kept]
          exact ⟨entry :: entries, by simp, .cons ⟨both.1, both.2, ranges, made⟩ described⟩

theorem entry_of_place {xPlatData : String × String} {priced : List (DecodingItem × String)}
    {entries : List (XPlat Percentage)}
    (described : List.Forall₂ (EntryOf arithmetic text xPlatData) priced entries)
    {place : DecodingItem × String} (member : place ∈ priced) :
    ∃ entry ∈ entries, EntryOf arithmetic text xPlatData place entry :=
  related_of_mem described member

theorem place_of_entry {xPlatData : String × String} {priced : List (DecodingItem × String)}
    {entries : List (XPlat Percentage)}
    (described : List.Forall₂ (EntryOf arithmetic text xPlatData) priced entries)
    {entry : XPlat Percentage} (member : entry ∈ entries) :
    ∃ place ∈ priced, EntryOf arithmetic text xPlatData place entry :=
  related_of_mem (List.Forall₂.flip (R := flip (EntryOf arithmetic text xPlatData)) described)
    member

/-- None lost, none twice: the entries are those of the priced places, in order. -/
theorem built_items_ok {xPlatData : String × String} {items : List DecodingItem}
    {xPlatItems : List (XPlat Percentage)}
    (built : builtItems arithmetic text xPlatData items = .ok xPlatItems) :
    List.Forall₂ (EntryOf arithmetic text xPlatData) (pricedPlaces text xPlatData items)
      xPlatItems := by
  rw [builtItems, fold_places] at built
  obtain ⟨entries, rfl, described⟩ := append_places_ok built
  exact described

theorem append_places_total {xPlatData : String × String}
    {visited : List (DecodingItem × String)}
    (computed : ∀ place ∈ visited, ∀ ranges, bothRanges text xPlatData place = some ranges →
      ∃ entry, xPlatEntry arithmetic place.1 place.2 ranges.1 ranges.2 = .ok entry)
    (xPlatItems : List (XPlat Percentage)) :
    ∃ result, visited.foldlM (appendPlace arithmetic text xPlatData) xPlatItems = .ok result := by
  induction visited generalizing xPlatItems with
  | nil => exact ⟨xPlatItems, rfl⟩
  | cons place visited induction =>
      have later := induction fun other member => computed other (List.mem_cons_of_mem _ member)
      rw [List.foldlM_cons, appendPlace, append_entry_eq]
      cases ranges : bothRanges text xPlatData place with
      | none => exact later xPlatItems
      | some both =>
          obtain ⟨entry, made⟩ := computed place (List.mem_cons_self ..) both ranges
          dsimp only
          rw [made]
          exact later (xPlatItems ++ [entry])

theorem built_items_total {xPlatData : String × String} {items : List DecodingItem}
    (computed : ∀ place ∈ places items, ∀ ranges, bothRanges text xPlatData place = some ranges →
      ∃ entry, xPlatEntry arithmetic place.1 place.2 ranges.1 ranges.2 = .ok entry) :
    ∃ xPlatItems, builtItems arithmetic text xPlatData items = .ok xPlatItems := by
  rw [builtItems, fold_places]
  exact append_places_total computed []

theorem entry_of_unique {xPlatData : String × String} :
    Relator.RightUnique (EntryOf arithmetic text xPlatData) := by
  intro place first second ⟨_, _, both, made⟩ ⟨_, _, same, alsoMade⟩
  obtain ⟨rfl, rfl⟩ := Prod.mk.inj (Option.some.inj (both.symm.trans same))
  exact Except.ok.inj (made.symm.trans alsoMade)

/-- Entries of the priced places, in order, are what is built. -/
theorem built_items_of_entries {xPlatData : String × String} {items : List DecodingItem}
    {entries : List (XPlat Percentage)}
    (made : List.Forall₂ (EntryOf arithmetic text xPlatData) (pricedPlaces text xPlatData items)
      entries) : builtItems arithmetic text xPlatData items = .ok entries := by
  have computed : ∀ place ∈ places items, ∀ ranges,
      bothRanges text xPlatData place = some ranges →
      ∃ entry, xPlatEntry arithmetic place.1 place.2 ranges.1 ranges.2 = .ok entry := by
    intro place member ranges both
    have ⟨entry, _, _, _, same, built⟩ :=
      entry_of_place made (priced_place_of_ranges member both)
    cases Option.some.inj (both.symm.trans same)
    exact ⟨entry, built⟩
  have ⟨xPlatItems, built⟩ := built_items_total computed
  rw [built, List.right_unique_forall₂' entry_of_unique (built_items_ok built) made]

end Building

section Sorting

variable {Percentage : Type} [LinearOrder Percentage]

def Descending (entries : List (XPlat Percentage)) : Prop :=
  entries.Pairwise fun first second => second.percentageIncrease ≤ first.percentageIncrease

omit [LinearOrder Percentage] in
theorem element_some {list : List (XPlat Percentage)} {i : Nat} {entry : XPlat Percentage}
    (there : list[i]? = some entry) : element list i = .ok entry := by
  simp only [element, there]

/-- The invariant of the inner loop: no entry before `i` is above the one at
`highestIncrease`. -/
structure HighestSoFar (oldList : List (XPlat Percentage)) (position : Nat × Nat) : Prop where
  visited : position.1 ≤ oldList.length
  highest : ∃ top, oldList[position.2]? = some top ∧ ∀ j < position.1, ∀ entry,
    oldList[j]? = some entry → entry.percentageIncrease ≤ top.percentageIncrease

theorem highest_so_far_next {oldList : List (XPlat Percentage)} {i highest : Nat}
    {top current : XPlat Percentage} (inside : i < oldList.length)
    (there : oldList[i]? = some current) (isTop : oldList[highest]? = some top)
    (above : current.percentageIncrease ≤ top.percentageIncrease)
    (before : ∀ j < i, ∀ entry, oldList[j]? = some entry →
      entry.percentageIncrease ≤ top.percentageIncrease) :
    HighestSoFar oldList (i + 1, highest) := by
  apply HighestSoFar.mk (Nat.succ_le_of_lt inside)
  apply Exists.intro top
  apply And.intro isTop
  intro j upTo entry found
  rcases Nat.lt_succ_iff_lt_or_eq.mp upTo with earlier | rfl
  · exact before j earlier entry found
  · obtain rfl : current = entry := Option.some.inj (there.symm.trans found)
    exact above

theorem compare_next_highest {oldList : List (XPlat Percentage)} {position : Nat × Nat}
    (holds : HighestSoFar oldList position) (goesOn : position.1 ≠ oldList.length) :
    ∃ next, compareNext oldList position = .ok next ∧ HighestSoFar oldList next ∧
      next.1 = position.1 + 1 := by
  obtain ⟨i, highestIncrease⟩ := position
  obtain ⟨top, isTop, before⟩ := holds.highest
  have inside : i < oldList.length := lt_of_le_of_ne holds.visited goesOn
  have there : oldList[i]? = some oldList[i] := List.getElem?_eq_getElem inside
  have ran : compareNext oldList (i, highestIncrease) = .ok (i + 1,
      if oldList[i].percentageIncrease ≥ top.percentageIncrease then i else highestIncrease) := by
    simp only [compareNext, element_some there, element_some isTop]
    rfl
  by_cases above : oldList[i].percentageIncrease ≥ top.percentageIncrease
  · rw [if_pos above] at ran
    have next := highest_so_far_next inside there there (le_refl _)
      fun j earlier entry found => (before j earlier entry found).trans above
    exact ⟨_, ran, next, rfl⟩
  · rw [if_neg above] at ran
    have next := highest_so_far_next inside there isTop (not_le.mp above).le before
    exact ⟨_, ran, next, rfl⟩

theorem find_highest_total {oldList : List (XPlat Percentage)} (nonempty : 0 < oldList.length)
    {fuel : Nat} (enough : oldList.length < fuel) :
    ∃ highestIncrease top, findHighest fuel oldList = .ok highestIncrease ∧
      oldList[highestIncrease]? = some top ∧
      ∀ entry ∈ oldList, entry.percentageIncrease ≤ top.percentageIncrease := by
  have starts : HighestSoFar oldList (0, 0) := by
    apply HighestSoFar.mk (Nat.zero_le _)
    exact ⟨oldList[0], List.getElem?_eq_getElem nonempty,
      fun j before => absurd before (Nat.not_lt_zero j)⟩
  have round : ∀ position, HighestSoFar oldList position →
      (position.1 != oldList.length) = true →
      ∃ next, compareNext oldList position = .ok next ∧ HighestSoFar oldList next ∧
        oldList.length - next.1 < oldList.length - position.1 := by
    intro position holds goesOn
    have different : position.1 ≠ oldList.length := by simpa using goesOn
    obtain ⟨next, ran, after, moved⟩ := compare_next_highest holds different
    have visited := holds.visited
    exact ⟨next, ran, after, by omega⟩
  obtain ⟨⟨i, highestIncrease⟩, ends, holds, stops⟩ :=
    run_while_total (HighestSoFar oldList) (fun position => oldList.length - position.1) round
      starts (Nat.lt_of_le_of_lt (Nat.sub_le _ _) enough)
  have last : i = oldList.length := by simpa using stops
  obtain ⟨top, isTop, before⟩ := holds.highest
  have found : findHighest fuel oldList = .ok highestIncrease := by
    rw [findHighest, ends]
    rfl
  apply Exists.intro highestIncrease
  apply Exists.intro top
  apply And.intro found
  apply And.intro isTop
  intro entry member
  obtain ⟨j, there⟩ := List.getElem?_of_mem member
  have inside : j < oldList.length := (List.getElem?_eq_some_iff.mp there).1
  exact before j (last ▸ inside) entry there

/-- The invariant of the outer loop: what has been moved is in order and above the rest. -/
structure HighestMoved (built : List (XPlat Percentage))
    (lists : List (XPlat Percentage) × List (XPlat Percentage)) : Prop where
  whole : (lists.2 ++ lists.1).Perm built
  ordered : Descending lists.2
  above : ∀ first ∈ lists.2, ∀ second ∈ lists.1,
    second.percentageIncrease ≤ first.percentageIncrease

theorem move_highest_round {built : List (XPlat Percentage)}
    {lists : List (XPlat Percentage) × List (XPlat Percentage)}
    (holds : HighestMoved built lists) (nonempty : 0 < lists.1.length) {fuel : Nat}
    (enough : built.length < fuel) :
    ∃ next, moveHighest fuel lists = .ok next ∧ HighestMoved built next ∧
      next.1.length < lists.1.length := by
  obtain ⟨oldList, xPlatItems⟩ := lists
  have fewer : oldList.length ≤ built.length := by
    rw [← holds.whole.length_eq, List.length_append]
    exact Nat.le_add_left _ _
  obtain ⟨highestIncrease, top, found, isTop, highest⟩ :=
    find_highest_total nonempty (Nat.lt_of_le_of_lt fewer enough)
  have ran : moveHighest fuel (oldList, xPlatItems) =
      .ok (oldList.eraseIdx highestIncrease, xPlatItems ++ [top]) := by
    simp only at found isTop
    simp only [moveHighest, found]
    change (element oldList highestIncrease >>= _) = _
    rw [element_some isTop]
    rfl
  obtain ⟨inside, rfl⟩ := List.getElem?_eq_some_iff.mp isTop
  refine ⟨_, ran, ?_, ?_⟩
  · constructor
    · rw [List.append_assoc]
      apply List.Perm.trans _ holds.whole
      apply List.Perm.append_left
      exact List.getElem_cons_eraseIdx_perm inside
    · apply List.pairwise_append.mpr
      apply And.intro holds.ordered
      apply And.intro (List.pairwise_singleton _ _)
      intro first moved second isLast
      obtain rfl := List.mem_singleton.mp isLast
      exact holds.above first moved _ (List.getElem_mem inside)
    · intro first moved second rest
      have remained : second ∈ oldList := (List.eraseIdx_sublist _ _).subset rest
      rcases List.mem_append.mp moved with earlier | isLast
      · exact holds.above first earlier second remained
      · obtain rfl := List.mem_singleton.mp isLast
        exact highest second remained
  · rw [List.length_eraseIdx_of_lt inside]
    omega

theorem sort_items_total (xPlatItems : List (XPlat Percentage)) {fuel : Nat}
    (enough : xPlatItems.length < fuel) :
    ∃ sorted, sortItems fuel xPlatItems = .ok sorted ∧ sorted.Perm xPlatItems ∧
      Descending sorted := by
  have starts : HighestMoved xPlatItems (xPlatItems, []) :=
    ⟨List.Perm.refl _, List.Pairwise.nil, fun _ absent => absurd absent List.not_mem_nil⟩
  have round : ∀ lists, HighestMoved xPlatItems lists → (0 != lists.1.length) = true →
      ∃ next, moveHighest fuel lists = .ok next ∧ HighestMoved xPlatItems next ∧
        next.1.length < lists.1.length := by
    intro lists holds goesOn
    have different : 0 ≠ lists.1.length := by simpa using goesOn
    exact move_highest_round holds (by omega) enough
  obtain ⟨⟨oldList, sorted⟩, ends, holds, stops⟩ :=
    run_while_total (HighestMoved xPlatItems) (fun lists => lists.1.length) round starts enough
  have emptied : 0 = oldList.length := by simpa using stops
  obtain rfl := List.eq_nil_of_length_eq_zero emptied.symm
  have whole := holds.whole
  rw [List.append_nil] at whole
  apply Exists.intro sorted
  apply And.intro _ (And.intro whole holds.ordered)
  rw [sortItems, ends]
  rfl

omit [LinearOrder Percentage] in
theorem sort_items_mono [LE Percentage] [DecidableLE Percentage]
    {xPlatItems sorted : List (XPlat Percentage)} {fuel more : Nat} (enough : fuel ≤ more)
    (ends : sortItems fuel xPlatItems = .ok sorted) : sortItems more xPlatItems = .ok sorted := by
  have found : ∀ (oldList : List (XPlat Percentage)) highestIncrease,
      findHighest fuel oldList = .ok highestIncrease →
      findHighest more oldList = .ok highestIncrease := by
    intro oldList highestIncrease computed
    obtain ⟨final, ran, rest⟩ := except_bind_ok computed
    rw [findHighest, run_while_mono (fun _ _ same => same) enough ran]
    exact rest
  have moved : ∀ (lists : List (XPlat Percentage) × List (XPlat Percentage)) next,
      moveHighest fuel lists = .ok next → moveHighest more lists = .ok next := by
    intro lists next computed
    obtain ⟨highestIncrease, first, rest⟩ := except_bind_ok computed
    rw [moveHighest, found _ _ first]
    exact rest
  obtain ⟨final, ran, rest⟩ := except_bind_ok ends
  rw [sortItems, run_while_mono moved enough ran]
  exact rest

/-- The number of rounds allowed is without effect once it exceeds the number of entries. -/
theorem sort_items_ends (xPlatItems : List (XPlat Percentage)) :
    ∃ sorted, ∀ fuel, xPlatItems.length < fuel → sortItems fuel xPlatItems = .ok sorted := by
  obtain ⟨sorted, ends, -, -⟩ := sort_items_total xPlatItems (Nat.lt_succ_self _)
  exact ⟨sorted, fun fuel enough => sort_items_mono enough ends⟩

end Sorting

section Runs

variable {Percentage : Type} {arithmetic : RateArithmetic Percentage} {text : SwiftText}

theorem reload_ends (s : XPlatMain Percentage) :
    (reload arithmetic text s).Ends (fun after =>
      List.Forall₂ (EntryOf arithmetic text s.xPlatData) (pricedPlaces text s.xPlatData s.items)
        after.xPlatItems ∧ after.pendingSorts = s.pendingSorts + 1) fun _ _ => True := by
  unfold reload
  split
  · trivial
  · rename_i xPlatItems built
    exact ⟨built_items_ok built, rfl⟩

variable [LinearOrder Percentage]

theorem run_sort_ends (s : XPlatMain Percentage) :
    (runSort s).Ends (fun after => after.xPlatItems.Perm s.xPlatItems ∧
      Descending after.xPlatItems) fun _ _ => False := by
  obtain ⟨sorted, ends, perm, descending⟩ :=
    sort_items_total s.xPlatItems (Nat.lt_succ_self _)
  unfold runSort
  rw [ends]
  exact ⟨perm, descending⟩

theorem reloading_step_ends {s : XPlatMain Percentage} {event : Event}
    (reloading : reloads s event = true) :
    (step arithmetic text s event).Ends (fun after =>
      List.Forall₂ (EntryOf arithmetic text s.xPlatData) (pricedPlaces text s.xPlatData s.items)
        after.xPlatItems ∧ after.pendingSorts = s.pendingSorts + 1) fun _ _ => True := by
  cases event with
  | globalsChange items xPlatData haveLoaded => exact nomatch reloading
  | reloadPlatforms => exact reload_ends s
  | reloadItems => exact reload_ends s
  | viewWillAppear =>
      simp only [step, if_pos (show s.haveLoaded = true from reloading)]
      exact reload_ends s
  | sortBlock => exact nomatch reloading

/-- Between two reloads nothing is lost, and the order once reached is kept. -/
theorem quiet_step_ends {s : XPlatMain Percentage} {event : Event}
    (quiet : reloads s event = false) :
    (step arithmetic text s event).Ends (fun after => after.xPlatItems.Perm s.xPlatItems ∧
      (Descending s.xPlatItems → Descending after.xPlatItems)) fun _ _ => False := by
  cases event with
  | globalsChange items xPlatData haveLoaded => exact ⟨List.Perm.refl _, fun ordered => ordered⟩
  | reloadPlatforms => exact nomatch quiet
  | reloadItems => exact nomatch quiet
  | viewWillAppear =>
      simp only [step, if_neg (show ¬ s.haveLoaded = true by simpa [reloads] using quiet)]
      exact ⟨List.Perm.refl _, fun ordered => ordered⟩
  | sortBlock =>
      exact ends_mono (run_sort_ends s) (fun after sorted => ⟨sorted.1, fun _ => sorted.2⟩)
        fun _ _ impossible => impossible

abbrev Quiet (s : XPlatMain Percentage) (event : Event) : Prop :=
  queued s event = true ∧ reloads s event = false

theorem quiet_run_perm {start s : XPlatMain Percentage}
    (reachable : Reachable (screen arithmetic text) Quiet (fun first => first = start) s) :
    s.xPlatItems.Perm start.xPlatItems ∧
      (Descending start.xPlatItems → Descending s.xPlatItems) := by
  apply reachable_invariant (fun s => s.xPlatItems.Perm start.xPlatItems ∧
    (Descending start.xPlatItems → Descending s.xPlatItems)) _ _ reachable
  · rintro first rfl
    exact ⟨List.Perm.refl _, fun ordered => ordered⟩
  · rintro s event - ⟨perm, kept⟩ ⟨-, quiet⟩
    exact ends_mono (quiet_step_ends quiet)
      (fun after next => ⟨next.1.trans perm, fun ordered => next.2 (kept ordered)⟩)
      fun _ _ impossible => impossible.elim

/-- Whatever is waiting when a reload is made: once a block has run after it, and as long as
nothing reloads again, the list is what the reload built, in descending order. And every
block ends. -/
theorem list_complete_and_sorted (arithmetic : RateArithmetic Percentage) (text : SwiftText)
    {s reloaded waiting sorted later : XPlatMain Percentage} {event : Event}
    (reloading : reloads s event = true)
    (reloadRuns : step arithmetic text s event = .running reloaded)
    (meanwhile : Reachable (screen arithmetic text) Quiet (fun first => first = reloaded) waiting)
    (blockRuns : step arithmetic text waiting .sortBlock = .running sorted)
    (afterwards : Reachable (screen arithmetic text) Quiet (fun first => first = sorted) later) :
    (List.Forall₂ (EntryOf arithmetic text s.xPlatData) (pricedPlaces text s.xPlatData s.items)
        reloaded.xPlatItems ∧
      reloaded.pendingSorts = s.pendingSorts + 1 ∧
      later.xPlatItems.Perm reloaded.xPlatItems ∧ Descending later.xPlatItems) ∧
    ∀ xPlatItems : List (XPlat Percentage), ∃ result, ∀ fuel, xPlatItems.length < fuel →
      sortItems fuel xPlatItems = .ok result := by
  have built : (step arithmetic text s event).Ends _ _ := reloading_step_ends reloading
  rw [reloadRuns] at built
  have block := run_sort_ends waiting
  rw [show runSort waiting = .running sorted from blockRuns] at block
  have first := quiet_run_perm meanwhile
  have last := quiet_run_perm afterwards
  apply And.intro _ sort_items_ends
  apply And.intro built.1
  apply And.intro built.2
  apply And.intro
  · exact (last.1.trans block.1).trans first.1
  · exact last.2 block.2

end Runs

def paintedItem : DecodingItem where
  itemName := "Octane"
  itemPriceRange := ofAttributes fun key =>
    if key = "pc_price" then some [80, 40]
    else if key = "xbox_price" then some [40, 20]
    else if key = "black_pc_price" then some [30, 20]
    else if key = "black_xbox_price" then some [70, 20]
    else none
  itemUrlName := "Octane"

/-- The screen when it appears, with a block of an earlier reload still waiting. -/
def appearing : XPlatMain ℚ := ⟨[paintedItem], ("PC", "Xbox"), true, [], 1⟩

def onceReloaded : XPlatMain ℚ := (step exactArithmetic asciiText appearing .viewWillAppear).state

def onceSorted : XPlatMain ℚ := (step exactArithmetic asciiText onceReloaded .sortBlock).state

theorem list_complete_and_sorted_painted :
    onceSorted.xPlatItems.map XPlat.itemColour = ["Black", "Default"] ∧
    (List.Forall₂ (EntryOf exactArithmetic asciiText appearing.xPlatData)
        (pricedPlaces asciiText appearing.xPlatData appearing.items) onceReloaded.xPlatItems ∧
      onceReloaded.pendingSorts = appearing.pendingSorts + 1 ∧
      onceSorted.xPlatItems.Perm onceReloaded.xPlatItems ∧ Descending onceSorted.xPlatItems) ∧
    ∀ xPlatItems : List (XPlat ℚ), ∃ result, ∀ fuel, xPlatItems.length < fuel →
      sortItems fuel xPlatItems = .ok result := by
  apply And.intro (by decide +kernel)
  have reloading : reloads appearing .viewWillAppear = true := rfl
  exact list_complete_and_sorted exactArithmetic asciiText reloading
    (running_of_no_fault (by decide +kernel)) (.start rfl)
    (running_of_no_fault (by decide +kernel)) (.start rfl)

end RlInvestments.CrossPlatformSort
