import RlInvestments.AppRuns

/-!
# What each handler can do

One rule for each handler: a postcondition of its outcome follows from what it is in
the states that the handler can leave. Invariants of the app are proved from these
rules and unfold no handler.
-/

namespace RlInvestments.HandlerRules

open RlInvestments.GuardedRuns RlInvestments.LastMatchScan RlInvestments.InvestmentStore
open RlInvestments.OverviewRows
open RlInvestments.CatalogueItems RlInvestments.AppMemory RlInvestments.OverviewHandlers
open RlInvestments.FormTable RlInvestments.FormSheet RlInvestments.AppRuns

set_option autoImplicit false

variable {Data : Type} {foundation : Foundation Data}
  {post : AppState Data → Prop} {fallback : Fault → AppState Data → Prop}

theorem overview_admitted {s : AppState Data} {event : OverviewEvent}
    (admitted : Possible s (.overview event)) :
    s.overviewLoaded = true ∧ s.presented = .nothing := by
  simp only [Possible, possible, Bool.and_eq_true, decide_eq_true_eq] at admitted
  exact admitted.1

theorem delete_admitted {s : AppState Data} (admitted : Possible s .deleteConfirmed) :
    s.presented = .deleteAlert := of_decide_eq_true admitted

theorem add_admitted {s : AppState Data} (admitted : Possible s .addButton) :
    s.presented = .form := of_decide_eq_true admitted

theorem reload_data_ends (s : AppState Data)
    (built : ∀ cells, buildCells foundation.text s.investments s.investmentFilteredData =
      .ok cells → post { s with cells := cells })
    (failed : ∀ fault, buildCells foundation.text s.investments s.investmentFilteredData =
      .error fault → fallback fault s) : (reloadData foundation s).Ends post fallback := by
  unfold reloadData
  split
  · rename_i cells succeeds
    exact built cells succeeds
  · rename_i fault fails
    exact failed fault fails

theorem view_did_load_ends (s : AppState Data)
    (built : ∀ cells, buildCells foundation.text s.investments s.investmentFilteredData =
      .ok cells →
      post { s with overviewLoaded := true, cells := cells, totalBarButtonEnabled := false })
    (failed : ∀ fault, buildCells foundation.text s.investments s.investmentFilteredData =
      .error fault → fallback fault { s with overviewLoaded := true }) :
    (viewDidLoad foundation s).Ends post fallback :=
  ends_and_then_running (reload_data_ends _ built failed)

theorem reload_table_view_ends (s : AppState Data)
    (built : ∀ cells, buildCells foundation.text s.investments s.investments = .ok cells →
      post { s with
        investmentFilteredData := s.investments, cells := cells, totalBarButtonEnabled := true })
    (failed : ∀ fault, buildCells foundation.text s.investments s.investments = .error fault →
      fallback fault { s with investmentFilteredData := s.investments }) :
    (reloadTableView foundation s).Ends post fallback :=
  ends_and_then_running (reload_data_ends _ built failed)

theorem items_notification_ends (s : AppState Data)
    (built : ∀ cells, buildCells foundation.text s.investments s.investments = .ok cells →
      post { s with
        pendingItems := s.pendingItems - 1, investmentFilteredData := s.investments,
        cells := cells, totalBarButtonEnabled := true })
    (failed : ∀ fault, buildCells foundation.text s.investments s.investments = .error fault →
      fallback fault { s with
      pendingItems := s.pendingItems - 1, investmentFilteredData := s.investments })
    (unloaded : s.overviewLoaded = false → post { s with pendingItems := s.pendingItems - 1 }) :
    (step foundation s .itemsNotification).Ends post fallback := by
  simp only [step]
  split
  · exact reload_table_view_ends _ built failed
  · rename_i notLoaded
    exact unloaded (by simpa using notLoaded)

/-- The tag that a confirmed delete uses. -/
def loweredTag (s : AppState Data) : Nat :=
  if s.cellTag = s.investments.length then s.cellTag - 1 else s.cellTag

theorem lower_cell_tag_eq (s : AppState Data) :
    lowerCellTag { s with presented := .nothing } =
      { s with presented := .nothing, cellTag := loweredTag s } := by
  unfold lowerCellTag loweredTag
  split <;> rfl

/-- Neither of the two branches that delete a row: the table is reloaded instead. -/
def ReloadsTable (s : AppState Data) : Prop :=
  s.searchText ≠ "" ∧ s.searchText ≠ " " ∧ s.investmentFilteredData.length ≠ 2

instance (s : AppState Data) : Decidable (ReloadsTable s) := inferInstanceAs (Decidable (_ ∧ _))

variable (foundation) in
/-- The memory once the investment is removed and the rest is saved. -/
def afterRemoval (s : AppState Data) : AppState Data :=
  saveInvestmentsData foundation { s with
    presented := .nothing
    cellTag := loweredTag s
    investments := s.investments.eraseIdx (loweredTag s) }

/-- The row that a confirmed delete takes from the visible list. -/
def deletedRow (s : AppState Data) : Except Fault Nat :=
  filteredCellTag { s with presented := .nothing, cellTag := loweredTag s }

theorem deleted_row_fails {s : AppState Data} {fault : Fault}
    (fails : deletedRow s = .error fault) :
    fault = .indexOutOfRange ∧ s.investments.length ≤ loweredTag s := by
  unfold deletedRow filteredCellTag at fails
  split at fails
  · exact nomatch fails
  · split at fails
    · rename_i missing
      exact ⟨(Except.error.inj fails).symm, List.getElem?_eq_none_iff.mp missing⟩
    · exact nomatch fails

theorem deleted_row_visible {s : AppState Data} {row : Nat} (found : deletedRow s = .ok row)
    (nonempty : s.investmentFilteredData ≠ []) : row < s.investmentFilteredData.length := by
  unfold deletedRow filteredCellTag at found
  split at found
  · rename_i empty
    exact absurd empty nonempty
  · rename_i head tail listed
    split at found
    · exact nomatch found
    · obtain rfl := Except.ok.inj found
      dsimp only at listed
      rw [listed]
      cases position : lastPosition _ (head :: tail) with
      | none => exact Nat.succ_pos _
      | some i =>
          obtain ⟨⟨record, there, -⟩, -⟩ := (last_position_some_iff _ _ _).mp position
          exact (List.getElem?_eq_some_iff.mp there).1

theorem delete_confirmed_ends (s : AppState Data)
    (trapped : s.investments.length ≤ loweredTag s ∨ s.investmentFilteredData = [] →
      ∀ visible, fallback .indexOutOfRange { s with
        presented := .nothing, cellTag := loweredTag s, investmentFilteredData := visible })
    (rowDeleted : ∀ row, deletedRow s = .ok row → row < s.investmentFilteredData.length →
      loweredTag s < s.investments.length → ¬ ReloadsTable s →
      (deleteRows row (afterRemoval foundation s)).Ends
        (fun t => post { t with pendingReloads := t.pendingReloads + 1 }) fallback)
    (reloaded : loweredTag s < s.investments.length → ReloadsTable s →
      (reloadData foundation { afterRemoval foundation s with searchText := "" }).Ends
        (fun t => post { t with pendingReloads := t.pendingReloads + 1 }) fallback) :
    (deleteConfirmed foundation s).Ends post fallback := by
  unfold deleteConfirmed
  rw [lower_cell_tag_eq]
  dsimp only
  split
  · rename_i fault fails
    obtain ⟨rfl, gone⟩ := deleted_row_fails fails
    exact trapped (.inl gone) _
  · rename_i row found
    split
    · rename_i inVisible
      have shorter : (s.investmentFilteredData.eraseIdx row).length + 1 =
          s.investmentFilteredData.length := by
        rw [List.length_eraseIdx_of_lt inVisible]
        omega
      refine ends_and_then_running ?_
      unfold removeInvestment
      dsimp only
      by_cases inStore : loweredTag s < s.investments.length
      · simp only [if_pos inStore, running_and_then]
        split
        · rename_i blank
          exact rowDeleted row found inVisible inStore fun reloads =>
            blank.elim reloads.1 reloads.2.1
        · rename_i text
          split
          · rename_i onlyOne
            exact rowDeleted row found inVisible inStore fun reloads =>
              reloads.2.2 (by omega)
          · rename_i more
            exact reloaded inStore
              ⟨fun empty => text (.inl empty), fun space => text (.inr space), by omega⟩
      · have gone := trapped (.inl (Nat.le_of_not_lt inStore))
        simp only [if_neg inStore, stopped_and_then]
        split
        · exact gone _
        · split
          · exact gone _
          · exact gone _
    · rename_i outside
      refine trapped (.inr ?_) _
      by_contra nonempty
      exact outside (deleted_row_visible found nonempty)

theorem edit_investment_ends (s : AppState Data)
    (opened : ∀ investment, s.investments[s.cellTag]? = some investment → post (openForm foundation
      { s with
      editingMode := true
      selectedItem := some investment.item
      selectedColour := some investment.colour
      selectedPlatform := investment.platform
      selectedAmount := investment.quantity
      priceBoughtFor := investment.boughtFor
      selectedID := investment.id }))
    (trapped : fallback .indexOutOfRange s) :
    (editInvestment foundation s).Ends post fallback := by
  unfold editInvestment
  split
  · exact trapped
  · rename_i investment found
    exact opened investment found

theorem amount_changed_ends (s : AppState Data)
    (changed : ∀ investment, s.investments[s.cellTag]? = some investment →
      let s := saveInvestmentsData foundation { s with
        investments := s.investments.set s.cellTag
          { investment with quantity := s.currentAmount } }
      (reloadData foundation { s with
        investmentFilteredData :=
          searchInvestments foundation.text s.searchText s.investments }).Ends post fallback)
    (trapped : fallback .indexOutOfRange s) :
    (amountChangedInvestment foundation s).Ends post fallback := by
  unfold amountChangedInvestment
  split
  · exact trapped
  · rename_i investment found
    exact changed investment found

theorem regroup_ends (s : AppState Data)
    (grouped : ∀ selected, s.investments[s.cellTag]? = some selected →
      post (saveGroupData foundation { s with
        groups := regroup foundation.text s.investments selected s.groups }))
    (trapped : fallback .indexOutOfRange s) : (groupInvesment foundation s).Ends post fallback := by
  unfold groupInvesment
  split
  · exact trapped
  · rename_i selected found
    exact grouped selected found

theorem group_investment_ends (s : AppState Data)
    (grouped : ∀ groups, post (saveGroupData foundation { s with groups := groups }))
    (trapped : fallback .indexOutOfRange s) : (groupInvesment foundation s).Ends post fallback :=
  regroup_ends s (fun _ _ => grouped _) trapped

theorem show_chart_ends (s : AppState Data)
    (shown : s.cellTag < s.investments.length → post { s with presented := .chart })
    (trapped : fallback .indexOutOfRange s) : (showRLInsiderChart s).Ends post fallback := by
  unfold showRLInsiderChart
  split
  · exact trapped
  · rename_i investment found
    exact shown (List.getElem?_eq_some_iff.mp found).1

theorem add_new_button_ends (s : AppState Data)
    (opened : FitsInt (investmentID s.investments) →
      post (openForm foundation { newFields s with selectedID := investmentID s.investments }))
    (trapped : fallback .overflow (newFields s)) :
    (addNewButton foundation s).Ends post fallback := by
  unfold addNewButton
  split
  · rename_i fits
    exact opened fits
  · exact trapped

theorem show_total_ends (s : AppState Data) (shown : post s)
    (failed : ∀ fault, showTotal foundation.text s.investmentFilteredData = .error fault →
      fallback fault s) :
    (showTotalPressed foundation s).Ends post fallback := by
  unfold showTotalPressed
  split
  · exact shown
  · rename_i fault fails
    exact failed fault fails

theorem search_items_subset (searchText : String) (items : List DecodingItem) :
    searchItems foundation searchText items ⊆ items := by
  unfold searchItems
  split
  · exact List.Subset.refl _
  · exact List.filter_subset_self _

structure FormEdit (s : AppState Data) (event : FormEvent) (filteredData : List DecodingItem)
    (selectedItem : Option DecodingItem) (selectedAmount priceBoughtFor : Int) : Prop where
  offered : filteredData ⊆ s.items ∨ filteredData = s.filteredData
  selected : selectedItem = s.selectedItem ∨ ∃ item ∈ s.filteredData, selectedItem = some item
  amount : selectedAmount = s.selectedAmount ∨ event = .stepperValueChanged selectedAmount
  price : priceBoughtFor = s.priceBoughtFor ∨
    ∃ priceString, priceBoughtFor = integerValue priceString

theorem form_step_ends (s : AppState Data) (event : FormEvent)
    (posts : ∀ filteredData selectedItem selectedColour selectedPlatform selectedAmount
      priceBoughtFor formCells,
      FormEdit s event filteredData selectedItem selectedAmount priceBoughtFor → post { s with
        filteredData := filteredData
        selectedItem := selectedItem
        selectedColour := selectedColour
        selectedPlatform := selectedPlatform
        selectedAmount := selectedAmount
        priceBoughtFor := priceBoughtFor
        formCells := formCells })
    (trapped : fallback .indexOutOfRange s) :
    (formStep foundation s event).Ends post fallback := by
  have fields := fun platform cells => posts s.filteredData s.selectedItem s.selectedColour platform
    s.selectedAmount s.priceBoughtFor cells ⟨.inr rfl, .inl rfl, .inl rfl, .inl rfl⟩
  cases event with
  | itemSelectionDidLoad =>
      exact posts s.items _ _ _ _ _ _ ⟨.inl (List.Subset.refl _), .inl rfl, .inl rfl, .inl rfl⟩
  | itemSearch searchText =>
      exact posts (searchItems foundation searchText s.items) _ _ _ _ _ _
        ⟨.inl (search_items_subset searchText s.items), .inl rfl, .inl rfl, .inl rfl⟩
  | didSelectItem row =>
      simp only [formStep, FormSheet.didSelectItem]
      split
      · exact trapped
      · rename_i item there
        exact posts _ _ _ _ _ _ _
          ⟨.inr rfl, .inr ⟨item, List.mem_of_getElem? there, rfl⟩, .inl rfl, .inl rfl⟩
  | colourPicked row =>
      simp only [formStep, FormSheet.colourPicked]
      split
      · exact trapped
      · exact posts _ _ _ _ _ _ _ ⟨.inr rfl, .inl rfl, .inl rfl, .inl rfl⟩
  | platformChanged selectedSegmentIndex =>
      simp only [formStep, formPlatformChanged]
      split <;> exact fields _ _
  | textChanged priceString =>
      exact posts _ _ _ _ _ _ _ ⟨.inr rfl, .inl rfl, .inl rfl, .inr ⟨priceString, rfl⟩⟩
  | stepperValueChanged value =>
      exact posts _ _ _ _ _ _ _ ⟨.inr rfl, .inl rfl, .inr rfl, .inl rfl⟩
  | selectionBack => exact fields _ _

theorem tab_step_ends (s : AppState Data) (event : TabEvent)
    (posts : ∀ filteredData platform xPlatData saved saved1 saved2,
      filteredData ⊆ s.items ∨ filteredData = s.filteredData → post { s with
        filteredData := filteredData
        platform := platform
        xPlatData := xPlatData
        defaults := { s.defaults with
          platform := saved, platform1 := saved1, platform2 := saved2 } }) :
    (step foundation s (.tab event)).Ends post fallback := by
  refine (ends_running _).mpr ?_
  have tabs := fun platform xPlatData saved saved1 saved2 =>
    posts s.filteredData platform xPlatData saved saved1 saved2 (.inr rfl)
  cases event with
  | pricesWillAppear => exact posts s.items _ _ _ _ _ (.inl (List.Subset.refl _))
  | pricesSearch searchText =>
      exact posts (searchItems foundation searchText s.items) _ _ _ _ _
        (.inl (search_items_subset searchText s.items))
  | pricesPlatformChanged selectedSegmentIndex =>
      simp only [tabStep, AppMemory.pricesPlatformChanged]
      split <;> exact tabs _ _ _ _ _
  | xPlatformChanged tag selectedSegmentIndex =>
      simp only [tabStep, AppMemory.xPlatformChanged]
      split <;> exact tabs _ _ _ _ _

theorem store_and_dismiss_ends (s : AppState Data)
    (built : ∀ cells, buildCells foundation.text s.investments s.investments = .ok cells →
      post { saveInvestmentsData foundation s with
        cells := cells, totalBarButtonEnabled := true, presented := .nothing })
    (failed : ∀ fault, buildCells foundation.text s.investments s.investments = .error fault →
      fallback fault (saveInvestmentsData foundation s)) :
    (storeAndDismiss foundation s).Ends post fallback :=
  ends_and_then_running (reload_table_view_ends _ built failed)

theorem add_button_ends (s : AppState Data) (refused : post s)
    (added : ∀ investment, acceptedInvestment foundation s = some investment →
      s.editingMode = false →
      (storeAndDismiss foundation { s with
        investments := s.investments ++ [investment] }).Ends post fallback)
    (edited : ∀ investment, acceptedInvestment foundation s = some investment →
      s.editingMode = true → s.cellTag < s.investments.length →
      (storeAndDismiss foundation { s with
        investments := s.investments.set s.cellTag investment }).Ends post fallback)
    (trapped : fallback .indexOutOfRange s) : (addButton foundation s).Ends post fallback := by
  unfold addButton
  split
  · exact refused
  · rename_i investment accepted
    split
    · rename_i adding
      exact added investment accepted adding
    · rename_i editing
      split
      · rename_i inStore
        exact edited investment accepted (by simpa using editing) inStore
      · exact trapped

theorem accepted_investment_spec {s : AppState Data} {investment : InvestmentItem}
    (accepted : acceptedInvestment foundation s = some investment) :
    s.selectedItem = some investment.item ∧ s.selectedColour = some investment.colour ∧
      investment.quantity = s.selectedAmount ∧ investment.boughtFor = s.priceBoughtFor ∧
      investment.platform = s.selectedPlatform ∧ investment.id = s.selectedID ∧
      (investment.item.getColourPrice foundation.text investment.colour
        investment.platform).isSome = true := by
  unfold acceptedInvestment at accepted
  split at accepted
  · exact nomatch accepted
  · rename_i item selected
    split at accepted
    · exact nomatch accepted
    · rename_i colour coloured
      rw [if_neg (by decide)] at accepted
      split at accepted
      · exact nomatch accepted
      · rename_i priced
        obtain rfl := Option.some.inj accepted
        exact ⟨selected, coloured, rfl, rfl, rfl, rfl,
          Option.isSome_iff_ne_none.mpr (by simpa using priced)⟩

end RlInvestments.HandlerRules
