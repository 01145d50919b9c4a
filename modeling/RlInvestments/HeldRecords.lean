import RlInvestments.StoredDefaults

/-!
# What is kept of every held record

A record is built from an item of the catalogue and the numbers in the form, changed
by the steppers, and given another item by a refresh. A property of records that these
four preserve holds of every record in the store and on screen, in every run.
-/

namespace RlInvestments.HeldRecords

open RlInvestments.GuardedRuns RlInvestments.CatalogueItems RlInvestments.InvestmentStore
open RlInvestments.OverviewRows RlInvestments.AppMemory RlInvestments.OverviewHandlers
open RlInvestments.FormSheet RlInvestments.AppRuns RlInvestments.HandlerRules
open RlInvestments.StoredDefaults

set_option autoImplicit false

variable {Data : Type} {foundation : Foundation Data}

/-- A property of records, those of the parts they are made of, and the faults that can
arise from records that have it. -/
structure RecordRules (foundation : Foundation Data) where
  record : InvestmentItem → Prop
  item : DecodingItem → Prop
  quantity : Int → Prop
  boughtFor : Int → Prop
  allowed : Fault → Prop
  record_item : ∀ {investment}, record investment → item investment.item
  record_quantity : ∀ {investment}, record investment → quantity investment.quantity
  record_bought_for : ∀ {investment}, record investment → boughtFor investment.boughtFor
  requantified : ∀ {investment value}, record investment → quantity value →
    record { investment with quantity := value }
  accepted : ∀ {investment}, item investment.item → quantity investment.quantity →
    boughtFor investment.boughtFor →
    (listPrice foundation.text investment).isSome = true → record investment
  stepper : ∀ {value}, stepperAdmits value = true → quantity value
  typed : ∀ priceString, boughtFor (integerValue priceString)
  unset : boughtFor 0
  preset : boughtFor 100
  outside : allowed .indexOutOfRange
  numbering : allowed .overflow
  accounting : allowed .rowAccounting
  rows : ∀ investments visible, visible ⊆ investments → (∀ record' ∈ visible, record record') →
    RaisesOnly allowed (buildCells foundation.text investments visible)
  total : ∀ visible, (∀ record' ∈ visible, record record') →
    RaisesOnly allowed (showTotal foundation.text visible)

variable (rules : RecordRules foundation)

structure HeldIn (investments visible : List InvestmentItem)
    (items filteredData : List DecodingItem) (selectedItem : Option DecodingItem)
    (selectedAmount priceBoughtFor : Int) : Prop where
  records : ∀ investment ∈ investments, rules.record investment
  subset : visible ⊆ investments
  known : ∀ item ∈ items, rules.item item
  offered : ∀ item ∈ filteredData, rules.item item
  selected : ∀ item ∈ selectedItem, rules.item item
  amount : rules.quantity selectedAmount
  price : rules.boughtFor priceBoughtFor

def Held (s : AppState Data) : Prop :=
  HeldIn rules s.investments s.investmentFilteredData s.items s.filteredData s.selectedItem
    s.selectedAmount s.priceBoughtFor

def StoreHeld (investments : List InvestmentItem) : Prop :=
  ∀ investment ∈ investments, rules.record investment

/-- A catalogue's items are as required, and so are the records that get one of them. -/
def Admits (s : AppState Data) : Event → Prop
  | .catalogueArrives (some tempItems) =>
      (∀ item ∈ tempItems.items, rules.item item) ∧
        (StoreHeld rules s.investments →
          StoreHeld rules (updateInvestments tempItems.items s.investments))
  | _ => True

abbrev Keeps (outcome : Outcome Fault (AppState Data)) : Prop :=
  outcome.Ends (Held rules) fun fault t => rules.allowed fault ∧ StoreHeld rules t.investments

variable {rules}

theorem one_piece : rules.quantity 1 := rules.stepper rfl

theorem launch_held {defaults : UserDefaults Data}
    (stored : StoreHeld rules (getSavedInvestments foundation defaults)) :
    Held rules (launch foundation defaults) where
  records := stored
  subset := List.nil_subset _
  known _ absent := absurd absent List.not_mem_nil
  offered _ absent := absurd absent List.not_mem_nil
  selected _ absent := nomatch absent
  amount := one_piece
  price := rules.unset

theorem held_store {investments visible changed shown : List InvestmentItem}
    {items filteredData : List DecodingItem} {selectedItem : Option DecodingItem}
    {selectedAmount priceBoughtFor : Int}
    (held : HeldIn rules investments visible items filteredData selectedItem selectedAmount
      priceBoughtFor)
    (records : StoreHeld rules changed) (subset : shown ⊆ changed) :
    HeldIn rules changed shown items filteredData selectedItem selectedAmount priceBoughtFor :=
  { held with records := records, subset := subset }

theorem reload_data_held {s : AppState Data} (held : Held rules s) :
    Keeps rules (reloadData foundation s) := by
  refine reload_data_ends s (fun _ _ => held) fun fault failed => ⟨?_, held.records⟩
  exact raises_only_iff.mp (rules.rows _ _ held.subset
    fun record member => held.records record (held.subset member)) fault failed

theorem rows_allowed {investments : List InvestmentItem} (records : StoreHeld rules investments)
    {fault : Fault} (failed : buildCells foundation.text investments investments = .error fault) :
    rules.allowed fault :=
  raises_only_iff.mp (rules.rows _ _ (List.Subset.refl _) records) fault failed

theorem delete_confirmed_held {s : AppState Data} (held : Held rules s) :
    Keeps rules (deleteConfirmed foundation s) := by
  have records : StoreHeld rules (s.investments.eraseIdx (loweredTag s)) :=
    fun investment member => held.records investment (List.mem_of_mem_eraseIdx member)
  have removed : Held rules (afterRemoval foundation s) :=
    held_store held records (List.Subset.refl _)
  refine delete_confirmed_ends s (fun _ _ => ⟨rules.outside, held.records⟩) ?_ ?_
  · intro row _ _ _ _
    unfold deleteRows
    split
    · exact removed
    · exact ⟨rules.accounting, records⟩
  · exact fun _ _ => reload_data_held (s := { afterRemoval foundation s with searchText := "" })
      removed

theorem overview_step_held {s : AppState Data} (held : Held rules s) {event : OverviewEvent}
    (admitted : overviewAdmits s event = true) :
    Keeps rules (overviewStep foundation s event) := by
  have trapped : rules.allowed .indexOutOfRange ∧ StoreHeld rules s.investments :=
    ⟨rules.outside, held.records⟩
  cases event with
  | searchBarTextDidChange searchText =>
      refine reload_data_held (held_store held held.records ?_)
      exact (search_investments_sublist _ _ _).subset
  | addNewButton =>
      refine add_new_button_ends s (fun _ => ?_) ⟨rules.numbering, held.records⟩
      exact { held with
        selected := fun _ absent => nomatch absent
        amount := one_piece
        price := rules.preset }
  | showTotal =>
      refine show_total_ends s held fun fault failed => ⟨?_, held.records⟩
      exact raises_only_iff.mp (rules.total _ fun record member =>
        held.records record (held.subset member)) fault failed
  | editButtonPressed tag =>
      refine edit_investment_ends _ (fun investment there => ?_) trapped
      have record := held.records investment (List.mem_of_getElem? there)
      exact { held with
        selected := fun item same => Option.some.inj same ▸ rules.record_item record
        amount := rules.record_quantity record
        price := rules.record_bought_for record }
  | deleteButtonPressed tag => exact held
  | stepperValueChanged tag value =>
      refine amount_changed_ends _ (fun investment there => ?_) trapped
      have record := held.records investment (List.mem_of_getElem? there)
      have records :
          StoreHeld rules (s.investments.set tag { investment with quantity := value }) := by
        intro other member
        rcases List.mem_or_eq_of_mem_set member with before | rfl
        · exact held.records other before
        · exact rules.requantified record (rules.stepper (Bool.and_eq_true_iff.mp admitted).2)
      exact reload_data_held (held_store held records (search_investments_sublist _ _ _).subset)
  | groupButtonPressed tag => exact group_investment_ends _ (fun _ => held) trapped
  | rlInsiderChart tag => exact show_chart_ends _ (fun _ => held) trapped

theorem form_step_held {s : AppState Data} (held : Held rules s) {event : FormEvent}
    (admitted : formAdmits event = true) :
    Keeps rules (formStep foundation s event) := by
  refine form_step_ends s event ?_ ⟨rules.outside, held.records⟩
  intro filteredData selectedItem _ _ selectedAmount priceBoughtFor _ edit
  exact { held with
    offered := fun item member => edit.offered.elim (fun listed => held.known item (listed member))
      fun same => held.offered item (same ▸ member)
    selected := fun item chosen => by
      rcases edit.selected with same | ⟨other, member, same⟩
      · exact held.selected item (same ▸ chosen)
      · obtain rfl := Option.some.inj (same.symm.trans chosen)
        exact held.offered other member
    amount := by
      rcases edit.amount with rfl | rfl
      · exact held.amount
      · exact rules.stepper admitted
    price := by
      rcases edit.price with rfl | ⟨priceString, rfl⟩
      · exact held.price
      · exact rules.typed priceString }

theorem store_and_dismiss_held {s : AppState Data} {investments : List InvestmentItem}
    (held : Held rules s) (records : StoreHeld rules investments) :
    Keeps rules (storeAndDismiss foundation { s with investments := investments }) :=
  store_and_dismiss_ends _ (fun _ _ => held_store held records (List.Subset.refl _))
    fun _ failed => ⟨rows_allowed records failed, records⟩

theorem accepted_record {s : AppState Data} (held : Held rules s) {investment : InvestmentItem}
    (accepted : acceptedInvestment foundation s = some investment) : rules.record investment := by
  obtain ⟨selected, -, amount, price, -, -, priced⟩ := accepted_investment_spec accepted
  exact rules.accepted (held.selected _ selected) (amount ▸ held.amount) (price ▸ held.price) priced

theorem add_button_held {s : AppState Data} (held : Held rules s) :
    Keeps rules (addButton foundation s) := by
  refine add_button_ends s held ?_ ?_ ⟨rules.outside, held.records⟩
  · intro investment accepted _
    refine store_and_dismiss_held held fun other member => ?_
    rcases List.mem_append.mp member with before | added
    · exact held.records other before
    · exact List.mem_singleton.mp added ▸ accepted_record held accepted
  · intro investment accepted _ _
    refine store_and_dismiss_held held fun other member => ?_
    rcases List.mem_or_eq_of_mem_set member with before | rfl
    · exact held.records other before
    · exact accepted_record held accepted

/-- The step lemma. -/
theorem step_held {s : AppState Data} (held : Held rules s) (persisted : Persisted foundation s)
    {event : Event} (admitted : Possible s event) (admits : Admits rules s event) :
    Keeps rules (step foundation s event) := by
  cases event with
  | relaunch =>
      refine (ends_running _).mpr (launch_held ?_)
      rw [persisted.investments]
      exact held.records
  | catalogueArrives catalogue =>
      cases catalogue with
      | none => exact { held with known := fun _ absent => absurd absent List.not_mem_nil }
      | some tempItems =>
          obtain ⟨known, records⟩ := admits
          exact { held_store held (records held.records) (List.Subset.refl _) with
            known := known
            offered := known }
  | itemsNotification =>
      exact items_notification_ends s (fun _ _ => held_store held held.records (List.Subset.refl _))
        (fun _ failed => ⟨rows_allowed held.records failed, held.records⟩) fun _ => held
  | delayedReload => exact reload_data_held held
  | traitCollectionDidChange => exact reload_data_held held
  | overviewDidLoad =>
      have loaded := reload_data_held (s := { s with overviewLoaded := true }) held
      exact ends_and_then_running loaded
  | overview event => exact overview_step_held held (Bool.and_eq_true_iff.mp admitted).2
  | deleteConfirmed => exact delete_confirmed_held held
  | deleteCancelled => exact held
  | form event => exact form_step_held held (Bool.and_eq_true_iff.mp admitted).2
  | addButton => exact add_button_held held
  | cancelButton => exact held
  | chartClosed => exact held
  | tab event =>
      refine tab_step_ends s event fun filteredData _ _ _ _ _ listed => ?_
      exact { held with
        offered := fun item member => listed.elim (fun subset => held.known item (subset member))
          fun same => held.offered item (same ▸ member) }

variable (rules) in
abbrev Admitted (s : AppState Data) (event : Event) : Prop :=
  Possible s event ∧ Admits rules s event

variable (rules) in
def HeldStored (defaults : UserDefaults Data) : Prop :=
  StoreHeld rules (getSavedInvestments foundation defaults)

theorem reachable_held {s : AppState Data}
    (reachable : Reachable (app foundation) (Admitted rules)
      (Launched foundation (HeldStored rules)) s) : Held rules s := by
  refine reachable_invariant (Held rules) ?_ ?_ reachable
  · rintro s ⟨defaults, stored, rfl⟩
    exact launch_held stored
  · intro s event before held guarded
    have persisted := reachable_persisted before
    refine ends_mono (ends_and (step_held held persisted guarded.1 guarded.2)
      (step_persisted persisted event)) (fun _ after => after.1) ?_
    rintro fault next ⟨⟨-, records⟩, saved⟩
    refine launch_held ?_
    rw [saved.investments]
    exact records

theorem reachable_allowed {s : AppState Data}
    (reachable : Reachable (app foundation) (Admitted rules)
      (Launched foundation (HeldStored rules)) s) {event : Event}
    (guarded : Admitted rules s event) {fault : Fault}
    (faults : (step foundation s event).fault? = some fault) : rules.allowed fault := by
  have kept := step_held (reachable_held reachable) (reachable_persisted reachable) guarded.1
    guarded.2
  obtain ⟨_, allowed, -⟩ := ends_fault kept faults
  exact allowed

end RlInvestments.HeldRecords
