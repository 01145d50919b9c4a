import RlInvestments.StoredDefaults

/-!
# From opening the form to its button

The form works on globals that are filled when it opens and written back by position
when its button is pressed. Between the two the user edits the fields in any order, may
be refused any number of times, and the main queue goes on running its blocks. Only
the record at the tag can change, or one record is appended.
-/

namespace RlInvestments.FormRuns

open RlInvestments.GuardedRuns RlInvestments.CatalogueItems RlInvestments.InvestmentStore
open RlInvestments.OverviewRows RlInvestments.AppMemory RlInvestments.OverviewHandlers
open RlInvestments.FormTable RlInvestments.FormSheet RlInvestments.AppRuns
open RlInvestments.HandlerRules
open RlInvestments.StoredDefaults

set_option autoImplicit false

variable {Data : Type} {foundation : Foundation Data}

variable (foundation) in
def resumed : Outcome Fault (AppState Data) → AppState Data
  | .running s => s
  | .stopped _ s => launch foundation s.defaults

theorem ends_resumed {post : AppState Data → Prop} {outcome : Outcome Fault (AppState Data)}
    (ends : outcome.Ends post fun _ s => post (launch foundation s.defaults)) :
    post (resumed foundation outcome) := by
  cases outcome with
  | running s => exact ends
  | stopped fault s => exact ends

theorem next_eq_resumed (s : AppState Data) (event : Event) :
    (app foundation).next s event = resumed foundation (step foundation s event) := by
  have steps : (app foundation).step s event = step foundation s event := rfl
  rw [System.next, steps]
  cases step foundation s event with
  | running next => rfl
  | stopped fault next => rfl

/-- The store that the button leaves behind when it accepts a record. -/
def storeWith (s : AppState Data) (record : InvestmentItem) : List InvestmentItem :=
  if s.editingMode = true then s.investments.set s.cellTag record else s.investments ++ [record]

structure StoredAndClosed (foundation : Foundation Data) (store : List InvestmentItem)
    (t : AppState Data) : Prop where
  stored : t.investments = store
  saved : getSavedInvestments foundation t.defaults = store
  closed : t.presented = .nothing

theorem store_and_dismiss_closes (s : AppState Data) :
    (storeAndDismiss foundation s).Ends (StoredAndClosed foundation s.investments)
      fun _ t => StoredAndClosed foundation s.investments (launch foundation t.defaults) := by
  have saved : getSavedInvestments foundation (saveInvestmentsData foundation s).defaults =
      s.investments := by
    simp only [saveInvestmentsData, getSavedInvestments, foundation.investments_round_trip]
  exact store_and_dismiss_ends s (fun _ _ => ⟨rfl, saved, rfl⟩) fun _ _ => ⟨saved, saved, rfl⟩

/-- The form's own record can be found while the form is open. -/
def TagInStore (s : AppState Data) : Prop :=
  s.editingMode = true → s.cellTag < s.investments.length

theorem refused_button {s : AppState Data} (refused : acceptedInvestment foundation s = none) :
    addButton foundation s = .running s := by
  unfold addButton
  rw [refused]

theorem accepted_button {s : AppState Data} {record : InvestmentItem} (inStore : TagInStore s)
    (accepted : acceptedInvestment foundation s = some record) :
    StoredAndClosed foundation (storeWith s record)
      (resumed foundation (addButton foundation s)) := by
  refine ends_resumed ?_
  unfold addButton storeWith
  rw [accepted]
  by_cases editing : s.editingMode = true
  · have notAdding : ¬ s.editingMode = false := by simp [editing]
    simp only [if_neg notAdding, if_pos (inStore editing), if_pos editing]
    exact store_and_dismiss_closes { s with investments := s.investments.set s.cellTag record }
  · simp only [if_pos (Bool.eq_false_of_not_eq_true editing), if_neg editing]
    exact store_and_dismiss_closes { s with investments := s.investments ++ [record] }

/-- The form's own controls that change one of its fields. -/
def changesField : Event → Bool
  | .form (.didSelectItem _) => true
  | .form (.colourPicked _) => true
  | .form (.platformChanged _) => true
  | .form (.textChanged _) => true
  | .form (.stepperValueChanged _) => true
  | _ => false

/-- What the app may do next without closing the form: its fields and its item list, a
button press that is refused, and the blocks and reloads behind the form. An arriving
catalogue is left out. -/
def staysOpen (foundation : Foundation Data) (s : AppState Data) : Event → Bool
  | .form _ => true
  | .addButton => (acceptedInvestment foundation s).isNone
  | .itemsNotification => true
  | .delayedReload => true
  | .traitCollectionDidChange => true
  | _ => false

variable (foundation) in
abbrev Filling (s : AppState Data) (event : Event) : Prop :=
  s.presented = .form ∧ Possible s event ∧ staysOpen foundation s event = true

variable (foundation) in
abbrev Untouched (s : AppState Data) (event : Event) : Prop :=
  Filling foundation s event ∧ changesField event = false

structure Kept (opened t : AppState Data) : Prop where
  investments : t.investments = opened.investments
  cellTag : t.cellTag = opened.cellTag
  editingMode : t.editingMode = opened.editingMode
  selectedID : t.selectedID = opened.selectedID

theorem filling_kept {opened t : AppState Data} (kept : Kept opened t) {event : Event}
    (filling : Filling foundation t event) :
    (step foundation t event).Ends (Kept opened) fun _ _ => True := by
  have ⟨held, tag, mode, id⟩ := kept
  cases event with
  | itemsNotification =>
      exact items_notification_ends t (fun _ _ => ⟨held, tag, mode, id⟩) (fun _ _ => trivial)
        fun _ => ⟨held, tag, mode, id⟩
  | delayedReload =>
      exact reload_data_ends _ (fun _ _ => ⟨held, tag, mode, id⟩) fun _ _ => trivial
  | traitCollectionDidChange =>
      exact reload_data_ends t (fun _ _ => ⟨held, tag, mode, id⟩) fun _ _ => trivial
  | form event =>
      exact form_step_ends t event (fun _ _ _ _ _ _ _ _ => ⟨held, tag, mode, id⟩)
        trivial
  | addButton =>
      simp only [step, refused_button (Option.isNone_iff_eq_none.mp filling.2.2)]
      exact kept
  | _ => exact absurd filling.2.2 Bool.false_ne_true

/-- The run lemma. A stop on the way leaves no form to confirm. -/
theorem kept_while_open {opened t : AppState Data}
    (run : Reachable (app foundation) (Filling foundation) (fun s => s = opened) t)
    (form : t.presented = .form) : Kept opened t := by
  refine (reachable_invariant (fun t => t.presented = .form → Kept opened t) ?_ ?_ run) form
  · rintro s rfl
    exact fun _ => ⟨rfl, rfl, rfl, rfl⟩
  · intro t event _ kept filling
    exact ends_mono (filling_kept (kept filling.1) filling) (fun _ after _ => after)
      fun _ _ _ form => nomatch form

theorem untouched_accepts {opened t : AppState Data}
    (same : acceptedInvestment foundation t = acceptedInvestment foundation opened)
    {event : Event} (untouched : Untouched foundation t event) :
    (step foundation t event).Ends
      (fun next => acceptedInvestment foundation next = acceptedInvestment foundation opened)
      fun _ _ => True := by
  obtain ⟨⟨-, -, open_⟩, noField⟩ := untouched
  cases event with
  | itemsNotification =>
      exact items_notification_ends t (fun _ _ => same) (fun _ _ => trivial) fun _ => same
  | delayedReload => exact reload_data_ends _ (fun _ _ => same) fun _ _ => trivial
  | traitCollectionDidChange => exact reload_data_ends t (fun _ _ => same) fun _ _ => trivial
  | form event =>
      cases event with
      | itemSelectionDidLoad => exact same
      | itemSearch searchText => exact same
      | selectionBack => exact same
      | _ => exact absurd noField.symm Bool.false_ne_true
  | addButton =>
      simp only [step, refused_button (Option.isNone_iff_eq_none.mp open_)]
      exact same
  | _ => exact absurd open_ Bool.false_ne_true

theorem accepts_while_untouched {opened t : AppState Data}
    (run : Reachable (app foundation) (Untouched foundation) (fun s => s = opened) t)
    (form : t.presented = .form) :
    acceptedInvestment foundation t = acceptedInvestment foundation opened := by
  refine (reachable_invariant (fun t => t.presented = .form →
    acceptedInvestment foundation t = acceptedInvestment foundation opened) ?_ ?_ run) form
  · rintro s rfl
    exact fun _ => rfl
  · intro t event _ same untouched
    exact ends_mono (untouched_accepts (same untouched.1.1) untouched) (fun _ after _ => after)
      fun _ _ _ form => nomatch form

/-- The item in the tapped row of the list as it is then. -/
def chosenItem (s : AppState Data) : Event → Option DecodingItem
  | .form (.didSelectItem row) => s.filteredData[row]?
  | _ => none

/-- An item is chosen in its default colour. -/
def chosenColour (_ : AppState Data) : Event → Option String
  | .form (.didSelectItem _) => some "Default"
  | .form (.colourPicked row) => pickerColours[row]?
  | _ => none

def chosenPlatform (_ : AppState Data) : Event → Option String
  | .form (.platformChanged selectedSegmentIndex) => segmentTitles[selectedSegmentIndex]?
  | _ => none

def chosenAmount (_ : AppState Data) : Event → Option Int
  | .form (.stepperValueChanged value) => some value
  | _ => none

def chosenPrice (_ : AppState Data) : Event → Option Int
  | .form (.textChanged priceString) => some (integerValue priceString)
  | _ => none

/-- Each field is what the event chooses for it, or what it was. -/
structure Chose (s : AppState Data) (event : Event) (t : AppState Data) : Prop where
  item : t.selectedItem = (chosenItem s event).or s.selectedItem
  colour : t.selectedColour = (chosenColour s event).or s.selectedColour
  quantity : t.selectedAmount = (chosenAmount s event).getD s.selectedAmount
  boughtFor : t.priceBoughtFor = (chosenPrice s event).getD s.priceBoughtFor
  platform : t.selectedPlatform = (chosenPlatform s event).getD s.selectedPlatform

theorem platform_changed_chooses (s : AppState Data) (i : Nat) :
    Chose s (.form (.platformChanged i)) (formPlatformChanged i s) := by
  match i with
  | 0 => exact ⟨rfl, rfl, rfl, rfl, rfl⟩
  | 1 => exact ⟨rfl, rfl, rfl, rfl, rfl⟩
  | 2 => exact ⟨rfl, rfl, rfl, rfl, rfl⟩
  | 3 => exact ⟨rfl, rfl, rfl, rfl, rfl⟩
  | _ + 4 => exact ⟨rfl, rfl, rfl, rfl, rfl⟩

theorem form_step_chooses (s : AppState Data) (event : FormEvent) :
    (formStep foundation s event).Ends (Chose s (.form event)) fun _ _ => True := by
  cases event with
  | itemSelectionDidLoad => exact ⟨rfl, rfl, rfl, rfl, rfl⟩
  | itemSearch searchText => exact ⟨rfl, rfl, rfl, rfl, rfl⟩
  | didSelectItem row =>
      simp only [formStep, didSelectItem]
      split
      · trivial
      · rename_i item there
        constructor
        · simp only [chosenItem, there]
          rfl
        all_goals rfl
  | colourPicked row =>
      simp only [formStep, colourPicked]
      split
      · trivial
      · rename_i colour there
        constructor
        · rfl
        · simp only [chosenColour, there]
          rfl
        all_goals rfl
  | platformChanged selectedSegmentIndex => exact platform_changed_chooses s selectedSegmentIndex
  | textChanged priceString => exact ⟨rfl, rfl, rfl, rfl, rfl⟩
  | stepperValueChanged value => exact ⟨rfl, rfl, rfl, rfl, rfl⟩
  | selectionBack => exact ⟨rfl, rfl, rfl, rfl, rfl⟩

theorem filling_chooses {s : AppState Data} {event : Event} (filling : Filling foundation s event) :
    (step foundation s event).Ends (Chose s event) fun _ _ => True := by
  cases event with
  | itemsNotification =>
      apply items_notification_ends s
      · exact fun _ _ => ⟨rfl, rfl, rfl, rfl, rfl⟩
      · exact fun _ _ => trivial
      · exact fun _ => ⟨rfl, rfl, rfl, rfl, rfl⟩
  | delayedReload =>
      exact reload_data_ends _ (fun _ _ => ⟨rfl, rfl, rfl, rfl, rfl⟩) fun _ _ => trivial
  | traitCollectionDidChange =>
      exact reload_data_ends s (fun _ _ => ⟨rfl, rfl, rfl, rfl, rfl⟩) fun _ _ => trivial
  | form event => exact form_step_chooses s event
  | addButton =>
      simp only [step, refused_button (Option.isNone_iff_eq_none.mp filling.2.2)]
      exact ⟨rfl, rfl, rfl, rfl, rfl⟩
  | _ => exact absurd filling.2.2 Bool.false_ne_true

theorem next_chooses {s : AppState Data} {event : Event} (filling : Filling foundation s event)
    (form : ((app foundation).next s event).presented = .form) :
    Chose s event ((app foundation).next s event) := by
  apply ends_next (app foundation) (fun t => t.presented = .form → Chose s event t) _ form
  exact ends_mono (filling_chooses filling) (fun _ chose _ => chose) fun _ _ _ form => nomatch form

structure OfFields (t : AppState Data) (record : InvestmentItem) : Prop where
  item : t.selectedItem = some record.item
  colour : t.selectedColour = some record.colour
  quantity : record.quantity = t.selectedAmount
  boughtFor : record.boughtFor = t.priceBoughtFor
  platform : record.platform = t.selectedPlatform

/-- At most the record at the tag differs, and it keeps its id. -/
structure ChangesOnly (investments : List InvestmentItem) (tag : Nat) (edited : InvestmentItem)
    (after : List InvestmentItem) : Prop where
  length : after.length = investments.length
  others : ∀ i, i ≠ tag → after[i]? = investments[i]?
  id : after[tag]?.map InvestmentItem.id = some edited.id

structure LeavesStore (foundation : Foundation Data) (investments : List InvestmentItem)
    (t : AppState Data) : Prop where
  rejected : acceptedInvestment foundation t = none →
    addButton foundation t = .running t ∧ t.investments = investments
  cancelled : (cancelButton t).investments = investments

theorem kept_leaves_store {opened t : AppState Data} (kept : Kept opened t) :
    LeavesStore foundation opened.investments t :=
  ⟨fun refused => ⟨refused_button refused, kept.investments⟩, kept.investments⟩

theorem set_changes_only {investments : List InvestmentItem} {tag : Nat}
    {edited record : InvestmentItem} (there : investments[tag]? = some edited)
    (same : record.id = edited.id) :
    ChangesOnly investments tag edited (investments.set tag record) where
  length := List.length_set
  others i other := List.getElem?_set_ne (Ne.symm other)
  id := by
    obtain ⟨inStore, -⟩ := List.getElem?_eq_some_iff.mp there
    rw [List.getElem?_set_self inStore, Option.map_some, same]

theorem unchanged_changes_only {investments : List InvestmentItem} {tag : Nat}
    {edited : InvestmentItem} (there : investments[tag]? = some edited) :
    ChangesOnly investments tag edited investments :=
  ⟨rfl, fun _ _ => rfl, congrArg _ there⟩

structure Opening where
  item : Option DecodingItem
  colour : String
  quantity : Int
  boughtFor : Int
  platform : String

def openingOf (record : InvestmentItem) : Opening :=
  ⟨some record.item, record.colour, record.quantity, record.boughtFor, record.platform⟩

def newOpening (platform : String) : Opening := ⟨none, "Default", 1, 100, platform⟩

structure OpensWith (opening : Opening) (opened : AppState Data) : Prop where
  item : opened.selectedItem = opening.item
  colour : opened.selectedColour = some opening.colour
  quantity : opened.selectedAmount = opening.quantity
  boughtFor : opened.priceBoughtFor = opening.boughtFor
  platform : opened.selectedPlatform = opening.platform

variable (foundation) in
abbrev FillsIn (opened : AppState Data) (events : List Event) (t : AppState Data) : Prop :=
  runEvents (app foundation) (Filling foundation) opened events = some t ∧ t.presented = .form

variable (foundation) in
/-- Each field is what was chosen for it last, or what the form opened with. -/
structure OfChoices (opening : Opening) (opened : AppState Data) (events : List Event)
    (record : InvestmentItem) : Prop where
  item : (lastChosen (app foundation) chosenItem opened events).or opening.item =
    some record.item
  colour : record.colour =
    (lastChosen (app foundation) chosenColour opened events).getD opening.colour
  quantity : record.quantity =
    (lastChosen (app foundation) chosenAmount opened events).getD opening.quantity
  boughtFor : record.boughtFor =
    (lastChosen (app foundation) chosenPrice opened events).getD opening.boughtFor
  platform : record.platform =
    (lastChosen (app foundation) chosenPlatform opened events).getD opening.platform

theorem filled_last_chosen {Value : Type} (chosen : AppState Data → Event → Option Value)
    (field : AppState Data → Option Value) {opened t : AppState Data} {events : List Event}
    (steps : ∀ s event, Chose s event ((app foundation).next s event) →
      field ((app foundation).next s event) = (chosen s event).or (field s))
    (fills : FillsIn foundation opened events t) :
    field t = (lastChosen (app foundation) chosen opened events).or (field opened) := by
  apply field_last_chosen (app foundation) (Filling foundation) (fun s => s.presented = .form)
  · exact fun _ _ filling => filling.1
  · exact fun s event filling form => steps s event (next_chooses filling form)
  · exact fills.1
  · exact fills.2

theorem filled_of_choices {opening : Opening} {opened t : AppState Data} {events : List Event}
    (opens : OpensWith opening opened) (fills : FillsIn foundation opened events t)
    {record : InvestmentItem} (fields : OfFields t record) :
    OfChoices foundation opening opened events record := by
  constructor
  · have last := filled_last_chosen chosenItem AppState.selectedItem
      (fun _ _ chose => chose.item) fills
    rw [← fields.item, last, opens.item]
  · have last := filled_last_chosen chosenColour AppState.selectedColour
      (fun _ _ chose => chose.colour) fills
    rw [fields.colour, opens.colour, Option.or_some] at last
    exact Option.some.inj last
  · have last := filled_last_chosen chosenAmount (fun s => some s.selectedAmount)
      (fun _ _ chose => by rw [chose.quantity, Option.or_some]) fills
    rw [opens.quantity, Option.or_some] at last
    rw [fields.quantity]
    exact Option.some.inj last
  · have last := filled_last_chosen chosenPrice (fun s => some s.priceBoughtFor)
      (fun _ _ chose => by rw [chose.boughtFor, Option.or_some]) fills
    rw [opens.boughtFor, Option.or_some] at last
    rw [fields.boughtFor]
    exact Option.some.inj last
  · have last := filled_last_chosen chosenPlatform (fun s => some s.selectedPlatform)
      (fun _ _ chose => by rw [chose.platform, Option.or_some]) fills
    rw [opens.platform, Option.or_some] at last
    rw [fields.platform]
    exact Option.some.inj last

structure EditsOne (foundation : Foundation Data) (investments : List InvestmentItem) (tag : Nat)
    (edited : InvestmentItem) (opened : AppState Data) : Prop where
  confirmed : ∀ events t, FillsIn foundation opened events t →
    (∃ record, acceptedInvestment foundation t = some record ∧
      OfChoices foundation (openingOf edited) opened events record ∧ record.id = edited.id ∧
      (resumed foundation (addButton foundation t)).investments = investments.set tag record) ∨
    (acceptedInvestment foundation t = none ∧
      (resumed foundation (addButton foundation t)).investments = investments)
  frame : ∀ events t, FillsIn foundation opened events t → ChangesOnly investments tag edited
    (resumed foundation (addButton foundation t)).investments
  leaves : ∀ events t, FillsIn foundation opened events t → LeavesStore foundation investments t
  untouched : ∀ events t, runEvents (app foundation) (Untouched foundation) opened events =
    some t → t.presented = .form →
      (resumed foundation (addButton foundation t)).investments = investments

/-- The form opened for a new record. -/
structure AddsOne (foundation : Foundation Data) (investments : List InvestmentItem)
    (platform : String) (opened : AppState Data) : Prop where
  confirmed : ∀ events t, FillsIn foundation opened events t →
    (∃ record, acceptedInvestment foundation t = some record ∧
      OfChoices foundation (newOpening platform) opened events record ∧
      record.id = investmentID investments ∧
      (resumed foundation (addButton foundation t)).investments = investments ++ [record]) ∨
    (acceptedInvestment foundation t = none ∧
      (resumed foundation (addButton foundation t)).investments = investments)
  leaves : ∀ events t, FillsIn foundation opened events t → LeavesStore foundation investments t

structure ShowsRecord (investments : List InvestmentItem) (tag : Nat) (edited : InvestmentItem)
    (opened : AppState Data) : Prop where
  fields : OfFields opened edited
  investments : opened.investments = investments
  cellTag : opened.cellTag = tag
  editingMode : opened.editingMode = true
  selectedID : opened.selectedID = edited.id

variable (foundation) in
theorem edit_shows_record (s : AppState Data) {tag : Nat} {edited : InvestmentItem}
    (there : s.investments[tag]? = some edited) :
    ∃ opened, step foundation s (.overview (.editButtonPressed tag)) = .running opened ∧
      ShowsRecord s.investments tag edited opened := by
  simp only [step, overviewStep, editInvestment, there]
  exact ⟨_, rfl, ⟨rfl, rfl, rfl, rfl, rfl⟩, rfl, rfl, rfl, rfl⟩

theorem shown_record_accepted {investments : List InvestmentItem} {tag : Nat}
    {edited record : InvestmentItem} {opened : AppState Data}
    (shows : ShowsRecord investments tag edited opened)
    (accepted : acceptedInvestment foundation opened = some record) : record = edited := by
  obtain ⟨item, colour, quantity, boughtFor, platform, id, -⟩ := accepted_investment_spec accepted
  obtain ⟨shownItem, shownColour, shownQuantity, shownBoughtFor, shownPlatform⟩ := shows.fields
  have sameItem := Option.some.inj (item.symm.trans shownItem)
  have sameColour := Option.some.inj (colour.symm.trans shownColour)
  cases record
  cases edited
  simp only [InvestmentItem.mk.injEq]
  exact ⟨sameItem, sameColour, quantity.trans shownQuantity.symm,
    boughtFor.trans shownBoughtFor.symm, platform.trans shownPlatform.symm,
    id.trans shows.selectedID⟩

theorem edit_confirmed {investments : List InvestmentItem} {tag : Nat} {edited : InvestmentItem}
    {opened t : AppState Data} (there : investments[tag]? = some edited)
    (shows : ShowsRecord investments tag edited opened) (kept : Kept opened t)
    {record : InvestmentItem} (accepted : acceptedInvestment foundation t = some record) :
    (resumed foundation (addButton foundation t)).investments = investments.set tag record ∧
      record.id = edited.id := by
  have store : t.investments = investments := kept.investments.trans shows.investments
  have position : t.cellTag = tag := kept.cellTag.trans shows.cellTag
  have editing : t.editingMode = true := kept.editingMode.trans shows.editingMode
  have tagged : TagInStore t := fun _ => by
    rw [position, store]
    exact (List.getElem?_eq_some_iff.mp there).1
  have id := (accepted_investment_spec accepted).2.2.2.2.2.1
  refine ⟨?_, id.trans (kept.selectedID.trans shows.selectedID)⟩
  rw [(accepted_button tagged accepted).stored, storeWith, if_pos editing, store, position]

theorem shown_opens_with {investments : List InvestmentItem} {tag : Nat} {edited : InvestmentItem}
    {opened : AppState Data} (shows : ShowsRecord investments tag edited opened) :
    OpensWith (openingOf edited) opened :=
  ⟨shows.fields.item, shows.fields.colour, shows.fields.quantity.symm,
    shows.fields.boughtFor.symm, shows.fields.platform.symm⟩

theorem accepted_of_fields {t : AppState Data} {record : InvestmentItem}
    (accepted : acceptedInvestment foundation t = some record) : OfFields t record := by
  have ⟨item, colour, quantity, boughtFor, platform, _⟩ := accepted_investment_spec accepted
  exact ⟨item, colour, quantity, boughtFor, platform⟩

theorem filled_kept {opened t : AppState Data} {events : List Event}
    (fills : FillsIn foundation opened events t) : Kept opened t :=
  kept_while_open (reachable_of_run_events _ _ (.start rfl) fills.1) fills.2

theorem shown_record_edits_one {investments : List InvestmentItem} {tag : Nat}
    {edited : InvestmentItem} {opened : AppState Data} (there : investments[tag]? = some edited)
    (shows : ShowsRecord investments tag edited opened) :
    EditsOne foundation investments tag edited opened := by
  have refused : ∀ events t, FillsIn foundation opened events t →
      acceptedInvestment foundation t = none →
      (resumed foundation (addButton foundation t)).investments = investments := by
    intro events t fills refuses
    rw [refused_button refuses]
    exact (filled_kept fills).investments.trans shows.investments
  constructor
  · intro events t fills
    cases accepted : acceptedInvestment foundation t with
    | none => exact .inr ⟨rfl, refused events t fills accepted⟩
    | some record =>
        have ⟨written, sameID⟩ := edit_confirmed there shows (filled_kept fills) accepted
        have choices := filled_of_choices (shown_opens_with shows) fills
          (accepted_of_fields accepted)
        exact .inl ⟨record, rfl, choices, sameID, written⟩
  · intro events t fills
    cases accepted : acceptedInvestment foundation t with
    | none =>
        rw [refused events t fills accepted]
        exact unchanged_changes_only there
    | some record =>
        have ⟨written, sameID⟩ := edit_confirmed there shows (filled_kept fills) accepted
        rw [written]
        exact set_changes_only there sameID
  · intro events t fills
    rw [← shows.investments]
    exact kept_leaves_store (filled_kept fills)
  · intro events t runs form
    have run : Reachable (app foundation) (Untouched foundation) (fun s => s = opened) t :=
      reachable_of_run_events _ _ (.start rfl) runs
    have filled := reachable_mono (fun _ _ untouched => untouched.1) (fun _ same => same) run
    have kept := kept_while_open filled form
    cases accepted : acceptedInvestment foundation t with
    | none =>
        rw [refused_button accepted]
        exact kept.investments.trans shows.investments
    | some record =>
        have same := (accepts_while_untouched run form).symm.trans accepted
        have unchanged := shown_record_accepted shows same
        rw [(edit_confirmed there shows kept accepted).1, unchanged]
        have ⟨inStore, same⟩ := List.getElem?_eq_some_iff.mp there
        rw [← same]
        exact List.set_getElem_self inStore

structure ShowsNew (investments : List InvestmentItem) (platform : String)
    (opened : AppState Data) : Prop where
  opens : OpensWith (newOpening platform) opened
  store : opened.investments = investments
  editingMode : opened.editingMode = false
  selectedID : opened.selectedID = investmentID investments

theorem new_record_adds_one {investments : List InvestmentItem} {platform : String}
    {opened : AppState Data} (shows : ShowsNew investments platform opened) :
    AddsOne foundation investments platform opened := by
  constructor
  · intro events t fills
    have kept := filled_kept fills
    have store : t.investments = investments := kept.investments.trans shows.store
    cases accepted : acceptedInvestment foundation t with
    | none =>
        rw [refused_button accepted]
        exact .inr ⟨rfl, store⟩
    | some record =>
        have notEditing : ¬ t.editingMode = true := by simp [kept.editingMode, shows.editingMode]
        have tagged : TagInStore t := fun editing => absurd editing notEditing
        have id := (accepted_investment_spec accepted).2.2.2.2.2.1
        have choices := filled_of_choices shows.opens fills (accepted_of_fields accepted)
        have fresh := id.trans (kept.selectedID.trans shows.selectedID)
        refine .inl ⟨record, rfl, choices, fresh, ?_⟩
        rw [(accepted_button tagged accepted).stored, storeWith, if_neg notEditing, store]
  · intro events t fills
    rw [← shows.store]
    exact kept_leaves_store (filled_kept fills)

variable (foundation) in
theorem new_opens_form (s : AppState Data) (fits : FitsInt (investmentID s.investments)) :
    ∃ opened, step foundation s (.overview .addNewButton) = .running opened ∧
      ShowsNew s.investments s.platform opened := by
  simp only [step, overviewStep, addNewButton, if_pos fits]
  exact ⟨_, rfl, ⟨rfl, rfl, rfl, rfl, rfl⟩, rfl, rfl, rfl⟩

/-- Whatever happens between opening the form and its button, and in whatever state it is
opened: editing writes at most the record at the tag and keeps its id, adding appends at most
one record, with the fields as they were chosen last; and without a change or a confirmation
the store is what it was. Where no id is left for a new record the form does not open. -/
theorem form_touches_one_record (foundation : Foundation Data) (s : AppState Data) :
    (∀ tag edited, s.investments[tag]? = some edited →
      ∃ opened, step foundation s (.overview (.editButtonPressed tag)) = .running opened ∧
        EditsOne foundation s.investments tag edited opened) ∧
    (FitsInt (investmentID s.investments) →
      ∃ opened, step foundation s (.overview .addNewButton) = .running opened ∧
        AddsOne foundation s.investments s.platform opened) ∧
    (¬ FitsInt (investmentID s.investments) →
      step foundation s (.overview .addNewButton) = .stopped .overflow (newFields s)) := by
  constructor
  · intro tag edited there
    have ⟨opened, opens, shows⟩ := edit_shows_record foundation s there
    exact ⟨opened, opens, shown_record_edits_one there shows⟩
  · constructor
    · intro fits
      have ⟨opened, opens, shows⟩ := new_opens_form foundation s fits
      exact ⟨opened, opens, new_record_adds_one shows⟩
    · intro outside
      simp only [step, overviewStep, addNewButton, if_neg outside]

def twoRecords : Option (AppState (List InvestmentItem ⊕ List InvestmentGroup)) :=
  runEvents (app plainFoundation) Possible (launch plainFoundation .fresh)
    (firstSession ++ addItem 1)

/-- A price is typed, the confirmation of a colour that Dominus lacks is refused, the colour is
changed back, and more pieces are entered. -/
def filledIn : List Event :=
  [.form (.textChanged "290"), .form (.colourPicked 1), .addButton, .form (.colourPicked 0),
    .form (.stepperValueChanged 3)]

theorem form_touches_one_record_edited :
    ∃ s edited opened t, twoRecords = some s ∧ s.investments[1]? = some edited ∧
      step plainFoundation s (.overview (.editButtonPressed 1)) = .running opened ∧
      FillsIn plainFoundation opened filledIn t ∧
      amounts (resumed plainFoundation (addButton plainFoundation t)).investments =
        [(1, 100), (3, 290)] ∧
      EditsOne plainFoundation s.investments 1 edited opened ∧
      ∃ added, step plainFoundation s (.overview .addNewButton) = .running added ∧
        AddsOne plainFoundation s.investments s.platform added := by
  have filled : (twoRecords.bind fun s =>
      match step plainFoundation s (.overview (.editButtonPressed 1)) with
      | .running opened =>
          (runEvents (app plainFoundation) (Filling plainFoundation) opened filledIn).map
            fun t => ((s.investments.length, investmentID s.investments), t.presented,
              amounts (resumed plainFoundation (addButton plainFoundation t)).investments)
      | .stopped _ _ => none) = some ((2, 2), .form, [(1, 100), (3, 290)]) := by decide +kernel
  have ⟨s, started, rest⟩ := Option.bind_eq_some_iff.mp filled
  split at rest
  · rename_i shown shows
    obtain ⟨t, runs, ends⟩ := Option.map_eq_some_iff.mp rest
    obtain ⟨counted, ends⟩ := Prod.mk.inj ends
    obtain ⟨two, next⟩ := Prod.mk.inj counted
    obtain ⟨form, written⟩ := Prod.mk.inj ends
    have inStore : 1 < s.investments.length := by omega
    have there := List.getElem?_eq_getElem inStore
    have fits : FitsInt (investmentID s.investments) := by
      rw [next]
      decide
    have touches := form_touches_one_record plainFoundation s
    obtain ⟨opened, opens, edits⟩ := touches.1 1 _ there
    obtain rfl := Outcome.running.inj (opens.symm.trans shows)
    exact ⟨s, _, opened, t, started, there, opens, ⟨runs, form⟩, written, edits,
      touches.2.1 fits⟩
  · cases rest

end RlInvestments.FormRuns
