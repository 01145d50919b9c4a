import Mathlib.Data.List.TakeWhile
import RlInvestments.ChartRuns
import RlInvestments.HeldRecords

/-!
# What the form shows

The cells of the form are written by its reloads and by their own controls, and the button
stores globals that it does not read from them. Each control writes its cell together with its
global, and what changes a global from elsewhere, the picker and the item selection, reloads
the form. So, whatever happens while the form is open, its cells show the record that its
button stores, and only two of the four refusals of the button can be seen.
-/

namespace RlInvestments.FormDisplay

open RlInvestments.GuardedRuns RlInvestments.CatalogueItems RlInvestments.InvestmentStore
open RlInvestments.OverviewRows RlInvestments.AppMemory RlInvestments.FormTable
open RlInvestments.OverviewHandlers RlInvestments.FormSheet RlInvestments.AppRuns
open RlInvestments.HandlerRules
open RlInvestments.HeldRecords RlInvestments.StoredDefaults
open RlInvestments.JsonText (to_digits_all)
open RlInvestments.PriceChart (platformSpellings)
open RlInvestments.ChartRuns (Charting ChartedStored Stores fresh_charted reachable_charting)

set_option autoImplicit false

theorem read_digits_eq (digits : List Char) (numeric : ∀ c ∈ digits, c.isDigit = true) :
    readDigits digits = Nat.ofDigitChars 10 digits 0 := by
  have loop : ∀ value : Nat, digits.foldl
      (fun (value : Int) digit => 10 * value + (digit.toNat - '0'.toNat : Nat)) value =
        Nat.ofDigitChars 10 digits value := by
    clear numeric
    induction digits with
    | nil => exact fun _ => rfl
    | cons digit digits induction =>
        intro value
        rw [List.foldl_cons, Nat.ofDigitChars_cons, ← induction]
        push_cast
        rfl
  rw [readDigits, List.takeWhile_eq_self_iff.mpr numeric]
  exact loop 0

theorem read_to_digits (magnitude : Nat) :
    readDigits (Nat.toDigits 10 magnitude) = magnitude := by
  rw [read_digits_eq _ (to_digits_all magnitude), Nat.ofDigitChars_ten_toDigits]

theorem saturate_of_fits {value : Int} (fits : FitsInt value) : saturate value = value := by
  unfold FitsInt at fits
  unfold saturate
  omega

theorem int_text (value : Int) : (toString value).toList =
    if value < 0 then '-' :: Nat.toDigits 10 value.natAbs else Nat.toDigits 10 value.natAbs := by
  cases value with
  | ofNat magnitude =>
      have text : toString (Int.ofNat magnitude) = magnitude.repr := rfl
      rw [text, Nat.toList_repr]
      rfl
  | negSucc below =>
      have text : toString (Int.negSucc below) = "-" ++ (below + 1).repr := rfl
      rw [text, String.toList_append, Nat.toList_repr, if_pos (Int.negSucc_lt_zero below)]
      rfl

theorem digit_not_below {digit : Char} (numeric : digit.isDigit = true) (other : Char)
    (below : other.toNat < 48) : digit ≠ other := by
  intro same
  have range := Char.isDigit_iff_toNat.mp numeric
  rw [same] at range
  have code : '0'.toNat = 48 := rfl
  omega

theorem digit_not_space {digit : Char} (numeric : digit.isDigit = true) :
    digit.isWhitespace = false := by
  have differs := digit_not_below numeric
  have space := differs ' ' (by decide)
  have tab := differs '\t' (by decide)
  have ret := differs '\r' (by decide)
  have line := differs '\n' (by decide)
  simp [Char.isWhitespace, space, tab, ret, line]

/-- What `String(priceBoughtFor)` writes is read back by `integerValue`. -/
theorem integer_value_to_string {value : Int} (fits : FitsInt value) :
    integerValue (toString value) = value := by
  unfold integerValue
  rw [int_text]
  by_cases negative : value < 0
  · rw [if_pos negative]
    have read := read_to_digits value.natAbs
    have magnitude : -(value.natAbs : Int) = value := by omega
    have trimmed : ('-' :: Nat.toDigits 10 value.natAbs).dropWhile Char.isWhitespace =
        '-' :: Nat.toDigits 10 value.natAbs := rfl
    simp only [trimmed, read, magnitude]
    exact saturate_of_fits fits
  · rw [if_neg negative]
    have read := read_to_digits value.natAbs
    have magnitude : (value.natAbs : Int) = value := by omega
    cases shape : Nat.toDigits 10 value.natAbs with
    | nil => exact absurd shape Nat.toDigits_ne_nil
    | cons digit digits =>
        have numeric : digit.isDigit = true :=
          to_digits_all value.natAbs digit (shape ▸ List.mem_cons_self)
        have plain : ¬ digit.isWhitespace = true := by simp [digit_not_space numeric]
        rw [List.dropWhile_cons_of_neg plain]
        rw [shape] at read
        split
        · rename_i rest equal
          have minus := (List.cons.inj equal).1
          exact absurd minus (digit_not_below numeric '-' (by decide))
        · rename_i rest equal
          have plus := (List.cons.inj equal).1
          exact absurd plus (digit_not_below numeric '+' (by decide))
        · rw [read, magnitude]
          exact saturate_of_fits fits

variable {Data : Type} {foundation : Foundation Data}

variable (foundation) in
/-- The message of the alert titled "Cannot add this Investment", if the button shows it. -/
def cannotProceedMessage (s : AppState Data) : Option String :=
  match s.selectedItem with
  | none => some "You have not selected an Item"
  | some item =>
      match s.selectedColour with
      | none => some "You have not selected a Colour"
      | some colour =>
          if boughtForTextLabel = some "" then some "You have not selected a Price Bought for"
          else if (item.getColourPrice foundation.text colour s.selectedPlatform).isNone then
            some (item.itemName ++ " does not come painted in " ++ colour ++ " on " ++
              s.selectedPlatform)
          else none

/-- The button refuses with an alert or stores a record, and never does neither or both. -/
theorem refused_iff_message (s : AppState Data) :
    acceptedInvestment foundation s = none ↔ (cannotProceedMessage foundation s).isSome := by
  unfold acceptedInvestment cannotProceedMessage
  cases s.selectedItem with
  | none => simp
  | some item =>
      cases s.selectedColour with
      | none => simp
      | some colour =>
          dsimp only
          split
          · simp
          · split <;> simp_all

theorem form_platform_title (s : AppState Data) {i : Nat} {title : String}
    (there : segmentTitles[i]? = some title) :
    (formPlatformChanged i s).selectedPlatform = title := by
  match i with
  | 0 => exact Option.some.inj there
  | 1 => exact Option.some.inj there
  | 2 => exact Option.some.inj there
  | 3 => exact Option.some.inj there
  | _ + 4 => cases there

theorem uppercased_spelt (text : SwiftText) {platform : String}
    (spelt : platform ∈ platformSpellings) :
    text.uppercased platform = asciiUppercase platform := by
  have ascii : ∀ platform ∈ platformSpellings,
      (platform.toList.all fun c => decide (c.toNat < 128)) = true := by decide
  exact text.uppercased_ascii platform (ascii platform spelt)

theorem segment_of_title (text : SwiftText) {i : Nat} {title : String}
    (there : segmentTitles[i]? = some title) : segmentOf (text.uppercased title) = some i := by
  have spelt : ∀ title ∈ segmentTitles, title ∈ platformSpellings := by decide
  rw [uppercased_spelt text (spelt title (List.mem_of_getElem? there))]
  match i with
  | 0 => rw [← Option.some.inj there]; rfl
  | 1 => rw [← Option.some.inj there]; rfl
  | 2 => rw [← Option.some.inj there]; rfl
  | 3 => rw [← Option.some.inj there]; rfl
  | _ + 4 => cases there

/-- Every spelling has its segment, which writes the platform again, up to case. -/
theorem segment_spelt (text : SwiftText) {platform : String}
    (spelt : platform ∈ platformSpellings) :
    ∃ i title, segmentTitles[i]? = some title ∧ segmentOf (text.uppercased platform) = some i ∧
      text.uppercased title = text.uppercased platform := by
  have listed : ∀ platform ∈ platformSpellings, ∃ title ∈ segmentTitles,
      title ∈ platformSpellings ∧ asciiUppercase title = asciiUppercase platform ∧
        segmentOf (asciiUppercase platform) = some (segmentTitles.idxOf title) := by decide
  have ⟨title, member, titleSpelt, same, segment⟩ := listed platform spelt
  refine ⟨segmentTitles.idxOf title, title, List.getElem?_idxOf member, ?_, ?_⟩
  · rw [uppercased_spelt text spelt, segment]
  · rw [uppercased_spelt text titleSpelt, same, uppercased_spelt text spelt]

/-- The cells hold what a reload would write into them, except for the price, whose text is
read back; and the fields are set that cannot be unset. -/
structure FieldsShown (cells reloaded : FormCells) (priceBoughtFor : Int)
    (selectedColour : Option String) (editingMode : Bool) (selectedItem : Option DecodingItem) :
    Prop where
  item : cells.itemText = reloaded.itemText
  colour : cells.colourText = reloaded.colourText
  segment : cells.selectedSegmentIndex = reloaded.selectedSegmentIndex
  amount : cells.amountText = reloaded.amountText
  price : integerValue cells.boughtForText = priceBoughtFor
  coloured : selectedColour.isSome = true
  chosen : editingMode = true → selectedItem.isSome = true

variable (foundation) in
def Showing (s : AppState Data) : Prop :=
  s.presented = .form → FieldsShown s.formCells (formCellForRowAt foundation s) s.priceBoughtFor
    s.selectedColour s.editingMode s.selectedItem

theorem reload_form_showing {s : AppState Data} (fits : FitsInt s.priceBoughtFor)
    (coloured : s.selectedColour.isSome = true)
    (chosen : s.editingMode = true → s.selectedItem.isSome = true) :
    Showing foundation (reloadForm foundation s) := by
  intro _
  constructor
  · rfl
  · rfl
  · simp only [reloadForm, formCellForRowAt]
    cases segmentOf (foundation.text.uppercased s.selectedPlatform) with
    | none => rfl
    | some i => rfl
  · rfl
  · exact integer_value_to_string fits
  · exact coloured
  · exact chosen

/-- What was entered for a record: a 64-bit price, and a number that the steppers admit. -/
structure Entered (investment : InvestmentItem) : Prop where
  boughtFor : FitsInt investment.boughtFor
  quantity : 1 ≤ investment.quantity ∧ investment.quantity ≤ 100

variable (foundation) in
def enteredRules : RecordRules foundation where
  record := Entered
  item _ := True
  quantity value := 1 ≤ value ∧ value ≤ 100
  boughtFor := FitsInt
  allowed _ := True
  record_item _ := trivial
  record_quantity entered := entered.quantity
  record_bought_for entered := entered.boughtFor
  requantified entered admitted := ⟨entered.boughtFor, admitted⟩
  accepted _ quantity boughtFor _ := ⟨boughtFor, quantity⟩
  stepper := of_decide_eq_true
  typed := integer_value_fits
  unset := unset_price_fits
  preset := preset_price_fits
  outside := trivial
  numbering := trivial
  accounting := trivial
  rows _ _ _ _ := raises_only_iff.mpr fun _ _ => trivial
  total _ _ := raises_only_iff.mpr fun _ _ => trivial

theorem possible_admits (s : AppState Data) (event : Event) (admitted : Possible s event) :
    Admitted (enteredRules foundation) s event := by
  refine ⟨admitted, ?_⟩
  cases event with
  | catalogueArrives catalogue =>
      cases catalogue with
      | none => exact trivial
      | some tempItems =>
          refine ⟨fun _ _ => trivial, fun held updated member => ?_⟩
          have ⟨investment, before, same⟩ := List.mem_map.mp member
          have entered : Entered investment := held investment before
          rw [← same, attach_item_eq]
          exact ⟨entered.boughtFor, entered.quantity⟩
  | _ => exact trivial

theorem reload_data_showing {s : AppState Data} (showing : Showing foundation s) :
    (reloadData foundation s).Ends (Showing foundation) fun _ _ => True :=
  reload_data_ends s (fun _ _ => showing) fun _ _ => trivial

theorem overview_step_showing {s : AppState Data} (held : Held (enteredRules foundation) s)
    (showing : Showing foundation s) (event : OverviewEvent) :
    (overviewStep foundation s event).Ends (Showing foundation) fun _ _ => True := by
  cases event with
  | searchBarTextDidChange searchText => exact reload_data_showing showing
  | addNewButton =>
      apply add_new_button_ends s _ trivial
      exact fun _ => reload_form_showing preset_price_fits rfl fun adding => nomatch adding
  | showTotal => exact show_total_ends s showing fun _ _ => trivial
  | editButtonPressed tag =>
      apply edit_investment_ends _ _ trivial
      intro investment there
      have entered : Entered investment := held.records investment (List.mem_of_getElem? there)
      exact reload_form_showing entered.boughtFor rfl fun _ => rfl
  | deleteButtonPressed tag => exact fun form => nomatch form
  | stepperValueChanged tag value =>
      apply amount_changed_ends _ _ trivial
      intro _ _
      exact reload_data_showing showing
  | groupButtonPressed tag => exact group_investment_ends _ (fun _ => showing) trivial
  | rlInsiderChart tag =>
      apply show_chart_ends _ _ trivial
      exact fun _ form => nomatch form

theorem platform_changed_showing {s : AppState Data} (showing : Showing foundation s) (i : Nat) :
    Showing foundation (formPlatformChanged i s) := by
  intro form
  have pressed : ∀ title, segmentTitles[i]? = some title → FieldsShown
      { s.formCells with selectedSegmentIndex := i }
      (formCellForRowAt foundation { s with
        formCells := { s.formCells with selectedSegmentIndex := i }
        selectedPlatform := title })
      s.priceBoughtFor s.selectedColour s.editingMode s.selectedItem := by
    intro title there
    have open_ : s.presented = .form := by
      match i with
      | 0 => exact form
      | 1 => exact form
      | 2 => exact form
      | 3 => exact form
      | _ + 4 => cases there
    have shown := showing open_
    refine { shown with segment := ?_ }
    simp only [formCellForRowAt, segment_of_title foundation.text there, Option.getD_some]
  match i with
  | 0 => exact pressed "PC" rfl
  | 1 => exact pressed "PS4" rfl
  | 2 => exact pressed "Switch" rfl
  | 3 => exact pressed "Xbox" rfl
  | _ + 4 => exact showing form

theorem form_step_showing {s : AppState Data} (held : Held (enteredRules foundation) s)
    (form : s.presented = .form) (showing : Showing foundation s) {event : FormEvent}
    (admitted : formAdmits event = true) :
    (formStep foundation s event).Ends (Showing foundation) fun _ _ => True := by
  have shown := showing form
  have fits : FitsInt s.priceBoughtFor := held.price
  cases event with
  | itemSelectionDidLoad => exact showing
  | itemSearch searchText => exact showing
  | didSelectItem row =>
      simp only [formStep, FormSheet.didSelectItem]
      split
      · trivial
      · exact reload_form_showing fits rfl fun _ => rfl
  | colourPicked row =>
      simp only [formStep, FormSheet.colourPicked]
      split
      · trivial
      · exact reload_form_showing fits rfl shown.chosen
  | platformChanged selectedSegmentIndex => exact platform_changed_showing showing _
  | textChanged priceString => exact fun _ => { shown with price := rfl }
  | stepperValueChanged value =>
      have range : 1 ≤ value ∧ value ≤ 100 := of_decide_eq_true admitted
      have shows : stepperShows value = value := stepper_shows_value range
      intro _
      refine { shown with amount := ?_ }
      simp only [stepperValueChanged, formCellForRowAt, shows]
  | selectionBack => exact reload_form_showing fits shown.coloured shown.chosen

/-- The step lemma. A stopped app has no form. -/
theorem step_showing {s : AppState Data} (held : Held (enteredRules foundation) s)
    (showing : Showing foundation s) {event : Event} (admitted : Possible s event) :
    (step foundation s event).Ends (Showing foundation) fun _ _ => True := by
  have dismissed : ∀ t : AppState Data,
      (storeAndDismiss foundation t).Ends (Showing foundation) fun _ _ => True := fun t =>
    store_and_dismiss_ends t (fun _ _ form => nomatch form) fun _ _ => trivial
  cases event with
  | relaunch => exact fun form => nomatch form
  | catalogueArrives catalogue =>
      cases catalogue with
      | none => exact showing
      | some tempItems => exact showing
  | itemsNotification =>
      exact items_notification_ends s (fun _ _ => showing) (fun _ _ => trivial) fun _ => showing
  | delayedReload => exact reload_data_showing showing
  | traitCollectionDidChange => exact reload_data_showing showing
  | overviewDidLoad => exact view_did_load_ends s (fun _ _ => showing) fun _ _ => trivial
  | overview event => exact overview_step_showing held showing event
  | deleteConfirmed =>
      apply delete_confirmed_ends s fun _ _ => trivial
      · intro row _ _ _ _
        unfold deleteRows
        split
        · exact fun form => nomatch form
        · trivial
      · intro _ _
        exact reload_data_ends _ (fun _ _ form => nomatch form) fun _ _ => trivial
  | deleteCancelled => exact fun form => nomatch form
  | form event =>
      have ⟨form, admits⟩ := Bool.and_eq_true_iff.mp admitted
      exact form_step_showing held (of_decide_eq_true form) showing admits
  | addButton =>
      exact add_button_ends s showing (fun _ _ _ => dismissed _)
        (fun _ _ _ _ => dismissed _) trivial
  | cancelButton => exact fun form => nomatch form
  | chartClosed => exact fun form => nomatch form
  | tab event => exact tab_step_ends s event fun _ _ _ _ _ _ _ => showing

/-- Stored records whose colours and platforms come from the app's lists and whose amounts were
entered in the app; a fresh installation has none. -/
structure EnteredStored (foundation : Foundation Data) (defaults : UserDefaults Data) : Prop where
  charted : ChartedStored foundation (fun _ => True) defaults
  entered : ∀ investment ∈ getSavedInvestments foundation defaults, Entered investment

theorem fresh_entered : EnteredStored foundation .fresh :=
  ⟨fresh_charted, fun _ absent => absurd absent List.not_mem_nil⟩

theorem reachable_entered {s : AppState Data}
    (reachable : Reachable (app foundation) Possible
      (Launched foundation (EnteredStored foundation)) s) : Held (enteredRules foundation) s := by
  apply reachable_held
  apply reachable_mono possible_admits _ reachable
  intro start ⟨defaults, stored, same⟩
  exact ⟨defaults, stored.entered, same⟩

theorem reachable_showing {s : AppState Data}
    (reachable : Reachable (app foundation) Possible
      (Launched foundation (EnteredStored foundation)) s) : Showing foundation s := by
  apply reachable_invariant (Showing foundation) _ _ reachable
  · intro start ⟨defaults, _, same⟩ form
    rw [same] at form
    exact nomatch form
  · intro state event before showing admitted
    apply ends_mono (step_showing (reachable_entered before) showing admitted)
    · exact fun _ after => after
    · exact fun _ _ _ form => nomatch form

theorem reachable_from_lists {s : AppState Data}
    (reachable : Reachable (app foundation) Possible
      (Launched foundation (EnteredStored foundation)) s) : Charting (fun _ => True) s := by
  have stores : ∀ (s : AppState Data) event, Possible s event →
      Stores foundation (fun _ => True) s event := fun _ _ _ _ _ => trivial
  apply reachable_charting stores
  apply reachable_mono (fun _ _ admitted => admitted) _ reachable
  intro start ⟨defaults, stored, same⟩
  exact ⟨defaults, stored.charted, same⟩

/-- What the cells say of the record that the button would store. -/
structure ShowsRecord (text : SwiftText) (cells : FormCells) (record : InvestmentItem) : Prop where
  item : cells.itemText = record.item.itemName
  colour : cells.colourText = record.colour
  platform : segmentOf (text.uppercased record.platform) = some cells.selectedSegmentIndex
  boughtFor : integerValue cells.boughtForText = record.boughtFor
  quantity : cells.amountText = toString record.quantity

structure FormTruthful (foundation : Foundation Data) (s : AppState Data) : Prop where
  stored : ∀ record, acceptedInvestment foundation s = some record →
    ShowsRecord foundation.text s.formCells record
  segment : ∃ title, segmentTitles[s.formCells.selectedSegmentIndex]? = some title ∧
    (formPlatformChanged s.formCells.selectedSegmentIndex s).selectedPlatform = title ∧
    foundation.text.uppercased title = foundation.text.uppercased s.selectedPlatform
  /-- A colour is always selected, and an item is while a record is edited. -/
  refused : ∀ message, cannotProceedMessage foundation s = some message →
    (s.editingMode = false ∧ s.selectedItem = none ∧ message = "You have not selected an Item") ∨
    ∃ item colour, s.selectedItem = some item ∧ s.selectedColour = some colour ∧
      s.formCells.itemText = item.itemName ∧ s.formCells.colourText = colour ∧
      colour ∈ pickerColours ∧
      item.getColourPrice foundation.text colour s.selectedPlatform = none ∧
      message = item.itemName ++ " does not come painted in " ++ colour ++ " on " ++
        s.selectedPlatform

theorem stored_shown {s : AppState Data} (entered : Held (enteredRules foundation) s)
    (shown : FieldsShown s.formCells (formCellForRowAt foundation s) s.priceBoughtFor
      s.selectedColour s.editingMode s.selectedItem)
    (spelt : s.selectedPlatform ∈ platformSpellings) {record : InvestmentItem}
    (accepted : acceptedInvestment foundation s = some record) :
    ShowsRecord foundation.text s.formCells record := by
  have ⟨item, colour, quantity, boughtFor, platform, _⟩ := accepted_investment_spec accepted
  have ⟨i, title, _, segment, _⟩ := segment_spelt foundation.text spelt
  constructor
  · rw [shown.item]
    simp only [formCellForRowAt, item]
  · rw [shown.colour]
    simp only [formCellForRowAt, colour, Option.getD_some]
  · rw [shown.segment, platform]
    simp only [formCellForRowAt, segment, Option.getD_some]
  · rw [boughtFor]
    exact shown.price
  · have range : 1 ≤ s.selectedAmount ∧ s.selectedAmount ≤ 100 := entered.amount
    rw [shown.amount, quantity]
    simp only [formCellForRowAt, stepper_shows_value range]

theorem segment_shown {s : AppState Data}
    (shown : FieldsShown s.formCells (formCellForRowAt foundation s) s.priceBoughtFor
      s.selectedColour s.editingMode s.selectedItem)
    (spelt : s.selectedPlatform ∈ platformSpellings) :
    ∃ title, segmentTitles[s.formCells.selectedSegmentIndex]? = some title ∧
      (formPlatformChanged s.formCells.selectedSegmentIndex s).selectedPlatform = title ∧
      foundation.text.uppercased title = foundation.text.uppercased s.selectedPlatform := by
  have ⟨i, title, there, segment, same⟩ := segment_spelt foundation.text spelt
  have selected : s.formCells.selectedSegmentIndex = i := by
    rw [shown.segment]
    simp only [formCellForRowAt, segment, Option.getD_some]
  rw [selected]
  exact ⟨title, there, form_platform_title s there, same⟩

/-- In every run, whatever happens while the form is open. -/
theorem form_shows_what_it_stores (foundation : Foundation Data) (s : AppState Data)
    (reachable : Reachable (app foundation) Possible
      (Launched foundation (EnteredStored foundation)) s)
    (form : s.presented = .form) : FormTruthful foundation s := by
  have shown := reachable_showing reachable form
  have charting := reachable_from_lists reachable
  have ⟨picked, selected⟩ := Option.isSome_iff_exists.mp shown.coloured
  constructor
  · exact fun record => stored_shown (reachable_entered reachable) shown charting.selectedPlatform
  · exact segment_shown shown charting.selectedPlatform
  · intro message shows
    unfold cannotProceedMessage at shows
    cases chosen : s.selectedItem with
    | none =>
        rw [chosen] at shows
        have notEditing : s.editingMode = false := by
          by_contra editing
          have item := shown.chosen (Bool.eq_true_of_not_eq_false editing)
          rw [chosen] at item
          exact Bool.false_ne_true item
        exact .inl ⟨notEditing, rfl, (Option.some.inj shows).symm⟩
    | some item =>
        have listed := charting.colour picked selected
        have labelled : ¬ boughtForTextLabel = some "" := by decide
        simp only [chosen, selected, if_neg labelled] at shows
        split at shows
        · rename_i unpainted
          have itemText : s.formCells.itemText = item.itemName := by
            rw [shown.item]
            simp only [formCellForRowAt, chosen]
          have colourText : s.formCells.colourText = picked := by
            rw [shown.colour]
            simp only [formCellForRowAt, selected, Option.getD_some]
          exact .inr ⟨item, picked, rfl, selected, itemText, colourText, listed,
            Option.isNone_iff_eq_none.mp unpainted, (Option.some.inj shows).symm⟩
        · exact nomatch shows

/-- A record is edited: more pieces are entered, a colour is picked that Octane does not come in,
a price is typed, and the button is pressed. -/
def unpaintedSession : List Event :=
  firstSession ++ [.overview (.editButtonPressed 0), .form (.stepperValueChanged 4),
    .form (.colourPicked 4), .form (.textChanged " -75 crates"), .addButton]

theorem form_shows_what_it_stores_unpainted :
    ∃ s, runEvents (app plainFoundation) Possible (launch plainFoundation .fresh)
        unpaintedSession = some s ∧
      (s.presented, s.formCells) = (.form, ⟨"Octane", "Crimson", 0, " -75 crates", "4"⟩) ∧
      cannotProceedMessage plainFoundation s =
        some "Octane does not come painted in Crimson on PC" ∧
      FormTruthful plainFoundation s := by
  have refused : (runEvents (app plainFoundation) Possible (launch plainFoundation .fresh)
      unpaintedSession).map (fun s => ((s.presented, s.formCells),
        cannotProceedMessage plainFoundation s)) =
      some ((.form, ⟨"Octane", "Crimson", 0, " -75 crates", "4"⟩),
        some "Octane does not come painted in Crimson on PC") := by decide +kernel
  have ⟨s, runs, shown⟩ := Option.map_eq_some_iff.mp refused
  have ⟨cells, message⟩ := Prod.mk.inj shown
  have form := (Prod.mk.inj cells).1
  refine ⟨s, runs, cells, message, form_shows_what_it_stores plainFoundation s ?_ form⟩
  exact reachable_of_fresh_run _ fresh_entered runs

end RlInvestments.FormDisplay
