import RlInvestments.ConversionRates
import RlInvestments.CrossPlatformSort
import RlInvestments.PlatformControls

/-!
# The cross-platform screen over a run of the app

`xPlatMain.swift` with its settings sheet. The screen reloads when it appears, when a
catalogue has come and when the settings are left by their button; the last two go through
the main queue, and so does the sorting. Until a list is sorted the table is hidden. Once
nothing waits, the screen shows the rates between the platforms of the settings in the
catalogue of the app, provided that no sheet with other platforms was swiped away.
-/

namespace RlInvestments.RateRuns

open RlInvestments.GuardedRuns RlInvestments.CatalogueItems RlInvestments.InvestmentStore
open RlInvestments.OverviewRows RlInvestments.AppMemory RlInvestments.OverviewHandlers
open RlInvestments.FormSheet RlInvestments.AppRuns RlInvestments.HandlerRules
open RlInvestments.WhileLoops RlInvestments.CrossPlatformSort
open RlInvestments.CrossPlatformList (RateArithmetic XPlat XPlatMain)

set_option autoImplicit false

structure RateScreen (Data Percentage : Type) where
  memory : AppState Data
  haveLoaded : Bool
  viewLoaded : Bool
  xPlatItems : List (XPlat Percentage)
  /-- Sort blocks on the main queue that have not run yet. -/
  pendingSorts : Nat
  /-- Blocks of `doneButton` that will post `reloadPlatforms`. -/
  pendingPlatforms : Nat
  title : String
  /-- The table is hidden while the activity indicator is shown. -/
  tableHidden : Bool
  /-- The rows of the last `reloadData`. -/
  rows : List (XPlat Percentage)
  /-- What they were drawn as. -/
  texts : List String
  settingsOpen : Bool
  /-- A segment was pressed in the sheet since it was opened; nothing uses it. -/
  sheetPressed : Bool
  /-- The catalogue and the platforms that the last `reload` read; nothing uses it. -/
  built : Option (List DecodingItem × String × String)

inductive ScreenEvent where
  | app (event : Event)
  | viewWillAppear
  | sortBlock
  | platformsBlock
  | settingsButton
  | doneButton
  | settingsSwiped
  | didSelectRow (row : Nat)

def titleText (xPlatData : String × String) : String := xPlatData.1 ++ " -> " ++ xPlatData.2

variable {Data Percentage : Type}

def launched (memory : AppState Data) : RateScreen Data Percentage where
  memory := memory
  haveLoaded := false
  viewLoaded := false
  xPlatItems := []
  pendingSorts := 0
  pendingPlatforms := 0
  title := ""
  tableHidden := true
  rows := []
  texts := []
  settingsOpen := false
  sheetPressed := false
  built := none

def listOf (s : RateScreen Data Percentage) : XPlatMain Percentage :=
  ⟨s.memory.items, s.memory.xPlatData, s.haveLoaded, s.xPlatItems, s.pendingSorts⟩

def viewDidLoad (s : RateScreen Data Percentage) : RateScreen Data Percentage :=
  { s with viewLoaded := true, title := titleText s.memory.xPlatData }

/-- The table asks for every cell, and one that cannot be drawn stops the app. -/
def reloadTableView (draw : XPlat Percentage → Except Fault String)
    (s : RateScreen Data Percentage) : Outcome (Stop Fault) (RateScreen Data Percentage) :=
  let s := { s with title := titleText s.memory.xPlatData, tableHidden := false }
  match s.xPlatItems.mapM draw with
  | .error fault => .stopped (.fault fault) s
  | .ok texts => .running { s with rows := s.xPlatItems, texts }

section Steps

variable (arithmetic : RateArithmetic Percentage) (foundation : Foundation Data)

def reload (s : RateScreen Data Percentage) :
    Outcome (Stop Fault) (RateScreen Data Percentage) :=
  match CrossPlatformList.reload arithmetic foundation.text (listOf s) with
  | .stopped stop list =>
      .stopped stop { s with xPlatItems := list.xPlatItems, tableHidden := true }
  | .running list => .running { s with
      xPlatItems := list.xPlatItems
      pendingSorts := list.pendingSorts
      tableHidden := true
      built := some (s.memory.items, s.memory.xPlatData) }

/-- The view is loaded when the tab is opened for the first time. -/
def viewWillAppear (s : RateScreen Data Percentage) :
    Outcome (Stop Fault) (RateScreen Data Percentage) :=
  let s := if s.viewLoaded then s else viewDidLoad s
  let s := { s with tableHidden := true }
  if s.haveLoaded then reload arithmetic foundation s else .running s

/-- Before its view has loaded the screen observes nothing. -/
def reloadPosted (s : RateScreen Data Percentage) :
    Outcome (Stop Fault) (RateScreen Data Percentage) :=
  if s.viewLoaded then reload arithmetic foundation s else .running s

/-- What the screen does once a step of the app has changed the memory. -/
def afterStep (s : RateScreen Data Percentage) :
    Event → Outcome (Stop Fault) (RateScreen Data Percentage)
  | .relaunch => .running (launched s.memory)
  | .itemsNotification =>
      (reloadPosted arithmetic foundation s).andThen
        fun s => .running { s with haveLoaded := true }
  | .tab (.xPlatformChanged _ _) => .running { s with sheetPressed := true }
  | _ => .running s

variable (draw : XPlat Percentage → Except Fault String) [LE Percentage] [DecidableLE Percentage]

def sortBlock (s : RateScreen Data Percentage) :
    Outcome (Stop Fault) (RateScreen Data Percentage) :=
  match CrossPlatformList.runSort (listOf s) with
  | .stopped stop list => .stopped stop { s with xPlatItems := list.xPlatItems }
  | .running list => reloadTableView draw { s with
      xPlatItems := list.xPlatItems, pendingSorts := list.pendingSorts }

def screenStep (s : RateScreen Data Percentage) :
    ScreenEvent → Outcome (Stop Fault) (RateScreen Data Percentage)
  | .app event =>
      match step foundation s.memory event with
      | .running memory => afterStep arithmetic foundation { s with memory } event
      | .stopped fault memory => .stopped (.fault fault) { s with memory }
  | .viewWillAppear => viewWillAppear arithmetic foundation s
  | .sortBlock => sortBlock draw s
  | .platformsBlock =>
      reloadPosted arithmetic foundation { s with pendingPlatforms := s.pendingPlatforms - 1 }
  | .settingsButton => .running { s with settingsOpen := true, sheetPressed := false }
  | .doneButton => .running { s with
      settingsOpen := false, pendingPlatforms := s.pendingPlatforms + 1 }
  | .settingsSwiped => .running { s with settingsOpen := false }
  | .didSelectRow row =>
      match s.xPlatItems[row]? with
      | none => .stopped (.fault .indexOutOfRange) s
      | some _ => .running s

def rateScreen : System (RateScreen Data Percentage) ScreenEvent (Stop Fault) where
  step := screenStep arithmetic foundation draw
  restart s := launched (launch foundation s.memory.defaults)

end Steps

/-- `"\(priceRange)"`. -/
def rangeText (priceRange : List Int) : String :=
  "[" ++ ", ".intercalate (priceRange.map toString) ++ "]"

def alertMessage (xPlatData : String × String) (xPlatitem : XPlat Percentage) : String :=
  xPlatData.1 ++ " Price: " ++ rangeText xPlatitem.platform1Price ++ " \n" ++
    (xPlatData.2 ++ " Price: " ++ rangeText xPlatitem.platform2Price)

/-- The title and the message of the alert that a tap shows. -/
def tappedAlert (s : RateScreen Data Percentage) (row : Nat) : Option (String × String) :=
  s.xPlatItems[row]?.map fun xPlatitem =>
    (xPlatitem.itemName, alertMessage s.memory.xPlatData xPlatitem)

/-- The platforms are pressed in the settings sheet, and a row while the table is shown. -/
def screenPossible (s : RateScreen Data Percentage) : ScreenEvent → Bool
  | .app (.tab (.xPlatformChanged tag i)) =>
      s.settingsOpen && possible s.memory (.tab (.xPlatformChanged tag i))
  | .app event => possible s.memory event
  | .viewWillAppear => true
  | .sortBlock => decide (0 < s.pendingSorts)
  | .platformsBlock => decide (0 < s.pendingPlatforms)
  | .settingsButton => s.viewLoaded && !s.settingsOpen
  | .doneButton => s.settingsOpen
  | .settingsSwiped => s.settingsOpen
  | .didSelectRow row => !s.tableHidden && decide (row < s.rows.length)

/-- The sheet is swiped away only if nothing was pressed in it, or what is on screen is for the
platforms in it, and no catalogue that cannot be read comes after one that was listed. -/
def leavesCurrent (s : RateScreen Data Percentage) : ScreenEvent → Bool
  | .settingsSwiped => !s.sheetPressed ||
      s.built.all (fun read => decide (read.2 = s.memory.xPlatData)) &&
        (s.tableHidden || decide (s.title = titleText s.memory.xPlatData))
  | .app (.catalogueArrives none) => s.built.all fun read => decide (read.1 = [])
  | _ => true

abbrev Kept (s : RateScreen Data Percentage) (event : ScreenEvent) : Prop :=
  screenPossible s event = true ∧ leavesCurrent s event = true

def globals (s : AppState Data) : List DecodingItem × (String × String) × Nat :=
  (s.items, s.xPlatData, s.pendingItems)

def writesGlobals : Event → Bool
  | .relaunch => true
  | .catalogueArrives _ => true
  | .itemsNotification => true
  | .tab (.xPlatformChanged _ _) => true
  | _ => false

theorem step_keeps_globals {foundation : Foundation Data} {s : AppState Data} {event : Event}
    (elsewhere : writesGlobals event = false) :
    (step foundation s event).Ends (fun t => globals t = globals s) fun _ _ => True := by
  have kept : globals s = globals s := rfl
  cases event with
  | relaunch => cases elsewhere
  | catalogueArrives catalogue => cases elsewhere
  | itemsNotification => cases elsewhere
  | delayedReload => exact reload_data_ends _ (fun _ _ => kept) fun _ _ => trivial
  | traitCollectionDidChange => exact reload_data_ends s (fun _ _ => kept) fun _ _ => trivial
  | overviewDidLoad => exact view_did_load_ends s (fun _ _ => kept) fun _ _ => trivial
  | overview event =>
      cases event with
      | searchBarTextDidChange searchText =>
          exact reload_data_ends _ (fun _ _ => kept) fun _ _ => trivial
      | addNewButton => exact add_new_button_ends s (fun _ => kept) trivial
      | showTotal => exact show_total_ends s kept fun _ _ => trivial
      | editButtonPressed tag => exact edit_investment_ends _ (fun _ _ => kept) trivial
      | deleteButtonPressed tag => exact kept
      | stepperValueChanged tag value =>
          apply amount_changed_ends _ _ trivial
          intro _ _
          exact reload_data_ends _ (fun _ _ => kept) fun _ _ => trivial
      | groupButtonPressed tag => exact group_investment_ends _ (fun _ => kept) trivial
      | rlInsiderChart tag => exact show_chart_ends _ (fun _ => kept) trivial
  | deleteConfirmed =>
      apply delete_confirmed_ends s fun _ _ => trivial
      · intro row _ _ _ _
        unfold deleteRows
        split
        · exact kept
        · trivial
      · intro _ _
        exact reload_data_ends _ (fun _ _ => kept) fun _ _ => trivial
  | deleteCancelled => exact kept
  | form event => exact form_step_ends s event (fun _ _ _ _ _ _ _ _ => kept) trivial
  | addButton =>
      apply add_button_ends s kept _ _ trivial
      · exact fun _ _ _ => store_and_dismiss_ends _ (fun _ _ => kept) fun _ _ => trivial
      · exact fun _ _ _ _ => store_and_dismiss_ends _ (fun _ _ => kept) fun _ _ => trivial
  | cancelButton => exact kept
  | chartClosed => exact kept
  | tab event =>
      cases event with
      | pricesWillAppear => exact kept
      | pricesSearch searchText => exact kept
      | pricesPlatformChanged i =>
          simp only [step, ends_running, tabStep, AppMemory.pricesPlatformChanged]
          split <;> exact kept
      | xPlatformChanged tag i => cases elsewhere

/-- The list is what the last reload read makes, the table is shown only over a sorted list,
and what was read is out of date only while something is waiting or the sheet is open. -/
structure Sound (arithmetic : RateArithmetic Percentage) (text : SwiftText)
    (draw : XPlat Percentage → Except Fault String) [LinearOrder Percentage]
    (s : RateScreen Data Percentage) : Prop where
  entries : ∀ read ∈ s.built, ∃ entries,
    List.Forall₂ (EntryOf arithmetic text read.2) (pricedPlaces text read.2 read.1) entries ∧
      s.xPlatItems.Perm entries
  unbuilt : s.built = none → s.pendingSorts = 0 ∧ s.tableHidden = true
  unloaded : s.viewLoaded = false → s.built = none
  shown : s.tableHidden = false → s.rows = s.xPlatItems ∧ Descending s.xPlatItems ∧
    s.xPlatItems.mapM draw = .ok s.texts
  waiting : s.viewLoaded = true → s.haveLoaded = true → s.tableHidden = true →
    0 < s.pendingSorts
  catalogue : ∀ read ∈ s.built, read.1 = s.memory.items ∨ 0 < s.memory.pendingItems
  platforms : ∀ read ∈ s.built, read.2 = s.memory.xPlatData ∨
    (s.settingsOpen = true ∧ s.sheetPressed = true) ∨ 0 < s.pendingPlatforms
  titled : s.tableHidden = false → s.title = titleText s.memory.xPlatData ∨
    (s.settingsOpen = true ∧ s.sheetPressed = true) ∨ 0 < s.pendingPlatforms

section Steps

variable {arithmetic : RateArithmetic Percentage} {foundation : Foundation Data}
  {draw : XPlat Percentage → Except Fault String}

theorem launched_sound [LinearOrder Percentage] (text : SwiftText) (memory : AppState Data) :
    Sound arithmetic text draw (launched memory) where
  entries := nofun
  unbuilt := fun _ => ⟨rfl, rfl⟩
  unloaded := fun _ => rfl
  shown := nofun
  waiting := nofun
  catalogue := nofun
  platforms := nofun
  titled := nofun

theorem reload_reads (s : RateScreen Data Percentage) :
    (reload arithmetic foundation s).Ends (fun t => ∃ xPlatItems,
      List.Forall₂ (EntryOf arithmetic foundation.text s.memory.xPlatData)
        (pricedPlaces foundation.text s.memory.xPlatData s.memory.items) xPlatItems ∧
      t = { s with
        xPlatItems
        pendingSorts := s.pendingSorts + 1
        tableHidden := true
        built := some (s.memory.items, s.memory.xPlatData) }) fun _ _ => True := by
  have list : (CrossPlatformList.reload arithmetic foundation.text (listOf s)).Ends _ _ :=
    reload_ends (listOf s)
  unfold reload
  cases reloaded : CrossPlatformList.reload arithmetic foundation.text (listOf s) with
  | stopped stop after => trivial
  | running after =>
      rw [reloaded] at list
      have ⟨entries, pending⟩ := list
      refine ⟨after.xPlatItems, entries, ?_⟩
      rw [pending]
      rfl

theorem view_will_appear_eq (arithmetic : RateArithmetic Percentage)
    (foundation : Foundation Data) (s : RateScreen Data Percentage) :
    ∃ title, viewWillAppear arithmetic foundation s =
      if s.haveLoaded then
        reload arithmetic foundation { s with viewLoaded := true, title, tableHidden := true }
      else .running { s with viewLoaded := true, title, tableHidden := true } := by
  cases s with
  | mk memory haveLoaded viewLoaded =>
      cases viewLoaded with
      | true => exact ⟨_, rfl⟩
      | false => exact ⟨_, rfl⟩

theorem reload_table_view_ends {s : RateScreen Data Percentage}
    {post : RateScreen Data Percentage → Prop}
    (drawn : ∀ texts, s.xPlatItems.mapM draw = .ok texts → post { s with
      title := titleText s.memory.xPlatData, tableHidden := false, rows := s.xPlatItems, texts }) :
    (reloadTableView draw s).Ends post fun _ _ => True := by
  unfold reloadTableView
  dsimp only
  split
  · trivial
  · rename_i texts draws
    exact drawn texts draws

variable [LinearOrder Percentage]

variable (draw) in
theorem reload_sound {s : RateScreen Data Percentage} (loaded : s.viewLoaded = true) :
    (reload arithmetic foundation s).Ends (fun t => Sound arithmetic foundation.text draw t ∧
      t.tableHidden = true ∧ 0 < t.pendingSorts) fun _ _ => True := by
  apply ends_mono (reload_reads s) _ fun _ _ _ => trivial
  intro t ⟨xPlatItems, entries, same⟩
  rw [same]
  refine ⟨?_, rfl, Nat.succ_pos _⟩
  constructor
  · intro read isRead
    cases isRead
    exact ⟨xPlatItems, entries, List.Perm.refl _⟩
  · exact nofun
  · exact fun unloaded => absurd (loaded.symm.trans unloaded).symm Bool.false_ne_true
  · exact nofun
  · exact fun _ _ _ => Nat.succ_pos _
  · intro read isRead
    cases isRead
    exact .inl rfl
  · intro read isRead
    cases isRead
    exact .inl rfl
  · exact nofun

theorem sort_block_sound {s : RateScreen Data Percentage}
    (sound : Sound arithmetic foundation.text draw s) (posted : 0 < s.pendingSorts) :
    (sortBlock draw s).Ends (Sound arithmetic foundation.text draw) fun _ _ => True := by
  have sorts := run_sort_ends (listOf s)
  unfold sortBlock
  cases ran : CrossPlatformList.runSort (listOf s) with
  | stopped stop after => trivial
  | running after =>
      rw [ran] at sorts
      have ⟨perm, descending⟩ := sorts
      have readOnce : s.built ≠ none := by
        intro none
        have ⟨empty, _⟩ := sound.unbuilt none
        omega
      apply reload_table_view_ends
      intro texts draws
      constructor
      · intro read isRead
        have ⟨entries, made, same⟩ := sound.entries read isRead
        exact ⟨entries, made, perm.trans same⟩
      · exact fun none => absurd none readOnce
      · exact sound.unloaded
      · exact fun _ => ⟨rfl, descending, draws⟩
      · exact nofun
      · exact sound.catalogue
      · exact sound.platforms
      · exact fun _ => .inl rfl

theorem appears_unloaded_sound {s : RateScreen Data Percentage}
    (sound : Sound arithmetic foundation.text draw s) (unloaded : s.haveLoaded = false)
    (title : String) :
    Sound arithmetic foundation.text draw
      { s with viewLoaded := true, title, tableHidden := true } where
  entries := sound.entries
  unbuilt := fun none => ⟨(sound.unbuilt none).1, rfl⟩
  unloaded := nofun
  shown := nofun
  waiting := fun _ loaded => absurd (unloaded.symm.trans loaded) Bool.false_ne_true
  catalogue := sound.catalogue
  platforms := sound.platforms
  titled := nofun

theorem view_will_appear_sound {s : RateScreen Data Percentage}
    (sound : Sound arithmetic foundation.text draw s) :
    (viewWillAppear arithmetic foundation s).Ends (Sound arithmetic foundation.text draw)
      fun _ _ => True := by
  have ⟨title, same⟩ := view_will_appear_eq arithmetic foundation s
  rw [same]
  cases haveLoaded : s.haveLoaded with
  | true =>
      apply ends_mono (reload_sound draw rfl) _ fun _ _ _ => trivial
      exact fun _ after => after.1
  | false =>
      have hidden := appears_unloaded_sound sound haveLoaded title
      rw [haveLoaded] at hidden
      exact hidden

variable (draw) in
theorem reload_posted_sound {s : RateScreen Data Percentage}
    (sound : s.viewLoaded = false → Sound arithmetic foundation.text draw s) :
    (reloadPosted arithmetic foundation s).Ends (fun t => Sound arithmetic foundation.text draw t ∧
      (t.viewLoaded = true → 0 < t.pendingSorts)) fun _ _ => True := by
  unfold reloadPosted
  cases viewLoaded : s.viewLoaded with
  | true =>
      rw [if_pos rfl]
      apply ends_mono (reload_sound draw viewLoaded) _ fun _ _ _ => trivial
      exact fun _ after => ⟨after.1, fun _ => after.2.2⟩
  | false =>
      rw [if_neg Bool.false_ne_true]
      exact ⟨sound viewLoaded, fun loaded =>
        absurd (viewLoaded.symm.trans loaded) Bool.false_ne_true⟩

/-- Before the view has loaded nothing that was read can be out of date. -/
theorem unloaded_sound {t : RateScreen Data Percentage} (unloaded : t.viewLoaded = false)
    (built : t.built = none) (sorts : t.pendingSorts = 0) (hidden : t.tableHidden = true) :
    Sound arithmetic foundation.text draw t where
  entries := by rw [built]; exact nofun
  unbuilt := fun _ => ⟨sorts, hidden⟩
  unloaded := fun _ => built
  shown := fun shown => absurd (shown.symm.trans hidden) Bool.false_ne_true
  waiting := fun loaded => absurd (unloaded.symm.trans loaded) Bool.false_ne_true
  catalogue := by rw [built]; exact nofun
  platforms := by rw [built]; exact nofun
  titled := fun shown => absurd (shown.symm.trans hidden) Bool.false_ne_true

theorem memory_sound {s : RateScreen Data Percentage}
    (sound : Sound arithmetic foundation.text draw s) {memory : AppState Data}
    (same : globals memory = globals s.memory) :
    Sound arithmetic foundation.text draw { s with memory } := by
  have ⟨items, rest⟩ := Prod.mk.inj same
  have ⟨xPlatData, pendingItems⟩ := Prod.mk.inj rest
  constructor
  · exact sound.entries
  · exact sound.unbuilt
  · exact sound.unloaded
  · exact sound.shown
  · exact sound.waiting
  · rw [items, pendingItems]
    exact sound.catalogue
  · rw [xPlatData]
    exact sound.platforms
  · rw [xPlatData]
    exact sound.titled

theorem app_step_ends {s : RateScreen Data Percentage} {event : Event}
    {post : RateScreen Data Percentage → Prop}
    (ends : (step foundation s.memory event).Ends (fun memory =>
      (afterStep arithmetic foundation { s with memory } event).Ends post fun _ _ => True)
        fun _ _ => True) :
    (screenStep arithmetic foundation draw s (.app event)).Ends post fun _ _ => True := by
  cases ran : step foundation s.memory event with
  | running memory =>
      rw [ran] at ends
      simp only [screenStep, ran]
      exact ends
  | stopped fault memory =>
      simp only [screenStep, ran]
      trivial

/-- The notification comes with the items and the platforms that the app has by then. -/
theorem notification_sound {s : RateScreen Data Percentage}
    (sound : Sound arithmetic foundation.text draw s) :
    (screenStep arithmetic foundation draw s (.app .itemsNotification)).Ends
      (Sound arithmetic foundation.text draw) fun _ _ => True := by
  apply app_step_ends
  have observed : ∀ memory, (afterStep arithmetic foundation { s with memory }
      .itemsNotification).Ends (Sound arithmetic foundation.text draw) fun _ _ => True := by
    intro memory
    apply ends_and_then_running
    have before : ({ s with memory } : RateScreen Data Percentage).viewLoaded = false →
        Sound arithmetic foundation.text draw { s with memory } := by
      intro unloaded
      have none := sound.unloaded unloaded
      have ⟨sorts, hidden⟩ := sound.unbuilt none
      exact unloaded_sound unloaded none sorts hidden
    apply ends_mono (reload_posted_sound draw before) _ fun _ _ _ => trivial
    intro t ⟨after, sorts⟩
    exact { after with waiting := fun loaded _ _ => sorts loaded }
  cases step foundation s.memory .itemsNotification with
  | running memory => exact observed memory
  | stopped fault memory => trivial

/-- A press writes the platforms under the open sheet, which then are newer than the list. -/
theorem pressed_sound {s : RateScreen Data Percentage}
    (sound : Sound arithmetic foundation.text draw s) (sheet : s.settingsOpen = true)
    {memory : AppState Data} (items : memory.items = s.memory.items)
    (pendingItems : memory.pendingItems = s.memory.pendingItems) :
    Sound arithmetic foundation.text draw { s with memory, sheetPressed := true } where
  entries := sound.entries
  unbuilt := sound.unbuilt
  unloaded := sound.unloaded
  shown := sound.shown
  waiting := sound.waiting
  catalogue := by
    rw [items, pendingItems]
    exact sound.catalogue
  platforms := fun _ _ => .inr (.inl ⟨sheet, rfl⟩)
  titled := fun _ => .inr (.inl ⟨sheet, rfl⟩)

theorem arrived_sound {s : RateScreen Data Percentage}
    (sound : Sound arithmetic foundation.text draw s) {catalogue : Option DecodingItems}
    (kept : Kept s (.app (.catalogueArrives catalogue))) :
    Sound arithmetic foundation.text draw
      { s with memory := initializeData foundation catalogue s.memory } := by
  have ⟨_, current⟩ := kept
  cases catalogue with
  | none =>
      constructor
      · exact sound.entries
      · exact sound.unbuilt
      · exact sound.unloaded
      · exact sound.shown
      · exact sound.waiting
      · intro read isRead
        have built : s.built = some read := isRead
        simp only [leavesCurrent, built, Option.all_some] at current
        exact .inl (of_decide_eq_true current)
      · exact sound.platforms
      · exact sound.titled
  | some tempItems =>
      constructor
      · exact sound.entries
      · exact sound.unbuilt
      · exact sound.unloaded
      · exact sound.shown
      · exact sound.waiting
      · exact fun _ _ => .inr (Nat.succ_pos _)
      · exact sound.platforms
      · exact sound.titled

theorem app_step_sound {s : RateScreen Data Percentage}
    (sound : Sound arithmetic foundation.text draw s) {event : Event} (kept : Kept s (.app event)) :
    (screenStep arithmetic foundation draw s (.app event)).Ends
      (Sound arithmetic foundation.text draw) fun _ _ => True := by
  have quiet : ∀ {event}, writesGlobals event = false →
      (∀ memory, afterStep arithmetic foundation { s with memory } event =
        .running { s with memory }) →
      (screenStep arithmetic foundation draw s (.app event)).Ends
        (Sound arithmetic foundation.text draw) fun _ _ => True := by
    intro event elsewhere leaves
    apply app_step_ends
    apply ends_mono (step_keeps_globals elsewhere) _ fun _ _ _ => trivial
    intro memory same
    rw [leaves]
    exact memory_sound sound same
  cases event with
  | relaunch => exact launched_sound _ _
  | catalogueArrives catalogue => exact arrived_sound sound kept
  | itemsNotification => exact notification_sound sound
  | tab event =>
      cases event with
      | xPlatformChanged tag i =>
          have sheet : s.settingsOpen = true := (Bool.and_eq_true_iff.mp kept.1).1
          apply pressed_sound sound sheet
          · simp only [tabStep, AppMemory.xPlatformChanged]
            split <;> rfl
          · simp only [tabStep, AppMemory.xPlatformChanged]
            split <;> rfl
      | pricesWillAppear => exact quiet rfl fun _ => rfl
      | pricesSearch searchText => exact quiet rfl fun _ => rfl
      | pricesPlatformChanged i => exact quiet rfl fun _ => rfl
  | delayedReload => exact quiet rfl fun _ => rfl
  | traitCollectionDidChange => exact quiet rfl fun _ => rfl
  | overviewDidLoad => exact quiet rfl fun _ => rfl
  | overview event => exact quiet rfl fun _ => rfl
  | deleteConfirmed => exact quiet rfl fun _ => rfl
  | deleteCancelled => exact quiet rfl fun _ => rfl
  | form event => exact quiet rfl fun _ => rfl
  | addButton => exact quiet rfl fun _ => rfl
  | cancelButton => exact quiet rfl fun _ => rfl
  | chartClosed => exact quiet rfl fun _ => rfl

theorem unpressed_sound {s : RateScreen Data Percentage}
    (sound : Sound arithmetic foundation.text draw s)
    (notPressed : ¬ (s.settingsOpen = true ∧ s.sheetPressed = true))
    (settingsOpen sheetPressed : Bool) :
    Sound arithmetic foundation.text draw { s with settingsOpen, sheetPressed } :=
  { sound with
    platforms := fun read isRead => (sound.platforms read isRead).imp_right
      fun waits => .inr (waits.resolve_left notPressed)
    titled := fun visible => (sound.titled visible).imp_right
      fun waits => .inr (waits.resolve_left notPressed) }

/-- The sheet is left as it was opened, or with what is on screen made for the platforms in it. -/
theorem swiped_sound {s : RateScreen Data Percentage}
    (sound : Sound arithmetic foundation.text draw s) (kept : Kept s .settingsSwiped) :
    Sound arithmetic foundation.text draw { s with settingsOpen := false } := by
  have current := kept.2
  simp only [leavesCurrent] at current
  cases unpressed : s.sheetPressed with
  | false =>
      have notPressed : ¬ (s.settingsOpen = true ∧ s.sheetPressed = true) := by
        rw [unpressed]
        exact fun pressed => Bool.false_ne_true pressed.2
      exact unpressed_sound sound notPressed false false
  | true =>
      rw [unpressed, Bool.not_true, Bool.false_or] at current
      have ⟨platforms, title⟩ := Bool.and_eq_true_iff.mp current
      constructor
      · exact sound.entries
      · exact sound.unbuilt
      · exact sound.unloaded
      · exact sound.shown
      · exact sound.waiting
      · exact sound.catalogue
      · intro read isRead
        have built : s.built = some read := isRead
        rw [built, Option.all_some] at platforms
        exact .inl (of_decide_eq_true platforms)
      · intro shown
        have hidden : s.tableHidden = false := shown
        rw [hidden, Bool.false_or] at title
        exact .inl (of_decide_eq_true title)

theorem screen_step_sound {s : RateScreen Data Percentage}
    (sound : Sound arithmetic foundation.text draw s) {event : ScreenEvent} (kept : Kept s event) :
    (screenStep arithmetic foundation draw s event).Ends (Sound arithmetic foundation.text draw)
      fun _ _ => True := by
  cases event with
  | app event => exact app_step_sound sound kept
  | viewWillAppear => exact view_will_appear_sound sound
  | sortBlock => exact sort_block_sound sound (of_decide_eq_true kept.1)
  | platformsBlock =>
      have before : s.viewLoaded = false → Sound arithmetic foundation.text draw
          { s with pendingPlatforms := s.pendingPlatforms - 1 } := by
        intro unloaded
        have none := sound.unloaded unloaded
        have ⟨sorts, hidden⟩ := sound.unbuilt none
        exact unloaded_sound unloaded none sorts hidden
      apply ends_mono (reload_posted_sound draw before) _ fun _ _ _ => trivial
      exact fun _ after => after.1
  | settingsButton =>
      have closed : s.settingsOpen = false :=
        Bool.not_eq_true' _ ▸ (Bool.and_eq_true_iff.mp kept.1).2
      have notPressed : ¬ (s.settingsOpen = true ∧ s.sheetPressed = true) := by
        rw [closed]
        exact fun pressed => Bool.false_ne_true pressed.1
      exact unpressed_sound sound notPressed true false
  | doneButton =>
      exact { sound with
        platforms := fun _ _ => .inr (.inr (Nat.succ_pos _))
        titled := fun _ => .inr (.inr (Nat.succ_pos _)) }
  | settingsSwiped => exact swiped_sound sound kept
  | didSelectRow row =>
      simp only [screenStep]
      split
      · trivial
      · exact sound

end Steps

/-- The tab has been opened, a catalogue has come, and nothing waits. -/
structure Settled (s : RateScreen Data Percentage) : Prop where
  viewLoaded : s.viewLoaded = true
  haveLoaded : s.haveLoaded = true
  items : s.memory.pendingItems = 0
  sorts : s.pendingSorts = 0
  platforms : s.pendingPlatforms = 0
  settings : s.settingsOpen = false

structure RowsSound [LinearOrder Percentage] (arithmetic : RateArithmetic Percentage)
    (foundation : Foundation Data) (draw : XPlat Percentage → Except Fault String)
    (s : RateScreen Data Percentage) : Prop where
  descending : Descending s.rows
  drawn : s.rows.mapM draw = .ok s.texts
  tapped : ∀ (row : Nat) entry, s.rows[row]? = some entry →
    screenStep arithmetic foundation draw s (.didSelectRow row) = .running s ∧
      tappedAlert s row = some (entry.itemName, alertMessage s.memory.xPlatData entry)

/-- The screen is for the platforms in force and the catalogue of the app: it has one row for
each place priced on both platforms, and the prices of a row are those of the platforms that
its alert names. -/
structure ShowsCurrent [LinearOrder Percentage] (arithmetic : RateArithmetic Percentage)
    (text : SwiftText) (s : RateScreen Data Percentage) : Prop where
  visible : s.tableHidden = false
  title : s.title = titleText s.memory.xPlatData
  complete : ∃ entries, s.rows.Perm entries ∧
    List.Forall₂ (EntryOf arithmetic text s.memory.xPlatData)
      (pricedPlaces text s.memory.xPlatData s.memory.items) entries
  prices : ∀ entry ∈ s.rows, ∃ item ∈ s.memory.items, item.itemName = entry.itemName ∧
    item.getColourPrice text entry.itemColour s.memory.xPlatData.1 = some entry.platform1Price ∧
    item.getColourPrice text entry.itemColour s.memory.xPlatData.2 = some entry.platform2Price

theorem entry_prices {arithmetic : RateArithmetic Percentage} {text : SwiftText}
    {xPlatData : String × String}
    {place : DecodingItem × String} {entry : XPlat Percentage}
    (made : EntryOf arithmetic text xPlatData place entry) :
    place.1.itemName = entry.itemName ∧
      place.1.getColourPrice text entry.itemColour xPlatData.1 = some entry.platform1Price ∧
      place.1.getColourPrice text entry.itemColour xPlatData.2 = some entry.platform2Price := by
  have ⟨first, second, both, built⟩ := made
  have ⟨price1, _, built⟩ := except_bind_ok built
  have ⟨price2, _, built⟩ := except_bind_ok built
  cases built
  unfold bothRanges at both
  split at both
  · rename_i firstFound secondFound
    cases both
    exact ⟨rfl, firstFound, secondFound⟩
  · cases both

section Runs

variable [LinearOrder Percentage] {arithmetic : RateArithmetic Percentage}
  {foundation : Foundation Data} {draw : XPlat Percentage → Except Fault String}

def Started (foundation : Foundation Data) (s : RateScreen Data Percentage) : Prop :=
  ∃ defaults, s = launched (launch foundation defaults)

theorem reachable_sound {s : RateScreen Data Percentage}
    (reachable : Reachable (rateScreen arithmetic foundation draw) Kept (Started foundation) s) :
    Sound arithmetic foundation.text draw s := by
  apply reachable_invariant (Sound arithmetic foundation.text draw) _ _ reachable
  · intro start ⟨defaults, same⟩
    rw [same]
    exact launched_sound _ _
  · intro before event _ sound kept
    exact ends_mono (screen_step_sound sound kept) (fun _ after => after)
      fun _ _ _ => launched_sound _ _

theorem sound_rows {s : RateScreen Data Percentage}
    (sound : Sound arithmetic foundation.text draw s)
    (visible : s.tableHidden = false) : RowsSound arithmetic foundation draw s := by
  have ⟨same, descending, drawn⟩ := sound.shown visible
  constructor
  · rw [same]
    exact descending
  · rw [same]
    exact drawn
  · intro row entry there
    rw [same] at there
    constructor
    · simp only [screenStep, there]
    · rw [tappedAlert, there]
      rfl

theorem sound_current {s : RateScreen Data Percentage}
    (sound : Sound arithmetic foundation.text draw s) (settled : Settled s) :
    ShowsCurrent arithmetic foundation.text s := by
  have visible : s.tableHidden = false := by
    cases hidden : s.tableHidden with
    | false => rfl
    | true =>
        have posted := sound.waiting settled.viewLoaded settled.haveLoaded hidden
        rw [settled.sorts] at posted
        cases posted
  cases built : s.built with
  | none =>
      have ⟨_, hidden⟩ := sound.unbuilt built
      exact absurd (visible.symm.trans hidden) Bool.false_ne_true
  | some read =>
      have items : read.1 = s.memory.items := by
        apply (sound.catalogue read built).resolve_right
        rw [settled.items]
        exact Nat.lt_irrefl 0
      have notWaiting : ¬ ((s.settingsOpen = true ∧ s.sheetPressed = true) ∨
          0 < s.pendingPlatforms) := by
        rw [settled.settings, settled.platforms]
        exact fun waits => waits.elim (fun pressed => Bool.false_ne_true pressed.1)
          (Nat.lt_irrefl 0)
      have platforms := (sound.platforms read built).resolve_right notWaiting
      have ⟨entries, made, perm⟩ := sound.entries read built
      have ⟨same, _⟩ := sound.shown visible
      rw [items, platforms] at made
      rw [← same] at perm
      constructor
      · exact visible
      · exact (sound.titled visible).resolve_right notWaiting
      · exact ⟨entries, perm, made⟩
      · intro entry member
        have ⟨place, priced, entryOf⟩ := place_of_entry made (perm.mem_iff.mp member)
        have ⟨item, inItems, inColours⟩ := List.mem_flatMap.mp (List.mem_of_mem_filter priced)
        have ⟨colour, _, isPlace⟩ := List.mem_map.mp inColours
        have prices := entry_prices entryOf
        rw [← isPlace] at prices
        exact ⟨item, inItems, prices⟩

/-- In whatever order the app, the screen, its sheet and the blocks on the main queue take
their steps: a table that is shown is sorted and a tap opens the row; and once nothing waits,
the screen shows the rates for the platforms and the catalogue that are in force. -/
theorem settled_screen_current (arithmetic : RateArithmetic Percentage)
    (foundation : Foundation Data) (draw : XPlat Percentage → Except Fault String)
    (s : RateScreen Data Percentage)
    (reachable : Reachable (rateScreen arithmetic foundation draw) Kept (Started foundation) s) :
    (s.tableHidden = false → RowsSound arithmetic foundation draw s) ∧
      (Settled s → ShowsCurrent arithmetic foundation.text s) := by
  have sound := reachable_sound reachable
  constructor
  · exact sound_rows sound
  · exact sound_current sound

end Runs

def exchangedSession : List ScreenEvent :=
  [.app (.catalogueArrives (some ⟨[paintedItem]⟩)), .viewWillAppear, .app .itemsNotification,
    .sortBlock, .didSelectRow 0, .settingsButton,
    .app (.tab (.xPlatformChanged ⟨0, Nat.zero_lt_two⟩ 3)),
    .app (.tab (.xPlatformChanged ⟨1, Nat.one_lt_two⟩ 0)), .doneButton, .platformsBlock,
    .sortBlock]

/-- The row of exact arithmetic. -/
def exactRow (entry : XPlat ℚ) : Except Fault String :=
  .ok (CrossPlatformList.rowText entry (ConversionRates.percentageSimple entry.percentageIncrease))

def exchangedScreen :
    Option (RateScreen (List InvestmentItem ⊕ List InvestmentGroup) ℚ) :=
  runEvents (rateScreen CrossPlatformList.exactArithmetic plainFoundation exactRow) Kept
    (launched (launch plainFoundation .fresh)) exchangedSession

theorem settled_screen_current_exchanged :
    ∃ s, exchangedScreen = some s ∧
      s.texts = ["Default Octane: 200%", "Black Octane: 50%"] ∧
      Settled s ∧ RowsSound CrossPlatformList.exactArithmetic plainFoundation exactRow s ∧
      ShowsCurrent CrossPlatformList.exactArithmetic plainFoundation.text s := by
  have computed : exchangedScreen.map (fun s => (s.texts,
      [s.viewLoaded, s.haveLoaded, s.settingsOpen],
      [s.memory.pendingItems, s.pendingSorts, s.pendingPlatforms])) =
        some (["Default Octane: 200%", "Black Octane: 50%"], [true, true, false], [0, 0, 0]) := by
    decide +kernel
  have ⟨s, runs, shown⟩ := Option.map_eq_some_iff.mp computed
  simp only [Prod.mk.injEq, List.cons.injEq, and_true] at shown
  have ⟨rows, ⟨viewLoaded, haveLoaded, settings⟩, items, sorts, platforms⟩ := shown
  have settled : Settled s := ⟨viewLoaded, haveLoaded, items, sorts, platforms, settings⟩
  have reachable : Reachable
      (rateScreen CrossPlatformList.exactArithmetic plainFoundation exactRow) Kept
      (Started plainFoundation) s := reachable_of_run_events _ _ (.start ⟨.fresh, rfl⟩) runs
  have ⟨sound, current⟩ := settled_screen_current _ plainFoundation exactRow s reachable
  have showsCurrent := current settled
  exact ⟨s, runs, rows, settled, sound showsCurrent.visible, showsCurrent⟩

end RlInvestments.RateRuns
