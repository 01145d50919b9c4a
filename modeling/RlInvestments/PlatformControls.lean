import RlInvestments.FormDisplay

/-!
# The controls for the platforms

The Prices tab and the two rows of the cross-platform settings each show a saved platform as
a segment, and write it when a segment is pressed. The tab compares exact spellings, the rows
uppercased ones. Nothing else writes a platform, so that in every run a control shows the
segment that was pressed last, after a relaunch as well.
-/

namespace RlInvestments.PlatformControls

open RlInvestments.GuardedRuns RlInvestments.CatalogueItems RlInvestments.InvestmentStore
open RlInvestments.OverviewRows RlInvestments.AppMemory RlInvestments.FormTable
open RlInvestments.OverviewHandlers
open RlInvestments.FormSheet RlInvestments.AppRuns RlInvestments.HandlerRules
open RlInvestments.StoredDefaults RlInvestments.FormDisplay

set_option autoImplicit false

variable {Data : Type} {foundation : Foundation Data}

/-- The segment that `viewWillAppear` of the Prices tab selects. -/
def shownSegment (platform : String) : Nat :=
  if platform = "PC" then 0
  else if platform = "PS4" then 1
  else if platform = "SWITCH" then 2
  else 3

def pricesTitles : List String := ["PC", "PS4", "SWITCH", "XBOX"]

def settingAt (tag : Fin 2) (xPlatData : String × String) : String :=
  match tag with
  | 0 => xPlatData.1
  | 1 => xPlatData.2

/-- The segment that a row of the settings selects; any other text leaves it as it is. -/
def settingSegment (text : SwiftText) (tag : Fin 2) (s : AppState Data) : Option Nat :=
  segmentOf (text.uppercased (settingAt tag s.xPlatData))

theorem prices_changed_eq (s : AppState Data) {i : Nat} {title : String}
    (there : pricesTitles[i]? = some title) :
    pricesPlatformChanged i s = updatePlatform { s with platform := title } := by
  match i with
  | 0 => rw [← Option.some.inj there]; rfl
  | 1 => rw [← Option.some.inj there]; rfl
  | 2 => rw [← Option.some.inj there]; rfl
  | 3 => rw [← Option.some.inj there]; rfl
  | _ + 4 => cases there

theorem x_platform_changed_eq (tag : Fin 2) (s : AppState Data) {i : Nat} {title : String}
    (there : segmentTitles[i]? = some title) :
    xPlatformChanged tag i s =
      updateXPlatforms { s with xPlatData := setXPlatform tag title s.xPlatData } := by
  match i with
  | 0 => rw [← Option.some.inj there]; rfl
  | 1 => rw [← Option.some.inj there]; rfl
  | 2 => rw [← Option.some.inj there]; rfl
  | 3 => rw [← Option.some.inj there]; rfl
  | _ + 4 => cases there

theorem prices_changed_outside (s : AppState Data) {i : Nat} (outside : 4 ≤ i) :
    pricesPlatformChanged i s = s := by
  match i with
  | _ + 4 => rfl

theorem x_platform_changed_outside (tag : Fin 2) (s : AppState Data) {i : Nat}
    (outside : 4 ≤ i) : xPlatformChanged tag i s = s := by
  match i with
  | _ + 4 => rfl

theorem setting_at_set (tag other : Fin 2) (platform : String) (xPlatData : String × String) :
    settingAt other (setXPlatform tag platform xPlatData) =
      if other = tag then platform else settingAt other xPlatData := by
  match tag, other with
  | 0, 0 => rfl
  | 0, 1 => rfl
  | 1, 0 => rfl
  | 1, 1 => rfl

/-- The events that can change a platform that is saved. -/
def isTab : Event → Bool
  | .tab _ => true
  | _ => false

def settings (s : AppState Data) : String × String × String := (s.platform, s.xPlatData)

theorem step_keeps_settings {s : AppState Data} (persisted : Persisted foundation s)
    {event : Event} (elsewhere : isTab event = false) :
    (step foundation s event).Ends (fun t => settings t = settings s)
      fun _ t => settings t = settings s := by
  have kept : settings s = settings s := rfl
  cases event with
  | relaunch =>
      have saved : (savedPlatform s.defaults, savedXPlatData s.defaults) = settings s := by
        rw [persisted.platform, persisted.xPlatData]
        rfl
      exact saved
  | catalogueArrives catalogue =>
      cases catalogue with
      | none => exact kept
      | some tempItems => exact kept
  | itemsNotification =>
      exact items_notification_ends s (fun _ _ => kept) (fun _ _ => kept) fun _ => kept
  | delayedReload => exact reload_data_ends _ (fun _ _ => kept) fun _ _ => kept
  | traitCollectionDidChange => exact reload_data_ends s (fun _ _ => kept) fun _ _ => kept
  | overviewDidLoad => exact view_did_load_ends s (fun _ _ => kept) fun _ _ => kept
  | overview event =>
      cases event with
      | searchBarTextDidChange searchText =>
          exact reload_data_ends _ (fun _ _ => kept) fun _ _ => kept
      | addNewButton => exact add_new_button_ends s (fun _ => kept) kept
      | showTotal => exact show_total_ends s kept fun _ _ => kept
      | editButtonPressed tag => exact edit_investment_ends _ (fun _ _ => kept) kept
      | deleteButtonPressed tag => exact kept
      | stepperValueChanged tag value =>
          apply amount_changed_ends _ _ kept
          intro _ _
          exact reload_data_ends _ (fun _ _ => kept) fun _ _ => kept
      | groupButtonPressed tag => exact group_investment_ends _ (fun _ => kept) kept
      | rlInsiderChart tag => exact show_chart_ends _ (fun _ => kept) kept
  | deleteConfirmed =>
      apply delete_confirmed_ends s fun _ _ => kept
      · intro row _ _ _ _
        unfold deleteRows
        split <;> exact kept
      · intro _ _
        exact reload_data_ends _ (fun _ _ => kept) fun _ _ => kept
  | deleteCancelled => exact kept
  | form event => exact form_step_ends s event (fun _ _ _ _ _ _ _ _ => kept) kept
  | addButton =>
      apply add_button_ends s kept _ _ kept
      · exact fun _ _ _ => store_and_dismiss_ends _ (fun _ _ => kept) fun _ _ => kept
      · exact fun _ _ _ _ => store_and_dismiss_ends _ (fun _ _ => kept) fun _ _ => kept
  | cancelButton => exact kept
  | chartClosed => exact kept
  | tab event => exact absurd elsewhere.symm Bool.false_ne_true

theorem next_keeps_settings {s : AppState Data} (persisted : Persisted foundation s)
    {event : Event} (elsewhere : isTab event = false) :
    settings ((app foundation).next s event) = settings s := by
  apply ends_next (app foundation) fun t : AppState Data => settings t = settings s
  apply ends_mono (ends_and (step_keeps_settings persisted elsewhere)
    (step_persisted persisted event))
  · exact fun _ after => after.1
  · intro _ t ⟨same, saved⟩
    have again : (savedPlatform t.defaults, savedXPlatData t.defaults) = settings s := by
      rw [saved.platform, saved.xPlatData]
      exact same
    exact again

structure Segments where
  prices : Nat
  rows : Fin 2 → Nat

/-- What an event does to the controls: a press selects its segment. -/
def press (segments : Segments) : Event → Segments
  | .tab (.pricesPlatformChanged i) => if i < 4 then { segments with prices := i } else segments
  | .tab (.xPlatformChanged tag i) =>
      if i < 4 then { segments with rows := Function.update segments.rows tag i } else segments
  | _ => segments

structure SettingsListed (platform : String) (xPlatData : String × String) : Prop where
  platform : platform ∈ pricesTitles
  rows : ∀ tag, settingAt tag xPlatData ∈ segmentTitles

structure Shows (text : SwiftText) (segments : Segments) (s : AppState Data) : Prop where
  listed : SettingsListed s.platform s.xPlatData
  prices : shownSegment s.platform = segments.prices
  rows : ∀ tag, settingSegment text tag s = some (segments.rows tag)

theorem shown_segment_title {i : Nat} {title : String} (there : pricesTitles[i]? = some title) :
    shownSegment title = i := by
  match i with
  | 0 => rw [← Option.some.inj there]; rfl
  | 1 => rw [← Option.some.inj there]; rfl
  | 2 => rw [← Option.some.inj there]; rfl
  | 3 => rw [← Option.some.inj there]; rfl
  | _ + 4 => cases there

theorem title_of_shown {platform : String} (listed : platform ∈ pricesTitles) :
    pricesTitles[shownSegment platform]? = some platform := by
  have ⟨i, there⟩ := List.mem_iff_getElem?.mp listed
  rw [shown_segment_title there, there]

theorem listed_shows (text : SwiftText) {s : AppState Data}
    (listed : SettingsListed s.platform s.xPlatData) : ∃ segments, Shows text segments s := by
  have rows : ∀ tag, ∃ i, settingSegment text tag s = some i := by
    intro tag
    have ⟨i, there⟩ := List.mem_iff_getElem?.mp (listed.rows tag)
    exact ⟨i, segment_of_title text there⟩
  have ⟨shown, selects⟩ := Classical.axiomOfChoice rows
  exact ⟨⟨shownSegment s.platform, shown⟩, listed, rfl, selects⟩

theorem shows_of_settings {text : SwiftText} {segments : Segments} {s t : AppState Data}
    (shows : Shows text segments s) (same : settings t = settings s) : Shows text segments t := by
  have ⟨platform, xPlatData⟩ := Prod.mk.inj same
  constructor
  · rw [platform, xPlatData]
    exact shows.listed
  · rw [platform]
    exact shows.prices
  · intro tag
    rw [settingSegment, xPlatData]
    exact shows.rows tag

theorem prices_pressed {text : SwiftText} {segments : Segments} {s : AppState Data}
    (shows : Shows text segments s) (i : Nat) :
    Shows text (press segments (.tab (.pricesPlatformChanged i))) (pricesPlatformChanged i s) := by
  by_cases inside : i < 4
  · have there : pricesTitles[i]? = some pricesTitles[i] := List.getElem?_eq_getElem inside
    rw [prices_changed_eq s there, press, if_pos inside]
    exact ⟨⟨List.mem_of_getElem? there, shows.listed.rows⟩, shown_segment_title there, shows.rows⟩
  · rw [prices_changed_outside s (Nat.le_of_not_lt inside), press, if_neg inside]
    exact shows

theorem row_pressed {text : SwiftText} {segments : Segments} {s : AppState Data}
    (shows : Shows text segments s) (tag : Fin 2) (i : Nat) :
    Shows text (press segments (.tab (.xPlatformChanged tag i))) (xPlatformChanged tag i s) := by
  by_cases inside : i < 4
  · have there : segmentTitles[i]? = some segmentTitles[i] := List.getElem?_eq_getElem inside
    rw [x_platform_changed_eq tag s there, press, if_pos inside]
    refine ⟨⟨shows.listed.platform, ?_⟩, shows.prices, ?_⟩
    · intro other
      change settingAt other (setXPlatform tag segmentTitles[i] s.xPlatData) ∈ segmentTitles
      rw [setting_at_set]
      split
      · exact List.mem_of_getElem? there
      · exact shows.listed.rows other
    · intro other
      change segmentOf (text.uppercased
        (settingAt other (setXPlatform tag segmentTitles[i] s.xPlatData))) =
          some (Function.update segments.rows tag i other)
      rw [setting_at_set]
      by_cases same : other = tag
      · rw [if_pos same, same, Function.update_self, segment_of_title text there]
      · rw [if_neg same, Function.update_of_ne same]
        exact shows.rows other
  · rw [x_platform_changed_outside tag s (Nat.le_of_not_lt inside), press, if_neg inside]
    exact shows

/-- The step lemma. -/
theorem next_shows {segments : Segments} {s : AppState Data} (persisted : Persisted foundation s)
    (shows : Shows foundation.text segments s) (event : Event) :
    Shows foundation.text (press segments event) ((app foundation).next s event) := by
  cases event with
  | tab event =>
      cases event with
      | pricesWillAppear => exact shows_of_settings shows rfl
      | pricesSearch searchText => exact shows_of_settings shows rfl
      | pricesPlatformChanged i => exact prices_pressed shows i
      | xPlatformChanged tag i => exact row_pressed shows tag i
  | _ =>
      apply shows_of_settings shows
      exact next_keeps_settings persisted rfl

def SettingsStored (defaults : UserDefaults Data) : Prop :=
  SettingsListed (savedPlatform defaults) (savedXPlatData defaults)

theorem fresh_settings : SettingsStored (UserDefaults.fresh : UserDefaults Data) := by
  have platform : "PC" ∈ pricesTitles := by decide
  have rows : ∀ tag, settingAt tag ("PC", "Xbox") ∈ segmentTitles := by decide
  exact ⟨platform, rows⟩

theorem reachable_listed {guard : AppState Data → Event → Prop} {s : AppState Data}
    (reachable : Reachable (app foundation) guard (Launched foundation SettingsStored) s) :
    SettingsListed s.platform s.xPlatData := by
  apply next_invariant (fun s : AppState Data => SettingsListed s.platform s.xPlatData) _ _
    reachable
  · intro start ⟨defaults, stored, same⟩
    rw [same]
    exact stored
  · intro state event before listed _
    have ⟨segments, shows⟩ := listed_shows foundation.text listed
    exact (next_shows (reachable_persisted before) shows event).listed

structure FollowsPresses (foundation : Foundation Data) (s : AppState Data) (events : List Event)
    (t : AppState Data) : Prop where
  shown : ∃ segments, Shows foundation.text segments s ∧
    Shows foundation.text (events.foldl press segments) t
  /-- A segment that is shown, pressed again, writes what is there. -/
  prices : settings (pricesPlatformChanged (shownSegment t.platform) t) = settings t
  rows : ∀ tag i, settingSegment foundation.text tag t = some i →
    settings (xPlatformChanged tag i t) = settings t

theorem shows_after_run {guard : AppState Data → Event → Prop}
    [∀ s event, Decidable (guard s event)] {s t : AppState Data} {events : List Event}
    (reachable : Reachable (app foundation) guard (Launched foundation SettingsStored) s)
    (runs : runEvents (app foundation) guard s events = some t) {segments : Segments}
    (shows : Shows foundation.text segments s) :
    Shows foundation.text (events.foldl press segments) t := by
  induction events generalizing s segments with
  | nil =>
      rw [← Option.some.inj runs]
      exact shows
  | cons event events induction =>
      rw [run_events_cons] at runs
      split at runs
      · rename_i guarded
        have after := next_shows (reachable_persisted reachable) shows event
        exact induction (reachable_next reachable guarded) runs after
      · cases runs

theorem set_same_setting (tag : Fin 2) (xPlatData : String × String) :
    setXPlatform tag (settingAt tag xPlatData) xPlatData = xPlatData := by
  match tag with
  | 0 => rfl
  | 1 => rfl

/-- Whatever else happens between the presses, and wherever the app is stopped or launched
again, each of the three controls shows the segment that was pressed on it last. -/
theorem controls_follow_presses (foundation : Foundation Data) (s t : AppState Data)
    (events : List Event)
    (reachable : Reachable (app foundation) Possible (Launched foundation SettingsStored) s)
    (runs : runEvents (app foundation) Possible s events = some t) :
    FollowsPresses foundation s events t := by
  have ⟨segments, shows⟩ := listed_shows foundation.text (reachable_listed reachable)
  have after := shows_after_run reachable runs shows
  constructor
  · exact ⟨segments, shows, after⟩
  · rw [prices_changed_eq t (title_of_shown after.listed.platform)]
    rfl
  · intro tag i selected
    have ⟨j, there⟩ := List.mem_iff_getElem?.mp (after.listed.rows tag)
    have same : some j = some i := (segment_of_title foundation.text there).symm.trans selected
    rw [← Option.some.inj same, x_platform_changed_eq tag t there, set_same_setting]
    rfl

def pressedSession : List Event :=
  [.tab .pricesWillAppear, .tab (.pricesPlatformChanged 3), .tab (.xPlatformChanged 0 2),
    .tab (.xPlatformChanged 1 1), .relaunch]

theorem controls_follow_presses_session :
    ∃ t, runEvents (app plainFoundation) Possible (launch plainFoundation .fresh)
        pressedSession = some t ∧
      settings t = ("XBOX", "Switch", "PS4") ∧
      FollowsPresses plainFoundation (launch plainFoundation .fresh) pressedSession t := by
  have pressed : (runEvents (app plainFoundation) Possible (launch plainFoundation .fresh)
      pressedSession).map settings = some ("XBOX", "Switch", "PS4") := by decide +kernel
  have ⟨t, runs, shown⟩ := Option.map_eq_some_iff.mp pressed
  have reachable : Reachable (app plainFoundation) Possible
      (Launched plainFoundation SettingsStored) (launch plainFoundation .fresh) :=
    .start ⟨.fresh, fresh_settings, rfl⟩
  exact ⟨t, runs, shown, controls_follow_presses plainFoundation _ t pressedSession reachable runs⟩

end RlInvestments.PlatformControls
