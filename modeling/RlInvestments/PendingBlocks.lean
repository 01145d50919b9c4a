import RlInvestments.FormRuns
import RlInvestments.JoinByPosition
import RlInvestments.StoreIdentity

/-!
# The blocks waiting on the main queue

A catalogue posts a notification and a delete posts a delayed reload, and nothing orders
these blocks among each other. Each of them either rebuilds the cells or stops the app, and
whichever of them runs first, the screen is the same once none is left.
-/

namespace RlInvestments.PendingBlocks

open RlInvestments.GuardedRuns RlInvestments.InvestmentStore RlInvestments.OverviewRows
open RlInvestments.AppMemory RlInvestments.OverviewHandlers RlInvestments.AppRuns
open RlInvestments.HandlerRules RlInvestments.StoreIdentity RlInvestments.FormRuns
open RlInvestments.JoinByPosition (map_m_completes_iff)

set_option autoImplicit false

variable {Data : Type} {foundation : Foundation Data}

def isBlock : Event → Bool
  | .itemsNotification => true
  | .delayedReload => true
  | _ => false

def blocksWaiting (s : AppState Data) : Nat := s.pendingItems + s.pendingReloads

abbrev Notified (s : AppState Data) : Prop := s.overviewLoaded = true ∧ 0 < s.pendingItems

variable (foundation) in
/-- What the waiting blocks come to. A notification shows the whole store, and the reloads
before and after it show nothing else in the end. -/
def settled (s : AppState Data) : AppState Data :=
  let emptied := { s with pendingItems := 0, pendingReloads := 0 }
  if Notified s then
    match buildCells foundation.text s.investments s.investments with
    | .ok cells => { emptied with
        investmentFilteredData := s.investments, cells := cells, totalBarButtonEnabled := true }
    | .error _ => launch foundation s.defaults
  else if 0 < s.pendingReloads then
    match buildCells foundation.text s.investments s.investmentFilteredData with
    | .ok cells => { emptied with cells := cells }
    | .error _ => launch foundation s.defaults
  else emptied

theorem settled_none_waiting {s : AppState Data} (none : blocksWaiting s = 0) :
    settled foundation s = s := by
  have ⟨items, reloads⟩ := Nat.add_eq_zero_iff.mp none
  have unnotified : ¬ Notified s := fun notified => absurd notified.2 (by omega)
  have unreloaded : ¬ 0 < s.pendingReloads := by omega
  rw [settled, if_neg unnotified, if_neg unreloaded]
  cases s
  simp only [AppState.mk.injEq] at items reloads ⊢
  simp [items, reloads]

theorem settled_launch (defaults : UserDefaults Data) :
    settled foundation (launch foundation defaults) = launch foundation defaults :=
  settled_none_waiting rfl

theorem fewer_build {text : CatalogueItems.SwiftText} {investments visible shown :
    List InvestmentItem} {cells : List ItemCell} (subset : visible ⊆ shown)
    (built : buildCells text investments shown = .ok cells) :
    ∃ fewer, buildCells text investments visible = .ok fewer := by
  have each := map_m_completes_iff.mp ⟨cells, built⟩
  exact map_m_completes_iff.mpr fun record member => each record (subset member)

theorem settled_notification {s : AppState Data} (waits : 0 < s.pendingItems) :
    settled foundation (resumed foundation (step foundation s .itemsNotification)) =
      settled foundation s := by
  simp only [step]
  by_cases loaded : s.overviewLoaded = true
  · have notified : Notified s := ⟨loaded, waits⟩
    simp only [if_pos loaded, reloadTableView, reloadData]
    cases built : buildCells foundation.text s.investments s.investments with
    | error fault =>
        simp only [stopped_and_then, resumed]
        rw [settled_launch, settled, if_pos notified, built]
    | ok cells =>
        simp only [running_and_then, resumed]
        rw [settled, settled, if_pos notified]
        simp only [built]
        split
        · rfl
        · split <;> rfl
  · rw [if_neg loaded, resumed, settled, settled]
    have unnotified : ¬ Notified s := fun notified => loaded notified.1
    have unnotified' : ¬ Notified { s with pendingItems := s.pendingItems - 1 } :=
      fun notified => loaded notified.1
    rw [if_neg unnotified, if_neg unnotified']

/-- A reload stops the app only where a notification that waits would stop it as well. -/
theorem settled_reload {s : AppState Data} (subset : s.investmentFilteredData ⊆ s.investments)
    (waits : 0 < s.pendingReloads) :
    settled foundation (resumed foundation (step foundation s .delayedReload)) =
      settled foundation s := by
  simp only [step, reloadData]
  cases built : buildCells foundation.text s.investments s.investmentFilteredData with
  | ok cells =>
      simp only [resumed]
      by_cases notified : Notified s
      · have notified' : Notified { s with
            pendingReloads := s.pendingReloads - 1, cells := cells } := notified
        rw [settled, settled, if_pos notified, if_pos notified']
      · have unnotified' : ¬ Notified { s with
            pendingReloads := s.pendingReloads - 1, cells := cells } := notified
        rw [settled, settled, if_neg notified, if_neg unnotified', if_pos waits]
        simp only [built]
        split <;> rfl
  | error fault =>
      rw [resumed, settled_launch, settled]
      by_cases notified : Notified s
      · rw [if_pos notified]
        cases shown : buildCells foundation.text s.investments s.investments with
        | error other => rfl
        | ok cells =>
            obtain ⟨fewer, builds⟩ := fewer_build subset shown
            rw [built] at builds
            cases builds
      · rw [if_neg notified, if_pos waits, built]

variable (foundation) in
theorem settled_block {s : AppState Data} (subset : s.investmentFilteredData ⊆ s.investments)
    {event : Event} (block : isBlock event = true) (admitted : Possible s event) :
    settled foundation ((app foundation).next s event) = settled foundation s := by
  rw [next_eq_resumed]
  cases event with
  | itemsNotification => exact settled_notification (of_decide_eq_true admitted)
  | delayedReload => exact settled_reload subset (of_decide_eq_true admitted)
  | _ => exact absurd block Bool.false_ne_true

variable (foundation) in
theorem block_leaves_fewer {s : AppState Data} {event : Event} (block : isBlock event = true)
    (admitted : Possible s event) :
    blocksWaiting ((app foundation).next s event) < blocksWaiting s := by
  apply ends_next (app foundation) fun t : AppState Data => blocksWaiting t < blocksWaiting s
  cases event with
  | itemsNotification =>
      have waits : 0 < s.pendingItems := of_decide_eq_true admitted
      have fewer : s.pendingItems - 1 + s.pendingReloads < blocksWaiting s := by
        unfold blocksWaiting
        omega
      exact items_notification_ends s (fun _ _ => fewer) (fun _ _ => Nat.zero_lt_of_lt fewer)
        fun _ => fewer
  | delayedReload =>
      have waits : 0 < s.pendingReloads := of_decide_eq_true admitted
      have fewer : s.pendingItems + (s.pendingReloads - 1) < blocksWaiting s := by
        unfold blocksWaiting
        omega
      exact reload_data_ends _ (fun _ _ => fewer) fun _ _ => Nat.zero_lt_of_lt fewer
  | _ => exact absurd block Bool.false_ne_true

variable (foundation) in
/-- The blocks have been run in this order, each of them while it was waiting. -/
abbrev RunsBlocks (s : AppState Data) (order : List Event) (t : AppState Data) : Prop :=
  order.all isBlock = true ∧ runEvents (app foundation) Possible s order = some t

variable (foundation) in
/-- What a run of blocks keeps: at its end the others still come to the same. -/
structure Continues (s : AppState Data) (order : List Event) (t : AppState Data) : Prop where
  settled : settled foundation t = settled foundation s
  count : order.length + blocksWaiting t ≤ blocksWaiting s
  reachable : Reachable (app foundation) Possible
    (Launched foundation (DistinctStored foundation)) t

theorem blocks_continue {s t : AppState Data} {order : List Event}
    (reachable : Reachable (app foundation) Possible
      (Launched foundation (DistinctStored foundation)) s)
    (runs : RunsBlocks foundation s order t) : Continues foundation s order t := by
  induction order generalizing s with
  | nil =>
      obtain rfl := Option.some.inj runs.2
      exact ⟨rfl, by simp, reachable⟩
  | cons event order induction =>
      have ⟨blocks, ran⟩ := runs
      rw [List.all_cons, Bool.and_eq_true] at blocks
      rw [run_events_cons] at ran
      split at ran
      · rename_i admitted
        have identified := reachable_identified (fun _ _ possible => possible) reachable
        have rest := induction (reachable_next reachable admitted) ⟨blocks.2, ran⟩
        have same := settled_block foundation identified.visible.subset blocks.1 admitted
        have fewer := block_leaves_fewer foundation blocks.1 admitted
        have count := rest.count
        refine ⟨rest.settled.trans same, ?_, rest.reachable⟩
        rw [List.length_cons]
        omega
      · cases ran

theorem some_block_admitted {s : AppState Data} (waits : 0 < blocksWaiting s) :
    ∃ event, isBlock event = true ∧ Possible s event := by
  by_cases items : 0 < s.pendingItems
  · exact ⟨.itemsNotification, rfl, decide_eq_true items⟩
  · have reloads : 0 < s.pendingReloads := by
      unfold blocksWaiting at waits
      omega
    exact ⟨.delayedReload, rfl, decide_eq_true reloads⟩

variable (foundation) in
theorem blocks_complete (s : AppState Data) :
    ∃ order t, RunsBlocks foundation s order t ∧ blocksWaiting t = 0 := by
  induction waiting : blocksWaiting s using Nat.strong_induction_on generalizing s with
  | _ count induction =>
      by_cases none : blocksWaiting s = 0
      · exact ⟨[], s, ⟨rfl, rfl⟩, none⟩
      · have ⟨event, block, admitted⟩ := some_block_admitted (Nat.pos_of_ne_zero none)
        have fewer := block_leaves_fewer foundation block admitted
        have ⟨order, t, ⟨blocks, runs⟩, emptied⟩ := induction _ (waiting ▸ fewer) _ rfl
        refine ⟨event :: order, t, ⟨?_, ?_⟩, emptied⟩
        · rw [List.all_cons, block, blocks, Bool.true_and]
        · rw [run_events_cons, if_pos admitted]
          exact runs

structure Drains (foundation : Foundation Data) (s : AppState Data) : Prop where
  bounded : ∀ order t, RunsBlocks foundation s order t → order.length ≤ blocksWaiting s
  /-- Wherever a run of blocks has got to, the others lead on to the same state. -/
  completes : ∀ order t, RunsBlocks foundation s order t →
    ∃ rest, RunsBlocks foundation t rest (settled foundation s)
  agree : ∀ order t, RunsBlocks foundation s order t → blocksWaiting t = 0 →
    t = settled foundation s
  emptied : blocksWaiting (settled foundation s) = 0

theorem block_order_never_matters (foundation : Foundation Data) (s : AppState Data)
    (reachable : Reachable (app foundation) Possible
      (Launched foundation (DistinctStored foundation)) s) : Drains foundation s := by
  have agree : ∀ order t, RunsBlocks foundation s order t → blocksWaiting t = 0 →
      t = settled foundation s := by
    intro order t runs none
    rw [← (blocks_continue reachable runs).settled, settled_none_waiting none]
  constructor
  · intro order t runs
    have count := (blocks_continue reachable runs).count
    omega
  · intro order t runs
    have continues := blocks_continue reachable runs
    have ⟨rest, last, completed, emptied⟩ := blocks_complete foundation t
    have same := (blocks_continue continues.reachable completed).settled
    rw [settled_none_waiting emptied, continues.settled] at same
    exact ⟨rest, same ▸ completed⟩
  · exact agree
  · have ⟨order, t, runs, emptied⟩ := blocks_complete foundation s
    rw [← agree order t runs emptied]
    exact emptied

/-- A catalogue arrives while a row is being deleted. -/
def queuedSession : List Event :=
  firstSession ++ addItem 1 ++
    [.overview (.deleteButtonPressed 0), .catalogueArrives (some ⟨[octane]⟩), .deleteConfirmed]

theorem block_order_never_matters_session :
    ∃ s, runEvents (app plainFoundation) Possible (launch plainFoundation .fresh)
        queuedSession = some s ∧
      (s.pendingItems, s.pendingReloads) = (1, 1) ∧ Drains plainFoundation s := by
  have queued : (runEvents (app plainFoundation) Possible (launch plainFoundation .fresh)
      queuedSession).map (fun s => (s.pendingItems, s.pendingReloads)) = some (1, 1) := by
    decide +kernel
  have ⟨s, runs, one⟩ := Option.map_eq_some_iff.mp queued
  refine ⟨s, runs, one, block_order_never_matters plainFoundation s ?_⟩
  exact reachable_of_fresh_run _ fresh_distinct runs

end RlInvestments.PendingBlocks
