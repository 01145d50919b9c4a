import Mathlib.Logic.Function.Basic
import RlInvestments.GuardedRuns
import RlInvestments.LastMatchScan

/-!
# A ledger of keyed values and its journal

What is held under each key. An entry of the journal opens a key, changes or closes one,
or values everything anew, and a journal is replayed entry by entry. A list whose elements
have distinct keys stands for the ledger that finds each element under its key, and
appending, overwriting, removing and mapping are the four entries.
-/

namespace RlInvestments.KeyedLedger

open RlInvestments.GuardedRuns RlInvestments.LastMatchScan

set_option autoImplicit false

variable {Key Value : Type} [DecidableEq Key]

abbrev Ledger (Key Value : Type) := Key → Option Value

inductive Entry (Key Value : Type) where
  | nothing
  | opened (key : Key) (value : Value)
  | changed (key : Key) (update : Value → Value)
  | closed (key : Key)
  | revalued (update : Value → Value)

def Entry.apply (ledger : Ledger Key Value) : Entry Key Value → Ledger Key Value
  | .nothing => ledger
  | .opened key value => Function.update ledger key (some value)
  | .changed key update => Function.update ledger key ((ledger key).map update)
  | .closed key => Function.update ledger key none
  | .revalued update => fun key => (ledger key).map update

/-- A key is opened once, and only an open one is changed or closed. -/
def Entry.Fits (ledger : Ledger Key Value) : Entry Key Value → Prop
  | .opened key _ => ledger key = none
  | .changed key _ => (ledger key).isSome = true
  | .closed key => (ledger key).isSome = true
  | _ => True

def replay (ledger : Ledger Key Value) (journal : List (Entry Key Value)) : Ledger Key Value :=
  journal.foldl Entry.apply ledger

/-- Every entry fits the ledger that it is applied to. -/
def Fitting (ledger : Ledger Key Value) : List (Entry Key Value) → Prop
  | [] => True
  | entry :: journal => entry.Fits ledger ∧ Fitting (entry.apply ledger) journal

def Entry.opens : Entry Key Value → Nat
  | .opened _ _ => 1
  | _ => 0

def Entry.closes : Entry Key Value → Nat
  | .closed _ => 1
  | _ => 0

def opens : List (Entry Key Value) → Nat
  | [] => 0
  | entry :: journal => entry.opens + opens journal

def closes : List (Entry Key Value) → Nat
  | [] => 0
  | entry :: journal => entry.closes + closes journal

variable (keyOf : Value → Key)

def ofList (values : List Value) : Ledger Key Value :=
  fun key => values.find? fun value => decide (keyOf value = key)

variable {keyOf}

theorem of_list_none_iff {values : List Value} {key : Key} :
    ofList keyOf values key = none ↔ ∀ value ∈ values, keyOf value ≠ key := by
  simp [ofList]

theorem of_list_some {values : List Value} {key : Key} {value : Value}
    (found : ofList keyOf values key = some value) : value ∈ values ∧ keyOf value = key := by
  have matched := List.find?_some (p := fun value => decide (keyOf value = key)) found
  exact ⟨List.mem_of_find?_eq_some found, of_decide_eq_true matched⟩

theorem of_list_own {values : List Value} (distinct : (values.map keyOf).Nodup) {value : Value}
    (member : value ∈ values) : ofList keyOf values (keyOf value) = some value := by
  have only := filter_of_key keyOf distinct member
  rw [ofList, ← List.head?_filter, only]
  rfl

theorem of_list_append {values : List Value} {value : Value}
    (fresh : ∀ other ∈ values, keyOf other ≠ keyOf value) :
    ofList keyOf (values ++ [value]) =
      (Entry.opened (keyOf value) value).apply (ofList keyOf values) := by
  funext key
  have absent := of_list_none_iff.mpr fresh
  simp only [Entry.apply]
  by_cases same : key = keyOf value
  · rw [same, Function.update_self]
    rw [ofList] at absent ⊢
    rw [List.find?_append, absent, Option.none_or]
    simp
  · rw [Function.update_of_ne same, ofList, ofList, List.find?_append]
    have differs : ¬ keyOf value = key := fun equal => same equal.symm
    simp [differs]

theorem of_list_map {values : List Value} {update : Value → Value}
    (keeps : ∀ value ∈ values, keyOf (update value) = keyOf value) :
    ofList keyOf (values.map update) = (Entry.revalued update).apply (ofList keyOf values) := by
  funext key
  simp only [Entry.apply, ofList]
  induction values with
  | nil => rfl
  | cons value values induction =>
      have rest := induction fun other member => keeps other (List.mem_cons_of_mem _ member)
      have kept := keeps value List.mem_cons_self
      rw [List.map_cons, List.find?_cons, List.find?_cons, kept]
      by_cases same : keyOf value = key
      · simp [same]
      · simp [same, rest]

theorem of_list_map_at {values : List Value} {key : Key} {update : Value → Value}
    (keeps : ∀ value ∈ values, keyOf value = key → keyOf (update value) = key) :
    ofList keyOf (values.map fun value => if keyOf value = key then update value else value) =
      (Entry.changed key update).apply (ofList keyOf values) := by
  have kept : ∀ value ∈ values,
      keyOf (if keyOf value = key then update value else value) = keyOf value := by
    intro value member
    by_cases same : keyOf value = key
    · rw [if_pos same, keeps value member same, same]
    · rw [if_neg same]
  rw [of_list_map kept]
  funext other
  simp only [Entry.apply]
  cases found : ofList keyOf values other with
  | none =>
      by_cases same : other = key
      · subst same
        rw [Function.update_self, found]
        rfl
      · rw [Function.update_of_ne same, found]
        rfl
  | some value =>
      have own := (of_list_some found).2
      by_cases same : other = key
      · subst same
        rw [Function.update_self, found, Option.map_some, Option.map_some, if_pos own]
      · have differs : ¬ keyOf value = key := fun equal => same (own.symm.trans equal)
        rw [Function.update_of_ne same, found, Option.map_some, if_neg differs]

theorem of_list_set {values : List Value} (distinct : (values.map keyOf).Nodup) {i : Nat}
    {value : Value} (there : values[i]? = some value) {update : Value → Value}
    (keeps : keyOf (update value) = keyOf value) :
    ofList keyOf (values.set i (update value)) =
      (Entry.changed (keyOf value) update).apply (ofList keyOf values) := by
  have member := List.mem_of_getElem? there
  rw [set_at_key keyOf distinct there]
  apply of_list_map_at
  intro other present same
  have own := of_list_own distinct present
  rw [same, of_list_own distinct member] at own
  rw [← Option.some.inj own, keeps]

theorem of_list_erase {values : List Value} (distinct : (values.map keyOf).Nodup) {i : Nat}
    {value : Value} (there : values[i]? = some value) :
    ofList keyOf (values.eraseIdx i) =
      (Entry.closed (keyOf value)).apply (ofList keyOf values) := by
  rw [erase_at_key keyOf distinct there]
  funext key
  simp only [Entry.apply]
  by_cases same : key = keyOf value
  · rw [same, Function.update_self]
    apply of_list_none_iff.mpr
    intro other kept
    exact of_decide_eq_true (List.mem_filter.mp kept).2
  · rw [Function.update_of_ne same, ofList, ofList, List.find?_filter]
    congr 1
    funext other
    by_cases equal : keyOf other = key
    · have differs : keyOf other ≠ keyOf value := fun shared => same (equal.symm.trans shared)
      simp [equal, same]
    · simp [equal]

section Runs

variable {State Event Fault : Type} (system : System State Event Fault)
  (recorded : State → Event → Entry Key Value) (view : State → Ledger Key Value)
  (size : State → Nat)

def journal : State → List Event → List (Entry Key Value)
  | _, [] => []
  | state, event :: events => recorded state event :: journal (system.next state event) events

structure Records (state : State) (event : Event) : Prop where
  fits : (recorded state event).Fits (view state)
  applied : view (system.next state event) = (recorded state event).apply (view state)
  count : size (system.next state event) + (recorded state event).closes =
    size state + (recorded state event).opens

structure Replays (state : State) (events : List Event) (result : State) : Prop where
  replayed : view result = replay (view state) (journal system recorded state events)
  /-- A key is opened only while it is free, and changed or closed only while it is open. -/
  fitting : Fitting (view state) (journal system recorded state events)
  count : size result + closes (journal system recorded state events) =
    size state + opens (journal system recorded state events)

variable {system recorded view size}

/-- The run rule, for what every admitted step of a reachable state records. -/
theorem run_replays {guard : State → Event → Prop} [∀ state event, Decidable (guard state event)]
    {initial : State → Prop}
    (records : ∀ state event, Reachable system guard initial state → guard state event →
      Records system recorded view size state event)
    {state result : State} {events : List Event} (reachable : Reachable system guard initial state)
    (runs : runEvents system guard state events = some result) :
    Replays system recorded view size state events result := by
  induction events generalizing state with
  | nil =>
      rw [← Option.some.inj runs]
      exact ⟨rfl, trivial, rfl⟩
  | cons event events induction =>
      rw [run_events_cons] at runs
      split at runs
      · rename_i guarded
        have first := records state event reachable guarded
        have rest := induction (reachable_next reachable guarded) runs
        constructor
        · rw [rest.replayed, first.applied]
          rfl
        · constructor
          · exact first.fits
          · rw [← first.applied]
            exact rest.fitting
        · have later := rest.count
          have earlier := first.count
          simp only [journal, opens, closes] at later ⊢
          omega
      · cases runs

end Runs

end RlInvestments.KeyedLedger
