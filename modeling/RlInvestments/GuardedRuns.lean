import Mathlib.Data.List.Basic

/-!
# Runs of a system whose steps may stop

A step either leaves the system running or stops it with a fault; a stopped system
can only be restarted from what its memory has stored. Runs are restricted by a
guard on the steps taken, so that a condition under which a property survives is a
guard of the runs it is proved for.
-/

namespace RlInvestments.GuardedRuns

set_option autoImplicit false

variable {State Event Fault : Type}

inductive Outcome (Fault State : Type) where
  | running (state : State)
  | stopped (fault : Fault) (state : State)

/-- What is in memory when the step ends, or when it stops. -/
def Outcome.state : Outcome Fault State → State
  | .running state => state
  | .stopped _ state => state

def Outcome.fault? : Outcome Fault State → Option Fault
  | .running _ => none
  | .stopped fault _ => some fault

def Outcome.andThen (outcome : Outcome Fault State) (next : State → Outcome Fault State) :
    Outcome Fault State :=
  match outcome with
  | .running state => next state
  | .stopped fault state => .stopped fault state

def Outcome.map {Image : Type} (image : State → Image) : Outcome Fault State → Outcome Fault Image
  | .running state => .running (image state)
  | .stopped fault state => .stopped fault (image state)

@[simp] theorem running_and_then (state : State) (next : State → Outcome Fault State) :
    (Outcome.running state).andThen next = next state := rfl

@[simp] theorem stopped_and_then (fault : Fault) (state : State)
    (next : State → Outcome Fault State) :
    (Outcome.stopped fault state).andThen next = .stopped fault state := rfl

variable {post post' middle : State → Prop} {fallback fallback' : Fault → State → Prop}
  {outcome : Outcome Fault State}

/-- `post` of the state left running, or `fallback` of the fault and the memory of a
stopped system. -/
def Outcome.Ends (post : State → Prop) (fallback : Fault → State → Prop) :
    Outcome Fault State → Prop
  | .running state => post state
  | .stopped fault state => fallback fault state

@[simp] theorem ends_running (state : State) :
    (Outcome.running state : Outcome Fault State).Ends post fallback ↔ post state := Iff.rfl

theorem ends_fault (ends : outcome.Ends post fallback) {fault : Fault}
    (faults : outcome.fault? = some fault) : ∃ state, fallback fault state := by
  cases outcome with
  | running state => exact nomatch faults
  | stopped raised state =>
      obtain rfl := Option.some.inj faults
      exact ⟨state, ends⟩

theorem running_of_no_fault (runs : outcome.fault? = none) :
    outcome = .running outcome.state := by
  cases outcome with
  | running state => rfl
  | stopped fault state => exact nomatch runs

theorem ends_mono (ends : outcome.Ends post fallback)
    (posts : ∀ state, post state → post' state)
    (fallbacks : ∀ fault state, fallback fault state → fallback' fault state) :
    outcome.Ends post' fallback' := by
  cases outcome with
  | running state => exact posts state ends
  | stopped fault state => exact fallbacks fault state ends

theorem ends_and (first : outcome.Ends post fallback) (second : outcome.Ends post' fallback') :
    outcome.Ends (fun state => post state ∧ post' state)
      fun fault state => fallback fault state ∧ fallback' fault state := by
  cases outcome with
  | running state => exact ⟨first, second⟩
  | stopped fault state => exact ⟨first, second⟩

theorem ends_and_then {next : State → Outcome Fault State} (first : outcome.Ends middle fallback)
    (rest : ∀ state, middle state → (next state).Ends post fallback) :
    (outcome.andThen next).Ends post fallback := by
  cases outcome with
  | running state => exact rest state first
  | stopped fault state => exact first

theorem ends_and_then_running {update : State → State}
    (first : outcome.Ends (fun state => post (update state)) fallback) :
    (outcome.andThen fun state => .running (update state)).Ends post fallback :=
  ends_and_then first fun _ after => after

theorem ends_state :
    outcome.Ends post (fun _ => post) ↔ post outcome.state := by
  cases outcome <;> rfl

theorem except_bind_ok {Error First Second : Type} {first : Except Error First}
    {next : First → Except Error Second} {result : Second}
    (completes : (first >>= next) = .ok result) :
    ∃ value, first = .ok value ∧ next value = .ok result := by
  cases first with
  | error error => exact absurd completes (by simp [bind, Except.bind])
  | ok value => exact ⟨value, rfl, completes⟩

theorem map_m_ok {Error First Second : Type} {compute : First → Except Error Second}
    {value : First → Second} {items : List First}
    (each : ∀ item ∈ items, compute item = .ok (value item)) :
    items.mapM compute = .ok (items.map value) := by
  induction items with
  | nil => rfl
  | cons item items induction =>
      have rest := induction fun other member => each other (List.mem_cons_of_mem _ member)
      rw [List.mapM_cons, each item List.mem_cons_self, rest]
      rfl

/-- The errors that a computation can end with. -/
def RaisesOnly {Error Value : Type} (allowed : Error → Prop) : Except Error Value → Prop
  | .ok _ => True
  | .error error => allowed error

section RaisesOnly

variable {Error First Second : Type} {allowed : Error → Prop}

theorem raises_only_bind {first : Except Error First} {next : First → Except Error Second}
    (head : RaisesOnly allowed first)
    (rest : ∀ value, first = .ok value → RaisesOnly allowed (next value)) :
    RaisesOnly allowed (first >>= next) := by
  cases first with
  | error error => exact head
  | ok value => exact rest value rfl

theorem raises_only_mono {allowed' : Error → Prop} {computation : Except Error First}
    (raises : RaisesOnly allowed computation) (weaker : ∀ error, allowed error → allowed' error) :
    RaisesOnly allowed' computation := by
  cases computation with
  | error error => exact weaker error raises
  | ok value => exact trivial

theorem raises_only_map_m {compute : First → Except Error Second} {values : List First}
    (each : ∀ value ∈ values, RaisesOnly allowed (compute value)) :
    RaisesOnly allowed (values.mapM compute) := by
  induction values with
  | nil => exact trivial
  | cons value values induction =>
      rw [List.mapM_cons]
      refine raises_only_bind (each value (List.mem_cons_self ..)) fun _ _ => ?_
      refine raises_only_bind (induction fun other member =>
        each other (List.mem_cons_of_mem _ member)) fun _ _ => ?_
      exact trivial

/-- The rule for a loop: the invariant is about the items still to come and the value so far. -/
theorem raises_only_foldl_m {update : Second → First → Except Error Second}
    (invariant : List First → Second → Prop)
    (kept : ∀ item items value, invariant (item :: items) value →
      RaisesOnly allowed (update value item) ∧
        ∀ next, update value item = .ok next → invariant items next)
    {items : List First} {value : Second} (starts : invariant items value) :
    RaisesOnly allowed (items.foldlM update value) ∧
      ∀ result, items.foldlM update value = .ok result → invariant [] result := by
  induction items generalizing value with
  | nil => exact ⟨trivial, fun result ends => Except.ok.inj ends ▸ starts⟩
  | cons item items induction =>
      obtain ⟨first, continues⟩ := kept item items value starts
      rw [List.foldlM_cons]
      refine ⟨raises_only_bind first fun next ran => (induction (continues next ran)).1, ?_⟩
      intro result ends
      obtain ⟨next, ran, rest⟩ := except_bind_ok ends
      exact (induction (continues next ran)).2 result rest

theorem raises_only_iff {computation : Except Error First} :
    RaisesOnly allowed computation ↔ ∀ error, computation = .error error → allowed error := by
  cases computation with
  | ok value => exact ⟨fun _ _ failed => (nomatch failed), fun _ => trivial⟩
  | error error =>
      exact ⟨fun raises _ failed => Except.error.inj failed ▸ raises, fun raises => raises _ rfl⟩

end RaisesOnly

/-- A computation that agrees with an exact one, or ends with the given error. -/
def SameUnless {Error Value : Type} (error : Error) (computed exact : Except Error Value) : Prop :=
  computed = .error error ∨ computed = exact

section SameUnless

variable {Error First Second : Type} {error : Error}

theorem same_unless_bind {first exact : Except Error First}
    {next later : First → Except Error Second} (head : SameUnless error first exact)
    (rest : ∀ value, SameUnless error (next value) (later value)) :
    SameUnless error (first >>= next) (exact >>= later) := by
  cases head with
  | inl fails =>
      rw [fails]
      exact .inl rfl
  | inr same =>
      rw [same]
      cases exact with
      | error other => exact .inr rfl
      | ok value => exact rest value

theorem same_unless_bind_ok {first : Except Error First} {value : First}
    {next : First → Except Error Second} {exact : Except Error Second}
    (head : SameUnless error first (.ok value)) (rest : SameUnless error (next value) exact) :
    SameUnless error (first >>= next) exact := by
  cases head with
  | inl fails =>
      rw [fails]
      exact .inl rfl
  | inr same =>
      rw [same]
      exact rest

theorem same_unless_ok {computed exact : Except Error First} {value : First}
    (same : SameUnless error computed exact) (completes : computed = .ok value) :
    exact = .ok value := by
  cases same with
  | inl fails =>
      rw [fails] at completes
      cases completes
  | inr same => rw [← same, completes]

theorem same_unless_foldl_m {update exact : Second → First → Except Error Second}
    (each : ∀ value item, SameUnless error (update value item) (exact value item))
    (items : List First) (value : Second) :
    SameUnless error (items.foldlM update value) (items.foldlM exact value) := by
  induction items generalizing value with
  | nil => exact .inr rfl
  | cons item items induction =>
      rw [List.foldlM_cons, List.foldlM_cons]
      exact same_unless_bind (each value item) induction

end SameUnless

structure System (State Event Fault : Type) where
  step : State → Event → Outcome Fault State
  restart : State → State

/-- The state that the system goes on with. -/
def System.next (system : System State Event Fault) (state : State) (event : Event) : State :=
  match system.step state event with
  | .running next => next
  | .stopped _ next => system.restart next

inductive Reachable (system : System State Event Fault) (guard : State → Event → Prop)
    (initial : State → Prop) : State → Prop where
  | start {state : State} (starts : initial state) : Reachable system guard initial state
  | step {state next : State} {event : Event} (before : Reachable system guard initial state)
      (guarded : guard state event) (runs : system.step state event = .running next) :
      Reachable system guard initial next
  | restart {state next : State} {event : Event} {fault : Fault}
      (before : Reachable system guard initial state) (guarded : guard state event)
      (stops : system.step state event = .stopped fault next) :
      Reachable system guard initial (system.restart next)

section Invariants

variable {system : System State Event Fault} {guard : State → Event → Prop}
  {initial : State → Prop}

/-- The induction rule. What is known of reachable states may be used at each step. -/
theorem reachable_invariant (invariant : State → Prop)
    (starts : ∀ state, initial state → invariant state)
    (kept : ∀ state event, Reachable system guard initial state → invariant state →
      guard state event →
      (system.step state event).Ends invariant fun _ next => invariant (system.restart next))
    {state : State} (reachable : Reachable system guard initial state) : invariant state := by
  induction reachable with
  | start initially => exact starts _ initially
  | step before guarded ran induction =>
      have after := kept _ _ before induction guarded
      rwa [ran] at after
  | restart before guarded stopped induction =>
      have after := kept _ _ before induction guarded
      rwa [stopped] at after

/-- An invariant of the memory itself: it holds after every step, stopped or not. -/
theorem memory_invariant (invariant : State → Prop)
    (starts : ∀ state, initial state → invariant state)
    (kept : ∀ state event, invariant state → guard state event →
      (system.step state event).Ends invariant fun _ => invariant)
    (restarted : ∀ state, invariant state → invariant (system.restart state))
    {state : State} (reachable : Reachable system guard initial state) : invariant state :=
  reachable_invariant invariant starts
    (fun state event _ holds guarded =>
      ends_mono (kept state event holds guarded) (fun _ after => after) fun _ => restarted)
    reachable

theorem reachable_mono {stronger : State → Event → Prop} {start : State → Prop}
    (weaker : ∀ state event, stronger state event → guard state event)
    (starts : ∀ state, start state → initial state) {state : State}
    (reachable : Reachable system stronger start state) :
    Reachable system guard initial state := by
  induction reachable with
  | start initially => exact .start (starts _ initially)
  | step before guarded ran induction => exact .step induction (weaker _ _ guarded) ran
  | restart before guarded stopped induction =>
      exact .restart induction (weaker _ _ guarded) stopped

theorem reachable_trans {middle : State} (first : Reachable system guard initial middle)
    {state : State} (second : Reachable system guard (fun start => start = middle) state) :
    Reachable system guard initial state := by
  induction second with
  | start same => exact same ▸ first
  | step before guarded ran induction => exact .step induction guarded ran
  | restart before guarded stopped induction => exact .restart induction guarded stopped

theorem ends_next (system : System State Event Fault) (post : State → Prop) {state : State}
    {event : Event}
    (ends : (system.step state event).Ends post fun _ next => post (system.restart next)) :
    post (system.next state event) := by
  rw [System.next]
  cases ran : system.step state event with
  | running next =>
      rw [ran] at ends
      exact ends
  | stopped fault next =>
      rw [ran] at ends
      exact ends

theorem reachable_next {state : State} {event : Event}
    (reachable : Reachable system guard initial state) (guarded : guard state event) :
    Reachable system guard initial (system.next state event) := by
  rw [System.next]
  cases ran : system.step state event with
  | running next => exact .step reachable guarded ran
  | stopped fault next => exact .restart reachable guarded ran

theorem next_invariant (invariant : State → Prop)
    (starts : ∀ state, initial state → invariant state)
    (kept : ∀ state event, Reachable system guard initial state → invariant state →
      guard state event → invariant (system.next state event))
    {state : State} (reachable : Reachable system guard initial state) : invariant state := by
  apply reachable_invariant invariant starts _ reachable
  intro state event before holds guarded
  have after := kept state event before holds guarded
  rw [System.next] at after
  cases ran : system.step state event with
  | running next =>
      rw [ran] at after
      exact after
  | stopped fault next =>
      rw [ran] at after
      exact after

/-- A system whose steps are those of another one, seen through a mapping of the states, has
no other states than the images. -/
theorem reachable_image {Image : Type} {imageSystem : System Image Event Fault}
    {imageGuard : Image → Event → Prop} {imageInitial : Image → Prop} (image : State → Image)
    (starts : ∀ state, imageInitial state → ∃ original, initial original ∧ state = image original)
    (guards : ∀ state event, imageGuard (image state) event → guard state event)
    (steps : ∀ state event, Reachable system guard initial state → guard state event →
      imageSystem.step (image state) event = (system.step state event).map image)
    (restarts : ∀ state, imageSystem.restart (image state) = image (system.restart state))
    {state : Image} (reachable : Reachable imageSystem imageGuard imageInitial state) :
    ∃ original, Reachable system guard initial original ∧ state = image original := by
  apply reachable_invariant _ _ _ reachable
  · intro start initially
    have ⟨original, starting, same⟩ := starts start initially
    exact ⟨original, .start starting, same⟩
  · intro before event _ ⟨original, reached, same⟩ guarded
    rw [same] at guarded ⊢
    have admitted := guards original event guarded
    rw [steps original event reached admitted]
    cases ran : system.step original event with
    | running next => exact ⟨next, .step reached admitted ran, rfl⟩
    | stopped fault next =>
        exact ⟨system.restart next, .restart reached admitted ran, restarts next⟩

end Invariants

variable (system : System State Event Fault) (guard : State → Event → Prop)
  [∀ state event, Decidable (guard state event)]

/-- The state after the events, if the guard admits each of them in its turn. -/
def runEvents : State → List Event → Option State
  | state, [] => some state
  | state, event :: events =>
      if guard state event then
        match system.step state event with
        | .running next => runEvents next events
        | .stopped _ next => runEvents (system.restart next) events
      else none

theorem reachable_of_run_events {initial : State → Prop} {state result : State}
    {events : List Event} (reachable : Reachable system guard initial state)
    (runs : runEvents system guard state events = some result) :
    Reachable system guard initial result := by
  induction events generalizing state with
  | nil => exact Option.some.inj runs ▸ reachable
  | cons event events induction =>
      rw [runEvents] at runs
      split at runs
      · rename_i guarded
        split at runs
        · rename_i next ran
          exact induction (.step reachable guarded ran) runs
        · rename_i fault next stopped
          exact induction (.restart reachable guarded stopped) runs
      · exact nomatch runs

theorem run_events_cons (state : State) (event : Event) (events : List Event) :
    runEvents system guard state (event :: events) =
      if guard state event then runEvents system guard (system.next state event) events
      else none := by
  rw [runEvents, System.next]
  cases system.step state event with
  | running next => rfl
  | stopped fault next => rfl

/-- What the events of a run have chosen last, each in the state that it meets. -/
def lastChosen {Value : Type} (chosen : State → Event → Option Value) :
    State → List Event → Option Value
  | _, [] => none
  | state, event :: events =>
      (lastChosen chosen (system.next state event) events).or (chosen state event)

/-- A field that each step leaves as the event has chosen it holds the last choice of a run. The
steps are known only while the system is `alive`, which it is wherever the guard admits one. -/
theorem field_last_chosen {Value : Type} {chosen : State → Event → Option Value}
    {field : State → Option Value} (alive : State → Prop)
    (admitted : ∀ state event, guard state event → alive state)
    (steps : ∀ state event, guard state event → alive (system.next state event) →
      field (system.next state event) = (chosen state event).or (field state))
    {state result : State} {events : List Event}
    (runs : runEvents system guard state events = some result) (ends : alive result) :
    field result = (lastChosen system chosen state events).or (field state) := by
  induction events generalizing state with
  | nil =>
      rw [← Option.some.inj runs]
      rfl
  | cons event events induction =>
      rw [run_events_cons] at runs
      split at runs
      · rename_i guarded
        have goesOn : alive (system.next state event) := by
          cases events with
          | nil =>
              rw [Option.some.inj runs]
              exact ends
          | cons later rest =>
              rw [run_events_cons] at runs
              split at runs
              · rename_i next
                exact admitted _ _ next
              · cases runs
        rw [induction runs, steps state event guarded goesOn, lastChosen, Option.or_assoc]
      · cases runs

end RlInvestments.GuardedRuns
