import Mathlib.Logic.Basic

/-!
# Runs of an event machine

A machine is a partial step function; `none` says that the event is not enabled
in that state.  All nondeterminism (scheduling, inputs, replies of the
environment) lives in the list of events.  A fact about every reached state is
proved from one invariant that each step preserves; a guard restricts that
obligation to the steps that meet it.
-/

set_option autoImplicit false

namespace Foundation.GuardedRun

universe u v

variable {State : Type u} {Event : Type v}

def run (step : State → Event → Option State) : State → List Event → Option State
  | state, [] => some state
  | state, event :: rest =>
      match step state event with
      | none => none
      | some next => run step next rest

/-- Every event of the list is taken in a state that meets the guard.  The
obligation ends where an event is not enabled, because no step follows. -/
def Along (step : State → Event → Option State) (guard : State → Event → Prop) :
    State → List Event → Prop
  | _, [] => True
  | state, event :: rest =>
      guard state event ∧
        match step state event with
        | none => True
        | some next => Along step guard next rest

instance alongDecidable (step : State → Event → Option State)
    (guard : State → Event → Prop) [guardDecidable : ∀ state event, Decidable (guard state event)] :
    ∀ (state : State) (events : List Event), Decidable (Along step guard state events)
  | _, [] => isTrue trivial
  | state, event :: rest =>
      match guardDecidable state event with
      | isFalse unmet => isFalse fun along => unmet along.1
      | isTrue met =>
          match stepEquation : step state event with
          | none => isTrue ⟨met, by rw [stepEquation]; trivial⟩
          | some next =>
              match alongDecidable step guard next rest with
              | isTrue later => isTrue ⟨met, by rw [stepEquation]; exact later⟩
              | isFalse unmet => isFalse fun along => unmet (by
                  have later := along.2
                  rw [stepEquation] at later
                  exact later)

/-- A guard on the events alone is met along every run of them. -/
theorem along_of_forall {step : State → Event → Option State} {guard : State → Event → Prop}
    (state : State) (events : List Event)
    (met : ∀ event ∈ events, ∀ state, guard state event) : Along step guard state events := by
  induction events generalizing state with
  | nil => trivial
  | cons event rest ih =>
      refine ⟨met event List.mem_cons_self state, ?_⟩
      cases step state event with
      | none => trivial
      | some next => exact ih next fun later member => met later (List.mem_cons_of_mem _ member)

theorem run_cons {step : State → Event → Option State} {state final : State}
    {event : Event} {rest : List Event}
    (success : run step state (event :: rest) = some final) :
    ∃ next, step state event = some next ∧ run step next rest = some final := by
  cases stepEquation : step state event with
  | none => simp [run, stepEquation] at success
  | some next => exact ⟨next, rfl, by simpa [run, stepEquation] using success⟩

theorem along_cons {step : State → Event → Option State} {guard : State → Event → Prop}
    {state next : State} {event : Event} {rest : List Event}
    (along : Along step guard state (event :: rest))
    (stepped : step state event = some next) :
    guard state event ∧ Along step guard next rest := by
  refine ⟨along.1, ?_⟩
  have later := along.2
  rw [stepped] at later
  exact later

/-- The run rule: an invariant that every guarded step preserves holds at the
end of every guarded run. -/
theorem run_invariant {step : State → Event → Option State}
    {guard : State → Event → Prop} (invariant : State → Prop)
    (preserved : ∀ state event next, invariant state → guard state event →
      step state event = some next → invariant next)
    {state final : State} {events : List Event} (start : invariant state)
    (along : Along step guard state events)
    (success : run step state events = some final) : invariant final := by
  induction events generalizing state with
  | nil =>
      cases Option.some.inj success
      exact start
  | cons event rest ih =>
      obtain ⟨next, stepped, restRun⟩ := run_cons success
      obtain ⟨met, later⟩ := along_cons along stepped
      exact ih (preserved state event next start met stepped) later restRun

/-- The run rule without a guard. -/
theorem run_preserves {step : State → Event → Option State} (invariant : State → Prop)
    (preserved : ∀ state event next, invariant state →
      step state event = some next → invariant next)
    {state final : State} {events : List Event} (start : invariant state)
    (success : run step state events = some final) : invariant final := by
  induction events generalizing state with
  | nil =>
      cases Option.some.inj success
      exact start
  | cons event rest ih =>
      obtain ⟨next, stepped, restRun⟩ := run_cons success
      exact ih (preserved state event next start stepped) restRun

/-- The property holds in the first state and in every state that the events
lead to. -/
def Throughout (step : State → Event → Option State) (property : State → Prop) :
    State → List Event → Prop
  | state, [] => property state
  | state, event :: rest =>
      property state ∧
        match step state event with
        | none => True
        | some next => Throughout step property next rest

theorem throughout_first {step : State → Event → Option State} {property : State → Prop}
    {state : State} {events : List Event} (all : Throughout step property state events) :
    property state := by
  cases events with
  | nil => exact all
  | cons event rest => exact all.1

theorem throughout_cons {step : State → Event → Option State} {property : State → Prop}
    {state next : State} {event : Event} {rest : List Event}
    (all : Throughout step property state (event :: rest))
    (stepped : step state event = some next) : Throughout step property next rest := by
  have later := all.2
  rw [stepped] at later
  exact later

theorem throughout_last {step : State → Event → Option State} {property : State → Prop}
    {state final : State} {events : List Event} (all : Throughout step property state events)
    (success : run step state events = some final) : property final := by
  induction events generalizing state with
  | nil =>
      cases Option.some.inj success
      exact all
  | cons event rest ih =>
      obtain ⟨next, stepped, restRun⟩ := run_cons success
      exact ih (throughout_cons all stepped) restRun

/-- The exact-guard rule.  When guarded steps keep an invariant that implies the
property, and every unguarded step destroys the property at once, the property
holds throughout a run exactly when every step of the run meets the guard. -/
theorem throughout_iff_along {step : State → Event → Option State}
    {guard : State → Event → Prop} {property : State → Prop} (invariant : State → Prop)
    (safe : ∀ state, invariant state → property state)
    (preserved : ∀ state event next, invariant state → guard state event →
      step state event = some next → invariant next)
    (broken : ∀ state event next, invariant state → ¬ guard state event →
      step state event = some next → ¬ property next)
    {state final : State} {events : List Event} (start : invariant state)
    (success : run step state events = some final) :
    Throughout step property state events ↔ Along step guard state events := by
  induction events generalizing state with
  | nil => exact ⟨fun _ => trivial, fun _ => safe state start⟩
  | cons event rest ih =>
      obtain ⟨next, stepped, restRun⟩ := run_cons success
      constructor
      · intro all
        have later := throughout_cons all stepped
        have met : guard state event := by
          apply Classical.byContradiction
          intro unmet
          exact broken state event next start unmet stepped (throughout_first later)
        refine ⟨met, ?_⟩
        rw [stepped]
        exact (ih (preserved state event next start met stepped) restRun).mp later
      · intro along
        obtain ⟨met, later⟩ := along_cons along stepped
        refine ⟨safe state start, ?_⟩
        rw [stepped]
        exact (ih (preserved state event next start met stepped) restRun).mpr later

/-- The counting rule.  When exactly the unguarded steps raise a counter that no
step lowers, a run meets the guard at every step exactly when it ends with the
counter it began with. -/
theorem along_iff_counter {step : State → Event → Option State}
    {guard : State → Event → Prop} (counter : State → Nat)
    (kept : ∀ state event next, guard state event → step state event = some next →
      counter next = counter state)
    (raised : ∀ state event next, ¬ guard state event → step state event = some next →
      counter state < counter next)
    {state final : State} {events : List Event}
    (success : run step state events = some final) :
    counter state ≤ counter final ∧
      (Along step guard state events ↔ counter final = counter state) := by
  induction events generalizing state with
  | nil =>
      cases Option.some.inj success
      exact ⟨Nat.le_refl _, fun _ => rfl, fun _ => trivial⟩
  | cons event rest ih =>
      obtain ⟨next, stepped, restRun⟩ := run_cons success
      obtain ⟨grows, later⟩ := ih restRun
      by_cases met : guard state event
      · have same := kept state event next met stepped
        refine ⟨by omega, ?_, ?_⟩
        · intro along
          rw [← same]
          exact later.mp (along_cons along stepped).2
        · intro unchanged
          refine ⟨met, ?_⟩
          rw [stepped]
          exact later.mpr (by omega)
      · have more := raised state event next met stepped
        refine ⟨by omega, fun along => absurd along.1 met, ?_⟩
        intro unchanged
        omega

end Foundation.GuardedRun
