import Mathlib.Order.WellFounded

/-!
# Scripts that run other scripts

A script is a list of steps, each of which changes the state, fails, or runs another
script.  A run with bounded depth either ends or reaches the bound; it ends for some
depth exactly when there is no endless chain of scripts, each of them run by a step of
the one before that the run reaches.
-/

set_option autoImplicit false

namespace Foundation.NestedScripts

universe u v w

inductive Step (Name : Type u) (State : Type v) (Failure : Type w) where
  | call (name : Name)
  | effect (run : State → Except Failure State)

/-- What a script does is known when it is started. -/
abbrev Scripts (Name : Type u) (State : Type v) (Failure : Type w) :=
  Name → State → Except Failure (List (Step Name State Failure) × State)

/-- How a run ends; `none` stands for one that reaches the bound on the depth. -/
abbrev Outcome (State : Type v) (Failure : Type w) := Option (Except Failure State)

variable {Name : Type u} {State : Type v} {Failure : Type w}

def andThen (first : Outcome State Failure) (next : State → Outcome State Failure) :
    Outcome State Failure :=
  match first with
  | none => none
  | some (.error failure) => some (.error failure)
  | some (.ok state) => next state

def runStep (nested : Name → State → Outcome State Failure) (state : State) :
    Step Name State Failure → Outcome State Failure
  | .call name => nested name state
  | .effect run => some (run state)

def runSteps (nested : Name → State → Outcome State Failure) :
    List (Step Name State Failure) → State → Outcome State Failure
  | [], state => some (.ok state)
  | step :: steps, state => andThen (runStep nested state step) (runSteps nested steps)

def run (scripts : Scripts Name State Failure) : Nat → Name → State → Outcome State Failure
  | 0, _, _ => none
  | depth + 1, name, state =>
      match scripts name state with
      | .error failure => some (.error failure)
      | .ok opened => runSteps (run scripts depth) opened.1 opened.2

/-! ## Deeper runs -/

/-- The second nested runs end like the first wherever these end. -/
def Extends (nested deeper : Name → State → Outcome State Failure) : Prop :=
  ∀ name state, nested name state ≠ none → deeper name state = nested name state

theorem runSteps_append (nested : Name → State → Outcome State Failure)
    (first later : List (Step Name State Failure)) (state : State) :
    runSteps nested (first ++ later) state =
      andThen (runSteps nested first state) (runSteps nested later) := by
  induction first generalizing state with
  | nil => rfl
  | cons step first ih =>
      rw [List.cons_append, runSteps, runSteps]
      cases runStep nested state step with
      | none => rfl
      | some result =>
          cases result with
          | error failure => rfl
          | ok next => exact ih next

theorem runSteps_extends {nested deeper : Name → State → Outcome State Failure}
    (extension : Extends nested deeper) (steps : List (Step Name State Failure)) (state : State)
    (ends : runSteps nested steps state ≠ none) :
    runSteps deeper steps state = runSteps nested steps state := by
  induction steps generalizing state with
  | nil => rfl
  | cons step steps ih =>
      rw [runSteps] at ends ⊢
      have head : runStep deeper state step = runStep nested state step := by
        cases step with
        | call name =>
            apply extension
            intro unended
            rw [runStep, unended] at ends
            exact ends rfl
        | effect run => rfl
      rw [runSteps, head]
      cases found : runStep nested state step with
      | none => rfl
      | some result =>
          cases result with
          | error failure => rfl
          | ok next =>
              rw [found] at ends
              exact ih next ends

theorem andThen_ok {first : Outcome State Failure} {next : State → Outcome State Failure}
    {after : State} (ended : andThen first next = some (.ok after)) :
    ∃ between, first = some (.ok between) ∧ next between = some (.ok after) := by
  cases first with
  | none => cases ended
  | some result =>
      cases result with
      | error failure => cases ended
      | ok between => exact ⟨between, rfl, ended⟩

section Runs

variable {scripts : Scripts Name State Failure}

theorem run_failed {name : Name} {state : State} {failure : Failure} (depth : Nat)
    (failed : scripts name state = .error failure) :
    run scripts (depth + 1) name state = some (.error failure) := by
  rw [run, failed]

theorem run_opened {name : Name} {state started : State}
    {steps : List (Step Name State Failure)} (depth : Nat)
    (opened : scripts name state = .ok (steps, started)) :
    run scripts (depth + 1) name state = runSteps (run scripts depth) steps started := by
  rw [run, opened]

theorem run_extends (depth : Nat) : Extends (run scripts depth) (run scripts (depth + 1)) := by
  induction depth with
  | zero =>
      intro name state ends
      exact absurd rfl ends
  | succ depth ih =>
      intro name state ends
      cases opened : scripts name state with
      | error failure => rw [run_failed _ opened, run_failed _ opened]
      | ok opened_steps =>
          rw [run_opened _ opened] at ends ⊢
          rw [run_opened _ opened]
          exact runSteps_extends ih _ _ ends

theorem run_extends_add (depth more : Nat) :
    Extends (run scripts depth) (run scripts (depth + more)) := by
  induction more with
  | zero =>
      intro name state _
      rfl
  | succ more ih =>
      intro name state ends
      have same := ih name state ends
      have still : run scripts (depth + more) name state ≠ none := same ▸ ends
      exact (run_extends (depth + more) name state still).trans same

/-! ## Steps that are reached -/

/-- The steps, with the scripts they run, come to their end. -/
inductive Passes (scripts : Scripts Name State Failure) :
    List (Step Name State Failure) → State → State → Prop where
  | done (state : State) : Passes scripts [] state state
  | effect {run : State → Except Failure State} {steps : List (Step Name State Failure)}
      {before next after : State} (ran : run before = .ok next)
      (rest : Passes scripts steps next after) :
      Passes scripts (.effect run :: steps) before after
  | call {name : Name} {steps inner : List (Step Name State Failure)}
      {before started next after : State} (opened : scripts name before = .ok (inner, started))
      (nested : Passes scripts inner started next) (rest : Passes scripts steps next after) :
      Passes scripts (.call name :: steps) before after

/-- The first script has a step that runs the second, and reaches it. -/
def Reaches (scripts : Scripts Name State Failure) (outer inner : Name × State) : Prop :=
  ∃ before after started,
    scripts outer.1 outer.2 = .ok (before ++ .call inner.1 :: after, started) ∧
      Passes scripts before started inner.2

theorem Passes.append {first later : List (Step Name State Failure)} {before between after : State}
    (head : Passes scripts first before between) (tail : Passes scripts later between after) :
    Passes scripts (first ++ later) before after := by
  induction head with
  | done state => exact tail
  | effect ran rest ih => exact .effect ran (ih tail)
  | call opened nested rest _ ih => exact .call opened nested (ih tail)

/-- A run over steps that pass ends in the state they lead to, if it does not reach the
bound. -/
theorem runSteps_of_passes {steps : List (Step Name State Failure)} {before after : State}
    (passes : Passes scripts steps before after) (depth : Nat) :
    runSteps (run scripts depth) steps before = none ∨
      runSteps (run scripts depth) steps before = some (.ok after) := by
  induction passes generalizing depth with
  | done state => exact Or.inr rfl
  | effect ran rest ih =>
      rw [runSteps, runStep, ran]
      exact ih depth
  | call opened nested rest inner_ih rest_ih =>
      rw [runSteps, runStep]
      cases depth with
      | zero => exact Or.inl rfl
      | succ depth =>
          rw [run_opened depth opened]
          rcases inner_ih depth with unended | ended
          · rw [unended]
            exact Or.inl rfl
          · rw [ended]
            exact rest_ih (depth + 1)

theorem passes_of_runSteps {depth : Nat} {steps : List (Step Name State Failure)}
    {before after : State} (ended : runSteps (run scripts depth) steps before = some (.ok after)) :
    Passes scripts steps before after := by
  induction depth using Nat.strongRecOn generalizing steps before after with
  | ind depth inner_ih =>
      induction steps generalizing before with
      | nil =>
          cases ended
          exact .done _
      | cons step steps ih =>
          obtain ⟨between, head, tail⟩ := andThen_ok ended
          cases step with
          | effect run => exact .effect (Option.some.inj head) (ih tail)
          | call name =>
              cases depth with
              | zero => cases head
              | succ depth =>
                  change run scripts (depth + 1) name before = some (.ok between) at head
                  cases opened : scripts name before with
                  | error failure =>
                      rw [run_failed depth opened] at head
                      cases head
                  | ok opened_steps =>
                      rw [run_opened depth opened] at head
                      exact .call opened (inner_ih depth (Nat.lt_succ_self depth) head) (ih tail)

/-! ## Runs that end -/

/-- A run that ends has no endless chain of scripts. -/
theorem acc_of_run {depth : Nat} {name : Name} {state : State}
    (ends : run scripts depth name state ≠ none) :
    Acc (fun inner outer => Reaches scripts outer inner) (name, state) := by
  induction depth generalizing name state with
  | zero => exact absurd rfl ends
  | succ depth ih =>
      constructor
      intro inner reached
      obtain ⟨before, after, started, opened, passes⟩ := reached
      rw [run_opened depth opened, runSteps_append] at ends
      apply ih
      intro unended
      apply ends
      rcases runSteps_of_passes passes depth with stopped | passed
      · rw [stopped]
        rfl
      · rw [passed]
        change andThen (run scripts depth inner.1 inner.2) _ = none
        rw [unended]
        rfl

/-- Where the scripts of all reached steps end, the steps end. -/
theorem runSteps_ends {name : Name} {state started between : State}
    {first later : List (Step Name State Failure)}
    (ends : ∀ inner, Reaches scripts (name, state) inner →
      ∃ depth, run scripts depth inner.1 inner.2 ≠ none)
    (opened : scripts name state = .ok (first ++ later, started))
    (passes : Passes scripts first started between) :
    ∃ depth, runSteps (run scripts depth) later between ≠ none := by
  induction later generalizing first between with
  | nil => exact ⟨0, Option.some_ne_none _⟩
  | cons step later ih =>
      have split : first ++ step :: later = first ++ [step] ++ later := by
        rw [List.append_assoc]
        rfl
      cases step with
      | effect run =>
          cases ran : run between with
          | error failure =>
              refine ⟨0, ?_⟩
              rw [runSteps, runStep, ran]
              exact Option.some_ne_none _
          | ok next =>
              obtain ⟨depth, ended⟩ := ih (split ▸ opened)
                (passes.append (.effect ran (.done next)))
              refine ⟨depth, ?_⟩
              rw [runSteps, runStep, ran]
              exact ended
      | call inner =>
          obtain ⟨depth, ended⟩ := ends (inner, between) ⟨first, later, started, opened, passes⟩
          cases result : run scripts depth inner between with
          | none => exact absurd result ended
          | some outcome =>
              cases outcome with
              | error failure =>
                  refine ⟨depth, ?_⟩
                  rw [runSteps, runStep, result]
                  exact Option.some_ne_none _
              | ok next =>
                  have called : runSteps (run scripts depth) [.call inner] between =
                      some (.ok next) := by
                    rw [runSteps, runStep, result]
                    rfl
                  obtain ⟨other, rest⟩ := ih (split ▸ opened)
                    (passes.append (passes_of_runSteps called))
                  have deep : run scripts (depth + other) inner between = some (.ok next) :=
                    (run_extends_add depth other inner between ended).trans result
                  refine ⟨depth + other, ?_⟩
                  rw [runSteps, runStep, deep]
                  change runSteps (run scripts (depth + other)) later next ≠ none
                  rw [Nat.add_comm, runSteps_extends (run_extends_add other depth) later next rest]
                  exact rest

theorem run_of_acc {node : Name × State}
    (accessible : Acc (fun inner outer => Reaches scripts outer inner) node) :
    ∃ depth, run scripts depth node.1 node.2 ≠ none := by
  induction accessible with
  | intro node _ ih =>
      cases opened : scripts node.1 node.2 with
      | error failure =>
          refine ⟨1, ?_⟩
          rw [run_failed 0 opened]
          exact Option.some_ne_none _
      | ok started_steps =>
          obtain ⟨steps, started⟩ := started_steps
          have nothing_yet : scripts node.1 node.2 = .ok ([] ++ steps, started) := opened
          obtain ⟨depth, ended⟩ := runSteps_ends ih nothing_yet (.done started)
          refine ⟨depth + 1, ?_⟩
          rw [run_opened depth opened]
          exact ended

/-- A run ends for some depth exactly when there is no endless chain. -/
theorem run_ends_iff (name : Name) (state : State) :
    (∃ depth, run scripts depth name state ≠ none) ↔
      ¬ ∃ chain : Nat → Name × State, chain 0 = (name, state) ∧
        ∀ index, Reaches scripts (chain index) (chain (index + 1)) := by
  have chains : Acc (fun inner outer => Reaches scripts outer inner) (name, state) ↔
      ¬ ∃ chain : Nat → Name × State, chain 0 = (name, state) ∧
        ∀ index, Reaches scripts (chain index) (chain (index + 1)) :=
    not_iff_comm.mp not_acc_iff_exists_descending_chain |>.symm
  rw [← chains]
  constructor
  · intro ⟨depth, ended⟩
    exact acc_of_run ended
  · exact run_of_acc

end Runs

end Foundation.NestedScripts
