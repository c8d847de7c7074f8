import Mathlib.Logic.Basic

/-!
# Pre- and postconditions for code with early exits

A computation over a state either returns a value or leaves through an exit with
a code.  `Ensures` is total: every run from a state that meets the precondition
ends in the condition on returned values or in the condition on exits.
-/

set_option autoImplicit false

namespace Foundation.EarlyExit

universe u

variable {Exit State α β : Type u}

def Ensures (pre : State → Prop) (program : EStateM Exit State α)
    (done : α → State → Prop) (left : Exit → State → Prop) : Prop :=
  ∀ state, pre state →
    match program state with
    | .ok value after => done value after
    | .error exit after => left exit after

variable {pre mid : State → Prop} {done : α → State → Prop} {left : Exit → State → Prop}

theorem ensures_pure (value : α) (holds : ∀ state, pre state → done value state) :
    Ensures pre (pure value) done left := holds

theorem ensures_throw (exit : Exit) (holds : ∀ state, pre state → left exit state) :
    Ensures pre (throw exit : EStateM Exit State α) done left := holds

theorem ensures_bind {program : EStateM Exit State α} {next : α → EStateM Exit State β}
    (between : α → State → Prop) {after : β → State → Prop}
    (first : Ensures pre program between left)
    (second : ∀ value, Ensures (between value) (next value) after left) :
    Ensures pre (program >>= next) after left := by
  intro state holds
  have ran := first state holds
  change match EStateM.bind program next state with
    | .ok value later => after value later
    | .error exit later => left exit later
  unfold EStateM.bind
  cases result : program state with
  | ok value later =>
      rw [result] at ran
      exact second value later ran
  | error exit later =>
      rw [result] at ran
      exact ran

theorem ensures_get {after : State → State → Prop}
    (holds : ∀ state, pre state → after state state) :
    Ensures pre (get : EStateM Exit State State) after left := holds

theorem ensures_modify {after : PUnit → State → Prop} (change : State → State)
    (holds : ∀ state, pre state → after ⟨⟩ (change state)) :
    Ensures pre (modify change : EStateM Exit State PUnit) after left := holds

theorem ensures_ite {condition : Prop} [Decidable condition]
    {first second : EStateM Exit State α}
    (yes : condition → Ensures pre first done left)
    (no : ¬ condition → Ensures pre second done left) :
    Ensures pre (if condition then first else second) done left := by
  by_cases holds : condition
  · rw [if_pos holds]
    exact yes holds
  · rw [if_neg holds]
    exact no holds

/-- A fact that does not depend on the state may be taken out of the precondition. -/
theorem ensures_fact {fact : Prop} {program : EStateM Exit State α}
    (under : fact → Ensures pre program done left) :
    Ensures (fun state => fact ∧ pre state) program done left :=
  fun state both => under both.1 state both.2

theorem ensures_weaken {program : EStateM Exit State α} {stronger : State → Prop}
    {done' : α → State → Prop} {left' : Exit → State → Prop}
    (ensured : Ensures pre program done' left')
    (start : ∀ state, stronger state → pre state)
    (returned : ∀ value state, done' value state → done value state)
    (exited : ∀ exit state, left' exit state → left exit state) :
    Ensures stronger program done left := by
  intro state holds
  have ran := ensured state (start state holds)
  cases result : program state with
  | ok value after =>
      rw [result] at ran
      exact returned value after ran
  | error exit after =>
      rw [result] at ran
      exact exited exit after ran

theorem ensures_and {program : EStateM Exit State α} {other : State → Prop}
    {done' : α → State → Prop} {left' : Exit → State → Prop}
    (first : Ensures pre program done left) (second : Ensures other program done' left') :
    Ensures (fun state => pre state ∧ other state) program
      (fun value after => done value after ∧ done' value after)
      (fun exit after => left exit after ∧ left' exit after) := by
  intro state holds
  have ran := first state holds.1
  have ran' := second state holds.2
  cases result : program state with
  | ok value after =>
      rw [result] at ran ran'
      exact ⟨ran, ran'⟩
  | error exit after =>
      rw [result] at ran ran'
      exact ⟨ran, ran'⟩

/-! ## Runs from one state -/

section Runs

variable {program : EStateM Exit State α} {next : α → EStateM Exit State β} {state after : State}

theorem bind_of_ok {value : α} (ran : program state = .ok value after) :
    (program >>= next) state = next value after := by
  change EStateM.bind program next state = next value after
  rw [EStateM.bind, ran]

theorem bind_of_error {exit : Exit} (ran : program state = .error exit after) :
    (program >>= next) state = .error exit after := by
  change EStateM.bind program next state = .error exit after
  rw [EStateM.bind, ran]

end Runs

end Foundation.EarlyExit
