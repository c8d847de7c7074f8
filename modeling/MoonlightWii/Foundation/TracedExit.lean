import MoonlightWii.Foundation.EarlyExit

/-!
# Programs that leave marks

A traced program runs over the state of a plain program and a growing list of
marks, which also survives an early exit.  Without its marks it is the plain
program: the values may carry more, and `forget` takes that away.
-/

set_option autoImplicit false

namespace Foundation.TracedExit

open Foundation.EarlyExit

universe u

structure Traced (State Mark : Type u) where
  state : State
  marks : List Mark

variable {Exit State Mark α β γ δ : Type u}

abbrev TracedM (Exit State Mark : Type u) := EStateM Exit (Traced State Mark)

/-- A plain program, which leaves no marks. -/
def lift (program : EStateM Exit State α) : TracedM Exit State Mark α := fun traced =>
  match program traced.state with
  | .ok value after => .ok value ⟨after, traced.marks⟩
  | .error exit after => .error exit ⟨after, traced.marks⟩

def note (marks : List Mark) : TracedM Exit State Mark PUnit :=
  modify fun traced => { traced with marks := traced.marks ++ marks }

/-! ## Without the marks -/

def Erases (traced : TracedM Exit State Mark α) (plain : EStateM Exit State β)
    (forget : α → β) : Prop :=
  ∀ start, plain start.state =
    match traced start with
    | .ok value after => .ok (forget value) after.state
    | .error exit after => .error exit after.state

theorem erases_lift (program : EStateM Exit State α) :
    Erases (lift program : TracedM Exit State Mark α) program id := by
  intro start
  unfold lift
  cases program start.state with
  | ok value after => rfl
  | error exit after => rfl

theorem erases_pure (value : α) (forget : α → β) :
    Erases (pure value : TracedM Exit State Mark α) (pure (forget value)) forget :=
  fun _ => rfl

theorem erases_bind {first : TracedM Exit State Mark α} {plainFirst : EStateM Exit State γ}
    {next : α → TracedM Exit State Mark β} {plainNext : γ → EStateM Exit State δ}
    {forget : α → γ} {forgetNext : β → δ} (starts : Erases first plainFirst forget)
    (goesOn : ∀ value, Erases (next value) (plainNext (forget value)) forgetNext) :
    Erases (first >>= next) (plainFirst >>= plainNext) forgetNext := by
  intro start
  have ran := starts start
  change EStateM.bind plainFirst plainNext start.state =
    match EStateM.bind first next start with
    | .ok value after => .ok (forgetNext value) after.state
    | .error exit after => .error exit after.state
  unfold EStateM.bind
  cases result : first start with
  | ok value after =>
      rw [result] at ran
      rw [ran]
      exact goesOn value after
  | error exit after =>
      rw [result] at ran
      rw [ran]

theorem erases_note_bind (marks : List Mark) {next : TracedM Exit State Mark α}
    {plain : EStateM Exit State β} {forget : α → β} (goesOn : Erases next plain forget) :
    Erases (note marks >>= fun _ => next) plain forget :=
  fun start => goesOn { start with marks := start.marks ++ marks }

theorem erases_ite {condition : Prop} [Decidable condition]
    {first second : TracedM Exit State Mark α} {plainFirst plainSecond : EStateM Exit State β}
    {forget : α → β} (yes : Erases first plainFirst forget)
    (no : Erases second plainSecond forget) :
    Erases (if condition then first else second) (if condition then plainFirst else plainSecond)
      forget := by
  by_cases holds : condition
  · rw [if_pos holds, if_pos holds]
    exact yes
  · rw [if_neg holds, if_neg holds]
    exact no

/-! ## Conditions on the state and on the marks -/

/-- The state meets the condition, and these are the marks so far. -/
def At (marks : List Mark) (holds : State → Prop) (traced : Traced State Mark) : Prop :=
  holds traced.state ∧ traced.marks = marks

variable {pre : State → Prop} {marks : List Mark}

theorem ensures_lift {program : EStateM Exit State α} {done : α → State → Prop}
    {left : Exit → State → Prop} (ensured : Ensures pre program done left) :
    Ensures (At marks pre) (lift program) (fun value => At marks (done value))
      (fun exit => At marks (left exit)) := by
  intro start holds
  have ran := ensured start.state holds.1
  unfold lift
  cases result : program start.state with
  | ok value after =>
      rw [result] at ran
      exact ⟨ran, holds.2⟩
  | error exit after =>
      rw [result] at ran
      exact ⟨ran, holds.2⟩

theorem ensures_at_fact {fact : Prop} {program : TracedM Exit State Mark α}
    {done : α → Traced State Mark → Prop} {left : Exit → Traced State Mark → Prop}
    (under : fact → Ensures (At marks pre) program done left) :
    Ensures (At marks fun state => fact ∧ pre state) program done left :=
  fun start holds => under holds.1.1 start ⟨holds.1.2, holds.2⟩

/-- A plain step in front, whose exits end the traced program. -/
theorem ensures_lift_bind {program : EStateM Exit State α}
    {next : α → TracedM Exit State Mark β} {between : α → State → Prop}
    {early : Exit → State → Prop} {done : β → Traced State Mark → Prop}
    {left : Exit → Traced State Mark → Prop} (first : Ensures pre program between early)
    (exits : ∀ exit after, early exit after → left exit ⟨after, marks⟩)
    (second : ∀ value, Ensures (At marks (between value)) (next value) done left) :
    Ensures (At marks pre) (lift program >>= next) done left := by
  apply ensures_bind (fun value => At marks (between value))
  · apply ensures_weaken (ensures_lift first)
    · exact fun _ holds => holds
    · exact fun _ _ holds => holds
    · intro exit traced holds
      obtain ⟨after, recorded⟩ := traced
      obtain ⟨met, same⟩ := holds
      subst same
      exact exits exit after met
  · exact second

theorem ensures_note_bind (more : List Mark) {next : TracedM Exit State Mark α}
    {done : α → Traced State Mark → Prop} {left : Exit → Traced State Mark → Prop}
    (second : Ensures (At (marks ++ more) pre) next done left) :
    Ensures (At marks pre) (note more >>= fun _ => next) done left := by
  intro start holds
  apply second { start with marks := start.marks ++ more }
  exact ⟨holds.1, by rw [holds.2]⟩

end Foundation.TracedExit
