import MoonlightWii.Wii.InputString

/-!
# Menus one poll at a time (`menu.c`)

A pass goes from a poll to the next one, through the tests at the head of the loop.  Where
these leave the menu no further poll is made.
-/

set_option autoImplicit false

namespace MoonlightWii.Wii.MenuPasses

open MoonlightWii.Wii.Input
open MoonlightWii.Wii.InputString
open MoonlightWii.Wii.Menu

/-- Where a pass ends: the menu returns, or is shown for the next poll. -/
inductive Pass (Result Shown : Type) where
  | returned (result : Result)
  | polls (shown : Shown)

/-! ## `menu_select` -/

/-- The selected line of the next poll; `none` where -1 is returned. -/
def selectHead (count sel : Int) (proc : ProcState) : Option Int :=
  if proc.leaves then none else some (clampSel count sel)

def selectStart (count sel : Int) (proc : ProcState) : Option Int :=
  if count ≤ 0 then none else selectHead count (if sel < 0 then 0 else sel) proc

def selectPass (count shown : Int) (btns : Button → Bool) (polled : ProcState) : Pass Int Int :=
  if btns .a then .returned shown
  else if btns .b then .returned (-1)
  else
    let sel := if btns .down then shown + 1 else if btns .up then shown - 1 else shown
    match selectHead count sel polled with
    | none => .returned (-1)
    | some next => .polls next

theorem clampSel_clampSel (count sel : Int) (some_options : 0 < count) :
    clampSel count (clampSel count sel) = clampSel count sel := by
  have range := clampSel_range count sel some_options
  have low : ¬ clampSel count sel < 0 := by omega
  have high : ¬ count ≤ clampSel count sel := by omega
  generalize clampSel count sel = shown at *
  rw [clampSel, if_neg low, if_neg high]

/-- The tests at the head of the loop, for whatever polls are left. -/
theorem selectLoop_head (count sel : Int) (some_options : 0 < count) (proc : ProcState)
    (scans : List Scan) :
    selectLoop count proc sel scans =
      match selectHead count sel proc with
      | none => some (-1, proc, scans)
      | some shown => selectLoop count proc shown scans := by
  unfold selectHead
  cases leaves : proc.leaves with
  | true =>
      cases scans with
      | nil => simp only [selectLoop, leaves, if_true]
      | cons scan rest => simp only [selectLoop, leaves, if_true]
  | false =>
      cases scans with
      | nil => simp only [selectLoop, leaves, Bool.false_eq_true, if_false]
      | cons scan rest =>
          simp only [selectLoop, leaves, Bool.false_eq_true, if_false,
            clampSel_clampSel count sel some_options]

/-- The loop in passes. -/
theorem selectLoop_pass (count sel : Int) (some_options : 0 < count) (proc : ProcState)
    (scan : Scan) (rest : List Scan) :
    selectLoop count proc sel (scan :: rest) =
      match selectHead count sel proc with
      | none => some (-1, proc, scan :: rest)
      | some shown =>
          match selectPass count shown (poll proc scan).1 (poll proc scan).2 with
          | .returned result => some (result, (poll proc scan).2, rest)
          | .polls next => selectLoop count (poll proc scan).2 next rest := by
  unfold selectPass
  generalize polled : poll proc scan = result
  obtain ⟨btns, after⟩ := result
  rw [selectLoop, polled, selectHead]
  cases proc.leaves with
  | true => rfl
  | false =>
      simp only [Bool.false_eq_true, if_false]
      cases btns .a with
      | true => rfl
      | false =>
          cases btns .b with
          | true => rfl
          | false =>
              simp only [Bool.false_eq_true, if_false]
              have moved (next : Int) : selectLoop count after next rest =
                  match (match selectHead count next after with
                    | none => Pass.returned (-1)
                    | some shown => Pass.polls shown : Pass Int Int) with
                  | .returned result => some (result, after, rest)
                  | .polls shown => selectLoop count after shown rest := by
                rw [selectLoop_head count next some_options]
                cases selectHead count next after with
                | none => rfl
                | some shown => rfl
              by_cases down : btns .down = true
              · simp only [if_pos down]
                exact moved _
              · by_cases up : btns .up = true
                · simp only [if_neg down, if_pos up]
                  exact moved _
                · simp only [if_neg down, if_neg up]
                  exact moved _

/-- A press of Home leaves the menu, with the selected line if A is pressed as well. -/
theorem selectPass_home (count shown : Int) (btns : Button → Bool) {polled : ProcState}
    (home : polled.wantMainMenu = true) :
    selectPass count shown btns polled = .returned (if btns .a then shown else -1) := by
  have leaves : polled.leaves = true := by rw [ProcState.leaves, home, Bool.or_true]
  unfold selectPass selectHead
  cases btns .a with
  | true => rfl
  | false =>
      cases btns .b with
      | true => rfl
      | false =>
          rw [leaves]
          rfl

/-! ## `menu_input_string` -/

section Input

variable (charset : List Char) (maxlen : Nat)

/-- The editor of the next poll; `none` where 0 is returned. -/
def inputHead (editor : Editor) (proc : ProcState) : Option Editor :=
  if proc.leaves then none else some (clamp charset maxlen editor)

def inputStart (initial : Option (List Char)) (proc : ProcState) : Option Editor :=
  if charset.length = 0 ∨ maxlen ≤ 0 ∨ bufferSize ≤ maxlen then none
  else inputHead charset maxlen (start charset maxlen initial) proc

/-- The pass returns the contents of `out`, or nothing for 0. -/
def inputPass (out : Nat → Char) (shown : Editor) (btns : Button → Bool) (polled : ProcState) :
    Pass (Option (Nat → Char)) Editor :=
  if btns .a then .returned (some (finish maxlen out shown))
  else if btns .b then .returned none
  else
    match inputHead charset maxlen (press charset maxlen btns shown) polled with
    | none => .returned none
    | some next => .polls next

theorem clamp_clamp (characters : 0 < charset.length) (room : 0 < maxlen) (editor : Editor) :
    clamp charset maxlen (clamp charset maxlen editor) = clamp charset maxlen editor := by
  have position : 0 ≤ (clamp charset maxlen editor).pos ∧
      (clamp charset maxlen editor).pos ≤ (maxlen : Int) - 1 := by
    unfold clamp
    dsimp only
    split <;> split <;> omega
  have selection : 0 ≤ (clamp charset maxlen editor).sel ∧
      (clamp charset maxlen editor).sel < charset.length := by
    unfold clamp
    dsimp only
    split <;> split <;> omega
  generalize clamp charset maxlen editor = shown at position selection ⊢
  obtain ⟨buf, len, pos, sel⟩ := shown
  simp only at position selection
  have posLow : ¬ pos < 0 := by omega
  have posHigh : ¬ (maxlen : Int) - 1 < pos := by omega
  have selLow : ¬ sel < 0 := by omega
  have selHigh : ¬ (charset.length : Int) ≤ sel := by omega
  simp only [clamp, if_neg posLow, if_neg posHigh, if_neg selLow, if_neg selHigh]

theorem inputLoop_head (characters : 0 < charset.length) (room : 0 < maxlen) (out : Nat → Char)
    (editor : Editor) (proc : ProcState) (scans : List Scan) :
    inputLoop charset maxlen out proc editor scans =
      match inputHead charset maxlen editor proc with
      | none => some none
      | some shown => inputLoop charset maxlen out proc shown scans := by
  unfold inputHead
  cases leaves : proc.leaves with
  | true =>
      cases scans with
      | nil => simp only [inputLoop, leaves, if_true]
      | cons scan rest => simp only [inputLoop, leaves, if_true]
  | false =>
      cases scans with
      | nil => simp only [inputLoop, leaves, Bool.false_eq_true, if_false]
      | cons scan rest =>
          simp only [inputLoop, leaves, Bool.false_eq_true, if_false,
            clamp_clamp charset maxlen characters room editor]

/-- The loop in passes. -/
theorem inputLoop_pass (characters : 0 < charset.length) (room : 0 < maxlen) (out : Nat → Char)
    (editor : Editor) (proc : ProcState) (scan : Scan) (rest : List Scan) :
    inputLoop charset maxlen out proc editor (scan :: rest) =
      match inputHead charset maxlen editor proc with
      | none => some none
      | some shown =>
          match inputPass charset maxlen out shown (poll proc scan).1 (poll proc scan).2 with
          | .returned result => some result
          | .polls next => inputLoop charset maxlen out (poll proc scan).2 next rest := by
  unfold inputPass
  generalize polled : poll proc scan = result
  obtain ⟨btns, after⟩ := result
  rw [inputLoop, polled, inputHead]
  cases proc.leaves with
  | true => rfl
  | false =>
      simp only [Bool.false_eq_true, if_false]
      cases btns .a with
      | true => rfl
      | false =>
          cases btns .b with
          | true => rfl
          | false =>
              simp only [Bool.false_eq_true, if_false]
              rw [inputLoop_head charset maxlen characters room]
              cases inputHead charset maxlen
                (press charset maxlen btns (clamp charset maxlen editor)) after with
              | none => rfl
              | some shown => rfl

theorem inputPass_home (out : Nat → Char) (shown : Editor) (btns : Button → Bool)
    {polled : ProcState} (home : polled.wantMainMenu = true) :
    inputPass charset maxlen out shown btns polled =
      .returned (if btns .a then some (finish maxlen out shown) else none) := by
  have leaves : polled.leaves = true := by rw [ProcState.leaves, home, Bool.or_true]
  unfold inputPass inputHead
  cases btns .a with
  | true => rfl
  | false =>
      cases btns .b with
      | true => rfl
      | false =>
          rw [leaves]
          rfl

end Input

end MoonlightWii.Wii.MenuPasses
