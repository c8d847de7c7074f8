import Mathlib.Data.List.TakeWhile

/-!
# Runs at the beginning of a text

A text that begins with a run of letters of one kind, up to the first letter that
is not of it.
-/

set_option autoImplicit false

namespace Foundation.TextRun

universe u

variable {α : Type u}

/-- The rest does not go on with the run. -/
def Stops (kind : α → Bool) (rest : List α) : Prop :=
  ∀ letter ∈ rest.head?, kind letter = false

theorem stops_nil (kind : α → Bool) : Stops kind [] := by
  intro letter member
  cases member

theorem stops_cons {kind : α → Bool} {letter : α} (other : kind letter = false) (rest : List α) :
    Stops kind (letter :: rest) := by
  intro first member
  cases Option.mem_some.mp member
  exact other

/-- What is left after a run does not go on with it. -/
theorem stops_dropWhile (kind : α → Bool) (text : List α) : Stops kind (text.dropWhile kind) := by
  induction text with
  | nil => exact stops_nil kind
  | cons letter text ih =>
      by_cases same : kind letter
      · rw [List.dropWhile_cons_of_pos same]
        exact ih
      · rw [List.dropWhile_cons_of_neg same]
        exact stops_cons (Bool.eq_false_iff.mpr same) text

variable {kind : α → Bool} {run rest : List α}

theorem takeWhile_stopped (stops : Stops kind rest) : rest.takeWhile kind = [] := by
  cases rest with
  | nil => rfl
  | cons first rest => rw [List.takeWhile_cons_of_neg (by simp [stops first rfl])]

theorem dropWhile_stopped (stops : Stops kind rest) : rest.dropWhile kind = rest := by
  cases rest with
  | nil => rfl
  | cons first rest => rw [List.dropWhile_cons_of_neg (by simp [stops first rfl])]

theorem takeWhile_run (all : ∀ letter ∈ run, kind letter = true) (stops : Stops kind rest) :
    (run ++ rest).takeWhile kind = run := by
  rw [List.takeWhile_append_of_pos all, takeWhile_stopped stops, List.append_nil]

theorem dropWhile_run (all : ∀ letter ∈ run, kind letter = true) (stops : Stops kind rest) :
    (run ++ rest).dropWhile kind = rest := by
  rw [List.dropWhile_append_of_pos all, dropWhile_stopped stops]

/-- The run at the beginning of a text does not reach into what stops it. -/
theorem takeWhile_append_stopped (text : List α) (stops : Stops kind rest) :
    (text ++ rest).takeWhile kind = text.takeWhile kind := by
  induction text with
  | nil => exact takeWhile_stopped stops
  | cons letter text ih =>
      rw [List.cons_append]
      by_cases same : kind letter
      · rw [List.takeWhile_cons_of_pos same, List.takeWhile_cons_of_pos same, ih]
      · rw [List.takeWhile_cons_of_neg same, List.takeWhile_cons_of_neg same]

end Foundation.TextRun
