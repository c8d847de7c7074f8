import Mathlib.Data.List.Basic
import Mathlib.Logic.Function.Basic

/-!
# The live window of a circular buffer

`size` slots are addressed modulo `size`.  The live elements are the `count`
slots from position `first` on.  Positions are free-running numbers: only their
remainder modulo `size` matters, so a position counter may itself wrap at any
multiple of `size`.
-/

set_option autoImplicit false

namespace Foundation.CircularBuffer

universe u

variable {α : Type u}

/-- The live elements, oldest first. -/
def window (size : Nat) (slots : Nat → α) (first count : Nat) : List α :=
  (List.range count).map fun index => slots ((first + index) % size)

@[simp] theorem window_zero (size : Nat) (slots : Nat → α) (first : Nat) :
    window size slots first 0 = [] := rfl

@[simp] theorem window_length (size : Nat) (slots : Nat → α) (first count : Nat) :
    (window size slots first count).length = count := by
  simp [window]

theorem window_first_congr (size : Nat) (slots : Nat → α) (first other count : Nat)
    (same : first % size = other % size) :
    window size slots first count = window size slots other count := by
  unfold window
  apply List.map_congr_left
  intro index _
  rw [Nat.add_mod first, Nat.add_mod other, same]

theorem window_pop (size : Nat) (slots : Nat → α) (first count : Nat) :
    window size slots first (count + 1) =
      slots (first % size) :: window size slots (first + 1) count := by
  simp only [window, List.range_succ_eq_map, List.map_cons, List.map_map, Nat.add_zero]
  congr 1
  apply List.map_congr_left
  intro index _
  simp only [Function.comp_apply]
  congr 2
  omega

theorem window_extend (size : Nat) (slots : Nat → α) (first count : Nat) :
    window size slots first (count + 1) =
      window size slots first count ++ [slots ((first + count) % size)] := by
  simp [window, List.range_succ]

/-- Two positions of one live window are different slots. -/
theorem slot_ne (size first index other : Nat) (less : index < other)
    (bound : other < index + size) :
    (first + index) % size ≠ (first + other) % size := by
  intro same
  have gap : (first + other) - (first + index) = other - index := by omega
  have aligned : (other - index) % size = 0 := by
    rw [← gap]
    exact Nat.sub_mod_eq_zero_of_mod_eq same.symm
  rw [Nat.mod_eq_of_lt (by omega)] at aligned
  omega

theorem window_congr (size : Nat) (slots other : Nat → α) (first count : Nat)
    (same : ∀ index, index < count →
      slots ((first + index) % size) = other ((first + index) % size)) :
    window size slots first count = window size other first count := by
  unfold window
  apply List.map_congr_left
  intro index member
  exact same index (List.mem_range.mp member)

/-- Equal windows agree on every live slot. -/
theorem window_slot {size : Nat} {slots other : Nat → α} {first count : Nat}
    (same : window size slots first count = window size other first count) {index : Nat}
    (live : index < count) : slots ((first + index) % size) = other ((first + index) % size) :=
  List.map_inj_left.mp same index (List.mem_range.mpr live)

theorem window_update_free (size : Nat) (slots : Nat → α) (first count free : Nat)
    (value : α) (outside : ∀ index, index < count → (first + index) % size ≠ free) :
    window size (Function.update slots free value) first count =
      window size slots first count := by
  apply window_congr
  intro index less
  exact Function.update_of_ne (outside index less) _ _

theorem window_push (size : Nat) (slots : Nat → α) (first count : Nat) (value : α)
    (space : count < size) :
    window size (Function.update slots ((first + count) % size) value) first (count + 1) =
      window size slots first count ++ [value] := by
  rw [window_extend, window_update_free]
  · simp
  · intro index less
    exact slot_ne size first index count less (by omega)

end Foundation.CircularBuffer
