import Mathlib.Data.Nat.Init

/-!
# Serial numbers

Numbers that wrap around are compared by the shorter way round.  Seen from an origin, numbers
less than half of the range ahead of it are in the order of their distances.
-/

set_option autoImplicit false

namespace Foundation.SerialNumber

/-- `x` is reached from `y` by going back at most half of the range. -/
def before (size x y : Nat) : Prop := size / 2 ≤ (x + (size - y)) % size

instance (size x y : Nat) : Decidable (before size x y) := inferInstanceAs (Decidable (_ ≤ _))

/-- How far `x` is ahead of `origin`. -/
def ahead (size origin x : Nat) : Nat := (x + (size - origin)) % size

theorem ahead_cases {size origin x : Nat} (origin_lt : origin < size) (x_lt : x < size) :
    (origin ≤ x ∧ ahead size origin x = x - origin) ∨
      (x < origin ∧ ahead size origin x = x + (size - origin)) := by
  unfold ahead
  by_cases wraps : origin ≤ x
  · have past : x + (size - origin) = size + (x - origin) := by omega
    exact Or.inl ⟨wraps, by rw [past, Nat.add_mod_left, Nat.mod_eq_of_lt (by omega)]⟩
  · exact Or.inr ⟨by omega, Nat.mod_eq_of_lt (by omega)⟩

theorem ahead_self {size origin : Nat} (origin_lt : origin < size) :
    ahead size origin origin = 0 := by
  rcases ahead_cases origin_lt origin_lt with ⟨-, here⟩ | ⟨impossible, -⟩
  · rw [here, Nat.sub_self]
  · exact absurd impossible (Nat.lt_irrefl _)

theorem before_iff_ahead (size x y : Nat) : before size x y ↔ size / 2 ≤ ahead size y x :=
  Iff.rfl

/-- Within half of the range of an origin, serial order is the order of the distances. -/
theorem before_iff_lt {size origin x y : Nat} (origin_lt : origin < size) (x_lt : x < size)
    (y_lt : y < size) (x_near : ahead size origin x < size / 2)
    (y_near : ahead size origin y < size / 2) :
    before size x y ↔ ahead size origin x < ahead size origin y := by
  rw [before_iff_ahead]
  rcases ahead_cases origin_lt x_lt with ⟨hx, dx⟩ | ⟨hx, dx⟩ <;>
    rcases ahead_cases origin_lt y_lt with ⟨hy, dy⟩ | ⟨hy, dy⟩ <;>
    rcases ahead_cases y_lt x_lt with ⟨hxy, dxy⟩ | ⟨hxy, dxy⟩ <;>
    rw [dxy] <;> omega

end Foundation.SerialNumber
