import Mathlib.Tactic.Ring
import Mathlib.Order.Interval.Set.Basic

/-!
# Integers with a range

Arithmetic on integers of a fixed range that has no result where the exact result is
outside, and no result for a division by zero.
-/

set_option autoImplicit false

namespace Foundation.CheckedInt

structure Range where
  low : Int
  high : Int

def Range.Fits (range : Range) (n : Int) : Prop := range.low ≤ n ∧ n ≤ range.high

instance (range : Range) (n : Int) : Decidable (range.Fits n) :=
  inferInstanceAs (Decidable (range.low ≤ n ∧ n ≤ range.high))

variable (range : Range)

def checked (n : Int) : Option Int := if range.Fits n then some n else none

def add (a b : Int) : Option Int := checked range (a + b)

def sub (a b : Int) : Option Int := checked range (a - b)

def mul (a b : Int) : Option Int := checked range (a * b)

/-- The quotient rounded towards zero. -/
def quot (a b : Int) : Option Int := if b = 0 then none else checked range (a.tdiv b)

theorem checked_eq_some {n result : Int} :
    checked range n = some result ↔ range.Fits n ∧ n = result := by
  rw [checked]
  by_cases fits : range.Fits n
  · rw [if_pos fits]
    exact ⟨fun same => ⟨fits, Option.some.inj same⟩, fun same => congrArg some same.2⟩
  · rw [if_neg fits]
    exact ⟨fun missing => absurd missing (Option.some_ne_none result).symm,
      fun both => absurd both.1 fits⟩

theorem add_eq_some {a b result : Int} :
    add range a b = some result ↔ range.Fits (a + b) ∧ a + b = result := checked_eq_some range

theorem sub_eq_some {a b result : Int} :
    sub range a b = some result ↔ range.Fits (a - b) ∧ a - b = result := checked_eq_some range

theorem mul_eq_some {a b result : Int} :
    mul range a b = some result ↔ range.Fits (a * b) ∧ a * b = result := checked_eq_some range

/-- For numbers that are not negative the quotient is the one of Euclid. -/
theorem quot_eq_some {a b result : Int} (nonneg : 0 ≤ a) (pos : 0 < b) :
    quot range a b = some result ↔ range.Fits (a / b) ∧ a / b = result := by
  rw [quot, if_neg (ne_of_gt pos), Int.tdiv_eq_ediv_of_nonneg nonneg]
  exact checked_eq_some range

end Foundation.CheckedInt
