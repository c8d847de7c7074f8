import Mathlib.Data.List.Basic

/-!
# Counted loops

`for (i = first; i < last; i++)` over a state, and its invariant rule.
-/

set_option autoImplicit false

namespace Foundation.CountedLoop

universe u

variable {σ : Type u}

def loop (first last : Nat) (body : σ → Nat → σ) (state : σ) : σ :=
  (List.range' first (last - first)).foldl body state

theorem loop_stop {first last : Nat} (stop : last ≤ first) (body : σ → Nat → σ) (state : σ) :
    loop first last body state = state := by
  simp [loop, Nat.sub_eq_zero_of_le stop]

/-- The last pass of a loop. -/
theorem loop_succ {first last : Nat} (within : first ≤ last) (body : σ → Nat → σ) (state : σ) :
    loop first (last + 1) body state = body (loop first last body state) last := by
  have count : last + 1 - first = last - first + 1 := Nat.succ_sub within
  have place : first + 1 * (last - first) = last := by omega
  rw [loop, count, List.range'_concat, List.foldl_append, place]
  rfl

/-- What holds before the loop and is kept by each pass holds after it. -/
theorem loop_invariant (holds : Nat → σ → Prop) {first last : Nat} (within : first ≤ last)
    {body : σ → Nat → σ} {state : σ} (start : holds first state)
    (pass : ∀ i state, first ≤ i → i < last → holds i state → holds (i + 1) (body state i)) :
    holds last (loop first last body state) := by
  obtain ⟨count, rfl⟩ := Nat.exists_eq_add_of_le within
  clear within
  induction count with
  | zero =>
      rw [Nat.add_zero, loop_stop (Nat.le_refl first)]
      exact start
  | succ count ih =>
      have before := ih fun i state low high => pass i state low (Nat.lt_succ_of_lt high)
      rw [← Nat.add_assoc, loop_succ (Nat.le_add_right first count)]
      exact pass (first + count) _ (Nat.le_add_right first count) (Nat.lt_succ_self _) before

end Foundation.CountedLoop
