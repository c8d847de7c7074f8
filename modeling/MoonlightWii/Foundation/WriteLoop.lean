import Mathlib.Data.List.Range

/-!
# Writing a buffer through partial writes

The loop offers the rest of a buffer to a callee until everything is taken or
the callee fails.  The callee may take any positive part of what it is offered,
so the only thing to know about a run is how far it came.
-/

set_option autoImplicit false

namespace Foundation.WriteLoop

/-- A callee that is offered the `length` bytes behind the first `sent`.  It answers
how many it took, and a failure is not positive.  The progress `sent` grows with
each success, so it also tells the calls of one loop apart. -/
structure Writer where
  write : (sent length : Nat) → Int
  atMost : ∀ sent length, write sent length ≤ length

structure Written where
  offsets : List Nat
  complete : Bool

def writeFrom (writer : Writer) (length sent : Nat) : Written :=
  if sent < length then
    let taken := writer.write sent (length - sent)
    if taken ≤ 0 then
      ⟨[], false⟩
    else
      let rest := writeFrom writer length (sent + taken.toNat)
      ⟨List.range' sent taken.toNat ++ rest.offsets, rest.complete⟩
  else
    ⟨[], true⟩
termination_by length - sent

/-- A run writes consecutive bytes from where it starts, and all of them when it
completes. -/
theorem writeFrom_spec (writer : Writer) (length : Nat) (sent : Nat) (within : sent ≤ length) :
    ∃ count, sent + count ≤ length ∧
      (writeFrom writer length sent).offsets = List.range' sent count ∧
      ((writeFrom writer length sent).complete = true → sent + count = length) := by
  induction sent using writeFrom.induct writer length with
  | case1 sent more taken failed =>
      refine ⟨0, by omega, ?_, ?_⟩
      · rw [writeFrom, if_pos more, if_pos failed]
        rfl
      · rw [writeFrom, if_pos more, if_pos failed]
        intro complete
        exact absurd complete Bool.false_ne_true
  | case2 sent more taken positive inductionHypothesis =>
      have offered : taken ≤ (length - sent : Nat) := writer.atMost sent (length - sent)
      obtain ⟨count, bound, offsets, complete⟩ := inductionHypothesis (by omega)
      refine ⟨taken.toNat + count, by omega, ?_, ?_⟩
      · rw [writeFrom, if_pos more, if_neg positive]
        simp only [offsets, taken]
        rw [List.range'_append_1]
      · rw [writeFrom, if_pos more, if_neg positive]
        intro finished
        have reached := complete finished
        omega
  | case3 sent done =>
      refine ⟨0, by omega, ?_, ?_⟩
      · rw [writeFrom, if_neg done]
        rfl
      · intro _
        omega

/-- A callee that always takes the whole offer. -/
def eager : Writer := ⟨fun _ length => length, fun _ _ => Int.le_refl _⟩

theorem writeFrom_eager (length : Nat) :
    writeFrom eager length 0 = ⟨List.range length, true⟩ := by
  cases length with
  | zero => rw [writeFrom, if_neg (Nat.lt_irrefl 0)]; rfl
  | succ length =>
      have positive : ¬ eager.write 0 (length + 1 - 0) ≤ 0 := by
        simp only [eager]
        omega
      rw [writeFrom, if_pos (Nat.succ_pos length), if_neg positive, writeFrom, if_neg]
      · simp [eager, List.range_eq_range']
      · simp [eager]

end Foundation.WriteLoop
