import Mathlib.Data.List.Basic

/-!
# Cutting a stream into blocks

The full blocks of `size` cells at the front of a stream, in stream order.  What
does not fill a block stays behind.  A producer that has packed part of a stream
into full blocks has produced a prefix of this cut.
-/

set_option autoImplicit false

namespace Foundation.Blocks

universe u

variable {α : Type u}

def blocks (size : Nat) (stream : List α) : List (List α) :=
  (List.range (stream.length / size)).map fun index => (stream.drop (index * size)).take size

theorem blocks_append (size : Nat) (positive : 0 < size) (block rest : List α)
    (full : block.length = size) : blocks size (block ++ rest) = block :: blocks size rest := by
  have pieces : (block ++ rest).length / size = rest.length / size + 1 := by
    rw [List.length_append, full, Nat.add_comm]
    exact Nat.add_div_right rest.length positive
  unfold blocks
  rw [pieces, List.range_succ_eq_map, List.map_cons, List.map_map]
  congr 1
  · rw [Nat.zero_mul, List.drop_zero]
    exact List.take_left' full
  · apply List.map_congr_left
    intro index _
    simp only [Function.comp_apply]
    congr 1
    have shift : (index + 1) * size = block.length + index * size := by
      rw [full, Nat.succ_mul, Nat.add_comm]
    rw [shift, List.drop_append, List.drop_eq_nil_of_le (by omega), List.nil_append]
    congr 1
    omega

/-- Whatever packs a stream into full blocks and a rest follows the cut. -/
theorem prefix_blocks (size : Nat) (positive : 0 < size) (packed : List (List α))
    (rest : List α) (full : ∀ block, block ∈ packed → block.length = size) :
    packed <+: blocks size (packed.flatten ++ rest) := by
  induction packed with
  | nil => exact List.nil_prefix
  | cons block later ih =>
      rw [List.flatten_cons, List.append_assoc,
        blocks_append size positive block _ (full block List.mem_cons_self)]
      have follows := ih fun other member => full other (List.mem_cons_of_mem block member)
      exact List.cons_prefix_cons.mpr ⟨rfl, follows⟩

/-- Full blocks and a rest that fills none are determined by what they hold. -/
theorem packed_unique {size : Nat} {packed other : List (List α)} {rest tail : List α}
    (full : ∀ block ∈ packed, block.length = size) (otherFull : ∀ block ∈ other, block.length = size)
    (short : rest.length < size) (otherShort : tail.length < size)
    (same : packed.flatten ++ rest = other.flatten ++ tail) : packed = other ∧ rest = tail := by
  induction packed generalizing other with
  | nil =>
      cases other with
      | nil => exact ⟨rfl, same⟩
      | cons block other =>
          have length := congrArg List.length same
          have filled := otherFull block List.mem_cons_self
          simp only [List.flatten_nil, List.nil_append, List.flatten_cons, List.length_append]
            at length
          omega
  | cons block packed ih =>
      cases other with
      | nil =>
          have length := congrArg List.length same
          have filled := full block List.mem_cons_self
          simp only [List.flatten_nil, List.nil_append, List.flatten_cons, List.length_append]
            at length
          omega
      | cons first other =>
          rw [List.flatten_cons, List.flatten_cons, List.append_assoc, List.append_assoc] at same
          have lengths : block.length = first.length :=
            (full block List.mem_cons_self).trans (otherFull first List.mem_cons_self).symm
          obtain ⟨rfl, later⟩ := List.append_inj same lengths
          obtain ⟨rfl, rfl⟩ := ih (fun b member => full b (List.mem_cons_of_mem _ member))
            (fun b member => otherFull b (List.mem_cons_of_mem _ member)) later
          exact ⟨rfl, rfl⟩

end Foundation.Blocks
