import Mathlib.Data.List.Basic

/-!
# Regions taken from the top of a range

Every region is taken from below the bound that the ones before it have left, and
remembers this bound; the last one taken is the first one to be given back.  The
regions lie inside the range and do not overlap.
-/

set_option autoImplicit false

namespace Foundation.RegionStack

structure Region where
  start : Nat
  size : Nat
  /-- The bound from below which the region was taken. -/
  upper : Nat

/-- The regions taken since the bound was at the top, the last one first, and the bound
that they leave. -/
inductive Stacked (top : Nat) : List Region → Nat → Prop where
  | empty : Stacked top [] top
  | take {region : Region} {regions : List Region} (rest : Stacked top regions region.upper)
      (positive : 0 < region.size) (fits : region.start + region.size ≤ region.upper) :
      Stacked top (region :: regions) region.start

variable {top bound : Nat} {regions : List Region}

theorem stacked_top (stacked : Stacked top [] bound) : bound = top := by
  cases stacked
  rfl

theorem stacked_give_back {region : Region} (stacked : Stacked top (region :: regions) bound) :
    bound = region.start ∧ Stacked top regions region.upper := by
  cases stacked with
  | take rest _ _ => exact ⟨rfl, rest⟩

theorem stacked_bound_le (stacked : Stacked top regions bound) : bound ≤ top := by
  induction stacked with
  | empty => exact Nat.le_refl top
  | take _ positive fits ih => omega

/-- Every region lies between the bound and the top. -/
theorem stacked_inside (stacked : Stacked top regions bound) :
    ∀ region ∈ regions, bound ≤ region.start ∧ 0 < region.size ∧
      region.start + region.size ≤ region.upper ∧ region.upper ≤ top := by
  induction stacked with
  | empty =>
      intro region member
      cases member
  | take rest positive fits ih =>
      intro region member
      rcases List.mem_cons.mp member with rfl | earlier
      · exact ⟨Nat.le_refl _, positive, fits, stacked_bound_le rest⟩
      · obtain ⟨above, some_size, inside, below⟩ := ih region earlier
        exact ⟨by omega, some_size, inside, below⟩

/-- A region lies below the regions taken before it. -/
theorem stacked_apart (stacked : Stacked top regions bound) :
    regions.Pairwise fun low high => low.upper ≤ high.start := by
  induction stacked with
  | empty => exact List.Pairwise.nil
  | take rest _ _ ih =>
      constructor
      · intro high earlier
        exact (stacked_inside rest high earlier).1
      · exact ih

end Foundation.RegionStack
