import Mathlib.LinearAlgebra.Matrix.NonsingularInverse

/-!
# Gauss–Jordan elimination in place

One square array holds, in the columns of finished pivots, the row operations so far and, in the
other columns, what is left of the matrix.  Rows are exchanged to bring a pivot to the diagonal,
and the exchanges are undone on the columns at the end.
-/

set_option autoImplicit false

namespace Foundation.GaussJordan

open Matrix

universe u v

variable {F : Type u} [Field F] {Index : Type v} [Fintype Index] [DecidableEq Index]

/-- The array carries the equations of `source`, its finished unknowns solved for the rows that
`origin` names. -/
def Reduced (source stored : Matrix Index Index F) (done : Finset Index)
    (origin : Equiv.Perm Index) : Prop :=
  ∀ x, stored *ᵥ done.piecewise (fun i => -(source *ᵥ x) (origin i)) x =
    done.piecewise (-x) (fun i => (source *ᵥ x) (origin i))

theorem reduced_start (source : Matrix Index Index F) :
    Reduced source source ∅ (Equiv.refl Index) := by
  intro x
  simp

/-- Two rows that are not finished change places. -/
theorem Reduced.exchange {source stored : Matrix Index Index F} {done : Finset Index}
    {origin : Equiv.Perm Index} (holds : Reduced source stored done origin) {a b : Index}
    (a_open : a ∉ done) (b_open : b ∉ done) :
    Reduced source (fun i => stored (Equiv.swap a b i)) done (origin * Equiv.swap a b) := by
  intro x
  have kept : ∀ i ∈ done, Equiv.swap a b i = i := by
    intro i member
    refine Equiv.swap_apply_of_ne_of_ne ?_ ?_
    · rintro rfl
      exact a_open member
    · rintro rfl
      exact b_open member
  have input : done.piecewise (fun i => -(source *ᵥ x) ((origin * Equiv.swap a b) i)) x =
      done.piecewise (fun i => -(source *ᵥ x) (origin i)) x := by
    funext i
    by_cases member : i ∈ done
    · simp [member, kept i member]
    · simp [member]
  have open_iff : ∀ i, Equiv.swap a b i ∈ done ↔ i ∈ done := by
    intro i
    constructor
    · intro member
      have back := kept _ member
      rw [Equiv.swap_apply_self] at back
      exact back ▸ member
    · intro member
      rw [kept i member]
      exact member
  rw [input]
  funext i
  have row := congrFun (holds x) (Equiv.swap a b i)
  by_cases member : i ∈ done
  · simp only [mulVec, member, Finset.piecewise_eq_of_mem, Pi.neg_apply] at row ⊢
    rw [kept i member] at row ⊢
    simpa [member] using row
  · have other : Equiv.swap a b i ∉ done := fun inside => member ((open_iff i).mp inside)
    simpa [mulVec, member, other] using row

/-- The array after the column `pivot` is finished. -/
def eliminate (stored : Matrix Index Index F) (pivot : Index) : Matrix Index Index F :=
  let scaled := fun j => (stored pivot pivot)⁻¹ * if j = pivot then 1 else stored pivot j
  fun i j => if i = pivot then scaled j
    else (if j = pivot then 0 else stored i j) - stored i pivot * scaled j

theorem Reduced.pivot_row {source stored : Matrix Index Index F} {done : Finset Index}
    {origin : Equiv.Perm Index} (holds : Reduced source stored done origin) {pivot : Index}
    (is_open : pivot ∉ done) (x : Index → F) :
    ∑ j ∈ Finset.univ.erase pivot,
        stored pivot j * done.piecewise (fun i => -(source *ᵥ x) (origin i)) x j =
      (source *ᵥ x) (origin pivot) - stored pivot pivot * x pivot := by
  have row := congrFun (holds x) pivot
  simp only [mulVec, dotProduct] at row
  rw [← Finset.add_sum_erase _ _ (Finset.mem_univ pivot)] at row
  simp only [is_open, not_false_eq_true, Finset.piecewise_eq_of_notMem] at row
  simp only [mulVec, dotProduct]
  rw [← row]
  ring

omit [Field F] [Fintype Index] in
theorem piecewise_insert_of_ne (done : Finset Index) {pivot j : Index} (differs : j ≠ pivot)
    (u v : Index → F) : (insert pivot done).piecewise u v j = done.piecewise u v j := by
  simp [Finset.piecewise, differs]

/-- Finishing a column keeps the equations. -/
theorem Reduced.eliminate {source stored : Matrix Index Index F} {done : Finset Index}
    {origin : Equiv.Perm Index} (holds : Reduced source stored done origin) {pivot : Index}
    (is_open : pivot ∉ done) (nonzero : stored pivot pivot ≠ 0) :
    Reduced source (eliminate stored pivot) (insert pivot done) origin := by
  intro x
  set input := done.piecewise (fun i => -(source *ᵥ x) (origin i)) x with input_eq
  set after := (insert pivot done).piecewise (fun i => -(source *ᵥ x) (origin i)) x
    with after_eq
  have after_pivot : after pivot = -(source *ᵥ x) (origin pivot) := by
    simp [after_eq]
  have others : ∀ j, j ≠ pivot → after j = input j := by
    intro j differs
    exact piecewise_insert_of_ne done differs _ _
  have pivot_sum : ∑ j, (stored pivot pivot)⁻¹ *
      (if j = pivot then 1 else stored pivot j) * after j = -x pivot := by
    rw [← Finset.add_sum_erase _ _ (Finset.mem_univ pivot)]
    have rest : ∑ j ∈ Finset.univ.erase pivot, (stored pivot pivot)⁻¹ *
        (if j = pivot then 1 else stored pivot j) * after j =
        (stored pivot pivot)⁻¹ *
          ∑ j ∈ Finset.univ.erase pivot, stored pivot j * input j := by
      rw [Finset.mul_sum]
      refine Finset.sum_congr rfl fun j member => ?_
      have differs := Finset.ne_of_mem_erase member
      rw [if_neg differs, others j differs]
      ring
    rw [rest, holds.pivot_row is_open x, after_pivot, if_pos rfl]
    field_simp
    ring
  funext i
  by_cases here : i = pivot
  · subst here
    simpa [mulVec, dotProduct, GaussJordan.eliminate] using pivot_sum
  · have row := congrFun (holds x) i
    rw [← input_eq] at row
    have expected : (insert pivot done).piecewise (-x)
        (fun i => (source *ᵥ x) (origin i)) i = (stored *ᵥ input) i := by
      rw [row, piecewise_insert_of_ne done here]
    rw [expected]
    have split : (GaussJordan.eliminate stored pivot *ᵥ after) i =
        (∑ j, (if j = pivot then 0 else stored i j) * after j) -
          stored i pivot * ∑ j, (stored pivot pivot)⁻¹ *
            (if j = pivot then 1 else stored pivot j) * after j := by
      rw [Finset.mul_sum, ← Finset.sum_sub_distrib]
      refine Finset.sum_congr rfl fun j _ => ?_
      simp only [GaussJordan.eliminate, if_neg here]
      ring
    rw [split, pivot_sum]
    have left : ∑ j, (if j = pivot then 0 else stored i j) * after j =
        ∑ j ∈ Finset.univ.erase pivot, stored i j * input j := by
      rw [← Finset.add_sum_erase _ _ (Finset.mem_univ pivot), if_pos rfl, zero_mul, zero_add]
      refine Finset.sum_congr rfl fun j member => ?_
      have differs := Finset.ne_of_mem_erase member
      rw [if_neg differs, others j differs]
    have whole : (stored *ᵥ input) i = stored i pivot * x pivot +
        ∑ j ∈ Finset.univ.erase pivot, stored i j * input j := by
      simp only [mulVec, dotProduct]
      rw [← Finset.add_sum_erase _ _ (Finset.mem_univ pivot)]
      simp [input_eq, is_open]
    rw [left, whole]
    ring

/-- Where the open rows have only zeros in the open columns, the matrix is singular. -/
theorem Reduced.singular {source stored : Matrix Index Index F} {done : Finset Index}
    {origin : Equiv.Perm Index} (holds : Reduced source stored done origin) {row : Index}
    (row_open : row ∉ done) (zeros : ∀ column ∉ done, stored row column = 0) :
    ¬ IsUnit source := by
  intro unit
  obtain ⟨inverse, right, -⟩ := isUnit_iff_exists.mp unit
  -- the right-hand side that is 1 at the open row and 0 at every other has no solution
  have unsolvable := congrFun (holds (inverse *ᵥ Pi.single (origin row) 1)) row
  have solved : source *ᵥ inverse *ᵥ Pi.single (origin row) (1 : F) =
      Pi.single (origin row) 1 := by
    rw [mulVec_mulVec, right, one_mulVec]
  rw [solved] at unsolvable
  simp only [mulVec, dotProduct, row_open, not_false_eq_true,
    Finset.piecewise_eq_of_notMem, Pi.single_eq_same] at unsolvable
  refine one_ne_zero (unsolvable.symm.trans (Finset.sum_eq_zero fun j _ => ?_))
  by_cases member : j ∈ done
  · have differs : origin j ≠ origin row := by
      intro same
      exact row_open (origin.injective same ▸ member)
    simp [member, differs]
  · rw [zeros j member, zero_mul]

/-- With every column finished and the exchanges undone, the array is the inverse. -/
theorem Reduced.inverse {source stored : Matrix Index Index F} {origin : Equiv.Perm Index}
    (holds : Reduced source stored Finset.univ origin) :
    stored.submatrix id origin.symm * source = 1 := by
  refine ext_of_mulVec_single fun j => ?_
  rw [one_mulVec, ← mulVec_mulVec]
  funext i
  have row := congrFun (holds (Pi.single j 1)) i
  simp only [Finset.piecewise_univ, mulVec, dotProduct, Pi.neg_apply, mul_neg,
    Finset.sum_neg_distrib, neg_inj] at row
  rw [← row]
  simp only [mulVec, dotProduct, submatrix_apply, id_eq]
  exact Fintype.sum_equiv origin.symm _ _ (by simp)

end Foundation.GaussJordan
