import Mathlib.Data.List.FinRange
import MoonlightWii.Fec.ByteField
import MoonlightWii.Foundation.GaussJordan

/-!
# The inverse of a matrix of bytes

`invert_mat` of `reedsolomon/rs.c`, with its search for a pivot, its exchanges of rows, the rows
that it skips and the exchanges of columns at the end.  It reports an error for the singular
matrices and no others, and otherwise leaves the inverse.
-/

set_option autoImplicit false

namespace MoonlightWii.Fec.InvertMat

open Function ByteField Foundation.GaussJordan

variable {k : ℕ}

/-- `k` rows of `k` bytes. -/
abbrev Square (k : ℕ) : Type := Fin k → Fin k → Gf

/-- `addmul` on `sz` bytes. -/
def addmul {sz : ℕ} (dst1 src1 : Fin sz → Gf) (c : Gf) : Fin sz → Gf :=
  if c ≠ 0 then fun i => dst1 i + gf_mul c (src1 i) else dst1

/-- The variables that live across the passes over the columns. -/
structure Elimination (k : ℕ) where
  src : Square k
  ipiv : Fin k → ℕ
  /-- `indxr[col]` and `indxc[col]`, column by column. -/
  indx : List (Fin k × Fin k)

/-- How a search ends: at its last element, at `found_piv` or at `fail`. -/
inductive Search (k : ℕ) where
  | exhausted
  | found_piv (irow icol : Fin k)
  | fail

def searchRow (st : Elimination k) (row : Fin k) : List (Fin k) → Search k
  | [] => .exhausted
  | ix :: rest =>
    if st.ipiv ix = 0 then
      if st.src row ix ≠ 0 then .found_piv row ix else searchRow st row rest
    else if 1 < st.ipiv ix then .fail
    else searchRow st row rest

def searchRows (st : Elimination k) : List (Fin k) → Search k
  | [] => .exhausted
  | row :: rest =>
    if st.ipiv row ≠ 1 then
      match searchRow st row (List.finRange k) with
      | .exhausted => searchRows st rest
      | .found_piv irow icol => .found_piv irow icol
      | .fail => .fail
    else searchRows st rest

/-- First the diagonal, then everything. -/
def findPivot (st : Elimination k) (col : Fin k) : Search k :=
  if st.ipiv col ≠ 1 ∧ st.src col col ≠ 0 then .found_piv col col
  else searchRows st (List.finRange k)

/-- From `found_piv` to the pivot on the diagonal. -/
def placePivot (st : Elimination k) (irow icol : Fin k) : Elimination k where
  src := if irow ≠ icol then update (update st.src irow (st.src icol)) icol (st.src irow)
    else st.src
  ipiv := update st.ipiv icol (st.ipiv icol + 1)
  indx := st.indx ++ [(irow, icol)]

/-- The pivot row divided by its pivot. -/
def scalePivot (src : Square k) (icol : Fin k) : Square k :=
  let c := src icol icol
  if c ≠ 1 then update src icol fun ix => gf_mul (gf_inverse c) (update (src icol) icol 1 ix)
  else src

/-- The multiples of the pivot row taken from the others, unless it is that of the identity. -/
def clearColumn (src : Square k) (icol : Fin k) : Square k :=
  let pivot_row := src icol
  if pivot_row ≠ Pi.single icol 1 then
    fun ix => if ix ≠ icol then addmul (update (src ix) icol 0) pivot_row (src ix icol)
      else src ix
  else src

/-- The passes over the columns, and whether they ended at `fail`. -/
def eliminateColumns (st : Elimination k) : List (Fin k) → Bool × Elimination k
  | [] => (false, st)
  | col :: rest =>
    match findPivot st col with
    | .found_piv irow icol =>
      let st := placePivot st irow icol
      if st.src icol icol = 0 then (true, st)
      else eliminateColumns { st with src := clearColumn (scalePivot st.src icol) icol } rest
    | .exhausted => (true, st)
    | .fail => (true, st)

/-- One exchange of columns. -/
def swapColumns (src : Square k) (pair : Fin k × Fin k) :
    Square k :=
  if pair.1 ≠ pair.2 then
    fun row => update (update (src row) pair.1 (src row pair.2)) pair.2 (src row pair.1)
  else src

/-- `invert_mat`: its result and what it leaves in the array. -/
def invert_mat (src : Square k) : ℕ × Square k :=
  let (failed, st) := eliminateColumns ⟨src, fun _ => 0, []⟩ (List.finRange k)
  if failed then (1, st.src) else (0, st.indx.reverse.foldl swapColumns st.src)

section Search

theorem searchRow_found {st : Elimination k} {row irow icol : Fin k} {places : List (Fin k)}
    (found : searchRow st row places = .found_piv irow icol) :
    irow = row ∧ st.ipiv icol = 0 ∧ st.src row icol ≠ 0 := by
  induction places with
  | nil => cases found
  | cons ix rest ih =>
      rw [searchRow] at found
      split_ifs at found with unused nonzero twice
      · cases found
        exact ⟨rfl, unused, nonzero⟩
      · exact ih found
      · exact ih found

theorem searchRow_exhausted {st : Elimination k} {row : Fin k} {places : List (Fin k)}
    (exhausted : searchRow st row places = .exhausted) :
    ∀ ix ∈ places, st.ipiv ix = 0 → st.src row ix = 0 := by
  induction places with
  | nil => simp
  | cons ix rest ih =>
      rw [searchRow] at exhausted
      split_ifs at exhausted with unused zero twice
      · exact List.forall_mem_cons.mpr ⟨fun _ => not_not.mp zero, ih exhausted⟩
      · exact List.forall_mem_cons.mpr ⟨fun here => absurd here unused, ih exhausted⟩

theorem searchRow_fail {st : Elimination k} {row : Fin k} {places : List (Fin k)}
    (fails : searchRow st row places = .fail) : ∃ ix, 1 < st.ipiv ix := by
  induction places with
  | nil => cases fails
  | cons ix rest ih =>
      rw [searchRow] at fails
      split_ifs at fails with unused nonzero twice
      · exact ih fails
      · exact ⟨ix, twice⟩
      · exact ih fails

theorem searchRows_found {st : Elimination k} {irow icol : Fin k} {rows : List (Fin k)}
    (found : searchRows st rows = .found_piv irow icol) :
    st.ipiv irow ≠ 1 ∧ st.ipiv icol = 0 ∧ st.src irow icol ≠ 0 := by
  induction rows with
  | nil => cases found
  | cons row rest ih =>
      rw [searchRows] at found
      split_ifs at found with unused
      · cases here : searchRow st row (List.finRange k) with
        | exhausted =>
            rw [here] at found
            exact ih found
        | found_piv irow icol =>
            rw [here] at found
            cases found
            obtain ⟨rfl, open_column, nonzero⟩ := searchRow_found here
            exact ⟨unused, open_column, nonzero⟩
        | fail =>
            rw [here] at found
            cases found
      · exact ih found

theorem searchRows_exhausted {st : Elimination k} {rows : List (Fin k)}
    (exhausted : searchRows st rows = .exhausted) :
    ∀ row ∈ rows, st.ipiv row ≠ 1 → ∀ ix, st.ipiv ix = 0 → st.src row ix = 0 := by
  induction rows with
  | nil => simp
  | cons row rest ih =>
      rw [searchRows] at exhausted
      split_ifs at exhausted with unused
      · cases here : searchRow st row (List.finRange k) with
        | exhausted =>
            rw [here] at exhausted
            refine List.forall_mem_cons.mpr ⟨fun _ ix => ?_, ih exhausted⟩
            exact searchRow_exhausted here ix (List.mem_finRange ix)
        | found_piv irow icol =>
            rw [here] at exhausted
            cases exhausted
        | fail =>
            rw [here] at exhausted
            cases exhausted
      · exact List.forall_mem_cons.mpr ⟨fun other => absurd other unused, ih exhausted⟩

theorem searchRows_fail {st : Elimination k} {rows : List (Fin k)}
    (fails : searchRows st rows = .fail) : ∃ ix, 1 < st.ipiv ix := by
  induction rows with
  | nil => cases fails
  | cons row rest ih =>
      rw [searchRows] at fails
      split_ifs at fails with unused
      · cases here : searchRow st row (List.finRange k) with
        | exhausted =>
            rw [here] at fails
            exact ih fails
        | found_piv irow icol =>
            rw [here] at fails
            cases fails
        | fail => exact searchRow_fail here
      · exact ih fails

end Search

section Passes

theorem addmul_eq {sz : ℕ} (dst1 src1 : Fin sz → Gf) (c : Gf) (i : Fin sz) :
    addmul dst1 src1 c i = dst1 i + c * src1 i := by
  unfold addmul
  split_ifs with nonzero
  · exact congrArg (dst1 i + ·) (gf_mul_eq c (src1 i))
  · rw [not_not.mp nonzero, zero_mul, add_zero]

theorem sub_eq (x y : Gf) : x - y = x + y := by
  rw [sub_eq_add_neg, neg_eq]

/-- The places of the pivots so far are marked, and the array is reduced at them. -/
structure Invariant (source : Square k) (st : Elimination k)
    (done : Finset (Fin k)) : Prop where
  marks : ∀ i, st.ipiv i = if i ∈ done then 1 else 0
  reduced : Reduced (Matrix.of source) (Matrix.of st.src) done
    (st.indx.map fun pair => Equiv.swap pair.1 pair.2).prod

theorem placePivot_src (st : Elimination k) (irow icol : Fin k) :
    (placePivot st irow icol).src = fun i => st.src (Equiv.swap irow icol i) := by
  funext i
  unfold placePivot
  dsimp only
  split_ifs with apart
  · rw [Equiv.swap_apply_def, update_apply, update_apply]
    split_ifs with at_column at_row at_row
    · rw [← at_row, at_column]
    · rfl
    · rfl
    · rfl
  · rw [not_not.mp apart, Equiv.swap_self]
    rfl

theorem scalePivot_row (src : Square k) (icol : Fin k) :
    scalePivot src icol icol =
      fun j => (src icol icol)⁻¹ * if j = icol then 1 else src icol j := by
  funext j
  by_cases one : src icol icol = 1
  · have unchanged : scalePivot src icol = src := if_neg (not_not.mpr one)
    rw [unchanged, one, inv_one, one_mul]
    split_ifs with here
    · rw [here, one]
    · rfl
  · have divided : scalePivot src icol = update src icol fun ix =>
        gf_mul (gf_inverse (src icol icol)) (update (src icol) icol 1 ix) := if_pos one
    rw [divided, update_self, gf_mul_eq, gf_inverse_eq, update_apply]

theorem scalePivot_other (src : Square k) {icol i : Fin k} (other : i ≠ icol) :
    scalePivot src icol i = src i := by
  by_cases one : src icol icol = 1
  · exact congrFun (if_neg (not_not.mpr one)) i
  · have divided : scalePivot src icol = update src icol fun ix =>
        gf_mul (gf_inverse (src icol icol)) (update (src icol) icol 1 ix) := if_pos one
    rw [divided, update_of_ne other]

theorem clearColumn_pivot (src : Square k) (icol : Fin k) :
    clearColumn src icol icol = src icol := by
  unfold clearColumn
  split_ifs
  · exact if_neg (not_not.mpr rfl)
  · rfl

/-- Leaving the other rows as they are under a row of the identity is right because every element
is its own negative. -/
theorem clearColumn_other (src : Square k) {icol i : Fin k} (other : i ≠ icol) (j : Fin k) :
    clearColumn src icol i j = (if j = icol then 0 else src i j) + src i icol * src icol j := by
  by_cases identity : src icol = Pi.single icol 1
  · have unchanged : clearColumn src icol = src := if_neg (not_not.mpr identity)
    rw [unchanged, identity]
    by_cases here : j = icol
    · rw [here, if_pos rfl, Pi.single_eq_same, mul_one, zero_add]
    · rw [if_neg here, Pi.single_eq_of_ne here, mul_zero, add_zero]
  · have cleared : clearColumn src icol i =
        addmul (update (src i) icol 0) (src icol) (src i icol) := by
      unfold clearColumn
      rw [if_pos identity]
      exact if_pos other
    rw [cleared, addmul_eq, update_apply]

/-- A pass does what elimination in place asks for. -/
theorem clearColumn_eq (src : Square k) (icol : Fin k) :
    Matrix.of (clearColumn (scalePivot src icol) icol) = eliminate (Matrix.of src) icol := by
  funext i j
  have scaled := scalePivot_row src icol
  by_cases here : i = icol
  · subst here
    rw [Matrix.of_apply, clearColumn_pivot, scaled]
    exact (if_pos rfl).symm
  · rw [Matrix.of_apply, clearColumn_other _ here, scalePivot_other src here, scaled]
    unfold eliminate
    dsimp only
    rw [if_neg here, sub_eq]
    rfl

theorem Invariant.start (source : Square k) : Invariant source ⟨source, fun _ => 0, []⟩ ∅ where
  marks i := by simp
  reduced := reduced_start (Matrix.of source)

theorem Invariant.found {source : Square k} {st : Elimination k} {done : Finset (Fin k)}
    (holds : Invariant source st done) {col irow icol : Fin k}
    (found : findPivot st col = .found_piv irow icol) :
    irow ∉ done ∧ icol ∉ done ∧ st.src irow icol ≠ 0 := by
  have row_open : ∀ i, st.ipiv i ≠ 1 → i ∉ done := by
    intro i unused inside
    exact unused ((holds.marks i).trans (if_pos inside))
  have column_open : ∀ i, st.ipiv i = 0 → i ∉ done :=
    fun i unused => row_open i (by omega)
  unfold findPivot at found
  split_ifs at found with diagonal
  · cases found
    exact ⟨row_open _ diagonal.1, row_open _ diagonal.1, diagonal.2⟩
  · obtain ⟨row, column, nonzero⟩ := searchRows_found found
    exact ⟨row_open _ row, column_open _ column, nonzero⟩

/-- The search never meets a column counted twice. -/
theorem Invariant.not_fail {source : Square k} {st : Elimination k} {done : Finset (Fin k)}
    (holds : Invariant source st done) (col : Fin k) : findPivot st col ≠ .fail := by
  intro fails
  unfold findPivot at fails
  split_ifs at fails
  obtain ⟨ix, twice⟩ := searchRows_fail fails
  have marked := holds.marks ix
  split_ifs at marked <;> omega

/-- A search without a result shows that the matrix is singular. -/
theorem Invariant.exhausted {source : Square k} {st : Elimination k} {done : Finset (Fin k)}
    (holds : Invariant source st done) (open_left : done.card < k) {col : Fin k}
    (exhausted : findPivot st col = .exhausted) : ¬ IsUnit (Matrix.of source) := by
  obtain ⟨row, row_open⟩ : ∃ row, row ∉ done := by
    by_contra none
    have all : done = Finset.univ := Finset.eq_univ_iff_forall.mpr (not_exists_not.mp none)
    rw [all, Finset.card_fin] at open_left
    exact lt_irrefl k open_left
  unfold findPivot at exhausted
  split_ifs at exhausted
  refine holds.reduced.singular row_open fun column column_open => ?_
  refine searchRows_exhausted exhausted row (List.mem_finRange row) ?_ column ?_
  · rw [holds.marks, if_neg row_open]
    decide
  · rw [holds.marks, if_neg column_open]

/-- The pivot found is not zero once it is in its place. -/
theorem placePivot_pivot (st : Elimination k) (irow icol : Fin k) :
    (placePivot st irow icol).src icol icol = st.src irow icol := by
  rw [placePivot_src]
  exact congrArg (fun i => st.src i icol) (Equiv.swap_apply_right irow icol)

theorem Invariant.pass {source : Square k} {st : Elimination k} {done : Finset (Fin k)}
    (holds : Invariant source st done) {irow icol : Fin k} (row_open : irow ∉ done)
    (column_open : icol ∉ done) (nonzero : st.src irow icol ≠ 0) :
    Invariant source { placePivot st irow icol with
      src := clearColumn (scalePivot (placePivot st irow icol).src icol) icol }
      (insert icol done) where
  marks i := by
    change update st.ipiv icol (st.ipiv icol + 1) i = _
    rw [update_apply, holds.marks, holds.marks, if_neg column_open]
    by_cases here : i = icol
    · rw [if_pos here, if_pos (Finset.mem_insert.mpr (Or.inl here))]
    · rw [if_neg here]
      congr 1
      rw [Finset.mem_insert, eq_iff_iff]
      exact (or_iff_right here).symm
  reduced := by
    have exchanged := holds.reduced.exchange row_open column_open
    have pivot : Matrix.of (placePivot st irow icol).src icol icol ≠ 0 := by
      rw [Matrix.of_apply, placePivot_pivot]
      exact nonzero
    have placed : Reduced (Matrix.of source) (Matrix.of (placePivot st irow icol).src) done
        ((st.indx.map fun pair => Equiv.swap pair.1 pair.2).prod * Equiv.swap irow icol) := by
      rw [placePivot_src]
      exact exchanged
    have finished := placed.eliminate column_open pivot
    rw [← clearColumn_eq] at finished
    have indx : (placePivot st irow icol).indx = st.indx ++ [(irow, icol)] := rfl
    rw [indx, List.map_append, List.prod_append]
    simpa using finished

end Passes

section Result

theorem swapColumns_eq (src : Square k) (pair : Fin k × Fin k) :
    swapColumns src pair = fun row column => src row (Equiv.swap pair.1 pair.2 column) := by
  obtain ⟨a, b⟩ := pair
  funext row column
  unfold swapColumns
  dsimp only
  split_ifs with apart
  · rw [Equiv.swap_apply_def]
    change update (update (src row) a (src row b)) b (src row a) column = _
    rw [update_apply, update_apply]
    split_ifs with at_b at_a at_a
    · rw [← at_a, at_b]
    · rfl
    · rfl
    · rfl
  · rw [not_not.mp apart, Equiv.swap_self]
    rfl

/-- The exchanges of columns undo those of the rows. -/
theorem foldl_swapColumns (indx : List (Fin k × Fin k)) (src : Square k) :
    indx.reverse.foldl swapColumns src = fun row column =>
      src row ((indx.map fun pair => Equiv.swap pair.1 pair.2).prod.symm column) := by
  induction indx with
  | nil => rfl
  | cons pair indx ih =>
      rw [List.reverse_cons, List.foldl_append, ih, List.foldl_cons, List.foldl_nil,
        swapColumns_eq, List.map_cons, List.prod_cons]
      funext row column
      have back : ((Equiv.swap pair.1 pair.2 *
          (indx.map fun pair => Equiv.swap pair.1 pair.2).prod).symm) column =
          (indx.map fun pair => Equiv.swap pair.1 pair.2).prod.symm
            (Equiv.swap pair.1 pair.2 column) := by
        rw [Equiv.symm_apply_eq, Equiv.Perm.mul_apply, Equiv.apply_symm_apply,
          Equiv.swap_apply_self]
      rw [back]

theorem eliminateColumns_spec {source : Square k} (cols : List (Fin k)) {st : Elimination k}
    {done : Finset (Fin k)} (holds : Invariant source st done)
    (left : done.card + cols.length = k) :
    ((eliminateColumns st cols).1 = true ∧ ¬ IsUnit (Matrix.of source)) ∨
      (eliminateColumns st cols).1 = false ∧
        Invariant source (eliminateColumns st cols).2 Finset.univ := by
  induction cols generalizing st done with
  | nil =>
      have all : done = Finset.univ :=
        (Finset.card_eq_iff_eq_univ done).mp (by simpa using left)
      exact Or.inr ⟨rfl, all ▸ holds⟩
  | cons col rest ih =>
      rw [List.length_cons] at left
      rw [eliminateColumns]
      cases search : findPivot st col with
      | exhausted => exact Or.inl ⟨rfl, holds.exhausted (by omega) search⟩
      | fail => exact absurd search (holds.not_fail col)
      | found_piv irow icol =>
          obtain ⟨row_open, column_open, nonzero⟩ := holds.found search
          have pivot : (placePivot st irow icol).src icol icol ≠ 0 := by
            rw [placePivot_pivot]
            exact nonzero
          dsimp only
          rw [if_neg pivot]
          refine ih (holds.pass row_open column_open nonzero) ?_
          rw [Finset.card_insert_of_notMem column_open]
          omega

/-- The matrices that have an inverse are inverted, and the others are reported. -/
theorem invert_mat_spec (src : Square k) :
    ((invert_mat src).1 = 0 ↔ IsUnit (Matrix.of src)) ∧
      ((invert_mat src).1 = 0 →
        Matrix.of (invert_mat src).2 * Matrix.of src = 1) := by
  have whole := eliminateColumns_spec (List.finRange k) (Invariant.start src) (by simp)
  unfold invert_mat
  generalize eliminateColumns ⟨src, fun _ => 0, []⟩ (List.finRange k) = run at whole ⊢
  obtain ⟨failed, st⟩ := run
  rcases whole with ⟨rfl, singular⟩ | ⟨rfl, holds⟩
  · exact ⟨⟨fun error => absurd error Nat.one_ne_zero, fun unit => absurd unit singular⟩,
      fun error => absurd error Nat.one_ne_zero⟩
  · have inverse : Matrix.of (st.indx.reverse.foldl swapColumns st.src) * Matrix.of src = 1 := by
      rw [foldl_swapColumns]
      exact holds.reduced.inverse
    exact ⟨⟨fun _ => IsUnit.of_mul_eq_one_right _ inverse, fun _ => rfl⟩, fun _ => inverse⟩

/-- Exactly the matrices that have an inverse are accepted.  What is left of one of them is its
inverse on both sides, and inverting again brings the matrix back. -/
theorem invert_mat_twice (src : Square k) :
    ((invert_mat src).1 = 0 ↔ IsUnit (Matrix.of src)) ∧
      ((invert_mat src).1 = 0 →
        Matrix.of (invert_mat src).2 * Matrix.of src = 1 ∧
          Matrix.of src * Matrix.of (invert_mat src).2 = 1 ∧
          invert_mat (invert_mat src).2 = (0, src)) := by
  obtain ⟨accepted, inverse⟩ := invert_mat_spec src
  refine ⟨accepted, fun done => ?_⟩
  have left := inverse done
  have right := mul_eq_one_comm.mp left
  obtain ⟨accepted_again, inverse_again⟩ := invert_mat_spec (invert_mat src).2
  have done_again := accepted_again.mpr (IsUnit.of_mul_eq_one_right _ right)
  refine ⟨left, right, Prod.ext done_again ?_⟩
  have same : Matrix.of (invert_mat (invert_mat src).2).2 = Matrix.of src :=
    left_inv_eq_right_inv (inverse_again done_again) left
  exact same

end Result

end MoonlightWii.Fec.InvertMat
