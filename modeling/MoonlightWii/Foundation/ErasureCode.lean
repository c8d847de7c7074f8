import Mathlib.LinearAlgebra.Lagrange
import Mathlib.LinearAlgebra.Matrix.NonsingularInverse
import Mathlib.Tactic.LinearCombination

/-!
# Parity that recovers any loss

A parity matrix over a field is strong if every choice of columns and of at least as many rows
determines the columns' entries.  Then as many lost symbols as there are parity symbols at hand
are determined by what is left.  A Cauchy matrix is strong.
-/

set_option autoImplicit false

namespace Foundation.ErasureCode

open Polynomial

universe u v w

variable {F : Type u} [Field F] {Row : Type v} {Column : Type w}

/-- No combination of columns vanishes on as many rows. -/
def Strong (parity : Row → Column → F) : Prop :=
  ∀ (rows : Finset Row) (columns : Finset Column) (entry : Column → F),
    columns.card ≤ rows.card →
    (∀ row ∈ rows, ∑ column ∈ columns, parity row column * entry column = 0) →
      ∀ column ∈ columns, entry column = 0

theorem Strong.entry_ne_zero {parity : Row → Column → F} (strong : Strong parity)
    (row : Row) (column : Column) : parity row column ≠ 0 := by
  intro vanishes
  have trivial_combination : (fun _ : Column => (1 : F)) column = 0 := by
    apply strong {row} {column} (fun _ => 1) (by simp) _ column (by simp)
    intro other member
    have same : other = row := by simpa using member
    simp [same, vanishes]
  exact one_ne_zero trivial_combination

/-- Two rows are strong when no entry and no minor of two columns vanishes. -/
theorem strong_of_two_rows [DecidableEq Column] {parity : Fin 2 → Column → F}
    (entries : ∀ row column, parity row column ≠ 0)
    (minors : ∀ c d, c ≠ d → parity 0 c * parity 1 d ≠ parity 0 d * parity 1 c) :
    Strong parity := by
  intro rows columns entry enough combination
  have few : rows.card ≤ 2 := rows.card_le_univ
  rcases Nat.lt_or_ge columns.card 2 with less | two
  · intro column member
    have single : columns = {column} :=
      Finset.eq_singleton_iff_unique_mem.mpr ⟨member, fun other inside =>
        Finset.card_le_one.mp (Nat.le_of_lt_succ less) other inside column member⟩
    obtain ⟨row, inside⟩ : rows.Nonempty := by
      rw [single, Finset.card_singleton] at enough
      exact Finset.card_pos.mp enough
    have term := combination row inside
    rw [single, Finset.sum_singleton] at term
    exact (mul_eq_zero.mp term).resolve_left (entries row column)
  · have all : rows = Finset.univ :=
      Finset.eq_univ_of_card rows (Nat.le_antisymm few (two.trans enough))
    obtain ⟨c, d, differ, pair⟩ := Finset.card_eq_two.mp (Nat.le_antisymm (enough.trans few) two)
    have sums : ∀ row, parity row c * entry c + parity row d * entry d = 0 := by
      intro row
      have term := combination row (all ▸ Finset.mem_univ row)
      rwa [pair, Finset.sum_pair differ] at term
    have first := sums 0
    have second := sums 1
    have minor := sub_ne_zero.mpr (minors c d differ)
    have at_c : entry c = 0 := by
      refine (mul_eq_zero.mp ?_).resolve_left minor
      linear_combination parity 1 d * first - parity 0 d * second
    have at_d : entry d = 0 := by
      refine (mul_eq_zero.mp ?_).resolve_left minor
      linear_combination parity 0 c * second - parity 1 c * first
    intro column member
    rw [pair, Finset.mem_insert, Finset.mem_singleton] at member
    rcases member with rfl | rfl
    · exact at_c
    · exact at_d

section Systematic

variable [Fintype Column] [DecidableEq Column]

/-- The symbols themselves above their parity. -/
def systematic (parity : Row → Column → F) : Column ⊕ Row → Column → F :=
  Sum.elim (fun symbol => Pi.single symbol 1) parity

theorem systematic_symbol (parity : Row → Column → F) (symbol : Column) (entry : Column → F) :
    ∑ column, systematic parity (Sum.inl symbol) column * entry column = entry symbol := by
  simp [systematic, Pi.single_apply]

/-- As many zeros as there are columns, among the coded symbols and other places of the entry,
leave only zero. -/
theorem Strong.eq_zero {parity : Row → Column → F} (strong : Strong parity)
    (selected : Finset (Column ⊕ Row)) (places : Finset Column) {entry : Column → F}
    (coded : ∀ symbol ∈ selected, ∑ column, systematic parity symbol column * entry column = 0)
    (zeros : ∀ place ∈ places, entry place = 0)
    (apart : ∀ place ∈ places, Sum.inl place ∉ selected)
    (enough : Fintype.card Column ≤ selected.card + places.card) : entry = 0 := by
  have symbols : ∀ column ∈ selected.toLeft ∪ places, entry column = 0 := by
    intro column member
    rcases Finset.mem_union.mp member with symbol | place
    · have zero := coded _ (Finset.mem_toLeft.mp symbol)
      rwa [systematic_symbol] at zero
    · exact zeros column place
  have disjoint : Disjoint selected.toLeft places := by
    rw [Finset.disjoint_right]
    intro place member symbol
    exact apart place member (Finset.mem_toLeft.mp symbol)
  have left : (selected.toLeft ∪ places)ᶜ.card ≤ selected.toRight.card := by
    rw [Finset.card_compl, Finset.card_union_of_disjoint disjoint]
    have both : selected.toLeft.card + selected.toRight.card = selected.card :=
      Finset.card_toLeft_add_card_toRight
    omega
  have rest : ∀ column ∈ (selected.toLeft ∪ places)ᶜ, entry column = 0 := by
    refine strong selected.toRight _ entry left fun row member => ?_
    have zero := coded _ (Finset.mem_toRight.mp member)
    rw [← Finset.sum_add_sum_compl (selected.toLeft ∪ places), Finset.sum_eq_zero, zero_add]
      at zero
    · exact zero
    · intro column inside
      rw [symbols column inside, mul_zero]
  funext column
  by_cases inside : column ∈ selected.toLeft ∪ places
  · exact symbols column inside
  · exact rest column (Finset.mem_compl.mpr inside)

/-- The coded symbols that a decoder starts from. -/
def selection (parity : Row → Column → F) (chosen : Column → Column ⊕ Row) :
    Matrix Column Column F :=
  Matrix.of fun place => systematic parity (chosen place)

theorem Strong.isUnit_selection {parity : Row → Column → F} (strong : Strong parity)
    {chosen : Column → Column ⊕ Row} (distinct : Function.Injective chosen) :
    IsUnit (selection parity chosen) := by
  rw [← Matrix.mulVec_injective_iff_isUnit]
  refine (injective_iff_map_eq_zero (Matrix.mulVecLin (selection parity chosen))).mpr ?_
  intro entry zero
  refine strong.eq_zero (Finset.univ.map ⟨chosen, distinct⟩) ∅ ?_ ?_ ?_ ?_
  · intro symbol member
    obtain ⟨place, -, rfl⟩ := Finset.mem_map.mp member
    exact congrFun zero place
  · simp
  · simp
  · simp

/-- A lost symbol depends on every coded symbol that the decoder starts from. -/
theorem Strong.inverse_ne_zero {parity : Row → Column → F} (strong : Strong parity)
    {chosen : Column → Column ⊕ Row} (distinct : Function.Injective chosen)
    {inverse : Matrix Column Column F} (left : inverse * selection parity chosen = 1)
    {lost : Column} (absent : ∀ place, chosen place ≠ Sum.inl lost) (place : Column) :
    inverse lost place ≠ 0 := by
  classical
  intro vanishes
  have right : selection parity chosen * inverse = 1 := mul_eq_one_comm.mp left
  have unit_column : ∀ other, ∑ column, systematic parity (chosen other) column *
      inverse column place = if other = place then 1 else 0 := by
    intro other
    have entry := congrFun (congrFun right other) place
    rw [Matrix.mul_apply, Matrix.one_apply] at entry
    exact entry
  have zero : (fun column => inverse column place) = 0 := by
    refine strong.eq_zero ((Finset.univ.erase place).map ⟨chosen, distinct⟩) {lost} ?_ ?_ ?_ ?_
    · intro symbol member
      obtain ⟨other, apart, rfl⟩ := Finset.mem_map.mp member
      exact (unit_column other).trans (if_neg (Finset.ne_of_mem_erase apart))
    · intro column member
      rw [Finset.mem_singleton.mp member]
      exact vanishes
    · intro column member inside
      obtain ⟨other, -, same⟩ := Finset.mem_map.mp inside
      rw [Finset.mem_singleton.mp member] at same
      exact absent other same
    · rw [Finset.card_map, Finset.card_singleton, Finset.card_erase_add_one (Finset.mem_univ place),
        Finset.card_univ]
  have one := unit_column place
  rw [if_pos rfl, Finset.sum_eq_zero] at one
  · exact zero_ne_one one
  · intro column _
    rw [congrFun zero column]
    exact mul_zero _

end Systematic

section Cauchy

variable [DecidableEq Column] {x : Column → F} {y : Row → F}

/-- The combination of a Cauchy matrix over the common denominator. -/
noncomputable def numerator (x : Column → F) (columns : Finset Column) (entry : Column → F) :
    F[X] :=
  ∑ column ∈ columns, C (entry column) * ∏ other ∈ columns.erase column, (C (x other) - X)

theorem numerator_degree_lt (columns : Finset Column) (entry : Column → F) :
    (numerator x columns entry).degree < columns.card := by
  unfold numerator
  refine lt_of_le_of_lt (degree_sum_le _ _) ((Finset.sup_lt_iff ?_).mpr ?_)
  · exact WithBot.bot_lt_coe _
  · intro column member
    have factors : (∏ other ∈ columns.erase column, (C (x other) - X)).degree ≤
        ((columns.erase column).card : WithBot ℕ) := by
      refine le_trans (degree_prod_le _ _) ?_
      refine le_trans (Finset.sum_le_card_nsmul _ _ 1 fun other _ => ?_) (by simp)
      refine le_trans (degree_sub_le _ _) (max_le ?_ degree_X_le)
      exact le_trans degree_C_le (by decide)
    have fewer : (columns.erase column).card < columns.card := Finset.card_erase_lt_of_mem member
    calc (C (entry column) * ∏ other ∈ columns.erase column, (C (x other) - X)).degree
        ≤ (C (entry column)).degree +
            (∏ other ∈ columns.erase column, (C (x other) - X)).degree := degree_mul_le _ _
      _ ≤ 0 + ((columns.erase column).card : WithBot ℕ) := add_le_add degree_C_le factors
      _ < columns.card := by simpa using fewer

theorem numerator_eval (columns : Finset Column) (entry : Column → F) (point : F)
    (apart : ∀ column ∈ columns, x column ≠ point) :
    (numerator x columns entry).eval point =
      (∏ column ∈ columns, (x column - point)) *
        ∑ column ∈ columns, (x column - point)⁻¹ * entry column := by
  unfold numerator
  rw [eval_finsetSum, Finset.mul_sum]
  refine Finset.sum_congr rfl fun column member => ?_
  have factor : x column - point ≠ 0 := sub_ne_zero.mpr (apart column member)
  rw [eval_mul, eval_C, eval_prod, ← Finset.mul_prod_erase columns _ member]
  simp only [eval_sub, eval_C, eval_X]
  field_simp

theorem numerator_eval_own (columns : Finset Column) (entry : Column → F) {column : Column}
    (member : column ∈ columns) :
    (numerator x columns entry).eval (x column) =
      entry column * ∏ other ∈ columns.erase column, (x other - x column) := by
  unfold numerator
  rw [eval_finsetSum, Finset.sum_eq_single column]
  · simp [eval_mul, eval_prod]
  · intro other _ differs
    have here : column ∈ columns.erase other := Finset.mem_erase.mpr ⟨differs.symm, member⟩
    rw [eval_mul, eval_prod, Finset.prod_eq_zero here (by simp), mul_zero]
  · exact fun absent => absurd member absent

/-- A Cauchy matrix whose two families of points do not meet recovers any loss. -/
theorem strong_cauchy (columns_distinct : Function.Injective x)
    (rows_distinct : Function.Injective y) (apart : ∀ column row, x column ≠ y row) :
    Strong fun row column => (x column - y row)⁻¹ := by
  intro rows columns entry enough vanishing column member
  have roots : ∀ row ∈ rows, (numerator x columns entry).eval (y row) = 0 := by
    intro row row_member
    rw [numerator_eval columns entry (y row) fun other _ => apart other row,
      vanishing row row_member, mul_zero]
  have zero : numerator x columns entry = 0 := by
    refine eq_zero_of_degree_lt_of_eval_index_eq_zero _ (v := y) rows_distinct.injOn ?_ roots
    exact lt_of_lt_of_le (numerator_degree_lt columns entry) (Nat.cast_le.mpr enough)
  have own := @numerator_eval_own F _ _ _ x columns entry _ member
  rw [zero, eval_zero] at own
  refine (mul_eq_zero.mp own.symm).resolve_right (Finset.prod_ne_zero_iff.mpr ?_)
  intro other other_member
  exact sub_ne_zero.mpr (columns_distinct.ne (Finset.ne_of_mem_erase other_member))

end Cauchy

end Foundation.ErasureCode
