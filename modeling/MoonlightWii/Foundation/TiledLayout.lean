import Mathlib.Logic.Basic

/-!
# Images in tiles

An image is stored tile after tile, `pitch` tiles to a row of tiles, and each
tile row after row.  Pixels in the columns of one row of tiles have places of
their own.
-/

set_option autoImplicit false

namespace Foundation.TiledLayout

/-- The place of a pixel among tiles of `columns` by `rows`. -/
def tileOffset (columns rows pitch x y : Nat) : Nat :=
  (y / rows * pitch + x / columns) * (columns * rows) + y % rows * columns + x % columns

/-- Two numbers with the same digits are the same. -/
theorem digits_unique {base high low otherHigh otherLow : Nat} (small : low < base)
    (otherSmall : otherLow < base) (same : high * base + low = otherHigh * base + otherLow) :
    high = otherHigh ∧ low = otherLow := by
  have positive : 0 < base := Nat.zero_lt_of_lt small
  rw [Nat.mul_comm high, Nat.mul_comm otherHigh] at same
  constructor
  · have quotient := congrArg (· / base) same
    simpa only [Nat.mul_add_div positive, Nat.div_eq_of_lt small, Nat.div_eq_of_lt otherSmall,
      Nat.add_zero] using quotient
  · have remainder := congrArg (· % base) same
    simpa only [Nat.mul_add_mod, Nat.mod_eq_of_lt small, Nat.mod_eq_of_lt otherSmall]
      using remainder

theorem tileOffset_injective {columns rows pitch : Nat} (wide : 0 < columns) (tall : 0 < rows)
    {x y otherX otherY : Nat} (inside : x < columns * pitch)
    (otherInside : otherX < columns * pitch)
    (same : tileOffset columns rows pitch x y = tileOffset columns rows pitch otherX otherY) :
    x = otherX ∧ y = otherY := by
  have place (x y : Nat) : y % rows * columns + x % columns < columns * rows := by
    have row := Nat.mul_le_mul_right columns (Nat.succ_le_of_lt (Nat.mod_lt y tall))
    have column := Nat.mod_lt x wide
    rw [Nat.succ_mul] at row
    rw [Nat.mul_comm columns rows]
    omega
  unfold tileOffset at same
  rw [Nat.add_assoc, Nat.add_assoc] at same
  obtain ⟨sameTile, samePlace⟩ := digits_unique (place x y) (place otherX otherY) same
  obtain ⟨sameTileRow, sameTileColumn⟩ := digits_unique (Nat.div_lt_of_lt_mul inside)
    (Nat.div_lt_of_lt_mul otherInside) sameTile
  obtain ⟨sameRow, sameColumn⟩ := digits_unique (Nat.mod_lt x wide) (Nat.mod_lt otherX wide)
    samePlace
  constructor
  · rw [← Nat.div_add_mod x columns, sameTileColumn, sameColumn, Nat.div_add_mod]
  · rw [← Nat.div_add_mod y rows, sameTileRow, sameRow, Nat.div_add_mod]

end Foundation.TiledLayout
