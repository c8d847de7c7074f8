import Mathlib.Logic.Function.Basic
import MoonlightWii.Foundation.LastWrite
import MoonlightWii.Foundation.MachineInt

/-!
# Drawing a glyph (`font.c`)

`draw_freetype_bitmap` walks over the pixels of a glyph and blends those that lie on the
canvas.  The glyph may start anywhere, so its columns and rows are counted twice: on the
canvas, with a sign, and in the bitmap.  `int` arithmetic wraps around, which it only does
in the index of a bitmap of more than 2 GiB.
-/

set_option autoImplicit false

namespace MoonlightWii.Wii.FontBitmap

open Foundation.LastWrite
open Foundation.MachineInt

/-- `FT_Bitmap`; `buffer` is what lies at an index from the pointer. -/
structure FtBitmap where
  rows : UInt32
  width : UInt32
  pitch : Int32
  buffer : Int32 → UInt8

/-- The static variables of the file. -/
structure Font where
  fontWidth : UInt32
  fontHeight : UInt32
  fontPitch : UInt32
  fontLuma : UInt8
  fontA : UInt8
  pitch_eq : fontPitch = fontWidth
  /-- `font_buffer` has a byte for each pixel. -/
  allocated : fontWidth.toNat * fontHeight.toNat < 4294967296

/-- The canvas of `Font_Init`, for the `u16` sizes of a video mode. -/
def fontInit (fbWidth efbHeight : UInt16) : Font where
  fontWidth := fbWidth.toUInt32
  fontHeight := efbHeight.toUInt32
  fontPitch := fbWidth.toUInt32
  fontLuma := 255
  fontA := 255
  pitch_eq := rfl
  allocated := by
    have width := fbWidth.toNat_lt
    have height := efbHeight.toNat_lt
    calc fbWidth.toNat * efbHeight.toNat
        < 2 ^ 16 * 2 ^ 16 := Nat.mul_lt_mul'' width height
      _ = 2 ^ 32 := rfl

/-- The bytes at the offsets from `font_buffer`. -/
abbrev Canvas := UInt32 → UInt8

def blend (fontLuma fontA opacity dst : UInt8) : UInt8 :=
  let a := UInt8.ofNat (fontA.toNat * opacity.toNat / 255)
  UInt8.ofNat ((fontLuma.toNat * a.toNat + dst.toNat * (255 - a.toNat)) / 255)

/-- The body of the loops. -/
def drawPixel (font : Font) (bitmap : FtBitmap) (canvas : Canvas) (i j p q : Int32) : Canvas :=
  if i < 0 ∨ j < 0 ∨ font.fontWidth.toInt32 ≤ i ∨ font.fontHeight.toInt32 ≤ j then canvas
  else
    let opacity := bitmap.buffer (q * bitmap.pitch + p)
    if opacity = 0 then canvas
    else
      let index := j.toUInt32 * font.fontPitch + i.toUInt32
      Function.update canvas index (blend font.fontLuma font.fontA opacity (canvas index))

/-- The values of the two counters of `for (i = x, p = 0; i < x_max; i++, p++)`. -/
def counters (start stop : Int32) : List (Int32 × Int32) :=
  (List.range (stop.toInt - start.toInt).toNat).map fun n => (start + Int32.ofNat n, Int32.ofNat n)

def drawFreetypeBitmap (font : Font) (bitmap : FtBitmap) (x y : Int32) (canvas : Canvas) :
    Canvas :=
  let xMax := (x.toUInt32 + bitmap.width).toInt32
  let yMax := (y.toUInt32 + bitmap.rows).toInt32
  (counters x xMax).foldl (fun drawn column =>
    (counters y yMax).foldl (fun canvas row =>
      drawPixel font bitmap canvas column.1 row.1 column.2 row.2) drawn) canvas

/-! ## The blend -/

/-- `new` lies between the two others. -/
def Between (old target new : UInt8) : Prop :=
  (old ≤ new ∧ new ≤ target) ∨ (target ≤ new ∧ new ≤ old)

theorem between_refl (old target : UInt8) : Between old target old := by
  rcases UInt8.le_total old target with up | down
  · exact .inl ⟨UInt8.le_refl old, up⟩
  · exact .inr ⟨down, UInt8.le_refl old⟩

theorem between_trans (target old middle new : UInt8) (first : Between old target middle)
    (second : Between middle target new) : Between old target new := by
  simp only [Between, UInt8.le_iff_toNat_le] at *
  omega

/-- A mean of two values, rounded down, lies between them. -/
theorem mean_between {low high lowWeight highWeight : Nat} (ordered : low ≤ high)
    (positive : 0 < lowWeight + highWeight) :
    low ≤ (high * highWeight + low * lowWeight) / (lowWeight + highWeight) ∧
      (high * highWeight + low * lowWeight) / (lowWeight + highWeight) ≤ high := by
  have weighted : low * highWeight ≤ high * highWeight := Nat.mul_le_mul_right _ ordered
  have other : low * lowWeight ≤ high * lowWeight := Nat.mul_le_mul_right _ ordered
  constructor
  · rw [Nat.le_div_iff_mul_le positive, Nat.mul_add]
    omega
  · apply Nat.div_le_of_le_mul
    rw [Nat.add_mul, Nat.mul_comm lowWeight, Nat.mul_comm highWeight]
    omega

theorem blend_between (fontLuma fontA opacity dst : UInt8) :
    Between dst fontLuma (blend fontLuma fontA opacity dst) := by
  unfold blend
  dsimp only
  generalize UInt8.ofNat (fontA.toNat * opacity.toNat / 255) = a
  have weights : a.toNat ≤ 255 := Nat.le_of_lt_succ a.toNat_lt
  have total : 255 - a.toNat + a.toNat = 255 := by omega
  have oldSmall := dst.toNat_lt
  have lumaSmall := fontLuma.toNat_lt
  simp only [Between, UInt8.le_iff_toNat_le]
  rcases Nat.le_total dst.toNat fontLuma.toNat with up | down
  · have mean := @mean_between dst.toNat fontLuma.toNat (255 - a.toNat) a.toNat up (by omega)
    rw [total] at mean
    rw [UInt8.toNat_ofNat_of_lt' (by rw [UInt8.size]; omega)]
    exact .inl mean
  · have mean := @mean_between fontLuma.toNat dst.toNat a.toNat (255 - a.toNat) down (by omega)
    rw [Nat.add_comm a.toNat, total, Nat.add_comm (dst.toNat * _)] at mean
    rw [UInt8.toNat_ofNat_of_lt' (by rw [UInt8.size]; omega)]
    exact .inr mean

/-! ## The loops -/

theorem mem_counters {start stop i p : Int32} (counted : (i, p) ∈ counters start stop) :
    start.toInt ≤ i.toInt ∧ i.toInt < stop.toInt := by
  obtain ⟨n, listed, pair⟩ := List.mem_map.mp counted
  have below := List.mem_range.mp listed
  cases pair
  rw [@add_ofNat_toInt start n stop (by omega)]
  omega

/-- Where the glyph would lie if there were no edges. -/
structure InBox (bitmap : FtBitmap) (x y i j : Int) : Prop where
  column : x ≤ i ∧ i < x + bitmap.width.toNat
  row : y ≤ j ∧ j < y + bitmap.rows.toNat

structure OnCanvas (font : Font) (i j : Int) : Prop where
  column : 0 ≤ i ∧ i < font.fontWidth.toNat
  row : 0 ≤ j ∧ j < font.fontHeight.toNat

/-- Only pixels of the glyph on the canvas change, and not past the colour of the font. -/
structure DrawsInside (font : Font) (bitmap : FtBitmap) (x y : Int)
    (before after : Canvas) : Prop where
  inside : ∀ index, after index ≠ before index → ∃ i j : Int,
    InBox bitmap x y i j ∧ OnCanvas font i j ∧ (index.toNat : Int) = j * font.fontPitch.toNat + i
  between : ∀ index, Between (before index) font.fontLuma (after index)

theorem drawPixel_between (font : Font) (bitmap : FtBitmap) (canvas : Canvas) (i j p q : Int32)
    (index : UInt32) :
    Between (canvas index) font.fontLuma (drawPixel font bitmap canvas i j p q index) := by
  unfold drawPixel
  split
  · exact between_refl _ _
  · dsimp only
    split
    · exact between_refl _ _
    · by_cases here : index = j.toUInt32 * font.fontPitch + i.toUInt32
      · rw [← here, Function.update_self]
        exact blend_between _ _ _ _
      · rw [Function.update_of_ne here]
        exact between_refl _ _

/-- The index of a pixel on the canvas does not wrap around. -/
theorem Font.index_toNat (font : Font) {i j : UInt32} (column : i.toNat < font.fontWidth.toNat)
    (row : j.toNat < font.fontHeight.toNat) :
    (j * font.fontPitch + i).toNat = j.toNat * font.fontPitch.toNat + i.toNat := by
  have rows : (j.toNat + 1) * font.fontWidth.toNat ≤
      font.fontHeight.toNat * font.fontWidth.toNat := Nat.mul_le_mul_right _ row
  have bytes := font.allocated
  rw [Nat.mul_comm] at bytes
  rw [Nat.add_mul, Nat.one_mul] at rows
  rw [font.pitch_eq, UInt32.toNat_add, UInt32.toNat_mul,
    @Nat.mod_eq_of_lt (j.toNat * font.fontWidth.toNat) _ (by omega),
    Nat.mod_eq_of_lt (by omega)]

/-- The size of the canvas is compared as an `int`, which is negative for large ones. -/
theorem below_side {side : UInt32} {i : Int32} (nonneg : 0 ≤ i.toInt)
    (less : ¬ side.toInt32 ≤ i) : i.toInt < side.toNat := by
  have value := toUInt32_toNat side.toInt32
  rw [UInt32.toUInt32_toInt32] at value
  rw [Int32.le_iff_toInt_le] at less
  have small := side.toInt32.toInt_lt
  omega

theorem drawPixel_index {font : Font} {bitmap : FtBitmap} {canvas : Canvas} {i j p q : Int32}
    {index : UInt32} (changed : drawPixel font bitmap canvas i j p q index ≠ canvas index) :
    OnCanvas font i.toInt j.toInt ∧
      (index.toNat : Int) = j.toInt * font.fontPitch.toNat + i.toInt := by
  unfold drawPixel at changed
  split at changed
  · exact absurd rfl changed
  · rename_i clipped
    simp only [not_or] at clipped
    obtain ⟨left, top, right, bottom⟩ := clipped
    rw [Int32.lt_iff_toInt_lt, Int32.toInt_zero] at left top
    have column : 0 ≤ i.toInt ∧ i.toInt < font.fontWidth.toNat :=
      ⟨by omega, below_side (by omega) right⟩
    have row : 0 ≤ j.toInt ∧ j.toInt < font.fontHeight.toNat :=
      ⟨by omega, below_side (by omega) bottom⟩
    refine ⟨⟨column, row⟩, ?_⟩
    have here : index = j.toUInt32 * font.fontPitch + i.toUInt32 := by
      by_contra other
      dsimp only at changed
      split at changed
      · exact changed rfl
      · exact changed (Function.update_of_ne other _ _)
    have columnValue := toUInt32_toNat_of_nonneg column.1
    have rowValue := toUInt32_toNat_of_nonneg row.1
    rw [here, font.index_toNat (by omega) (by omega), ← columnValue, ← rowValue]
    rw [Int.natCast_add, Int.natCast_mul]

theorem drawFreetypeBitmap_inside (font : Font) (bitmap : FtBitmap) (x y : Int32)
    (canvas : Canvas) :
    DrawsInside font bitmap x.toInt y.toInt canvas (drawFreetypeBitmap font bitmap x y canvas) := by
  unfold drawFreetypeBitmap
  constructor
  · intro index changed
    obtain ⟨column, inColumns, drawn, inner⟩ :=
      @foldl_changed _ _ _ _ (fun canvas : Canvas => canvas index) _ _ changed
    obtain ⟨row, inRows, before, pixel⟩ :=
      @foldl_changed _ _ _ _ (fun canvas : Canvas => canvas index) _ _ inner
    obtain ⟨i, p⟩ := column
    obtain ⟨j, q⟩ := row
    obtain ⟨on, place⟩ := drawPixel_index pixel
    have columns := mem_counters inColumns
    have rows := mem_counters inRows
    have width := @add_toInt32_toInt x bitmap.width (by omega)
    have height := @add_toInt32_toInt y bitmap.rows (by omega)
    exact ⟨i.toInt, j.toInt, ⟨⟨columns.1, by omega⟩, ⟨rows.1, by omega⟩⟩, on, place⟩
  · intro index
    refine @foldl_related _ _ _ _ (fun canvas : Canvas => canvas index)
      (fun old new => Between old font.fontLuma new) (fun old => between_refl old _)
      (between_trans font.fontLuma) _
      (fun column _ drawn => ?_) canvas
    refine @foldl_related _ _ _ _ (fun canvas : Canvas => canvas index)
      (fun old new => Between old font.fontLuma new) (fun old => between_refl old _)
      (between_trans font.fontLuma) _
      (fun row _ before => ?_) drawn
    exact drawPixel_between font bitmap before column.1 row.1 column.2 row.2 index

end MoonlightWii.Wii.FontBitmap
