import MoonlightWii.Foundation.LastWrite
import MoonlightWii.Wii.FrameCopy

/-!
# The stores of a copy in memory

The single-byte stores of a copy, done one after the other, leave the planes of a frame as
the copy leaves them in memory.
-/

set_option autoImplicit false

namespace MoonlightWii.Wii.FrameStores

open Foundation.AddressSpace
open Foundation.LastWrite
open Foundation.MachineInt
open MoonlightWii.Wii.Decoder (Plane Store FrameLayout rowStores copyStores store)
open MoonlightWii.Wii.FrameCopy
open MoonlightWii.Wii.FrameQueue (numBuffers)

/-! ## The cells of a row -/

section Cells

variable {fb : FrameLayout} {frame : Decoder.AVFrame}

/-- What one row of a copy holds at a column. -/
def cellValue (frame : Decoder.AVFrame) (plane : Plane) (width row column : Nat) : UInt8 :=
  if column < width then frame.data plane (row * frame.linesize plane + column)
  else padding plane

def cellOf (fb : FrameLayout) (frame : Decoder.AVFrame) (plane : Plane)
    (width row column : Nat) : Store :=
  ⟨plane, row * fb.stride plane + column, cellValue frame plane width row column⟩

theorem mem_rowStores {plane : Plane} {width row : Nat} (narrow : width ≤ fb.stride plane)
    {cell : Store} :
    cell ∈ rowStores fb frame plane (padding plane) width row ↔
      ∃ column, column < fb.stride plane ∧ cell = cellOf fb frame plane width row column := by
  simp only [rowStores, List.mem_append, List.mem_map, List.mem_range, cellOf, cellValue]
  constructor
  · rintro (⟨column, copied, rfl⟩ | ⟨behind, padded, rfl⟩)
    · exact ⟨column, by omega, by rw [if_pos copied]⟩
    · refine ⟨width + behind, by omega, ?_⟩
      rw [if_neg (by omega), Nat.add_assoc]
  · rintro ⟨column, inside, rfl⟩
    by_cases copied : column < width
    · exact Or.inl ⟨column, copied, by rw [if_pos copied]⟩
    · refine Or.inr ⟨column - width, by omega, ?_⟩
      rw [if_neg copied, Nat.add_assoc, Nat.add_sub_cancel' (Nat.le_of_not_lt copied)]

def copyWidth (fb : FrameLayout) (frame : Decoder.AVFrame) : Plane → Nat :=
  planeSide (min frame.width fb.width)

def copyHeight (fb : FrameLayout) (frame : Decoder.AVFrame) : Plane → Nat :=
  planeSide (min frame.height fb.height)

theorem mem_copyStores (narrow : ∀ plane, copyWidth fb frame plane ≤ fb.stride plane)
    {cell : Store} :
    cell ∈ copyStores fb frame ↔ ∃ plane row column, row < copyHeight fb frame plane ∧
      column < fb.stride plane ∧
        cell = cellOf fb frame plane (copyWidth fb frame plane) row column := by
  simp only [copyStores, List.mem_append, List.mem_flatMap, List.mem_range]
  constructor
  · rintro (⟨row, above, listed⟩ | ⟨row, above, listed | listed⟩)
    · obtain ⟨column, inside, rfl⟩ := (mem_rowStores (narrow .y)).mp listed
      exact ⟨.y, row, column, above, inside, rfl⟩
    · obtain ⟨column, inside, rfl⟩ := (mem_rowStores (narrow .u)).mp listed
      exact ⟨.u, row, column, above, inside, rfl⟩
    · obtain ⟨column, inside, rfl⟩ := (mem_rowStores (narrow .v)).mp listed
      exact ⟨.v, row, column, above, inside, rfl⟩
  · rintro ⟨plane, row, column, above, inside, rfl⟩
    have listed := (@mem_rowStores fb frame plane _ row (narrow plane) _).mpr
      ⟨column, inside, rfl⟩
    cases plane with
    | y => exact Or.inl ⟨row, above, listed⟩
    | u => exact Or.inr ⟨row, above, Or.inl listed⟩
    | v => exact Or.inr ⟨row, above, Or.inr listed⟩

/-- The value of a store, for the byte that it goes to. -/
def storedAt (plane : Plane) (offset : Nat) (cell : Store) : Option UInt8 :=
  if plane = cell.plane ∧ offset = cell.offset then some cell.value else none

theorem store_apply (memory : Decoder.Picture) (plane : Plane) (offset : Nat) (cell : Store) :
    store memory cell plane offset = (storedAt plane offset cell).getD (memory plane offset) := by
  unfold store storedAt
  by_cases here : plane = cell.plane ∧ offset = cell.offset
  · rw [if_pos here, if_pos here, Option.getD_some]
  · rw [if_neg here, if_neg here, Option.getD_none]

/-- All the stores to one byte store the same value, so that the last of them does. -/
theorem stores_agree (narrow : ∀ plane, copyWidth fb frame plane ≤ fb.stride plane)
    {plane : Plane} {offset : Nat} (value : UInt8)
    (written : value ∈ (copyStores fb frame).filterMap (storedAt plane offset)) :
    offset / fb.stride plane < copyHeight fb frame plane ∧
      value = cellValue frame plane (copyWidth fb frame plane) (offset / fb.stride plane)
        (offset % fb.stride plane) := by
  obtain ⟨cell, listed, stored⟩ := List.mem_filterMap.mp written
  obtain ⟨other, row, column, above, inside, rfl⟩ := (mem_copyStores narrow).mp listed
  obtain ⟨⟨same, place⟩, kept⟩ := Option.ite_none_right_eq_some.mp stored
  change plane = other at same
  change offset = row * fb.stride other + column at place
  subst same place
  have line : (row * fb.stride plane + column) / fb.stride plane = row := by
    rw [Nat.mul_comm, Nat.mul_add_div (Nat.zero_lt_of_lt inside), Nat.div_eq_of_lt inside,
      Nat.add_zero]
  have rest : (row * fb.stride plane + column) % fb.stride plane = column := by
    rw [Nat.mul_comm, Nat.mul_add_mod, Nat.mod_eq_of_lt inside]
  rw [line, rest]
  exact ⟨above, (Option.some.inj kept).symm⟩

theorem copyStores_writes (narrow : ∀ plane, copyWidth fb frame plane ≤ fb.stride plane)
    {plane : Plane} {offset : Nat} (positive : 0 < fb.stride plane)
    (above : offset / fb.stride plane < copyHeight fb frame plane) :
    cellValue frame plane (copyWidth fb frame plane) (offset / fb.stride plane)
        (offset % fb.stride plane) ∈
      (copyStores fb frame).filterMap (storedAt plane offset) := by
  refine List.mem_filterMap.mpr ⟨cellOf fb frame plane (copyWidth fb frame plane)
    (offset / fb.stride plane) (offset % fb.stride plane), ?_, ?_⟩
  · exact (mem_copyStores narrow).mpr ⟨plane, _, _, above, Nat.mod_lt _ positive, rfl⟩
  · exact if_pos ⟨rfl, (Nat.div_add_mod' offset (fb.stride plane)).symm⟩

/-- What the stores of a copy leave at one byte. -/
theorem copyStores_foldl (narrow : ∀ plane, copyWidth fb frame plane ≤ fb.stride plane)
    {plane : Plane} (positive : 0 < fb.stride plane) (memory : Decoder.Picture) (offset : Nat) :
    (copyStores fb frame).foldl store memory plane offset =
      if offset / fb.stride plane < copyHeight fb frame plane then
        cellValue frame plane (copyWidth fb frame plane) (offset / fb.stride plane)
          (offset % fb.stride plane)
      else memory plane offset := by
  have last := @foldl_field _ _ _ store (fun memory => memory plane offset)
    (storedAt plane offset) (fun memory cell => store_apply memory plane offset cell)
    (copyStores fb frame) memory
  rw [last]
  have agree := @stores_agree fb frame narrow plane offset
  by_cases above : offset / fb.stride plane < copyHeight fb frame plane
  · have written := copyStores_writes narrow positive above
    rw [if_pos above]
    cases stored : ((copyStores fb frame).filterMap (storedAt plane offset)).getLast? with
    | none =>
        rw [List.getLast?_eq_none_iff.mp stored] at written
        cases written
    | some value => exact (agree value (List.mem_of_getLast? stored)).2
  · rw [if_neg above]
    cases stored : ((copyStores fb frame).filterMap (storedAt plane offset)).getLast? with
    | none => rfl
    | some value => exact absurd (agree value (List.mem_of_getLast? stored)).1 above

end Cells

/-! ## The planes in memory -/

def layoutOf (size : StreamSize) : FrameLayout :=
  Decoder.wiiAllocFrames size.width.toInt.toNat size.height.toInt.toNat

/-- The planes of a frame, each from its pointer on. -/
def planesOf (fb : Frame) (memory : Memory UInt8) : Decoder.Picture := fun plane offset =>
  memory (fb.plane plane + UInt32.ofNat offset)

/-- The picture with what the memory holds behind its pointers. -/
def pictureOf (frame : AVFrame) (memory : Memory UInt8) : Decoder.AVFrame where
  width := frame.width.toInt.toNat
  height := frame.height.toInt.toNat
  linesize plane := (frame.linesize plane).toInt.toNat
  data plane offset := memory (frame.data plane + UInt32.ofNat offset)

section Planes

variable {size : StreamSize} {buffers : Buffers size} (picture : Picture buffers)
  (index : Fin numBuffers)

theorem layoutOf_stride (plane : Plane) :
    (layoutOf size).stride plane = ((buffers.frames index).stride plane).toNat := by
  rw [stride_toNat]
  cases plane <;> rfl

theorem layoutOf_planeSize (plane : Plane) :
    (layoutOf size).planeSize plane = (buffers.block index plane).size := by
  rw [block_size, ← layoutOf_stride index plane]
  cases plane <;> rfl

theorem copyWidth_layoutOf (memory : Memory UInt8) (plane : Plane) :
    copyWidth (layoutOf size) (pictureOf picture.toAVFrame memory) plane =
      sharedSide picture.width size.width plane := rfl

theorem copyHeight_layoutOf (memory : Memory UInt8) (plane : Plane) :
    copyHeight (layoutOf size) (pictureOf picture.toAVFrame memory) plane =
      sharedSide picture.height size.height plane := rfl

/-- An offset in a plane is a row and a column. -/
theorem sample_split (plane : Plane) (offset : Nat) :
    (buffers.frames index).plane plane + UInt32.ofNat offset =
      (buffers.frames index).sample plane
        (offset % ((buffers.frames index).stride plane).toNat)
        (offset / ((buffers.frames index).stride plane).toNat) := by
  have split := Nat.div_add_mod' offset ((buffers.frames index).stride plane).toNat
  have words := congrArg UInt32.ofNat split
  rw [UInt32.ofNat_add, UInt32.ofNat_mul, UInt32.ofNat_toNat] at words
  rw [Frame.sample, ← words, UInt32.add_assoc]

/-- Rows that the picture does not reach keep their bytes. -/
theorem copyPicture_below (memory : Memory UInt8) {plane : Plane} {offset : Nat}
    (inside : offset < (buffers.block index plane).size)
    (below : ¬ offset / ((buffers.frames index).stride plane).toNat <
      sharedSide picture.height size.height plane) :
    copyPicture (buffers.frames index) picture.toAVFrame memory
        ((buffers.frames index).plane plane + UInt32.ofNat offset) =
      memory ((buffers.frames index).plane plane + UInt32.ofNat offset) := by
  have fits : (buffers.block index plane).start + (buffers.block index plane).size ≤ 4294967296 :=
    buffers.fits index plane
  have begins : ((buffers.frames index).plane plane).toNat =
    (buffers.block index plane).start := rfl
  have distance : (UInt32.ofNat offset).toNat = offset :=
    UInt32.toNat_ofNat_of_lt' (show _ < 4294967296 by omega)
  have address : ((buffers.frames index).plane plane + UInt32.ofNat offset).toNat =
      (buffers.block index plane).start + offset := by
    rw [UInt32.toNat_add, begins, distance]
    omega
  have held : (buffers.block index plane).Contains
      ((buffers.frames index).plane plane + UInt32.ofNat offset) := by
    unfold Block.Contains
    omega
  have outside : ∀ row ∈ copiedRows (buffers.frames index) picture.toAVFrame,
      ¬ (buffers.frames index).InRow row.1 row.2
        ((buffers.frames index).plane plane + UInt32.ofNat offset) := by
    intro row listed placed
    obtain ⟨elsewhere, line⟩ := copied_inside picture index listed placed
    by_cases same : row.1 = plane
    · have above := (mem_pictureRows picture index).mp listed
      rw [same, address, Nat.add_sub_cancel_left] at line
      rw [same, ← line] at above
      exact below above
    · have away : (index, plane) ≠ (index, row.1) := by
        intro equal
        exact same (Prod.ext_iff.mp equal).2.symm
      exact apart_contains (buffers.apart index plane index row.1 away) held elsewhere
  rw [copyPicture_rows]
  exact (copiedRows_separated picture index).elsewhere memory outside

theorem pictureOf_data (memory : Memory UInt8) (plane : Plane) (x y : Nat) :
    (pictureOf picture.toAVFrame memory).data plane
        (y * (pictureOf picture.toAVFrame memory).linesize plane + x) =
      memory (picture.sample plane x y) := by
  have strides := picture.strides plane
  have value := @toUInt32_toNat_of_nonneg (picture.linesize plane) (by omega)
  have word : UInt32.ofNat (picture.linesize plane).toInt.toNat =
      (picture.linesize plane).toUInt32 := by
    rw [← UInt32.ofNat_toNat (x := (picture.linesize plane).toUInt32)]
    exact congrArg UInt32.ofNat (by omega)
  have split : UInt32.ofNat (y * (picture.linesize plane).toInt.toNat + x) =
      UInt32.ofNat y * (picture.linesize plane).toUInt32 + UInt32.ofNat x := by
    rw [UInt32.ofNat_add, UInt32.ofNat_mul, word]
  rw [AVFrame.sample, UInt32.add_assoc, ← split]
  rfl

/-- The copy in memory does to the planes what the stores of the copy do, one after the
other. -/
theorem copyPicture_stores (memory : Memory UInt8) {plane : Plane} {offset : Nat}
    (inside : offset < (layoutOf size).planeSize plane) :
    planesOf (buffers.frames index)
        (copyPicture (buffers.frames index) picture.toAVFrame memory) plane offset =
      (copyStores (layoutOf size) (pictureOf picture.toAVFrame memory)).foldl store
        (planesOf (buffers.frames index) memory) plane offset := by
  have stride := @layoutOf_stride _ buffers index
  have narrow : ∀ plane, copyWidth (layoutOf size) (pictureOf picture.toAVFrame memory) plane ≤
      (layoutOf size).stride plane := by
    intro plane
    rw [copyWidth_layoutOf, stride]
    exact Nat.le_trans (sharedSide_le_configured _ _ plane)
      (planeSide_le_stride buffers index plane)
  have positive : 0 < (layoutOf size).stride plane := by
    rw [stride]
    exact stride_pos buffers index plane
  rw [@layoutOf_planeSize _ buffers index] at inside
  rw [copyStores_foldl narrow positive, copyWidth_layoutOf, copyHeight_layoutOf, stride]
  by_cases above : offset / ((buffers.frames index).stride plane).toNat <
      sharedSide picture.height size.height plane
  · have column := Nat.mod_lt offset (stride_pos buffers index plane)
    rw [if_pos above, planesOf, sample_split, copyPicture_sample picture index memory column above,
      cellValue, pictureOf_data]
  · rw [if_neg above]
    exact copyPicture_below picture index memory inside above

end Planes

end MoonlightWii.Wii.FrameStores
