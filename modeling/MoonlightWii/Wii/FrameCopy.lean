import MoonlightWii.Foundation.AddressSpace
import MoonlightWii.Foundation.MachineInt
import MoonlightWii.Wii.Decoder

/-!
# Copying a picture into a frame (`decode.c`)

The copy as the code has it, with `int` sizes, unsigned strides and pointers into one
memory.  The picture belongs to the codec and the planes have been allocated, so that these
do not overlap.
-/

set_option autoImplicit false

namespace MoonlightWii.Wii.FrameCopy

open Foundation.AddressSpace
open Foundation.MachineInt
open MoonlightWii.Wii.Decoder (Plane DrStatus advanceTexture)
open MoonlightWii.Wii.FrameQueue

/-! ## Frames -/

/-- `frame_t` -/
structure Frame where
  plane : Plane → UInt32
  width : UInt32
  height : UInt32
  ystride : UInt32
  uvstride : UInt32

def Frame.stride (fb : Frame) : Plane → UInt32
  | .y => fb.ystride
  | .u => fb.uvstride
  | .v => fb.uvstride

/-- `wii_alloc_frames` with the pointers that `memalign` returns. -/
def wiiAllocFrames (memalign : Fin numBuffers → Plane → UInt32) (width height : Int32)
    (index : Fin numBuffers) : Frame where
  plane := memalign index
  width := width.toUInt32
  height := height.toUInt32
  ystride := ((width + 7) &&& ~~~7).toUInt32
  uvstride := ((width / 2 + 7) &&& ~~~7).toUInt32

/-- The sizes that `memalign` is asked for. -/
def planeSize (width height : Int32) : Plane → UInt32
  | .y => ((width + 7) &&& ~~~7).toUInt32 * height.toUInt32
  | .u => ((width / 2 + 7) &&& ~~~7).toUInt32 * (height / 2).toUInt32
  | .v => ((width / 2 + 7) &&& ~~~7).toUInt32 * (height / 2).toUInt32

/-- The picture of the codec: planes of rows, and an `int` for each stride. -/
structure AVFrame where
  width : Int32
  height : Int32
  data : Plane → UInt32
  linesize : Plane → Int32

/-! ## The copy -/

/-- `memcpy` of `w` bytes of a row, then `memset` up to the stride. -/
def copyRow (fb : Frame) (frame : AVFrame) (plane : Plane) (pad : UInt8) (w : Int32)
    (memory : Memory UInt8) (i : UInt32) : Memory UInt8 :=
  let row := fb.plane plane + i * fb.stride plane
  let copied := memcpy memory row (frame.data plane + i * (frame.linesize plane).toUInt32)
    w.toUInt32
  memset copied (row + w.toUInt32) pad (fb.stride plane - w.toUInt32)

/-- The values of `(size_t) i` for `i = 0; i < h; i++`. -/
def rowsBelow (h : Int32) : List UInt32 := (List.range h.toInt.toNat).map UInt32.ofNat

/-- `a < b ? a : b` for an `int` and a `uint32_t`, stored as an `int`. -/
def lesser (own : Int32) (configured : UInt32) : Int32 :=
  if own.toUInt32 < configured then own else configured.toInt32

def copyPicture (fb : Frame) (frame : AVFrame) (memory : Memory UInt8) : Memory UInt8 :=
  let w := lesser frame.width fb.width
  let h := lesser frame.height fb.height
  let hw := w / 2
  let hh := h / 2
  let luma := (rowsBelow h).foldl (copyRow fb frame .y 0 w) memory
  (rowsBelow hh).foldl (fun memory i =>
    copyRow fb frame .v 0x80 hw (copyRow fb frame .u 0x80 hw memory i) i) luma

structure DecoderState where
  memory : Memory UInt8
  frames : Fin numBuffers → Frame
  currentTexture : Fin numBuffers
  nextFrame : UInt32
  queue : LiveQueue (Fin numBuffers)

/-- The answer of `avcodec_decode_video2`. -/
inductive DecodeReply where
  | rejected
  | noPicture
  | picture (frame : AVFrame)

/-- `wii_decoder_submit_decode_unit` from the answer of the codec on. -/
def submitReply (reply : DecodeReply) (state : DecoderState) : DrStatus × DecoderState :=
  match reply with
  | .rejected => (.needIdr, state)
  | .noPicture => (.ok, state)
  | .picture frame =>
      (.ok,
        { state with
          memory := copyPicture (state.frames state.currentTexture) frame state.memory
          nextFrame := state.nextFrame + 1
          queue := state.queue.add state.currentTexture
          currentTexture := advanceTexture state.currentTexture })

/-! ## What belongs to whom -/

/-- The samples along a side of a plane that `wii_alloc_frames` makes room for. -/
def planeSide (side : Nat) : Plane → Nat
  | .y => side
  | .u => side / 2
  | .v => side / 2

/-- Those of a decoded picture. -/
def pictureSide (side : Nat) : Plane → Nat
  | .y => side
  | .u => (side + 1) / 2
  | .v => (side + 1) / 2

structure StreamSize where
  width : Int32
  height : Int32
  wide : 2 ≤ width.toInt ∧ width.toInt ≤ 8192
  high : 2 ≤ height.toInt ∧ height.toInt ≤ 8192

def planeBlock (size : StreamSize) (memalign : Fin numBuffers → Plane → UInt32)
    (index : Fin numBuffers) (plane : Plane) : Block :=
  ⟨(memalign index plane).toNat, (planeSize size.width size.height plane).toNat⟩

/-- The frames after a successful `wii_alloc_frames`. -/
structure Buffers (size : StreamSize) where
  memalign : Fin numBuffers → Plane → UInt32
  fits : ∀ index plane, (planeBlock size memalign index plane).start +
    (planeBlock size memalign index plane).size ≤ 4294967296
  apart : ∀ index plane other second, (index, plane) ≠ (other, second) →
    (planeBlock size memalign index plane).Apart (planeBlock size memalign other second)

def Buffers.frames {size : StreamSize} (buffers : Buffers size) : Fin numBuffers → Frame :=
  wiiAllocFrames buffers.memalign size.width size.height

def Buffers.block {size : StreamSize} (buffers : Buffers size) : Fin numBuffers → Plane → Block :=
  planeBlock size buffers.memalign

def AVFrame.sample (frame : AVFrame) (plane : Plane) (x y : Nat) : UInt32 :=
  frame.data plane + UInt32.ofNat y * (frame.linesize plane).toUInt32 + UInt32.ofNat x

def Frame.sample (fb : Frame) (plane : Plane) (x y : Nat) : UInt32 :=
  fb.plane plane + UInt32.ofNat y * fb.stride plane + UInt32.ofNat x

/-- A decoded picture, whose samples lie in none of the planes. -/
structure Picture {size : StreamSize} (buffers : Buffers size) extends AVFrame where
  wide : 0 < width.toInt
  high : 0 < height.toInt
  strides : ∀ plane, (pictureSide width.toInt.toNat plane : Int) ≤ (linesize plane).toInt
  apart : ∀ plane x y, x < pictureSide width.toInt.toNat plane →
    y < pictureSide height.toInt.toNat plane →
      ∀ index other, ¬ (buffers.block index other).Contains (toAVFrame.sample plane x y)

/-- The samples along a side that the picture and the stream have in common. -/
def sharedSide (own configured : Int32) : Plane → Nat :=
  planeSide (min own.toInt.toNat configured.toInt.toNat)

def padding : Plane → UInt8
  | .y => 0
  | .u => 0x80
  | .v => 0x80

/-- The planes of a frame are the common part of the picture, with padding behind its rows,
and nothing else has changed. -/
structure Copied {size : StreamSize} (buffers : Buffers size) (picture : Picture buffers)
    (index : Fin numBuffers) (before after : Memory UInt8) : Prop where
  inside : ∀ address, (∀ plane, ¬ (buffers.block index plane).Contains address) →
    after address = before address
  copied : ∀ plane x y, x < sharedSide picture.width size.width plane →
    y < sharedSide picture.height size.height plane →
      after ((buffers.frames index).sample plane x y) = before (picture.sample plane x y)
  padded : ∀ plane x y, sharedSide picture.width size.width plane ≤ x →
    x < ((buffers.frames index).stride plane).toNat →
      y < sharedSide picture.height size.height plane →
        after ((buffers.frames index).sample plane x y) = padding plane

/-! ## Sizes -/

section Sizes

variable {size : StreamSize} (buffers : Buffers size) (index : Fin numBuffers)

theorem StreamSize.height_toNat (size : StreamSize) :
    (size.height.toUInt32.toNat : Int) = size.height.toInt :=
  toUInt32_toNat_of_nonneg (by have high := size.high; omega)

theorem half_toNat {x : Int32} (nonneg : 0 ≤ x.toInt) :
    (x / 2).toUInt32.toNat = x.toInt.toNat / 2 := by
  have half := half_toInt nonneg
  have value := @toUInt32_toNat_of_nonneg (x / 2) (by omega)
  omega

theorem aligned_toNat {x : Int32} (nonneg : 0 ≤ x.toInt) (small : x.toInt ≤ 8192) :
    ((x + 7) &&& ~~~7).toUInt32.toNat = (x.toInt.toNat + 7) / 8 * 8 := by
  have word : ((x + 7) &&& ~~~7).toUInt32 = (x.toUInt32 + 7) &&& ~~~7 := rfl
  have value := toUInt32_toNat_of_nonneg nonneg
  have seven : (7 : UInt32).toNat = 7 := rfl
  rw [word, and_not_seven_toNat, UInt32.toNat_add, seven]
  omega

theorem half_aligned_toNat (size : StreamSize) :
    ((size.width / 2 + 7) &&& ~~~7).toUInt32.toNat =
      (size.width.toInt.toNat / 2 + 7) / 8 * 8 := by
  have wide := size.wide
  have half := @half_toInt size.width (by omega)
  have aligned := @aligned_toNat (size.width / 2) (by omega) (by omega)
  have value : (size.width / 2).toInt.toNat = size.width.toInt.toNat / 2 := by omega
  rwa [value] at aligned

/-- A stride is the length of a row in whole groups of eight. -/
theorem stride_toNat (plane : Plane) :
    ((buffers.frames index).stride plane).toNat =
      (planeSide size.width.toInt.toNat plane + 7) / 8 * 8 := by
  have wide := size.wide
  cases plane with
  | y => exact aligned_toNat (by omega) wide.2
  | u => exact half_aligned_toNat size
  | v => exact half_aligned_toNat size

theorem planeSide_le (side : Nat) (plane : Plane) : planeSide side plane ≤ side := by
  cases plane with
  | y => exact Nat.le_refl side
  | u => exact Nat.div_le_self side 2
  | v => exact Nat.div_le_self side 2

theorem planeSide_mono {side other : Nat} (below : side ≤ other) (plane : Plane) :
    planeSide side plane ≤ planeSide other plane := by
  cases plane with
  | y => exact below
  | u => exact Nat.div_le_div_right below
  | v => exact Nat.div_le_div_right below

theorem planeSide_le_stride (plane : Plane) :
    planeSide size.width.toInt.toNat plane ≤ ((buffers.frames index).stride plane).toNat := by
  have stride := stride_toNat buffers index plane
  omega

theorem stride_le (plane : Plane) :
    ((buffers.frames index).stride plane).toNat ≤ 8192 := by
  have stride := stride_toNat buffers index plane
  have side := planeSide_le size.width.toInt.toNat plane
  have wide := size.wide
  omega

/-- As many rows as the plane has samples along its height. -/
theorem block_size (plane : Plane) :
    (buffers.block index plane).size =
      ((buffers.frames index).stride plane).toNat * planeSide size.height.toInt.toNat plane := by
  have high := size.high
  have stride := stride_le buffers index plane
  have whole := size.height_toNat
  have half := @half_toNat size.height (by omega)
  have side := planeSide_le size.height.toInt.toNat plane
  have room : ((buffers.frames index).stride plane).toNat *
      planeSide size.height.toInt.toNat plane < 4294967296 :=
    calc ((buffers.frames index).stride plane).toNat * planeSide size.height.toInt.toNat plane
        ≤ 8192 * 8192 := Nat.mul_le_mul stride (by omega)
      _ < 4294967296 := by decide
  rw [← Nat.mod_eq_of_lt room]
  cases plane with
  | y =>
      have lines : size.height.toUInt32.toNat = size.height.toInt.toNat := by omega
      rw [planeSide, ← lines]
      exact UInt32.toNat_mul _ _
  | u =>
      rw [planeSide, ← half]
      exact UInt32.toNat_mul _ _
  | v =>
      rw [planeSide, ← half]
      exact UInt32.toNat_mul _ _

end Sizes

/-! ## The rows that are copied -/

/-- `w` or `h` for the luma plane, `hw` or `hh` for the others. -/
def copySide (whole : Int32) : Plane → Int32
  | .y => whole
  | .u => whole / 2
  | .v => whole / 2

/-- The rows in the order of the code, each with its plane. -/
def copiedRows (fb : Frame) (frame : AVFrame) : List (Plane × UInt32) :=
  let h := lesser frame.height fb.height
  (rowsBelow h).map (fun i => (.y, i)) ++
    (rowsBelow (h / 2)).flatMap fun i => [(.u, i), (.v, i)]

def copyStep (fb : Frame) (frame : AVFrame) (memory : Memory UInt8)
    (row : Plane × UInt32) : Memory UInt8 :=
  copyRow fb frame row.1 (padding row.1) (copySide (lesser frame.width fb.width) row.1) memory
    row.2

theorem copyPicture_rows (fb : Frame) (frame : AVFrame) (memory : Memory UInt8) :
    copyPicture fb frame memory = (copiedRows fb frame).foldl (copyStep fb frame) memory := by
  unfold copiedRows
  rw [List.foldl_append, List.foldl_map, List.foldl_flatMap]
  rfl

theorem mem_rowsBelow {h : Int32} {i : UInt32} : i ∈ rowsBelow h ↔ i.toNat < h.toInt.toNat := by
  have small := h.toInt_lt
  unfold rowsBelow
  rw [List.mem_map]
  constructor
  · rintro ⟨n, below, rfl⟩
    rw [List.mem_range] at below
    have value : (UInt32.ofNat n).toNat = n :=
      UInt32.toNat_ofNat_of_lt' (show _ < 4294967296 by omega)
    omega
  · intro below
    exact ⟨i.toNat, List.mem_range.mpr below, UInt32.ofNat_toNat⟩

theorem mem_copiedRows {fb : Frame} {frame : AVFrame} {plane : Plane} {i : UInt32} :
    (plane, i) ∈ copiedRows fb frame ↔
      i.toNat < (copySide (lesser frame.height fb.height) plane).toInt.toNat := by
  rw [← mem_rowsBelow]
  cases plane <;> simp [copiedRows, copySide]

/-! ## One row -/

def Frame.row (fb : Frame) (plane : Plane) (i : UInt32) : UInt32 :=
  fb.plane plane + i * fb.stride plane

def AVFrame.row (frame : AVFrame) (plane : Plane) (i : UInt32) : UInt32 :=
  frame.data plane + i * (frame.linesize plane).toUInt32

def Frame.InRow (fb : Frame) (plane : Plane) (i address : UInt32) : Prop :=
  address - fb.row plane i < fb.stride plane

def rowWidth (fb : Frame) (frame : AVFrame) (plane : Plane) : UInt32 :=
  (copySide (lesser frame.width fb.width) plane).toUInt32

/-- What the copy of a row leaves at an address of it. -/
def rowValue (fb : Frame) (frame : AVFrame) (memory : Memory UInt8) (plane : Plane)
    (i address : UInt32) : UInt8 :=
  if address - fb.row plane i < rowWidth fb frame plane then
    memory (frame.row plane i + (address - fb.row plane i))
  else padding plane

section Row

variable {fb : Frame} {frame : AVFrame} {plane : Plane}
  (fits : rowWidth fb frame plane ≤ fb.stride plane) (memory : Memory UInt8) {i address : UInt32}

include fits

theorem copyStep_inRow (placed : fb.InRow plane i address) :
    copyStep fb frame memory (plane, i) address = rowValue fb frame memory plane i address := by
  have both := @memset_memcpy _ memory (fb.row plane i) (frame.row plane i) _ _ address
    (padding plane) fits
  exact both.trans (if_pos placed)

theorem copyStep_outside (outside : ¬ fb.InRow plane i address) :
    copyStep fb frame memory (plane, i) address = memory address := by
  have both := @memset_memcpy _ memory (fb.row plane i) (frame.row plane i) _ _ address
    (padding plane) fits
  exact both.trans (if_neg outside)

end Row

/-! ## The rows of a plane -/

theorem copySide_toInt {whole : Int32} (nonneg : 0 ≤ whole.toInt) (plane : Plane) :
    (copySide whole plane).toInt = planeSide whole.toInt.toNat plane := by
  have half := half_toInt nonneg
  cases plane with
  | y => exact (Int.toNat_of_nonneg nonneg).symm
  | u =>
      rw [copySide, planeSide, half]
      omega
  | v =>
      rw [copySide, planeSide, half]
      omega

theorem lesser_toInt {own configured : Int32} (ownNonneg : 0 ≤ own.toInt)
    (nonneg : 0 ≤ configured.toInt) :
    (lesser own configured.toUInt32).toInt = min own.toInt configured.toInt := by
  have first := toUInt32_toNat_of_nonneg ownNonneg
  have second := toUInt32_toNat_of_nonneg nonneg
  unfold lesser
  by_cases less : own.toUInt32 < configured.toUInt32
  · rw [if_pos less]
    rw [UInt32.lt_iff_toNat_lt] at less
    omega
  · rw [if_neg less, Int32.toInt32_toUInt32]
    rw [UInt32.lt_iff_toNat_lt] at less
    omega

theorem copySide_lesser {own configured : Int32} (ownNonneg : 0 ≤ own.toInt)
    (nonneg : 0 ≤ configured.toInt) (plane : Plane) :
    (copySide (lesser own configured.toUInt32) plane).toInt =
      sharedSide own configured plane := by
  have whole := lesser_toInt ownNonneg nonneg
  have shared : (lesser own configured.toUInt32).toInt.toNat =
      min own.toInt.toNat configured.toInt.toNat := by omega
  rw [copySide_toInt (by omega), shared, sharedSide]

theorem sharedSide_le_own (own configured : Int32) (plane : Plane) :
    sharedSide own configured plane ≤ pictureSide own.toInt.toNat plane := by
  have below := planeSide_mono (Nat.min_le_left own.toInt.toNat configured.toInt.toNat) plane
  unfold sharedSide
  cases plane with
  | y => exact below
  | u => exact Nat.le_trans below (Nat.div_le_div_right (Nat.le_succ _))
  | v => exact Nat.le_trans below (Nat.div_le_div_right (Nat.le_succ _))

theorem sharedSide_le_configured (own configured : Int32) (plane : Plane) :
    sharedSide own configured plane ≤ planeSide configured.toInt.toNat plane :=
  planeSide_mono (Nat.min_le_right _ _) plane

section Rows

variable {size : StreamSize} (buffers : Buffers size) (index : Fin numBuffers)

theorem stride_pos (plane : Plane) : 0 < ((buffers.frames index).stride plane).toNat := by
  have wide := size.wide
  have stride := stride_toNat buffers index plane
  cases plane with
  | y =>
      rw [planeSide] at stride
      omega
  | u =>
      rw [planeSide] at stride
      omega
  | v =>
      rw [planeSide] at stride
      omega

variable {plane : Plane} {i : UInt32}

theorem rows_fit (line : i.toNat < planeSide size.height.toInt.toNat plane) :
    (i.toNat + 1) * ((buffers.frames index).stride plane).toNat ≤
      (buffers.block index plane).size := by
  rw [block_size, Nat.mul_comm]
  exact Nat.mul_le_mul_left _ line

theorem row_toNat (line : i.toNat < planeSide size.height.toInt.toNat plane) :
    ((buffers.frames index).row plane i).toNat = (buffers.block index plane).start +
      i.toNat * ((buffers.frames index).stride plane).toNat := by
  have fits : (buffers.block index plane).start + (buffers.block index plane).size ≤ 4294967296 :=
    buffers.fits index plane
  have rows := rows_fit buffers index line
  have positive := stride_pos buffers index plane
  have begins : ((buffers.frames index).plane plane).toNat =
    (buffers.block index plane).start := rfl
  unfold Frame.row
  rw [Nat.succ_mul] at rows
  rw [UInt32.toNat_add, UInt32.toNat_mul, begins]
  omega

/-- The addresses of a row lie in its plane, and the row is the quotient of the distance. -/
theorem inRow_contains (line : i.toNat < planeSide size.height.toInt.toNat plane)
    {address : UInt32} (placed : (buffers.frames index).InRow plane i address) :
    (buffers.block index plane).Contains address ∧
      (address.toNat - (buffers.block index plane).start) /
        ((buffers.frames index).stride plane).toNat = i.toNat := by
  have fits : (buffers.block index plane).start + (buffers.block index plane).size ≤ 4294967296 :=
    buffers.fits index plane
  have rows := rows_fit buffers index line
  have begins := row_toNat buffers index line
  rw [Nat.succ_mul] at rows
  have inside := (sub_lt_iff (by rw [begins]; omega)).mp placed
  rw [begins] at inside
  unfold Block.Contains at inside ⊢
  simp only at inside
  constructor
  · omega
  · apply Nat.div_eq_of_lt_le
    · omega
    · rw [Nat.succ_mul]
      omega

end Rows

/-! ## The whole picture -/

section Picture

variable {size : StreamSize} {buffers : Buffers size} (picture : Picture buffers)
  (index : Fin numBuffers)

theorem mem_pictureRows {plane : Plane} {i : UInt32} :
    (plane, i) ∈ copiedRows (buffers.frames index) picture.toAVFrame ↔
      i.toNat < sharedSide picture.height size.height plane := by
  have own := picture.high
  have high := size.high
  have side := @copySide_lesser picture.height size.height (by omega) (by omega) plane
  have configured : (buffers.frames index).height = size.height.toUInt32 := rfl
  rw [mem_copiedRows, configured, side, Int.toNat_natCast]

theorem rowWidth_toNat (plane : Plane) :
    (rowWidth (buffers.frames index) picture.toAVFrame plane).toNat =
      sharedSide picture.width size.width plane := by
  have own := picture.wide
  have wide := size.wide
  have side := @copySide_lesser picture.width size.width (by omega) (by omega) plane
  have configured : (buffers.frames index).width = size.width.toUInt32 := rfl
  have value := @toUInt32_toNat_of_nonneg
    (copySide (lesser picture.width size.width.toUInt32) plane) (by omega)
  rw [rowWidth, configured]
  omega

theorem rowWidth_le_stride (plane : Plane) :
    rowWidth (buffers.frames index) picture.toAVFrame plane ≤
      (buffers.frames index).stride plane := by
  have shared := sharedSide_le_configured picture.width size.width plane
  have stride := planeSide_le_stride buffers index plane
  rw [UInt32.le_iff_toNat_le, rowWidth_toNat]
  omega

/-- The bytes of the picture that are copied. -/
def Picture.Read (origin : UInt32) : Prop :=
  ∃ plane x y, x < sharedSide picture.width size.width plane ∧
    y < sharedSide picture.height size.height plane ∧ origin = picture.sample plane x y

theorem read_outside {origin : UInt32} (read : picture.Read origin) (other : Plane) :
    ¬ (buffers.block index other).Contains origin := by
  obtain ⟨plane, x, y, left, above, rfl⟩ := read
  have wide := sharedSide_le_own picture.width size.width plane
  have high := sharedSide_le_own picture.height size.height plane
  exact picture.apart plane x y (by omega) (by omega) index other

theorem copied_inside {plane : Plane} {i address : UInt32}
    (listed : (plane, i) ∈ copiedRows (buffers.frames index) picture.toAVFrame)
    (placed : (buffers.frames index).InRow plane i address) :
    (buffers.block index plane).Contains address ∧
      (address.toNat - (buffers.block index plane).start) /
        ((buffers.frames index).stride plane).toNat = i.toNat := by
  have line := (mem_pictureRows picture index).mp listed
  have below := sharedSide_le_configured picture.height size.height plane
  exact inRow_contains buffers index (by omega) placed

theorem rowValue_congr {plane : Plane} {i : UInt32}
    (listed : (plane, i) ∈ copiedRows (buffers.frames index) picture.toAVFrame)
    {memory other : Memory UInt8}
    (agree : ∀ origin, picture.Read origin → memory origin = other origin) (address : UInt32) :
    rowValue (buffers.frames index) picture.toAVFrame memory plane i address =
      rowValue (buffers.frames index) picture.toAVFrame other plane i address := by
  have line := (mem_pictureRows picture index).mp listed
  unfold rowValue
  by_cases copied : address - (buffers.frames index).row plane i <
      rowWidth (buffers.frames index) picture.toAVFrame plane
  · rw [if_pos copied, if_pos copied]
    rw [UInt32.lt_iff_toNat_lt, rowWidth_toNat] at copied
    apply agree
    refine ⟨plane, _, _, copied, line, ?_⟩
    rw [AVFrame.sample, UInt32.ofNat_toNat, UInt32.ofNat_toNat, AVFrame.row]
  · rw [if_neg copied, if_neg copied]

theorem copiedRows_separated :
    Separated (copyStep (buffers.frames index) picture.toAVFrame)
      (fun row => (buffers.frames index).InRow row.1 row.2) picture.Read
      (fun memory row => rowValue (buffers.frames index) picture.toAVFrame memory row.1 row.2)
      (copiedRows (buffers.frames index) picture.toAVFrame) where
  stores row _ memory _ placed :=
    copyStep_inRow (rowWidth_le_stride picture index row.1) memory placed
  keeps row _ memory _ outside :=
    copyStep_outside (rowWidth_le_stride picture index row.1) memory outside
  reads _ listed _ _ address _ agree := rowValue_congr picture index listed agree address
  apart := by
    intro first firstListed second secondListed address inFirst inSecond
    have one := copied_inside picture index firstListed inFirst
    have two := copied_inside picture index secondListed inSecond
    by_cases same : first.1 = second.1
    · have line := one.2
      rw [same, two.2] at line
      exact Prod.ext same (UInt32.toNat_inj.mp line.symm)
    · have away : (index, first.1) ≠ (index, second.1) := by
        intro equal
        exact same (Prod.ext_iff.mp equal).2
      exact absurd two.1 (apart_contains (buffers.apart index first.1 index second.1 away) one.1)
  unharmed row listed origin read placed :=
    read_outside picture index read row.1 (copied_inside picture index listed placed).1

theorem Frame.sample_sub (fb : Frame) (plane : Plane) (x y : Nat) :
    fb.sample plane x y - fb.row plane (UInt32.ofNat y) = UInt32.ofNat x := by
  rw [Frame.sample, Frame.row]
  grind

/-- A sample of a copied row holds what the copy of that row leaves there. -/
theorem copyPicture_sample (memory : Memory UInt8) {plane : Plane} {x y : Nat}
    (left : x < ((buffers.frames index).stride plane).toNat)
    (above : y < sharedSide picture.height size.height plane) :
    copyPicture (buffers.frames index) picture.toAVFrame memory
        ((buffers.frames index).sample plane x y) =
      if x < sharedSide picture.width size.width plane then
        memory (picture.sample plane x y)
      else padding plane := by
  have wide := stride_le buffers index plane
  have high := size.high
  have lines := sharedSide_le_configured picture.height size.height plane
  have side := planeSide_le size.height.toInt.toNat plane
  have column : (UInt32.ofNat x).toNat = x :=
    UInt32.toNat_ofNat_of_lt' (show _ < 4294967296 by omega)
  have line : (UInt32.ofNat y).toNat = y :=
    UInt32.toNat_ofNat_of_lt' (show _ < 4294967296 by omega)
  have distance := Frame.sample_sub (buffers.frames index) plane x y
  have listed : (plane, UInt32.ofNat y) ∈ copiedRows (buffers.frames index) picture.toAVFrame := by
    rw [mem_pictureRows, line]
    exact above
  have placed : (buffers.frames index).InRow plane (UInt32.ofNat y)
      ((buffers.frames index).sample plane x y) := by
    rw [Frame.InRow, distance, UInt32.lt_iff_toNat_lt, column]
    exact left
  rw [copyPicture_rows, (copiedRows_separated picture index).here memory listed placed]
  unfold rowValue
  rw [distance]
  simp only [UInt32.lt_iff_toNat_lt, column, rowWidth_toNat]
  rfl

theorem copyPicture_copied (memory : Memory UInt8) :
    Copied buffers picture index memory
      (copyPicture (buffers.frames index) picture.toAVFrame memory) where
  inside address away := by
    have outside : ∀ row ∈ copiedRows (buffers.frames index) picture.toAVFrame,
        ¬ (buffers.frames index).InRow row.1 row.2 address := by
      intro row listed placed
      exact away row.1 (copied_inside picture index listed placed).1
    rw [copyPicture_rows]
    exact (copiedRows_separated picture index).elsewhere memory outside
  copied plane x y left above := by
    have shared := sharedSide_le_configured picture.width size.width plane
    have stride := planeSide_le_stride buffers index plane
    rw [copyPicture_sample picture index memory (by omega) above, if_pos left]
  padded plane x y behind inside above := by
    rw [copyPicture_sample picture index memory inside above, if_neg (Nat.not_lt.mpr behind)]

/-- A decoded picture goes into the frame `currentTexture` and nowhere else. -/
theorem submitReply_copies (state : DecoderState) (configured : state.frames = buffers.frames) :
    (submitReply (.picture picture.toAVFrame) state).1 = .ok ∧
      (submitReply (.picture picture.toAVFrame) state).2.frames = state.frames ∧
      Copied buffers picture state.currentTexture state.memory
        (submitReply (.picture picture.toAVFrame) state).2.memory ∧
      ∀ other, other ≠ state.currentTexture → ∀ plane address,
        (buffers.block other plane).Contains address →
          (submitReply (.picture picture.toAVFrame) state).2.memory address =
            state.memory address := by
  have copied := copyPicture_copied picture state.currentTexture state.memory
  have memory : (submitReply (.picture picture.toAVFrame) state).2.memory =
      copyPicture (buffers.frames state.currentTexture) picture.toAVFrame state.memory := by
    rw [← configured]
    rfl
  rw [memory]
  refine ⟨rfl, rfl, copied, ?_⟩
  intro other different plane address held
  apply copied.inside address
  intro second
  apply apart_contains _ held
  apply buffers.apart
  intro equal
  exact different (Prod.ext_iff.mp equal).1

end Picture

/-! ## A picture of 3 x 3 for a stream of 5 x 4 -/

def smallSize : StreamSize := ⟨5, 4, by decide, by decide⟩

/-- Six places of 64 bytes, one after the other. -/
def smallPlace (index : Fin numBuffers) : Plane → Nat
  | .y => 3 * index.val
  | .u => 3 * index.val + 1
  | .v => 3 * index.val + 2

def smallMemalign (index : Fin numBuffers) (plane : Plane) : UInt32 :=
  UInt32.ofNat (4096 + 64 * smallPlace index plane)

theorem smallPlace_lt (index : Fin numBuffers) (plane : Plane) : smallPlace index plane < 6 := by
  cases plane <;> revert index <;> decide

theorem smallMemalign_toNat (index : Fin numBuffers) (plane : Plane) :
    (smallMemalign index plane).toNat = 4096 + 64 * smallPlace index plane := by
  have last := smallPlace_lt index plane
  exact UInt32.toNat_ofNat_of_lt' (show _ < 4294967296 by omega)

theorem smallSize_planes (plane : Plane) :
    (planeSize smallSize.width smallSize.height plane).toNat ≤ 64 := by
  cases plane <;> decide

def smallBuffers : Buffers smallSize where
  memalign := smallMemalign
  fits index plane := by
    have last := smallPlace_lt index plane
    have room := smallSize_planes plane
    simp only [planeBlock, smallMemalign_toNat]
    omega
  apart index plane other second different := by
    have first := smallSize_planes plane
    have behind := smallSize_planes second
    have places : smallPlace index plane ≠ smallPlace other second := by
      revert different
      cases plane <;> cases second <;> revert index other <;> decide
    simp only [Block.Apart, planeBlock, smallMemalign_toNat]
    omega

/-- A picture in the second 64 KiB, in rows of 16 bytes. -/
def smallFrame : AVFrame where
  width := 3
  height := 3
  data plane := match plane with
    | .y => 65536
    | .u => 65792
    | .v => 66048
  linesize _ := 16

theorem smallFrame_sample (plane : Plane) :
    ∀ x, x < 3 → ∀ y, y < 3 → 65536 ≤ (smallFrame.sample plane x y).toNat := by
  cases plane <;> decide

def smallPicture : Picture smallBuffers where
  toAVFrame := smallFrame
  wide := by decide
  high := by decide
  strides plane := by cases plane <;> decide
  apart plane x y left above index other held := by
    have wide : pictureSide smallFrame.width.toInt.toNat plane ≤ 3 := by cases plane <;> decide
    have high : pictureSide smallFrame.height.toInt.toNat plane ≤ 3 := by cases plane <;> decide
    have behind := smallFrame_sample plane x (Nat.lt_of_lt_of_le left wide) y
      (Nat.lt_of_lt_of_le above high)
    have last := smallPlace_lt index other
    have room := smallSize_planes other
    have start : (smallBuffers.block index other).start = 4096 + 64 * smallPlace index other :=
      smallMemalign_toNat index other
    have size : (smallBuffers.block index other).size =
      (planeSize smallSize.width smallSize.height other).toNat := rfl
    unfold Block.Contains at held
    omega

/-- Before the copy each byte is the low one of its address. -/
def smallState : DecoderState where
  memory address := address.toUInt8
  frames := smallBuffers.frames
  currentTexture := ⟨1, by decide⟩
  nextFrame := 7
  queue := LiveQueue.reset fun _ => ⟨0, numBuffers_pos⟩

theorem submitReply_copies_small :
    (submitReply (.picture smallPicture.toAVFrame) smallState).1 = .ok ∧
      Copied smallBuffers smallPicture ⟨1, by decide⟩ smallState.memory
        (submitReply (.picture smallPicture.toAVFrame) smallState).2.memory :=
  have copies := submitReply_copies smallPicture smallState rfl
  ⟨copies.1, copies.2.2.1⟩

/-- The second sample of the second row, and the first byte behind that row. -/
example :
    let memory := (submitReply (.picture smallPicture.toAVFrame) smallState).2.memory
    (memory 4297, memory 4299) = (17, 0) := by
  decide

end MoonlightWii.Wii.FrameCopy
