import MoonlightWii.Wii.FrameQueue

/-!
# Decoding one unit (`decode.c`)

The codec is external: its reply to one packet is a parameter.  A decoded
picture is copied row by row into the frame buffer `currentTexture`; the copy is
given as the list of the single-byte stores that the `memcpy` and `memset`
calls make, in their order, so that another thread can run between any two.
-/

set_option autoImplicit false

namespace MoonlightWii.Wii.Decoder

open MoonlightWii.Wii.FrameQueue

def decoderBufferSize : Nat := 92 * 1024

inductive Plane where
  | y
  | u
  | v
  deriving DecidableEq, Repr

/-- The bytes behind the three plane pointers of a `frame_t`. -/
abbrev Picture := Plane → Nat → UInt8

/-- `(n + 7) & ~7` on a value that is not negative. -/
def alignUp8 (n : Nat) : Nat := (n + 7) / 8 * 8

structure FrameLayout where
  width : Nat
  height : Nat
  ystride : Nat
  uvstride : Nat

def wiiAllocFrames (width height : Nat) : FrameLayout where
  width := width
  height := height
  ystride := alignUp8 width
  uvstride := alignUp8 (width / 2)

def FrameLayout.stride (fb : FrameLayout) : Plane → Nat
  | .y => fb.ystride
  | .u => fb.uvstride
  | .v => fb.uvstride

/-- Bytes that `wii_alloc_frames` reserves for each plane. -/
def FrameLayout.planeSize (fb : FrameLayout) : Plane → Nat
  | .y => fb.ystride * fb.height
  | .u => fb.uvstride * (fb.height / 2)
  | .v => fb.uvstride * (fb.height / 2)

structure AVFrame where
  width : Nat
  height : Nat
  linesize : Plane → Nat
  data : Picture

inductive DecodeReply where
  | rejected
  | noPicture
  | picture (frame : AVFrame)

structure DecodeUnit where
  fullLength : Nat
  bufferList : List (List UInt8)

inductive DrStatus where
  | ok
  | needIdr
  deriving DecidableEq, Repr

structure UnitOutcome where
  status : DrStatus
  handed : Option (List UInt8)
  picture : Option AVFrame

/-- `wii_decoder_submit_decode_unit` up to the copy: the status it will return,
the packet it hands to the codec, and the picture it goes on to copy. -/
def submitDecodeUnit (avcodecDecodeVideo2 : List UInt8 → DecodeReply)
    (decodeUnit : DecodeUnit) : UnitOutcome :=
  if decoderBufferSize < decodeUnit.fullLength then
    ⟨.ok, none, none⟩
  else
    let pkt := decodeUnit.bufferList.flatten
    match avcodecDecodeVideo2 pkt with
    | .rejected => ⟨.needIdr, some pkt, none⟩
    | .noPicture => ⟨.ok, some pkt, none⟩
    | .picture frame => ⟨.ok, some pkt, some frame⟩

structure Store where
  plane : Plane
  offset : Nat
  value : UInt8

/-- `memcpy` of `width` bytes of one row, then `memset` up to the stride. -/
def rowStores (fb : FrameLayout) (frame : AVFrame) (plane : Plane) (pad : UInt8)
    (width row : Nat) : List Store :=
  (List.range width).map (fun column =>
    ⟨plane, row * fb.stride plane + column,
      frame.data plane (row * frame.linesize plane + column)⟩) ++
  (List.range (fb.stride plane - width)).map (fun column =>
    ⟨plane, row * fb.stride plane + width + column, pad⟩)

def copyStores (fb : FrameLayout) (frame : AVFrame) : List Store :=
  let w := min frame.width fb.width
  let h := min frame.height fb.height
  let hw := w / 2
  let hh := h / 2
  (List.range h).flatMap (rowStores fb frame .y 0 w) ++
  (List.range hh).flatMap (fun row =>
    rowStores fb frame .u 0x80 hw row ++ rowStores fb frame .v 0x80 hw row)

def store (memory : Picture) (cell : Store) : Picture := fun plane offset =>
  if plane = cell.plane ∧ offset = cell.offset then cell.value else memory plane offset

/-- `currentTexture++`, back to 0 at `NUM_BUFFERS`. -/
def advanceTexture (currentTexture : Fin numBuffers) : Fin numBuffers :=
  if next : currentTexture.val + 1 < numBuffers then ⟨currentTexture.val + 1, next⟩
  else ⟨0, by decide⟩

theorem advanceTexture_ne (currentTexture : Fin numBuffers) :
    advanceTexture currentTexture ≠ currentTexture := by
  revert currentTexture
  decide

theorem advanceTexture_twice (currentTexture : Fin numBuffers) :
    advanceTexture (advanceTexture currentTexture) = currentTexture := by
  revert currentTexture
  decide

end MoonlightWii.Wii.Decoder
