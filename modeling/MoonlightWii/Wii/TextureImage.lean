import Mathlib.Tactic.Ring
import MoonlightWii.Foundation.ByteMemory
import MoonlightWii.Foundation.GuardedRun
import MoonlightWii.Wii.YuvTexture

/-!
# What the luma textures show (`gx_video.c`)

The stores of `GX_FillTextureYUV` applied to the texture memory, which is cleared
once and then used for every size.  A texel of `GX_TF_I8` lies in a tile of eight
columns and four rows; the colour of a pixel is the sum of a texel of the left luma
texture and one of the right.
-/

set_option autoImplicit false

namespace MoonlightWii.Wii.TextureImage

open Foundation.ByteMemory
open Foundation.GuardedRun
open MoonlightWii.Wii.Decoder (Picture Plane alignUp8)
open MoonlightWii.Wii.YuvTexture

/-! ## Stores -/

abbrev TextureMemory := Texture → Nat → UInt8

/-- What a store does to the bytes of its texture. -/
def writeStore (picture : Picture) (bytes : Nat → UInt8) : Store → Nat → UInt8
  | .dcbz _ line => writeBytes bytes line (List.replicate 32 0)
  | .copy _ dst plane src => writeBytes bytes dst (readBytes (picture plane) src 8)

def applyStore (picture : Picture) (memory : TextureMemory) (store : Store) : TextureMemory :=
  fun texture =>
    if store.texture = texture then writeStore picture (memory texture) store
    else memory texture

def applyStores (picture : Picture) (memory : TextureMemory) (stores : List Store) :
    TextureMemory :=
  stores.foldl (applyStore picture) memory

/-- `gx_video_alloc_texture_memory` -/
def clearedTextures : TextureMemory
  | .yl, _ => 0
  | .yr, _ => 0
  | .u, _ => 0x80
  | .v, _ => 0x80

/-! ## Runs -/

/-- A call of `GX_FillTextureYUV`, and the configuration that it finds. -/
structure Fill where
  video : YuvState
  picture : Picture
  ystride : Nat

structure State where
  video : YuvState
  memory : TextureMemory
  filled : Option Fill

inductive Event where
  | config (width height : Nat)
  | draw (picture : Picture) (ystride uvstride : Nat)

def step (state : State) : Event → Option State
  | .config width height =>
      some { state with video := gxVideoConfigYuv state.video width height }
  | .draw picture ystride uvstride =>
      some {
        video := updateRowPitch state.video ystride uvstride
        memory := applyStores picture state.memory (gxFillTextureYUV state.video ystride uvstride)
        filled := some ⟨state.video, picture, ystride⟩ }

def start : State := ⟨unconfigured, clearedTextures, none⟩

/-! ## The picture in the textures -/

/-- A texel of a texture of this width in the format `GX_TF_I8`. -/
def texel (bytes : Nat → UInt8) (width x y : Nat) : UInt8 :=
  bytes ((y / 4 * (width / 8) + x / 8) * 32 + y % 4 * 8 + x % 8)

def leftTexel (fill : Fill) (memory : TextureMemory) (x y : Nat) : UInt8 :=
  texel (memory .yl) fill.video.ylWidth x y

def rightTexel (fill : Fill) (memory : TextureMemory) (x y : Nat) : UInt8 :=
  texel (memory .yr) fill.video.yrWidth x y

/-- The padding columns of both luma textures are black, and the two textures add up
to the luma of the frame. -/
structure LumaShown (fill : Fill) (memory : TextureMemory) : Prop where
  leftPadding : ∀ x y, 1016 ≤ x → x ≤ 1023 → y < fill.video.size.yHeight →
    leftTexel fill memory x y = 0
  rightPadding : ∀ x y, x ≤ 7 → y < fill.video.size.yHeight → rightTexel fill memory x y = 0
  sum : ∀ x y, x < fill.video.yuvCfgW → y < fill.video.yuvCfgH →
    (leftTexel fill memory (min x 1023) y).toNat +
      (rightTexel fill memory (x - 1008) y).toNat =
        (fill.picture .y (y * fill.ystride + x)).toNat

/-- The frame filled last is shown, if it is wider than the left texture. -/
def WideFrameShown (state : State) : Prop :=
  ∀ fill ∈ state.filled, 1024 < fill.video.yuvCfgW → LumaShown fill state.memory

/-! ## One texture -/

/-- The effect on one texture is that of the stores to it. -/
theorem applyStores_texture (picture : Picture) (memory : TextureMemory) (stores : List Store)
    (texture : Texture) :
    applyStores picture memory stores texture =
      (stores.filter fun store => store.texture = texture).foldl (writeStore picture)
        (memory texture) := by
  induction stores generalizing memory with
  | nil => rfl
  | cons store stores ih =>
      have later := ih (applyStore picture memory store)
      rw [applyStores, List.foldl_cons]
      rw [applyStores] at later
      rw [later]
      by_cases same : store.texture = texture
      · rw [List.filter_cons_of_pos (by simpa using same), List.foldl_cons, applyStore,
          if_pos same]
      · rw [List.filter_cons_of_neg (by simpa using same), applyStore, if_neg same]

/-- Rows of tiles in one texture, with a gap after each row. -/
def tileRows (texture : Texture) (tiles gap advance : Nat) :
    Nat → Nat → (Fin 4 → Nat) → List Store
  | 0, _, _ => []
  | rows + 1, dst, src =>
      lumaTiles texture tiles dst src ++
        tileRows texture tiles gap advance rows (dst + 32 * tiles + gap) fun row =>
          src row + advance

theorem lumaTiles_texture (texture : Texture) (tiles dst : Nat) (src : Fin 4 → Nat) :
    ∀ store ∈ lumaTiles texture tiles dst src, store.texture = texture :=
  fun store member => (lumaTiles_stop texture tiles dst src store member).1

theorem lumaTiles_same (texture : Texture) (tiles dst : Nat) (src : Fin 4 → Nat) :
    (lumaTiles texture tiles dst src).filter (fun store => store.texture = texture) =
      lumaTiles texture tiles dst src := by
  rw [List.filter_eq_self]
  intro store member
  exact decide_eq_true (lumaTiles_texture texture tiles dst src store member)

theorem lumaTiles_other {texture other : Texture} (distinct : texture ≠ other) (tiles dst : Nat)
    (src : Fin 4 → Nat) :
    (lumaTiles texture tiles dst src).filter (fun store => store.texture = other) = [] := by
  rw [List.filter_eq_nil_iff]
  intro store member same
  rw [decide_eq_true_eq, lumaTiles_texture texture tiles dst src store member] at same
  exact distinct same

/-- The bytes that one row of tiles advances a source pointer by. -/
def lumaAdvance (video : YuvState) : Nat :=
  8 * video.size.wl + 8 * video.size.wr + video.yRowPitch

theorem lumaRows_left (video : YuvState) (split : 0 < video.size.wr) (rows yldst yrdst : Nat)
    (ysrc : Fin 4 → Nat) :
    (lumaRows video rows yldst yrdst ysrc).filter (fun store => store.texture = .yl) =
      tileRows .yl video.size.wl 32 (lumaAdvance video) rows yldst ysrc := by
  induction rows generalizing yldst yrdst ysrc with
  | zero => rfl
  | succ rows ih =>
      simp only [lumaRows, if_pos split, List.filter_append, lumaTiles_same,
        lumaTiles_other (show Texture.yr ≠ Texture.yl by decide), List.append_nil, ih, tileRows]
      congr 2
      funext row
      rw [lumaAdvance]
      omega

theorem lumaRows_right (video : YuvState) (split : 0 < video.size.wr) (rows yldst yrdst : Nat)
    (ysrc : Fin 4 → Nat) :
    (lumaRows video rows yldst yrdst ysrc).filter (fun store => store.texture = .yr) =
      tileRows .yr video.size.wr 32 (lumaAdvance video) rows yrdst fun row =>
        ysrc row + 8 * video.size.wl := by
  induction rows generalizing yldst yrdst ysrc with
  | zero => rfl
  | succ rows ih =>
      simp only [lumaRows, if_pos split, List.filter_append, lumaTiles_same,
        lumaTiles_other (show Texture.yl ≠ Texture.yr by decide), List.nil_append, ih, tileRows]
      congr 2
      funext row
      rw [lumaAdvance]
      omega

theorem lumaRows_narrow (video : YuvState) (whole : video.size.wr = 0) (rows yldst yrdst : Nat)
    (ysrc : Fin 4 → Nat) :
    lumaRows video rows yldst yrdst ysrc =
      tileRows .yl video.size.wl 0 (8 * video.size.wl + video.yRowPitch) rows yldst ysrc := by
  have unsplit : ¬0 < video.size.wr := by omega
  induction rows generalizing yldst yrdst ysrc with
  | zero => rfl
  | succ rows ih =>
      simp only [lumaRows, if_neg unsplit, ih, tileRows]
      congr 2
      funext row
      omega

theorem chromaCopy_luma (video : YuvState) (uvstride : Nat) {texture : Texture}
    (luma : texture = .yl ∨ texture = .yr) :
    (chromaCopy video uvstride).filter (fun store => store.texture = texture) = [] := by
  rw [List.filter_eq_nil_iff]
  intro store member same
  rw [decide_eq_true_eq] at same
  rcases (chromaRows_stop video _ _ _ store member).1 with chroma | chroma <;>
    rcases luma with rfl | rfl <;> cases chroma.symm.trans same

/-! ## The bytes that a row of tiles stores -/

section Bytes

variable (picture : Picture) (bytes : Nat → UInt8)

def write (stores : List Store) : Nat → UInt8 := stores.foldl (writeStore picture) bytes

theorem write_append (first later : List Store) :
    write picture bytes (first ++ later) = write picture (write picture bytes first) later :=
  List.foldl_append

theorem copyTile_write (texture : Texture) {dst : Nat} (src : Fin 4 → Nat) (aligned : 32 ∣ dst) :
    write picture bytes (copyTile texture .y dst src) = fun offset =>
      if dst + 24 ≤ offset ∧ offset < dst + 24 + 8 then picture .y (src 3 + (offset - (dst + 24)))
      else if dst + 16 ≤ offset ∧ offset < dst + 16 + 8 then
        picture .y (src 2 + (offset - (dst + 16)))
      else if dst + 8 ≤ offset ∧ offset < dst + 8 + 8 then
        picture .y (src 1 + (offset - (dst + 8)))
      else if dst ≤ offset ∧ offset < dst + 8 then picture .y (src 0 + (offset - dst))
      else writeBytes bytes dst (List.replicate 32 0) offset := by
  obtain ⟨line, rfl⟩ := aligned
  have start : 32 * line / 32 * 32 = 32 * line := by omega
  funext offset
  simp only [write, copyTile, List.foldl_cons, List.foldl_nil, writeStore, writeBytes_readBytes,
    start]

/-- A tile holds eight bytes of each of its four rows. -/
theorem copyTile_at (texture : Texture) {dst : Nat} (src : Fin 4 → Nat) (aligned : 32 ∣ dst)
    (row : Fin 4) {column : Nat} (inside : column < 8) :
    write picture bytes (copyTile texture .y dst src) (dst + 8 * row + column) =
      picture .y (src row + column) := by
  rw [copyTile_write picture bytes texture src aligned]
  match row with
  | 0 =>
      simp only [Fin.val_zero]
      rw [if_neg (by omega), if_neg (by omega), if_neg (by omega), if_pos (by omega)]
      congr 2
      omega
  | 1 =>
      simp only [Fin.val_one]
      rw [if_neg (by omega), if_neg (by omega), if_pos (by omega)]
      congr 2
      omega
  | 2 =>
      simp only [Fin.val_two]
      rw [if_neg (by omega), if_pos (by omega)]
      congr 2
      omega
  | 3 =>
      have three : ((3 : Fin 4) : Nat) = 3 := rfl
      simp only [three]
      rw [if_pos (by omega)]
      congr 2
      omega

theorem copyTile_outside (texture : Texture) {dst : Nat} (src : Fin 4 → Nat) (aligned : 32 ∣ dst)
    {offset : Nat} (outside : offset < dst ∨ dst + 32 ≤ offset) :
    write picture bytes (copyTile texture .y dst src) offset = bytes offset := by
  rw [copyTile_write picture bytes texture src aligned]
  simp only
  rw [if_neg (by omega), if_neg (by omega), if_neg (by omega), if_neg (by omega)]
  rcases outside with before | after
  · exact writeBytes_before bytes dst offset _ before
  · apply writeBytes_after
    rw [List.length_replicate]
    exact after

theorem lumaTiles_outside (texture : Texture) (tiles : Nat) {dst : Nat} (src : Fin 4 → Nat)
    (aligned : 32 ∣ dst) {offset : Nat} (outside : offset < dst ∨ dst + 32 * tiles ≤ offset) :
    write picture bytes (lumaTiles texture tiles dst src) offset = bytes offset := by
  induction tiles generalizing bytes dst src with
  | zero => rfl
  | succ tiles ih =>
      rw [lumaTiles, write_append, ih _ _ (by omega) (by omega)]
      exact copyTile_outside picture bytes texture src aligned (by omega)

theorem lumaTiles_at (texture : Texture) {tiles dst : Nat} (src : Fin 4 → Nat)
    (aligned : 32 ∣ dst) {tile : Nat} (listed : tile < tiles) (row : Fin 4) {column : Nat}
    (inside : column < 8) :
    write picture bytes (lumaTiles texture tiles dst src) (dst + 32 * tile + 8 * row + column) =
      picture .y (src row + 8 * tile + column) := by
  have low : (row : Nat) < 4 := row.isLt
  induction tiles generalizing bytes dst src tile with
  | zero => cases listed
  | succ tiles ih =>
      rw [lumaTiles, write_append]
      cases tile with
      | zero =>
          rw [lumaTiles_outside picture _ texture tiles _ (by omega) (.inl (by omega))]
          exact copyTile_at picture bytes texture src aligned row inside
      | succ tile =>
          have later := ih (write picture bytes (copyTile texture .y dst src))
            (fun row => src row + 8) (by omega : 32 ∣ dst + 32) (by omega : tile < tiles)
          have place : dst + 32 * (tile + 1) + 8 * row + column =
              dst + 32 + 32 * tile + 8 * row + column := by
            omega
          rw [place, later]
          congr 1
          omega

/-- Rows of tiles leave the bytes before them alone. -/
theorem tileRows_before (texture : Texture) (tiles : Nat) {gap : Nat} (advance rows : Nat)
    {dst : Nat} (src : Fin 4 → Nat) (aligned : 32 ∣ dst) (gapAligned : 32 ∣ gap) {offset : Nat}
    (before : offset < dst) :
    write picture bytes (tileRows texture tiles gap advance rows dst src) offset =
      bytes offset := by
  induction rows generalizing bytes dst src with
  | zero => rfl
  | succ rows ih =>
      rw [tileRows, write_append, ih _ _ (by omega) (by omega)]
      exact lumaTiles_outside picture bytes texture tiles src aligned (.inl before)

theorem tileRows_at (texture : Texture) {tiles gap : Nat} (advance : Nat) {rows dst : Nat}
    (src : Fin 4 → Nat) (aligned : 32 ∣ dst) (gapAligned : 32 ∣ gap) {tileRow tile : Nat}
    (rowListed : tileRow < rows) (listed : tile < tiles) (row : Fin 4) {column : Nat}
    (inside : column < 8) :
    write picture bytes (tileRows texture tiles gap advance rows dst src)
        (dst + tileRow * (32 * tiles + gap) + 32 * tile + 8 * row + column) =
      picture .y (src row + tileRow * advance + 8 * tile + column) := by
  have low : (row : Nat) < 4 := row.isLt
  induction rows generalizing bytes dst src tileRow with
  | zero => cases rowListed
  | succ rows ih =>
      rw [tileRows, write_append]
      cases tileRow with
      | zero =>
          rw [tileRows_before picture _ texture tiles advance rows _ (by omega) gapAligned
            (by omega)]
          simp only [Nat.zero_mul, Nat.add_zero]
          exact lumaTiles_at picture bytes texture src aligned listed row inside
      | succ tileRow =>
          have later := ih (write picture bytes (lumaTiles texture tiles dst src))
            (fun row => src row + advance) (by omega : 32 ∣ dst + 32 * tiles + gap)
            (by omega : tileRow < rows)
          have place : dst + (tileRow + 1) * (32 * tiles + gap) + 32 * tile + 8 * row + column =
              dst + 32 * tiles + gap + tileRow * (32 * tiles + gap) + 32 * tile + 8 * row +
                column := by
            rw [Nat.succ_mul tileRow]
            omega
          rw [place, later, Nat.succ_mul tileRow advance]
          congr 1
          omega

/-- The gaps after the rows keep what they held. -/
theorem tileRows_gap (texture : Texture) (tiles : Nat) {gap : Nat} (advance : Nat) {rows dst : Nat}
    (src : Fin 4 → Nat) (aligned : 32 ∣ dst) (gapAligned : 32 ∣ gap) {tileRow index : Nat}
    (rowListed : tileRow < rows) (inside : index < gap) :
    write picture bytes (tileRows texture tiles gap advance rows dst src)
        (dst + tileRow * (32 * tiles + gap) + 32 * tiles + index) =
      bytes (dst + tileRow * (32 * tiles + gap) + 32 * tiles + index) := by
  induction rows generalizing bytes dst src tileRow with
  | zero => cases rowListed
  | succ rows ih =>
      rw [tileRows, write_append]
      cases tileRow with
      | zero =>
          rw [tileRows_before picture _ texture tiles advance rows _ (by omega) gapAligned
            (by omega)]
          exact lumaTiles_outside picture bytes texture tiles src aligned (.inr (by omega))
      | succ tileRow =>
          have later := ih (write picture bytes (lumaTiles texture tiles dst src))
            (fun row => src row + advance) (by omega : 32 ∣ dst + 32 * tiles + gap)
            (by omega : tileRow < rows)
          have place : dst + (tileRow + 1) * (32 * tiles + gap) + 32 * tiles + index =
              dst + 32 * tiles + gap + tileRow * (32 * tiles + gap) + 32 * tiles + index := by
            rw [Nat.succ_mul tileRow]
            omega
          rw [place, later]
          exact lumaTiles_outside picture bytes texture tiles src aligned (.inr (by omega))

end Bytes

/-! ## A fill in the split case -/

theorem fill_left {video : YuvState} (split : 0 < video.size.wr) (picture : Picture)
    (memory : TextureMemory) (ystride uvstride : Nat) :
    applyStores picture memory (gxFillTextureYUV video ystride uvstride) .yl =
      write picture (memory .yl)
        (tileRows .yl video.size.wl 32 (lumaAdvance (updateRowPitch video ystride uvstride))
          (video.size.yHeight / 4) 0 fun row => ystride * row) := by
  have pitched : 0 < (updateRowPitch video ystride uvstride).size.wr := by
    rw [updateRowPitch_size]
    exact split
  rw [applyStores_texture, gxFillTextureYUV, List.filter_append, chromaCopy_luma _ _ (.inl rfl),
    List.append_nil, lumaCopy, lumaRows_left _ pitched, updateRowPitch_size]
  rfl

theorem fill_right {video : YuvState} (split : 0 < video.size.wr) (picture : Picture)
    (memory : TextureMemory) (ystride uvstride : Nat) :
    applyStores picture memory (gxFillTextureYUV video ystride uvstride) .yr =
      write picture (memory .yr)
        (tileRows .yr video.size.wr 32 (lumaAdvance (updateRowPitch video ystride uvstride))
          (video.size.yHeight / 4) 32 fun row => ystride * row + 8 * video.size.wl) := by
  have pitched : 0 < (updateRowPitch video ystride uvstride).size.wr := by
    rw [updateRowPitch_size]
    exact split
  rw [applyStores_texture, gxFillTextureYUV, List.filter_append, chromaCopy_luma _ _ (.inr rfl),
    List.append_nil, lumaCopy, lumaRows_right _ pitched, updateRowPitch_size]
  rfl

/-- The padding tiles of both luma textures are black. -/
def PaddingBlack (size : Geometry) (memory : TextureMemory) : Prop :=
  0 < size.wr → ∀ tileRow index, tileRow < size.yHeight / 4 → index < 32 →
    memory .yl (tileRow * (32 * size.wl + 32) + 32 * size.wl + index) = 0 ∧
      memory .yr (tileRow * (32 * size.wr + 32) + index) = 0

/-- The fill skips the padding tiles. -/
theorem paddingBlack_fill {video : YuvState} {memory : TextureMemory} (picture : Picture)
    (ystride uvstride : Nat) (black : PaddingBlack video.size memory) :
    PaddingBlack video.size
      (applyStores picture memory (gxFillTextureYUV video ystride uvstride)) := by
  intro split tileRow index listed inside
  rw [fill_left split, fill_right split]
  constructor
  · have kept := tileRows_gap picture (memory .yl) .yl video.size.wl
      (lumaAdvance (updateRowPitch video ystride uvstride)) (fun row => ystride * row)
      (Nat.dvd_zero 32) (Nat.dvd_refl 32) listed inside
    rw [Nat.zero_add] at kept
    exact kept.trans (black split tileRow index listed inside).1
  · have before := (black split tileRow index listed inside).2
    cases tileRow with
    | zero =>
        rw [tileRows_before picture (memory .yr) .yr _ _ _ _ (Nat.dvd_refl 32) (Nat.dvd_refl 32)
          (by omega)]
        exact before
    | succ tileRow =>
        have kept := tileRows_gap picture (memory .yr) .yr video.size.wr
          (lumaAdvance (updateRowPitch video ystride uvstride))
          (fun row => ystride * row + 8 * video.size.wl)
          (Nat.dvd_refl 32) (Nat.dvd_refl 32) (by omega : tileRow < video.size.yHeight / 4) inside
        have place : 32 + tileRow * (32 * video.size.wr + 32) + 32 * video.size.wr + index =
            (tileRow + 1) * (32 * video.size.wr + 32) + index := by
          rw [Nat.succ_mul tileRow]
          omega
        rw [place] at kept
        exact kept.trans before

/-! ## Sizes of the split case -/

/-- The sizes of the textures for a frame that is wider than the left one. -/
structure Wide (video : YuvState) : Prop where
  yWidth : video.size.yWidth = alignUp8 video.yuvCfgW
  columns : 1024 < video.yuvCfgW
  rows : video.yuvCfgH ≤ video.size.yHeight
  wholeRows : 4 ∣ video.size.yHeight
  wl : video.size.wl = 127
  wr : video.size.wr + 127 = video.size.yWidth / 8
  ylWidth : video.ylWidth = 1024
  yrWidth : video.yrWidth = 8 * (video.size.wr + 1)

theorem Wide.split {video : YuvState} (wide : Wide video) : 0 < video.size.wr := by
  have columns := wide.columns
  have tiles := wide.wr
  rw [wide.yWidth, alignUp8] at tiles
  omega

section WideFill

variable (fill : Fill) (memory : TextureMemory)

theorem leftTexel_offset (wide : Wide fill.video) (x y : Nat) :
    leftTexel fill memory x y =
      memory .yl (y / 4 * (32 * fill.video.size.wl + 32) + 32 * (x / 8) + 8 * (y % 4) + x % 8) := by
  rw [leftTexel, texel, wide.ylWidth, wide.wl]
  congr 1
  omega

theorem rightTexel_offset (wide : Wide fill.video) (x y : Nat) :
    rightTexel fill memory x y =
      memory .yr (y / 4 * (32 * fill.video.size.wr + 32) + 32 * (x / 8) + 8 * (y % 4) + x % 8) := by
  rw [rightTexel, texel, wide.yrWidth, Nat.mul_div_cancel_left _ (by decide : 0 < 8)]
  congr 1
  have pitch : y / 4 * (32 * fill.video.size.wr + 32) =
      y / 4 * (fill.video.size.wr + 1) * 32 := by
    rw [Nat.mul_assoc]
    congr 1
    omega
  omega

variable {fill memory} {x y : Nat}

theorem leftPadding_black (wide : Wide fill.video)
    (black : PaddingBlack fill.video.size memory) (first : 1016 ≤ x) (last : x ≤ 1023)
    (inside : y < fill.video.size.yHeight) : leftTexel fill memory x y = 0 := by
  have rows := wide.wholeRows
  have padding := (black wide.split (y / 4) (8 * (y % 4) + x % 8) (by omega) (by omega)).1
  rw [leftTexel_offset fill memory wide, show x / 8 = fill.video.size.wl by rw [wide.wl]; omega,
    Nat.add_assoc]
  exact padding

theorem rightPadding_black (wide : Wide fill.video)
    (black : PaddingBlack fill.video.size memory) (last : x ≤ 7)
    (inside : y < fill.video.size.yHeight) :
    rightTexel fill memory x y = 0 := by
  have rows := wide.wholeRows
  have padding := (black wide.split (y / 4) (8 * (y % 4) + x % 8) (by omega) (by omega)).2
  rw [rightTexel_offset fill memory wide, show x / 8 = 0 by omega, Nat.mul_zero, Nat.add_zero,
    Nat.add_assoc]
  exact padding

end WideFill

/-! ## The pitch of the source rows -/

/-- The pitch is the one of the last strides, or will be computed anew. -/
def PitchCurrent (video : YuvState) : Prop :=
  (video.st0 = 0 ∧ video.st1 = 0) ∨
    video.yRowPitch = u16 (video.st0 * 4 - video.size.yWidth)

/-- The pitch of the source rows fits its 16 bits, or there is one row of tiles. -/
def PitchFits (video : YuvState) (ystride : Nat) : Prop :=
  video.size.yHeight ≤ 4 ∨
    (video.size.yWidth ≤ 4 * ystride ∧ 4 * ystride < video.size.yWidth + 65536)

theorem updateRowPitch_current {video : YuvState} (current : PitchCurrent video)
    (ystride uvstride : Nat) : PitchCurrent (updateRowPitch video ystride uvstride) := by
  unfold updateRowPitch
  split
  · exact .inr rfl
  · exact current

/-- The sources of a row of tiles follow those of the row above by four lines. -/
theorem tileRow_advance {video : YuvState} (wide : Wide video) (current : PitchCurrent video)
    {ystride : Nat} (uvstride : Nat) (fits : PitchFits video ystride) {tileRow : Nat}
    (listed : tileRow < video.size.yHeight / 4) :
    tileRow * lumaAdvance (updateRowPitch video ystride uvstride) = tileRow * (4 * ystride) := by
  rcases fits with flat | ⟨low, high⟩
  · have first : tileRow = 0 := by omega
    rw [first, Nat.zero_mul, Nat.zero_mul]
  · have width : video.size.yWidth = 8 * video.size.wl + 8 * video.size.wr := by
      have tiles := wide.wr
      have aligned := wide.yWidth
      rw [alignUp8] at aligned
      rw [wide.wl]
      omega
    have columns := wide.columns
    have split := wide.split
    have pitch : (updateRowPitch video ystride uvstride).yRowPitch =
        4 * ystride - video.size.yWidth := by
      unfold updateRowPitch
      split
      · simp only [u16]
        omega
      · rename_i unchanged
        rw [not_or, not_not, not_not] at unchanged
        rcases current with ⟨zero, -⟩ | pitch
        · omega
        · rw [pitch, unchanged.1]
          simp only [u16]
          omega
    congr 1
    rw [lumaAdvance, updateRowPitch_size, pitch]
    omega

/-! ## A wide frame that has been filled -/

theorem source_offset (x y ystride : Nat) :
    ystride * (y % 4) + y / 4 * (4 * ystride) + 8 * (x / 8) + x % 8 = y * ystride + x := by
  have line : y * ystride = ystride * (y % 4) + y / 4 * (4 * ystride) :=
    calc y * ystride = (4 * (y / 4) + y % 4) * ystride := by rw [Nat.div_add_mod]
      _ = ystride * (y % 4) + y / 4 * (4 * ystride) := by ring
  omega

section Filled

variable {video : YuvState} {ystride x y : Nat} (picture : Picture) (memory : TextureMemory)
  (uvstride : Nat)

theorem leftTexel_filled (wide : Wide video) (current : PitchCurrent video)
    (fits : PitchFits video ystride) (left : x ≤ 1015) (inside : y < video.size.yHeight) :
    leftTexel ⟨video, picture, ystride⟩
        (applyStores picture memory (gxFillTextureYUV video ystride uvstride)) x y =
      picture .y (y * ystride + x) := by
  have rows := wide.wholeRows
  have listed : y / 4 < video.size.yHeight / 4 := by omega
  have tile : x / 8 < video.size.wl := by
    rw [wide.wl]
    omega
  have stored := tileRows_at picture (memory .yl) .yl
    (lumaAdvance (updateRowPitch video ystride uvstride)) (fun row => ystride * row)
    (Nat.dvd_zero 32) (Nat.dvd_refl 32) listed tile ⟨y % 4, Nat.mod_lt y (by decide)⟩
    (Nat.mod_lt x (by decide : 0 < 8))
  rw [tileRow_advance wide current uvstride fits listed, Nat.zero_add, source_offset] at stored
  rw [leftTexel_offset ⟨video, picture, ystride⟩ _ wide, fill_left wide.split]
  exact stored

theorem rightTexel_filled (wide : Wide video) (current : PitchCurrent video)
    (fits : PitchFits video ystride) (right : 1016 ≤ x) (column : x < video.size.yWidth)
    (inside : y < video.size.yHeight) :
    rightTexel ⟨video, picture, ystride⟩
        (applyStores picture memory (gxFillTextureYUV video ystride uvstride)) (x - 1008) y =
      picture .y (y * ystride + x) := by
  have rows := wide.wholeRows
  have listed : y / 4 < video.size.yHeight / 4 := by omega
  have tiles := wide.wr
  have aligned := wide.yWidth
  rw [alignUp8] at aligned
  have tile : x / 8 - 127 < video.size.wr := by omega
  have stored := tileRows_at picture (memory .yr) .yr
    (lumaAdvance (updateRowPitch video ystride uvstride))
    (fun row => ystride * row + 8 * video.size.wl)
    (Nat.dvd_refl 32) (Nat.dvd_refl 32) listed tile ⟨y % 4, Nat.mod_lt y (by decide)⟩
    (Nat.mod_lt x (by decide : 0 < 8))
  have source : ystride * (y % 4) + 8 * video.size.wl + y / 4 * (4 * ystride) +
      8 * (x / 8 - 127) + x % 8 = y * ystride + x := by
    rw [← source_offset x y ystride, wide.wl]
    omega
  have place : y / 4 * (32 * video.size.wr + 32) + 32 * ((x - 1008) / 8) + 8 * (y % 4) +
        (x - 1008) % 8 =
      32 + y / 4 * (32 * video.size.wr + 32) + 32 * (x / 8 - 127) + 8 * (y % 4) + x % 8 := by
    omega
  rw [tileRow_advance wide current uvstride fits listed, source] at stored
  rw [rightTexel_offset ⟨video, picture, ystride⟩ _ wide, fill_right wide.split, place]
  exact stored

/-- With black padding tiles the two textures add up to the frame. -/
theorem lumaShown_of_black {uvstride : Nat} {picture : Picture} {memory : TextureMemory}
    (wide : Wide video) (current : PitchCurrent video) (fits : PitchFits video ystride)
    (black : PaddingBlack video.size memory) :
    LumaShown ⟨video, picture, ystride⟩
      (applyStores picture memory (gxFillTextureYUV video ystride uvstride)) := by
  have kept := paddingBlack_fill picture ystride uvstride black
  constructor
  · intro x y first last inside
    exact leftPadding_black wide kept first last inside
  · intro x y last inside
    exact rightPadding_black wide kept last inside
  · intro x y column line
    have inside : y < video.size.yHeight := Nat.lt_of_lt_of_le line wide.rows
    by_cases left : x ≤ 1015
    · have padding : rightTexel ⟨video, picture, ystride⟩ _ (x - 1008) y = 0 :=
        rightPadding_black wide kept (by omega) inside
      rw [Nat.min_eq_left (by omega : x ≤ 1023), padding,
        leftTexel_filled picture memory uvstride wide current fits left inside]
      exact Nat.add_zero _
    · have aligned := wide.yWidth
      rw [alignUp8] at aligned
      have column : x < video.yuvCfgW := column
      have padding : leftTexel ⟨video, picture, ystride⟩ _ (min x 1023) y = 0 :=
        leftPadding_black wide kept (by omega) (by omega) inside
      rw [padding,
        rightTexel_filled picture memory uvstride wide current fits (by omega) (by omega) inside]
      exact Nat.zero_add _

end Filled

/-! ## Runs -/

/-- A size whose planes the four textures can hold. -/
structure FitsTextures (width height : Nat) : Prop where
  left : min (alignUp8 width) 1024 * alignUp4 height ≤ textureBytes .yl
  right : RightHalfFits width height
  chroma : alignUp8 (width / 2) * alignUp4 (height / 2) ≤ textureBytes .u

/-- A size fits the textures and 16 bits, and no earlier fill has left anything in the
tiles that are padding for a size it is changed to; the pitch of a frame wider than
the left texture fits 16 bits. -/
def PaddingUnused (state : State) : Event → Prop
  | .config width height =>
      FitsTextures width height ∧ width ≤ 65528 ∧
        ((state.video.yuvCfgW, state.video.yuvCfgH) ≠ (width, height) →
          PaddingBlack (geometry width height) state.memory)
  | .draw _ ystride _ => 1024 < state.video.yuvCfgW → PitchFits state.video ystride

structure Sound (state : State) : Prop where
  wide : 1024 < state.video.yuvCfgW → Wide state.video
  current : PitchCurrent state.video
  black : PaddingBlack state.video.size state.memory
  shown : WideFrameShown state

theorem start_sound : Sound start where
  wide := by
    intro columns
    change 1024 < 0 at columns
    omega
  current := .inl ⟨rfl, rfl⟩
  black := fun split => absurd split (Nat.lt_irrefl 0)
  shown := fun _ missing => nomatch missing

theorem updateRowPitch_wide {video : YuvState} (wide : Wide video) (ystride uvstride : Nat) :
    Wide (updateRowPitch video ystride uvstride) := by
  unfold updateRowPitch
  split
  · exact ⟨wide.yWidth, wide.columns, wide.rows, wide.wholeRows, wide.wl, wide.wr, wide.ylWidth,
      wide.yrWidth⟩
  · exact wide

/-- A new size that is wider than the left texture is split. -/
theorem gxVideoConfigYuv_wide {video : YuvState} {width height : Nat}
    (changed : (video.yuvCfgW, video.yuvCfgH) ≠ (width, height))
    (fits : FitsTextures width height) (inRange : width ≤ 65528) (columns : 1024 < width) :
    Wide (gxVideoConfigYuv video width height) := by
  have other : ¬(video.yuvCfgW = width ∧ video.yuvCfgH = height) := by
    intro same
    exact changed (Prod.ext same.1 same.2)
  have luma : u16 (alignUp8 width) = alignUp8 width := by
    apply u16_of_lt
    rw [alignUp8]
    omega
  have rows : alignUp4 height ≤ 1024 := by
    have left := fits.left
    have total : textureBytes .yl = 1024 * 1024 := rfl
    have whole : min (alignUp8 width) 1024 = 1024 := by
      rw [alignUp8]
      omega
    rw [total, whole] at left
    exact Nat.le_of_mul_le_mul_left left (by decide)
  have lines : u16 (alignUp4 height) = alignUp4 height := u16_of_lt (by omega)
  have split : 1024 / 8 < alignUp8 width / 8 := by
    rw [alignUp8]
    omega
  unfold gxVideoConfigYuv
  rw [if_neg other]
  constructor
  · simp only [geometry, luma]
  · exact columns
  · simp only [geometry, lines]
    rw [alignUp4]
    omega
  · simp only [geometry, lines]
    exact ⟨(height + 3) / 4, Nat.mul_comm _ _⟩
  · simp only [geometry, luma, if_pos split]
  · simp only [geometry, luma, if_pos split]
    omega
  · simp only [geometry, luma]
    rw [if_pos (by omega)]
  · simp only [geometry, luma, if_pos split]
    rw [if_pos (by omega)]
    simp only [u16, alignUp8]
    omega

theorem step_sound (state : State) (event : Event) (next : State) (sound : Sound state)
    (unused : PaddingUnused state event) (stepped : step state event = some next) :
    Sound next := by
  cases event with
  | config width height =>
      cases Option.some.inj stepped
      obtain ⟨fits, inRange, black⟩ := unused
      by_cases same : state.video.yuvCfgW = width ∧ state.video.yuvCfgH = height
      · have unchanged : gxVideoConfigYuv state.video width height = state.video := if_pos same
        rw [unchanged]
        exact sound
      · have changed : (state.video.yuvCfgW, state.video.yuvCfgH) ≠ (width, height) :=
          fun equal => same (Prod.mk.inj equal)
        constructor
        · intro columns
          simp only [gxVideoConfigYuv_width] at columns
          exact gxVideoConfigYuv_wide changed fits inRange columns
        · rw [gxVideoConfigYuv, if_neg same]
          exact .inl ⟨rfl, rfl⟩
        · rw [gxVideoConfigYuv, if_neg same]
          exact black changed
        · exact sound.shown
  | draw picture ystride uvstride =>
      cases Option.some.inj stepped
      constructor
      · intro columns
        rw [updateRowPitch_width] at columns
        exact updateRowPitch_wide (sound.wide columns) ystride uvstride
      · exact updateRowPitch_current sound.current ystride uvstride
      · rw [updateRowPitch_size]
        exact paddingBlack_fill picture ystride uvstride sound.black
      · rintro fill ⟨⟩ columns
        exact lumaShown_of_black (sound.wide columns) sound.current (unused columns) sound.black

/-- In a run whose sizes find their padding tiles unused, every frame that is wider
than the left texture is shown as it is. -/
theorem wide_frames_shown_of_padding_unused (events : List Event) (state : State)
    (reached : run step start events = some state)
    (unused : Along step PaddingUnused start events) : WideFrameShown state :=
  (run_invariant Sound step_sound start_sound unused reached).shown

/-! ## The first frame of a size, and a size after another -/

theorem clearedTextures_black (size : Geometry) : PaddingBlack size clearedTextures :=
  fun _ _ _ _ _ => ⟨rfl, rfl⟩

theorem fits_1280x720 : FitsTextures 1280 720 :=
  ⟨by decide, .inr (by decide), by decide⟩

theorem fits_640x480 : FitsTextures 640 480 :=
  ⟨by decide, .inl (by decide), by decide⟩

def plain (luma : UInt8) : Picture := fun _ _ => luma

/-- A session of one wide size. -/
theorem first_size_shown :
    ∃ state, run step start [.config 1280 720, .draw (plain 255) 1280 640] = some state ∧
      state.filled.isSome ∧ WideFrameShown state := by
  have black := clearedTextures_black (geometry 1280 720)
  have pitch : PitchFits (gxVideoConfigYuv unconfigured 1280 720) 1280 := .inr (by decide)
  refine ⟨_, rfl, rfl, wide_frames_shown_of_padding_unused
    [.config 1280 720, .draw (plain 255) 1280 640] _ rfl ?_⟩
  exact ⟨⟨fits_1280x720, by decide, fun _ => black⟩, fun _ => pitch, trivial⟩

theorem tileRows_texture (texture : Texture) (tiles gap advance rows dst : Nat)
    (src : Fin 4 → Nat) :
    (tileRows texture tiles gap advance rows dst src).filter
        (fun store => store.texture = texture) =
      tileRows texture tiles gap advance rows dst src := by
  induction rows generalizing dst src with
  | zero => rfl
  | succ rows ih => rw [tileRows, List.filter_append, lumaTiles_same, ih]

/-- A frame that fits the left texture fills it without padding. -/
theorem fill_narrow {video : YuvState} (whole : video.size.wr = 0) (picture : Picture)
    (memory : TextureMemory) (ystride uvstride : Nat) :
    applyStores picture memory (gxFillTextureYUV video ystride uvstride) .yl =
      write picture (memory .yl)
        (tileRows .yl video.size.wl 0
          (8 * video.size.wl + (updateRowPitch video ystride uvstride).yRowPitch)
          (video.size.yHeight / 4) 0 fun row => ystride * row) := by
  have pitched : (updateRowPitch video ystride uvstride).size.wr = 0 := by
    rw [updateRowPitch_size]
    exact whole
  rw [applyStores_texture, gxFillTextureYUV, List.filter_append, chromaCopy_luma _ _ (.inl rfl),
    List.append_nil, lumaCopy, lumaRows_narrow _ pitched, tileRows_texture, updateRowPitch_size]
  rfl

/-- A white frame of 640x480 reaches the first padding tile of 1280x720. -/
theorem narrow_frame_in_padding :
    applyStores (plain 255) clearedTextures
      (gxFillTextureYUV (gxVideoConfigYuv unconfigured 640 480) 640 320) .yl 4064 = 255 := by
  have stored := tileRows_at (plain 255) (clearedTextures .yl) .yl
    (8 * 80 + (updateRowPitch (gxVideoConfigYuv unconfigured 640 480) 640 320).yRowPitch)
    (fun row => 640 * row) (Nat.dvd_zero 32) (Nat.dvd_zero 32) (by decide : 1 < 120)
    (by decide : 47 < 80) 0 (by decide : 0 < 8)
  rw [fill_narrow (by decide)]
  exact stored

def afterNarrow : TextureMemory :=
  applyStores (plain 255) clearedTextures
    (gxFillTextureYUV (gxVideoConfigYuv unconfigured 640 480) 640 320)

def wideVideo : YuvState :=
  gxVideoConfigYuv (updateRowPitch (gxVideoConfigYuv unconfigured 640 480) 640 320) 1280 720

def wideFill : Fill := ⟨wideVideo, plain 0, 1280⟩

def afterWide : State where
  video := updateRowPitch wideVideo 1280 640
  memory := applyStores (plain 0) afterNarrow (gxFillTextureYUV wideVideo 1280 640)
  filled := some wideFill

theorem padding_kept : afterWide.memory .yl 4064 = 255 := by
  have split : 0 < wideVideo.size.wr := by decide
  have kept := tileRows_gap (plain 0) (afterNarrow .yl) .yl wideVideo.size.wl
    (lumaAdvance (updateRowPitch wideVideo 1280 640)) (fun row => 1280 * row)
    (Nat.dvd_zero 32) (Nat.dvd_refl 32) (by decide : 0 < wideVideo.size.yHeight / 4)
    (by decide : 0 < 32)
  simp only [afterWide]
  rw [fill_left split]
  exact kept.trans narrow_frame_in_padding

/-- After a white frame of 640x480 a black frame of 1280x720 has a white stripe. -/
theorem narrow_frame_shows_in_wide_frame :
    run step start [.config 640 480, .draw (plain 255) 640 320, .config 1280 720,
        .draw (plain 0) 1280 640] = some afterWide ∧
      FitsTextures 640 480 ∧ FitsTextures 1280 720 ∧ ¬WideFrameShown afterWide := by
  have reached : run step start [.config 640 480, .draw (plain 255) 640 320, .config 1280 720,
      .draw (plain 0) 1280 640] = some afterWide := by
    simp only [run, step, start]
    rfl
  refine ⟨reached, fits_640x480, fits_1280x720, fun shown => ?_⟩
  have columns : 1024 < wideVideo.yuvCfgW := by decide
  have rows : 0 < wideVideo.size.yHeight := by decide
  have filled : LumaShown wideFill afterWide.memory := shown wideFill rfl columns
  have width : wideFill.video.ylWidth = 1024 := by decide
  have padding := filled.leftPadding 1016 0 (Nat.le_refl 1016) (by decide) rows
  have place : (0 / 4 * (1024 / 8) + 1016 / 8) * 32 + 0 % 4 * 8 + 1016 % 8 = 4064 := by decide
  rw [leftTexel, texel, width, place, padding_kept] at padding
  exact absurd padding (by decide)

end MoonlightWii.Wii.TextureImage
