import MoonlightWii.Foundation.GuardedRun
import MoonlightWii.Wii.Decoder

/-!
# The luma and chroma textures (`gx_video.c`)

`gx_video_config_yuv` derives the tile counts from the picture size,
`GX_FillTextureYUV` copies a picture into 8x4 tiles of 32 bytes.  A luma row of
more than 1024 columns is split: the left texture ends, and the right one
begins, with a padding tile in every tile row.  The fill is given as the list of
its stores in program order; a pointer that C keeps one element before its next
access is the byte offset of that access.
-/

set_option autoImplicit false

namespace MoonlightWii.Wii.YuvTexture

open Foundation.GuardedRun
open MoonlightWii.Wii.Decoder

def maxWidth : Nat := 1280

def maxHeight : Nat := 1024

inductive Texture where
  | yl
  | yr
  | u
  | v
  deriving DecidableEq, Repr

def textureBytes : Texture → Nat
  | .yl => 1024 * maxHeight
  | .yr => (maxWidth - 1024) * maxHeight
  | .u => 1024 * (maxHeight / 2)
  | .v => 1024 * (maxHeight / 2)

/-- `(n + 3) & ~3` on a value that is not negative. -/
def alignUp4 (n : Nat) : Nat := (n + 3) / 4 * 4

/-- Assignment to a `u16`. -/
def u16 (n : Int) : Nat := (n % 65536).toNat

theorem u16_of_lt {n : Nat} (fits : n < 65536) : u16 n = n := by
  unfold u16
  omega

/-! ## Configuration -/

/-- What `gx_video_config_yuv` computes from the picture size for the fill. -/
structure Geometry where
  yWidth : Nat
  yHeight : Nat
  uvWidth : Nat
  uvHeight : Nat
  wl : Nat
  wr : Nat
  deriving DecidableEq

def geometry (width height : Nat) : Geometry :=
  let yWidth := u16 (alignUp8 width)
  { yWidth := yWidth
    yHeight := u16 (alignUp4 height)
    uvWidth := u16 (alignUp8 (width / 2))
    uvHeight := u16 (alignUp4 (height / 2))
    wl := if 1024 / 8 < yWidth / 8 then 1024 / 8 - 1 else yWidth / 8
    wr := if 1024 / 8 < yWidth / 8 then yWidth / 8 - 1024 / 8 + 1 else 0 }

structure YuvState where
  yuvCfgW : Nat
  yuvCfgH : Nat
  size : Geometry
  ylWidth : Nat
  yrWidth : Nat
  st0 : Nat
  st1 : Nat
  yRowPitch : Nat
  uvRowPitch : Nat

def unconfigured : YuvState where
  yuvCfgW := 0
  yuvCfgH := 0
  size := ⟨0, 0, 0, 0, 0, 0⟩
  ylWidth := 0
  yrWidth := 0
  st0 := 0
  st1 := 0
  yRowPitch := 0
  uvRowPitch := 0

def gxVideoConfigYuv (video : YuvState) (width height : Nat) : YuvState :=
  if video.yuvCfgW = width ∧ video.yuvCfgH = height then
    video
  else
    let size := geometry width height
    { yuvCfgW := width
      yuvCfgH := height
      size := size
      ylWidth := if 1016 < size.yWidth then 1024 else size.yWidth
      yrWidth := if 1024 < size.yWidth then u16 (size.yWidth - 1016 + 8) else 8
      st0 := 0
      st1 := 0
      yRowPitch := video.yRowPitch
      uvRowPitch := video.uvRowPitch }

/-- The first statement of `GX_FillTextureYUV`. -/
def updateRowPitch (video : YuvState) (ystride uvstride : Nat) : YuvState :=
  if video.st0 ≠ ystride ∨ video.st1 ≠ uvstride then
    { video with
      st0 := ystride
      st1 := uvstride
      yRowPitch := u16 (ystride * 4 - video.size.yWidth)
      uvRowPitch := u16 (uvstride * 4 - video.size.uvWidth) }
  else
    video

/-! ## The fill -/

inductive Store where
  /-- `dcbz`: a cache line is set to zero. -/
  | dcbz (texture : Texture) (line : Nat)
  | copy (texture : Texture) (dst : Nat) (plane : Plane) (src : Nat)
  deriving DecidableEq

def Store.texture : Store → Texture
  | .dcbz texture _ => texture
  | .copy texture _ _ _ => texture

def Store.stop : Store → Nat
  | .dcbz _ line => line + 32
  | .copy _ dst _ _ => dst + 8

def copyTile (texture : Texture) (plane : Plane) (dst : Nat) (src : Fin 4 → Nat) : List Store :=
  [.dcbz texture (dst / 32 * 32), .copy texture dst plane (src 0),
    .copy texture (dst + 8) plane (src 1), .copy texture (dst + 16) plane (src 2),
    .copy texture (dst + 24) plane (src 3)]

/-- `while (tiles--)` of `LUMA_COPY`. -/
def lumaTiles (texture : Texture) : Nat → Nat → (Fin 4 → Nat) → List Store
  | 0, _, _ => []
  | tiles + 1, dst, src =>
      copyTile texture .y dst src ++ lumaTiles texture tiles (dst + 32) fun row => src row + 8

/-- `while (rows--)` of `LUMA_COPY`. -/
def lumaRows (video : YuvState) : Nat → Nat → Nat → (Fin 4 → Nat) → List Store
  | 0, _, _, _ => []
  | rows + 1, yldst, yrdst, ysrc =>
      let wl := video.size.wl
      let wr := video.size.wr
      if 0 < wr then
        lumaTiles .yl wl yldst ysrc ++
          lumaTiles .yr wr yrdst (fun row => ysrc row + 8 * wl) ++
          lumaRows video rows (yldst + 32 * wl + 32) (yrdst + 32 * wr + 32)
            fun row => ysrc row + 8 * wl + 8 * wr + video.yRowPitch
      else
        lumaTiles .yl wl yldst ysrc ++
          lumaRows video rows (yldst + 32 * wl) yrdst fun row => ysrc row + 8 * wl + video.yRowPitch

def lumaCopy (video : YuvState) (ystride : Nat) : List Store :=
  lumaRows video (video.size.yHeight / 4) 0 32 fun row => ystride * row

/-- `while (tiles--)` of `CHROMA_COPY`. -/
def chromaTiles : Nat → Nat → (Fin 4 → Nat) → List Store
  | 0, _, _ => []
  | tiles + 1, dst, src =>
      copyTile .u .u dst src ++ copyTile .v .v dst src ++
        chromaTiles tiles (dst + 32) fun row => src row + 8

/-- `while (rows--)` of `CHROMA_COPY`; the `U` and `V` pointers move together. -/
def chromaRows (video : YuvState) : Nat → Nat → (Fin 4 → Nat) → List Store
  | 0, _, _ => []
  | rows + 1, dst, src =>
      let ntiles := video.size.uvWidth / 8
      chromaTiles ntiles dst src ++
        chromaRows video rows (dst + 32 * ntiles) fun row => src row + 8 * ntiles + video.uvRowPitch

def chromaCopy (video : YuvState) (uvstride : Nat) : List Store :=
  chromaRows video (video.size.uvHeight / 4) 0 fun row => uvstride * row

def gxFillTextureYUV (video : YuvState) (ystride uvstride : Nat) : List Store :=
  let pitched := updateRowPitch video ystride uvstride
  lumaCopy pitched ystride ++ chromaCopy pitched uvstride

/-! ## Runs of configurations and draws -/

inductive Event where
  | config (width height : Nat)
  | draw (ystride uvstride : Nat)

def step (video : YuvState) : Event → Option YuvState
  | .config width height => some (gxVideoConfigYuv video width height)
  | .draw ystride uvstride => some (updateRowPitch video ystride uvstride)

/-- The geometry is the one of the size that was configured last. -/
def Configured (video : YuvState) : Prop :=
  video.size = geometry video.yuvCfgW video.yuvCfgH

theorem unconfigured_configured : Configured unconfigured := by
  unfold Configured
  decide

@[simp] theorem updateRowPitch_size (video : YuvState) (ystride uvstride : Nat) :
    (updateRowPitch video ystride uvstride).size = video.size := by
  unfold updateRowPitch
  split <;> rfl

theorem gxVideoConfigYuv_width (video : YuvState) (width height : Nat) :
    (gxVideoConfigYuv video width height).yuvCfgW = width := by
  unfold gxVideoConfigYuv
  split
  · rename_i same
    exact same.1
  · rfl

theorem gxVideoConfigYuv_height (video : YuvState) (width height : Nat) :
    (gxVideoConfigYuv video width height).yuvCfgH = height := by
  unfold gxVideoConfigYuv
  split
  · rename_i same
    exact same.2
  · rfl

@[simp] theorem updateRowPitch_width (video : YuvState) (ystride uvstride : Nat) :
    (updateRowPitch video ystride uvstride).yuvCfgW = video.yuvCfgW := by
  unfold updateRowPitch
  split <;> rfl

@[simp] theorem updateRowPitch_height (video : YuvState) (ystride uvstride : Nat) :
    (updateRowPitch video ystride uvstride).yuvCfgH = video.yuvCfgH := by
  unfold updateRowPitch
  split <;> rfl

theorem step_configured (video : YuvState) (event : Event) (next : YuvState)
    (configured : Configured video) (stepped : step video event = some next) :
    Configured next := by
  cases event with
  | config width height =>
      cases Option.some.inj stepped
      unfold gxVideoConfigYuv
      split
      · exact configured
      · rfl
  | draw ystride uvstride =>
      cases Option.some.inj stepped
      unfold updateRowPitch
      split <;> exact configured

theorem reached_configured (events : List Event) (video : YuvState)
    (reached : run step unconfigured events = some video) : Configured video :=
  run_preserves Configured step_configured unconfigured_configured reached

/-! ## The extent of the fill -/

def Store.Inside (store : Store) : Prop :=
  store.stop ≤ textureBytes store.texture

theorem Store.inside_iff {store : Store} {texture : Texture} (same : store.texture = texture) :
    store.Inside ↔ store.stop ≤ textureBytes texture := by
  rw [Store.Inside, same]

theorem copyTile_stop (texture : Texture) (plane : Plane) (dst : Nat) (src : Fin 4 → Nat)
    (store : Store) (member : store ∈ copyTile texture plane dst src) :
    store.texture = texture ∧ store.stop ≤ dst + 32 := by
  simp only [copyTile, List.mem_cons, List.not_mem_nil, or_false] at member
  rcases member with rfl | rfl | rfl | rfl | rfl
  all_goals
    refine ⟨rfl, ?_⟩
    simp only [Store.stop]
    omega

theorem lumaTiles_stop (texture : Texture) (tiles dst : Nat) (src : Fin 4 → Nat) (store : Store)
    (member : store ∈ lumaTiles texture tiles dst src) :
    store.texture = texture ∧ store.stop ≤ dst + 32 * tiles := by
  induction tiles generalizing dst src with
  | zero => cases member
  | succ tiles ih =>
      rw [lumaTiles, List.mem_append] at member
      rcases member with first | later
      · have bound := copyTile_stop texture .y dst src store first
        exact ⟨bound.1, by omega⟩
      · have bound := ih _ _ later
        exact ⟨bound.1, by omega⟩

theorem lumaTiles_last (texture : Texture) (tiles dst : Nat) (src : Fin 4 → Nat) :
    ∃ store, store ∈ lumaTiles texture (tiles + 1) dst src ∧
      store.texture = texture ∧ store.stop = dst + 32 * (tiles + 1) := by
  induction tiles generalizing dst src with
  | zero =>
      refine ⟨.copy texture (dst + 24) .y (src 3), ?_, rfl, rfl⟩
      simp [lumaTiles, copyTile]
  | succ tiles ih =>
      obtain ⟨store, member, same, stop⟩ := ih (dst + 32) fun row => src row + 8
      refine ⟨store, ?_, same, by omega⟩
      rw [lumaTiles, List.mem_append]
      exact .inr member

/-- A tile row of the left texture, with its padding tile in the split case. -/
def leftPitch (size : Geometry) : Nat :=
  if 0 < size.wr then 32 * size.wl + 32 else 32 * size.wl

def rightPitch (size : Geometry) : Nat := 32 * size.wr + 32

theorem lumaRows_stop (video : YuvState) (rows yldst yrdst : Nat) (ysrc : Fin 4 → Nat)
    (store : Store) (member : store ∈ lumaRows video rows yldst yrdst ysrc) :
    (store.texture = .yl ∧ store.stop ≤ yldst + rows * leftPitch video.size) ∨
      (store.texture = .yr ∧ 0 < video.size.wr ∧
        store.stop + 32 ≤ yrdst + rows * rightPitch video.size) := by
  induction rows generalizing yldst yrdst ysrc with
  | zero => cases member
  | succ rows ih =>
      simp only [lumaRows] at member
      simp only [Nat.succ_mul rows]
      by_cases split : 0 < video.size.wr
      · rw [if_pos split, List.mem_append, List.mem_append] at member
        simp only [leftPitch, rightPitch, if_pos split] at ih ⊢
        rcases member with (left | right) | later
        · have bound := lumaTiles_stop _ _ _ _ store left
          exact .inl ⟨bound.1, by omega⟩
        · have bound := lumaTiles_stop _ _ _ _ store right
          exact .inr ⟨bound.1, split, by omega⟩
        · rcases ih _ _ _ later with bound | bound
          · exact .inl ⟨bound.1, by omega⟩
          · exact .inr ⟨bound.1, split, by omega⟩
      · rw [if_neg split, List.mem_append] at member
        simp only [leftPitch, if_neg split] at ih ⊢
        rcases member with left | later
        · have bound := lumaTiles_stop _ _ _ _ store left
          exact .inl ⟨bound.1, by omega⟩
        · rcases ih _ _ _ later with bound | bound
          · exact .inl ⟨bound.1, by omega⟩
          · exact absurd bound.2.1 split

/-- The last tile of the last tile row of the right texture is written. -/
theorem lumaRows_right_end (video : YuvState) (rows yldst yrdst : Nat) (ysrc : Fin 4 → Nat)
    (split : 0 < video.size.wr) :
    ∃ store, store ∈ lumaRows video (rows + 1) yldst yrdst ysrc ∧ store.texture = .yr ∧
      store.stop + 32 = yrdst + (rows + 1) * rightPitch video.size := by
  induction rows generalizing yldst yrdst ysrc with
  | zero =>
      obtain ⟨tiles, count⟩ : ∃ tiles, video.size.wr = tiles + 1 :=
        ⟨video.size.wr - 1, by omega⟩
      obtain ⟨store, member, same, stop⟩ :=
        lumaTiles_last .yr tiles yrdst fun row => ysrc row + 8 * video.size.wl
      refine ⟨store, ?_, same, ?_⟩
      · rw [lumaRows]
        simp only [if_pos split, List.mem_append]
        rw [← count] at member
        exact .inl (.inr member)
      · rw [rightPitch]
        omega
  | succ rows ih =>
      obtain ⟨store, member, same, stop⟩ := ih (yldst + 32 * video.size.wl + 32)
        (yrdst + 32 * video.size.wr + 32)
        fun row => ysrc row + 8 * video.size.wl + 8 * video.size.wr + video.yRowPitch
      refine ⟨store, ?_, same, ?_⟩
      · rw [lumaRows]
        simp only [if_pos split, List.mem_append]
        exact .inr member
      · rw [Nat.succ_mul (rows + 1), rightPitch] at *
        omega

theorem chromaTiles_stop (tiles dst : Nat) (src : Fin 4 → Nat) (store : Store)
    (member : store ∈ chromaTiles tiles dst src) :
    (store.texture = .u ∨ store.texture = .v) ∧ store.stop ≤ dst + 32 * tiles := by
  induction tiles generalizing dst src with
  | zero => cases member
  | succ tiles ih =>
      rw [chromaTiles, List.mem_append, List.mem_append] at member
      rcases member with (inU | inV) | later
      · have bound := copyTile_stop .u .u dst src store inU
        exact ⟨.inl bound.1, by omega⟩
      · have bound := copyTile_stop .v .v dst src store inV
        exact ⟨.inr bound.1, by omega⟩
      · have bound := ih _ _ later
        exact ⟨bound.1, by omega⟩

theorem chromaRows_stop (video : YuvState) (rows dst : Nat) (src : Fin 4 → Nat) (store : Store)
    (member : store ∈ chromaRows video rows dst src) :
    (store.texture = .u ∨ store.texture = .v) ∧
      store.stop ≤ dst + rows * (32 * (video.size.uvWidth / 8)) := by
  induction rows generalizing dst src with
  | zero => cases member
  | succ rows ih =>
      rw [chromaRows, List.mem_append] at member
      rw [Nat.succ_mul rows]
      rcases member with first | later
      · have bound := chromaTiles_stop _ _ _ store first
        exact ⟨bound.1, by omega⟩
      · have bound := ih _ _ later
        exact ⟨bound.1, by omega⟩

/-- A resolution within the declared maxima, or one of the `Resolution` menu. -/
def Selectable (width height : Nat) : Prop :=
  (width ≤ maxWidth ∧ height ≤ maxHeight) ∨
    (width, height) ∈ [(640, 480), (854, 480), (1280, 720), (1920, 1080)]

/-- The picture needs no right texture, or that texture holds its columns from
1008 on, padding included. -/
def RightHalfFits (width height : Nat) : Prop :=
  alignUp8 width ≤ 1024 ∨
    (alignUp8 width - 1008) * alignUp4 height ≤ (maxWidth - 1024) * maxHeight

theorem selectable_bounds {width height : Nat} (selectable : Selectable width height) :
    width ≤ 1920 ∧ height ≤ 1080 ∧ ((width ≤ 1280 ∧ height ≤ 1024) ∨
      (width = 1920 ∧ height = 1080)) := by
  simp only [Selectable, maxWidth, maxHeight, List.mem_cons, List.not_mem_nil, or_false,
    Prod.mk.injEq] at selectable
  omega

/-- The sizes without the `u16` truncation, in tiles. -/
theorem geometry_selectable {width height : Nat} (selectable : Selectable width height) :
    geometry width height =
      { yWidth := 8 * ((width + 7) / 8)
        yHeight := 4 * ((height + 3) / 4)
        uvWidth := 8 * ((width / 2 + 7) / 8)
        uvHeight := 4 * ((height / 2 + 3) / 4)
        wl := if 128 < (width + 7) / 8 then 127 else (width + 7) / 8
        wr := if 128 < (width + 7) / 8 then (width + 7) / 8 - 127 else 0 } := by
  have bounds := selectable_bounds selectable
  have luma : u16 (alignUp8 width) = 8 * ((width + 7) / 8) := by
    simp only [u16, alignUp8]
    omega
  have lumaRows : u16 (alignUp4 height) = 4 * ((height + 3) / 4) := by
    simp only [u16, alignUp4]
    omega
  have chroma : u16 (alignUp8 (width / 2)) = 8 * ((width / 2 + 7) / 8) := by
    simp only [u16, alignUp8]
    omega
  have chromaRows : u16 (alignUp4 (height / 2)) = 4 * ((height / 2 + 3) / 4) := by
    simp only [u16, alignUp4]
    omega
  simp only [geometry, luma, lumaRows, chroma, chromaRows, Geometry.mk.injEq, true_and]
  constructor
  · split <;> split <;> omega
  · split <;> split <;> omega

section Selected

variable {video : YuvState} {width height : Nat}

theorem right_extent (size : video.size = geometry width height)
    (selectable : Selectable width height) (split : 0 < video.size.wr) :
    video.size.yHeight / 4 * rightPitch video.size =
      (alignUp8 width - 1008) * alignUp4 height ∧ 1024 < alignUp8 width := by
  rw [geometry_selectable selectable] at size
  rw [size] at split ⊢
  simp only [rightPitch, alignUp8, alignUp4] at split ⊢
  by_cases wide : 128 < (width + 7) / 8
  · rw [if_pos wide]
    refine ⟨?_, by omega⟩
    obtain ⟨columns, tiles⟩ : ∃ columns, (width + 7) / 8 = columns + 127 :=
      ⟨(width + 7) / 8 - 127, by omega⟩
    have pitch : 32 * (columns + 127 - 127) + 32 = 4 * ((columns + 127) * 8 - 1008) := by omega
    rw [Nat.mul_div_cancel_left _ (by decide : 0 < 4), tiles, pitch]
    rw [← Nat.mul_assoc]
    exact Nat.mul_comm _ _
  · rw [if_neg wide] at split
    cases split

theorem luma_inside (size : video.size = geometry width height)
    (selectable : Selectable width height) (fits : RightHalfFits width height)
    (ystride : Nat) (store : Store) (member : store ∈ lumaCopy video ystride) :
    store.Inside := by
  have bounds := selectable_bounds selectable
  have small : width ≤ 1280 ∧ height ≤ 1024 := by
    rcases bounds.2.2 with within | ⟨rfl, rfl⟩
    · exact within
    · exact absurd fits (by simp [RightHalfFits, alignUp8, alignUp4, maxWidth, maxHeight])
  rcases lumaRows_stop video _ _ _ _ store member with left | right
  · have rows : (height + 3) / 4 ≤ 256 := by omega
    have pitch : leftPitch video.size ≤ 4096 := by
      rw [size, geometry_selectable selectable, leftPitch]
      simp only
      split <;> split <;> omega
    have count : video.size.yHeight / 4 = (height + 3) / 4 := by
      rw [size, geometry_selectable selectable]
      simp
    have extent := Nat.mul_le_mul rows pitch
    rw [count] at left
    have stop : store.stop ≤ 256 * 4096 := by omega
    exact (Store.inside_iff left.1).mpr stop
  · have extent := right_extent size selectable right.2.1
    rw [extent.1] at right
    rcases fits with narrow | fits
    · omega
    · have stop : store.stop ≤ (maxWidth - 1024) * maxHeight := by omega
      exact (Store.inside_iff right.1).mpr stop

theorem chroma_inside (size : video.size = geometry width height)
    (selectable : Selectable width height) (uvstride : Nat) (store : Store)
    (member : store ∈ chromaCopy video uvstride) : store.Inside := by
  have bounds := selectable_bounds selectable
  obtain ⟨plane, stop⟩ := chromaRows_stop video _ _ _ store member
  rw [size, geometry_selectable selectable] at stop
  simp only at stop
  have extent : 4 * ((height / 2 + 3) / 4) / 4 * (32 * (8 * ((width / 2 + 7) / 8) / 8)) ≤
      1024 * (maxHeight / 2) := by
    rw [Nat.mul_div_cancel_left _ (by decide : 0 < 4),
      Nat.mul_div_cancel_left _ (by decide : 0 < 8)]
    rcases bounds.2.2 with small | ⟨rfl, rfl⟩
    · have product := Nat.mul_le_mul
        (by omega : (height / 2 + 3) / 4 ≤ 128) (by omega : 32 * ((width / 2 + 7) / 8) ≤ 2560)
      simp only [maxHeight]
      omega
    · decide
  have bound : store.stop ≤ 1024 * (maxHeight / 2) := by omega
  rcases plane with inU | inV
  · exact (Store.inside_iff inU).mpr bound
  · exact (Store.inside_iff inV).mpr bound

/-- A split luma row whose right part does not fit is written past the end of
the right texture. -/
theorem right_overruns (size : video.size = geometry width height)
    (selectable : Selectable width height) (overrun : ¬ RightHalfFits width height)
    (ystride : Nat) : ∃ store, store ∈ lumaCopy video ystride ∧ ¬ store.Inside := by
  have wide : 1024 < alignUp8 width := by
    by_contra narrow
    exact overrun (.inl (by omega))
  have split : 0 < video.size.wr := by
    rw [size, geometry_selectable selectable]
    simp only [alignUp8] at wide ⊢
    rw [if_pos (by omega)]
    omega
  have extent := right_extent size selectable split
  have beyond : ¬ (alignUp8 width - 1008) * alignUp4 height ≤ (maxWidth - 1024) * maxHeight :=
    fun fits => overrun (.inr fits)
  obtain ⟨rows, count⟩ : ∃ rows, video.size.yHeight / 4 = rows + 1 := by
    refine ⟨video.size.yHeight / 4 - 1, ?_⟩
    have some_rows : video.size.yHeight / 4 ≠ 0 := by
      intro no_rows
      rw [no_rows, Nat.zero_mul] at extent
      omega
    omega
  obtain ⟨store, member, right, stop⟩ :=
    lumaRows_right_end video rows 0 32 (fun row => ystride * row) split
  refine ⟨store, ?_, ?_⟩
  · rw [lumaCopy, count]
    exact member
  · rw [← count, extent.1] at stop
    intro inside
    have bound : store.stop ≤ (maxWidth - 1024) * maxHeight := (Store.inside_iff right).mp inside
    omega

end Selected

/-- After any run of configurations and draws that leaves a selectable size
configured, the fill of a frame stays inside the four textures exactly when the
right luma texture is not needed or large enough. -/
theorem fill_inside_iff (events : List Event) (video : YuvState) (ystride uvstride : Nat)
    (reached : run step unconfigured events = some video)
    (selectable : Selectable video.yuvCfgW video.yuvCfgH) :
    (∀ store, store ∈ gxFillTextureYUV video ystride uvstride → store.Inside) ↔
      RightHalfFits video.yuvCfgW video.yuvCfgH := by
  have size : (updateRowPitch video ystride uvstride).size =
      geometry video.yuvCfgW video.yuvCfgH := by
    rw [updateRowPitch_size]
    exact reached_configured events video reached
  constructor
  · intro inside
    by_contra overrun
    obtain ⟨store, member, outside⟩ := right_overruns size selectable overrun ystride
    exact outside (inside store (List.mem_append_left _ member))
  · intro fits store member
    rcases List.mem_append.mp member with luma | chroma
    · exact luma_inside size selectable fits ystride store luma
    · exact chroma_inside size selectable uvstride store chroma

instance selectableDecidable (width height : Nat) : Decidable (Selectable width height) := by
  unfold Selectable
  infer_instance

/-- 1280x720, the widest menu entry whose right half fits. -/
theorem fill_inside_1280x720 :
    RightHalfFits 1280 720 ∧
      ∀ store, store ∈ gxFillTextureYUV (gxVideoConfigYuv unconfigured 1280 720) 1280 640 →
        store.Inside := by
  have fits : RightHalfFits 1280 720 := .inr (by decide)
  exact ⟨fits, (fill_inside_iff [.config 1280 720] _ 1280 640 rfl (by decide)).mpr fits⟩

theorem fill_overruns_1920x1080 :
    ¬ ∀ (events : List Event) (video : YuvState) (ystride uvstride : Nat),
      run step unconfigured events = some video → Selectable video.yuvCfgW video.yuvCfgH →
        ∀ store, store ∈ gxFillTextureYUV video ystride uvstride → store.Inside := by
  intro always
  have size : (updateRowPitch (gxVideoConfigYuv unconfigured 1920 1080) 1920 960).size =
      geometry 1920 1080 := by
    rw [updateRowPitch_size]
    rfl
  obtain ⟨store, member, outside⟩ :=
    right_overruns size (by decide) (by simp [RightHalfFits, alignUp8, alignUp4, maxWidth, maxHeight])
      1920
  exact outside (always [.config 1920 1080] _ 1920 960 rfl (by decide) store
    (List.mem_append_left _ member))

end MoonlightWii.Wii.YuvTexture
