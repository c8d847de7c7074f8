import MoonlightWii.Wii.TextureLayout

/-!
# What a fill reads of a frame (`decode.c`, `gx_video.c`)

`wii_alloc_frames` reserves as many rows as the stream has.  `GX_FillTextureYUV`
reads whole rows of tiles, four lines each, of the luma plane and of the two chroma
planes, whose heights `gx_video_config_yuv` rounds up on their own.
-/

set_option autoImplicit false

namespace MoonlightWii.Wii.FrameReads

open Foundation.GuardedRun
open MoonlightWii.Wii.Decoder (FrameLayout Plane alignUp8 wiiAllocFrames)
open MoonlightWii.Wii.YuvTexture
open MoonlightWii.Wii.TextureImage (lumaAdvance)
open MoonlightWii.Wii.TextureLayout (Derived reached_derived updateRowPitch_pitches)

/-- The eight bytes that a copy reads lie in their plane. -/
def ReadsInside (fb : FrameLayout) : Store → Prop
  | .dcbz _ _ => True
  | .copy _ _ plane src => src + 8 ≤ fb.planeSize plane

/-! ## The sources of a fill -/

/-- The offsets that a list of stores copies from a plane. -/
def CopiesFrom (plane : Plane) (src : Nat) (stores : List Store) : Prop :=
  ∃ texture dst, Store.copy texture dst plane src ∈ stores

theorem readsInside_iff (fb : FrameLayout) (stores : List Store) :
    (∀ store ∈ stores, ReadsInside fb store) ↔
      ∀ plane src, CopiesFrom plane src stores → src + 8 ≤ fb.planeSize plane := by
  constructor
  · rintro inside plane src ⟨texture, dst, member⟩
    exact inside _ member
  · intro inside store member
    cases store with
    | dcbz texture line => trivial
    | copy texture dst plane src => exact inside plane src ⟨texture, dst, member⟩

theorem copiesFrom_append (plane : Plane) (src : Nat) (first later : List Store) :
    CopiesFrom plane src (first ++ later) ↔
      CopiesFrom plane src first ∨ CopiesFrom plane src later := by
  simp only [CopiesFrom, List.mem_append, exists_or]

theorem copiesFrom_copyTile (texture : Texture) (from_ plane : Plane) (dst offset : Nat)
    (src : Fin 4 → Nat) :
    CopiesFrom plane offset (copyTile texture from_ dst src) ↔
      plane = from_ ∧ ∃ row, offset = src row := by
  constructor
  · rintro ⟨other, place, member⟩
    simp only [copyTile, List.mem_cons, Store.copy.injEq, List.not_mem_nil, or_false,
      reduceCtorEq, false_or] at member
    rcases member with ⟨-, -, rfl, rfl⟩ | ⟨-, -, rfl, rfl⟩ | ⟨-, -, rfl, rfl⟩ | ⟨-, -, rfl, rfl⟩
    · exact ⟨rfl, 0, rfl⟩
    · exact ⟨rfl, 1, rfl⟩
    · exact ⟨rfl, 2, rfl⟩
    · exact ⟨rfl, 3, rfl⟩
  · rintro ⟨rfl, row, rfl⟩
    obtain ⟨index, small⟩ := row
    obtain rfl | rfl | rfl | rfl : index = 0 ∨ index = 1 ∨ index = 2 ∨ index = 3 := by omega
    · exact ⟨texture, dst, by simp [copyTile]⟩
    · exact ⟨texture, dst + 8, by simp [copyTile]⟩
    · exact ⟨texture, dst + 16, by simp [copyTile]⟩
    · exact ⟨texture, dst + 24, by simp [copyTile]⟩

theorem copiesFrom_lumaTiles (texture : Texture) (plane : Plane) (tiles dst offset : Nat)
    (src : Fin 4 → Nat) :
    CopiesFrom plane offset (lumaTiles texture tiles dst src) ↔
      plane = .y ∧ ∃ row tile, tile < tiles ∧ offset = src row + 8 * tile := by
  induction tiles generalizing dst src with
  | zero => simp [lumaTiles, CopiesFrom]
  | succ tiles inductionHypothesis =>
      rw [lumaTiles, copiesFrom_append, copiesFrom_copyTile, inductionHypothesis]
      constructor
      · rintro (⟨same, row, rfl⟩ | ⟨same, row, tile, listed, rfl⟩)
        · exact ⟨same, row, 0, by omega, by omega⟩
        · exact ⟨same, row, tile + 1, by omega, by omega⟩
      · rintro ⟨same, row, tile, listed, rfl⟩
        cases tile with
        | zero => exact .inl ⟨same, row, rfl⟩
        | succ tile => exact .inr ⟨same, row, tile, by omega, by omega⟩

theorem copiesFrom_chromaTiles (plane : Plane) (tiles dst offset : Nat) (src : Fin 4 → Nat) :
    CopiesFrom plane offset (chromaTiles tiles dst src) ↔
      (plane = .u ∨ plane = .v) ∧ ∃ row tile, tile < tiles ∧ offset = src row + 8 * tile := by
  induction tiles generalizing dst src with
  | zero => simp [chromaTiles, CopiesFrom]
  | succ tiles inductionHypothesis =>
      rw [chromaTiles, copiesFrom_append, copiesFrom_append, copiesFrom_copyTile,
        copiesFrom_copyTile, inductionHypothesis, ← or_and_right]
      constructor
      · rintro (⟨same, row, rfl⟩ | ⟨same, row, tile, listed, rfl⟩)
        · exact ⟨same, row, 0, by omega, by omega⟩
        · exact ⟨same, row, tile + 1, by omega, by omega⟩
      · rintro ⟨same, row, tile, listed, rfl⟩
        cases tile with
        | zero => exact .inl ⟨same, row, rfl⟩
        | succ tile => exact .inr ⟨same, row, tile, by omega, by omega⟩

/-- A place of the grid that the rows of tiles read. -/
def GridSource (rows tiles advance : Nat) (src : Fin 4 → Nat) (offset : Nat) : Prop :=
  ∃ tileRow row tile, tileRow < rows ∧ tile < tiles ∧
    offset = src row + tileRow * advance + 8 * tile

theorem gridSource_succ (rows tiles advance : Nat) (src : Fin 4 → Nat) (offset : Nat) :
    GridSource (rows + 1) tiles advance src offset ↔
      (∃ row tile, tile < tiles ∧ offset = src row + 8 * tile) ∨
        GridSource rows tiles advance (fun row => src row + advance) offset := by
  constructor
  · rintro ⟨tileRow, row, tile, rowListed, listed, rfl⟩
    cases tileRow with
    | zero => exact .inl ⟨row, tile, listed, by omega⟩
    | succ tileRow =>
        refine .inr ⟨tileRow, row, tile, by omega, listed, ?_⟩
        simp only [Nat.succ_mul]
        omega
  · rintro (⟨row, tile, listed, rfl⟩ | ⟨tileRow, row, tile, rowListed, listed, rfl⟩)
    · exact ⟨0, row, tile, by omega, listed, by omega⟩
    · refine ⟨tileRow + 1, row, tile, by omega, listed, ?_⟩
      simp only [Nat.succ_mul]
      omega

/-- A row of tiles is split between two textures at any tile. -/
theorem tile_split (left right offset : Nat) (src : Fin 4 → Nat) :
    (∃ row tile, tile < left + right ∧ offset = src row + 8 * tile) ↔
      (∃ row tile, tile < left ∧ offset = src row + 8 * tile) ∨
        ∃ row tile, tile < right ∧ offset = src row + 8 * left + 8 * tile := by
  constructor
  · rintro ⟨row, tile, listed, rfl⟩
    by_cases inLeft : tile < left
    · exact .inl ⟨row, tile, inLeft, rfl⟩
    · exact .inr ⟨row, tile - left, by omega, by omega⟩
  · rintro (⟨row, tile, listed, rfl⟩ | ⟨row, tile, listed, rfl⟩)
    · exact ⟨row, tile, by omega, rfl⟩
    · exact ⟨row, left + tile, by omega, by omega⟩

theorem copiesFrom_lumaRows (video : YuvState) (plane : Plane) (rows yldst yrdst offset : Nat)
    (ysrc : Fin 4 → Nat) :
    CopiesFrom plane offset (lumaRows video rows yldst yrdst ysrc) ↔
      plane = .y ∧
        GridSource rows (video.size.wl + video.size.wr) (lumaAdvance video) ysrc offset := by
  induction rows generalizing yldst yrdst ysrc with
  | zero => simp [lumaRows, CopiesFrom, GridSource]
  | succ rows inductionHypothesis =>
      rw [gridSource_succ, tile_split]
      by_cases split : 0 < video.size.wr
      · have advance : (fun row => ysrc row + 8 * video.size.wl + 8 * video.size.wr +
            video.yRowPitch) = fun row => ysrc row + lumaAdvance video := by
          funext row
          rw [lumaAdvance]
          omega
        simp only [lumaRows, if_pos split, copiesFrom_append, copiesFrom_lumaTiles,
          inductionHypothesis, advance]
        rw [← and_or_left, ← and_or_left]
      · have whole : video.size.wr = 0 := by omega
        have advance : (fun row => ysrc row + 8 * video.size.wl + video.yRowPitch) =
            fun row => ysrc row + lumaAdvance video := by
          funext row
          rw [lumaAdvance, whole]
          omega
        have none_right : ¬ ∃ (row : Fin 4) (tile : Nat), tile < 0 ∧
            offset = ysrc row + 8 * video.size.wl + 8 * tile := by
          rintro ⟨row, tile, impossible, -⟩
          exact absurd impossible (Nat.not_lt_zero tile)
        simp only [lumaRows, if_neg split, copiesFrom_append, copiesFrom_lumaTiles,
          inductionHypothesis, advance]
        rw [whole, ← and_or_left]
        simp only [none_right, or_false]

/-- The bytes that one row of tiles advances a chroma source by. -/
def chromaAdvance (video : YuvState) : Nat := 8 * (video.size.uvWidth / 8) + video.uvRowPitch

theorem copiesFrom_chromaRows (video : YuvState) (plane : Plane) (rows dst offset : Nat)
    (src : Fin 4 → Nat) :
    CopiesFrom plane offset (chromaRows video rows dst src) ↔
      (plane = .u ∨ plane = .v) ∧
        GridSource rows (video.size.uvWidth / 8) (chromaAdvance video) src offset := by
  induction rows generalizing dst src with
  | zero => simp [chromaRows, CopiesFrom, GridSource]
  | succ rows inductionHypothesis =>
      have advance : (fun row => src row + 8 * (video.size.uvWidth / 8) + video.uvRowPitch) =
          fun row => src row + chromaAdvance video := by
        funext row
        rw [chromaAdvance]
        omega
      rw [gridSource_succ, chromaRows, copiesFrom_append, copiesFrom_chromaTiles, advance,
        inductionHypothesis, ← and_or_left]

/-! ## The last byte read of a plane -/

/-- The whole grid is inside a plane when its last tile is. -/
theorem grid_inside_iff (rows tiles stride advance size : Nat) :
    (∀ offset, GridSource rows tiles advance (fun row => stride * row) offset →
        offset + 8 ≤ size) ↔
      rows = 0 ∨ tiles = 0 ∨ stride * 3 + (rows - 1) * advance + 8 * tiles ≤ size := by
  constructor
  · intro inside
    by_cases empty : rows = 0 ∨ tiles = 0
    · exact empty.elim .inl fun none_ => .inr (.inl none_)
    · rw [not_or] at empty
      have last := inside (stride * 3 + (rows - 1) * advance + 8 * (tiles - 1))
        ⟨rows - 1, 3, tiles - 1, by omega, by omega, rfl⟩
      exact .inr (.inr (by omega))
  · rintro fits offset ⟨tileRow, row, tile, rowListed, listed, rfl⟩
    have low : (row : Nat) ≤ 3 := by omega
    have line := Nat.mul_le_mul_left stride low
    have step := Nat.mul_le_mul_right advance (by omega : tileRow ≤ rows - 1)
    simp only
    rcases fits with none_ | none_ | fits
    · omega
    · omega
    · omega

/-- The fill of one plane of this stride reads no further than its rows. -/
def PlaneHolds (stride rows : Nat) : Prop :=
  u16 (alignUp4 rows) / 4 = 0 ∨ u16 stride / 8 = 0 ∨
    stride * 3 +
        (u16 (alignUp4 rows) / 4 - 1) * (u16 stride + u16 (stride * 4 - u16 stride)) +
        u16 stride ≤
      stride * rows

theorem geometry_tiles (width height : Nat) :
    8 * ((geometry width height).wl + (geometry width height).wr) =
      (geometry width height).yWidth ∧
    8 * ((geometry width height).uvWidth / 8) = (geometry width height).uvWidth := by
  have luma : 8 ∣ u16 (alignUp8 width) := by
    simp only [u16, alignUp8]
    omega
  have chroma : 8 ∣ u16 (alignUp8 (width / 2)) := by
    simp only [u16, alignUp8]
    omega
  refine ⟨?_, Nat.mul_div_cancel' chroma⟩
  simp only [geometry]
  by_cases split : 1024 / 8 < u16 (alignUp8 width) / 8
  · rw [if_pos split, if_pos split]
    omega
  · rw [if_neg split, if_neg split]
    omega

section Frame

variable {video : YuvState}

/-- All reads of a fill lie in the frame that was allocated for the configured size
exactly when both kinds of planes hold theirs. -/
theorem reads_inside_iff_planes (derived : Derived video) (positive : 0 < video.yuvCfgW) :
    (∀ store ∈ gxFillTextureYUV video (wiiAllocFrames video.yuvCfgW video.yuvCfgH).ystride
          (wiiAllocFrames video.yuvCfgW video.yuvCfgH).uvstride,
        ReadsInside (wiiAllocFrames video.yuvCfgW video.yuvCfgH) store) ↔
      PlaneHolds (alignUp8 video.yuvCfgW) video.yuvCfgH ∧
        PlaneHolds (alignUp8 (video.yuvCfgW / 2)) (video.yuvCfgH / 2) := by
  have someStride : 0 < alignUp8 video.yuvCfgW := by
    rw [alignUp8]
    omega
  obtain ⟨yPitch, uvPitch⟩ := updateRowPitch_pitches derived someStride
    (alignUp8 (video.yuvCfgW / 2))
  have size : video.size = geometry video.yuvCfgW video.yuvCfgH := derived.size
  obtain ⟨lumaTiles, chromaTiles⟩ := geometry_tiles video.yuvCfgW video.yuvCfgH
  rw [← size] at lumaTiles chromaTiles
  have yWidth : video.size.yWidth = u16 (alignUp8 video.yuvCfgW) := by rw [size]; rfl
  have yHeight : video.size.yHeight = u16 (alignUp4 video.yuvCfgH) := by rw [size]; rfl
  have uvWidth : video.size.uvWidth = u16 (alignUp8 (video.yuvCfgW / 2)) := by rw [size]; rfl
  have uvHeight : video.size.uvHeight = u16 (alignUp4 (video.yuvCfgH / 2)) := by rw [size]; rfl
  have luma : (∀ offset, GridSource (video.size.yHeight / 4) (video.size.wl + video.size.wr)
      (lumaAdvance (updateRowPitch video (alignUp8 video.yuvCfgW)
        (alignUp8 (video.yuvCfgW / 2)))) (fun row => alignUp8 video.yuvCfgW * row) offset →
          offset + 8 ≤ alignUp8 video.yuvCfgW * video.yuvCfgH) ↔
        PlaneHolds (alignUp8 video.yuvCfgW) video.yuvCfgH := by
    have advance : lumaAdvance (updateRowPitch video (alignUp8 video.yuvCfgW)
        (alignUp8 (video.yuvCfgW / 2))) = u16 (alignUp8 video.yuvCfgW) +
          u16 (alignUp8 video.yuvCfgW * 4 - u16 (alignUp8 video.yuvCfgW)) := by
      rw [lumaAdvance, updateRowPitch_size, yPitch, yWidth]
      omega
    have tiles : video.size.wl + video.size.wr = u16 (alignUp8 video.yuvCfgW) / 8 := by omega
    rw [grid_inside_iff, advance, lumaTiles, yWidth, tiles, yHeight]
    rfl
  have chroma : (∀ offset, GridSource (video.size.uvHeight / 4) (video.size.uvWidth / 8)
      (chromaAdvance (updateRowPitch video (alignUp8 video.yuvCfgW)
        (alignUp8 (video.yuvCfgW / 2)))) (fun row => alignUp8 (video.yuvCfgW / 2) * row) offset →
          offset + 8 ≤ alignUp8 (video.yuvCfgW / 2) * (video.yuvCfgH / 2)) ↔
        PlaneHolds (alignUp8 (video.yuvCfgW / 2)) (video.yuvCfgH / 2) := by
    have advance : chromaAdvance (updateRowPitch video (alignUp8 video.yuvCfgW)
        (alignUp8 (video.yuvCfgW / 2))) = u16 (alignUp8 (video.yuvCfgW / 2)) +
          u16 (alignUp8 (video.yuvCfgW / 2) * 4 - u16 (alignUp8 (video.yuvCfgW / 2))) := by
      rw [chromaAdvance, updateRowPitch_size, uvPitch, chromaTiles, uvWidth]
    rw [grid_inside_iff, advance, chromaTiles, uvWidth, uvHeight]
    rfl
  rw [readsInside_iff, ← luma, ← chroma]
  simp only [gxFillTextureYUV, copiesFrom_append, lumaCopy, chromaCopy, copiesFrom_lumaRows,
    copiesFrom_chromaRows, updateRowPitch_size]
  constructor
  · intro inside
    constructor
    · intro offset source
      exact inside .y offset (.inl ⟨rfl, source⟩)
    · intro offset source
      exact inside .u offset (.inr ⟨.inl rfl, source⟩)
  · rintro ⟨lumaInside, chromaInside⟩ plane offset (⟨rfl, source⟩ | ⟨rfl | rfl, source⟩)
    · exact lumaInside offset source
    · exact chromaInside offset source
    · exact chromaInside offset source

end Frame

/-! ## Sizes without truncation -/

/-- Where neither the pitch nor the height exceeds 16 bits, a plane holds its rows of
tiles when there are four lines for each. -/
theorem planeHolds_iff {stride rows : Nat} (aligned : 8 ∣ stride) (positive : 0 < stride)
    (pitch : 3 * stride < 65536) (someRows : 0 < rows) (short : rows ≤ 65532) :
    PlaneHolds stride rows ↔ 4 ∣ rows := by
  have width : u16 stride = stride := u16_of_lt (by omega)
  have height : u16 (alignUp4 rows) = alignUp4 rows := by
    apply u16_of_lt
    rw [alignUp4]
    omega
  have rowPitch : u16 ((stride : Int) * 4 - stride) = 3 * stride := by
    simp only [u16]
    omega
  obtain ⟨tileRows, count⟩ : ∃ tileRows, alignUp4 rows = 4 * (tileRows + 1) :=
    ⟨(rows + 3) / 4 - 1, by rw [alignUp4]; omega⟩
  have extent : stride * 3 + (tileRows + 1 - 1) * (stride + 3 * stride) + stride =
      stride * (4 * (tileRows + 1)) := by
    rw [Nat.add_sub_cancel]
    ring
  unfold PlaneHolds
  rw [width, height, rowPitch, count, Nat.mul_div_cancel_left _ (by decide : 0 < 4), extent,
    Nat.mul_le_mul_left_iff positive]
  rw [alignUp4] at count
  constructor
  · rintro (impossible | impossible | enough)
    · omega
    · omega
    · omega
  · intro whole
    exact .inr (.inr (by omega))

/-- The rows that a frame of this size has are enough for the fill.  Wider or higher
sizes lose the upper part of a pitch or a height. -/
def RowsSuffice (width height : Nat) : Prop :=
  if width ≤ 21840 ∧ height ≤ 65532 then 8 ∣ height
  else PlaneHolds (alignUp8 width) height ∧ PlaneHolds (alignUp8 (width / 2)) (height / 2)

theorem rowsSuffice_iff_planes {width height : Nat} (wide : 2 ≤ width) (tall : 2 ≤ height)
    (even : 2 ∣ height) :
    PlaneHolds (alignUp8 width) height ∧ PlaneHolds (alignUp8 (width / 2)) (height / 2) ↔
      RowsSuffice width height := by
  unfold RowsSuffice
  by_cases small : width ≤ 21840 ∧ height ≤ 65532
  · have lumaStride : 8 ∣ alignUp8 width ∧ 0 < alignUp8 width ∧ 3 * alignUp8 width < 65536 := by
      rw [alignUp8]
      omega
    have chromaStride : 8 ∣ alignUp8 (width / 2) ∧ 0 < alignUp8 (width / 2) ∧
        3 * alignUp8 (width / 2) < 65536 := by
      rw [alignUp8]
      omega
    have halfShort : height / 2 ≤ 65532 := by omega
    have luma := planeHolds_iff lumaStride.1 lumaStride.2.1 lumaStride.2.2 (by omega) small.2
    have chroma := planeHolds_iff chromaStride.1 chromaStride.2.1 chromaStride.2.2 (by omega)
      halfShort
    rw [if_pos small, luma, chroma]
    omega
  · rw [if_neg small]

/-- After any run of configurations and draws that leaves a stream size configured, the
fill of a frame of that size reads inside its planes exactly for these sizes. -/
theorem fill_reads_inside_iff (events : List Event) (video : YuvState)
    (reached : run step unconfigured events = some video) (width height : Nat)
    (configured : video.yuvCfgW = width ∧ video.yuvCfgH = height) (wide : 0 < width)
    (tall : 0 < height) (evenWidth : 2 ∣ width) (evenHeight : 2 ∣ height) :
    (∀ store ∈ gxFillTextureYUV video (wiiAllocFrames width height).ystride
          (wiiAllocFrames width height).uvstride,
        ReadsInside (wiiAllocFrames width height) store) ↔
      RowsSuffice width height := by
  obtain ⟨rfl, rfl⟩ := configured
  rw [reads_inside_iff_planes (reached_derived reached) wide]
  exact rowsSuffice_iff_planes (by omega) (by omega) evenHeight

/-- The default size of the configuration file. -/
theorem fill_reads_inside_640x480 :
    (∀ store ∈ gxFillTextureYUV (gxVideoConfigYuv unconfigured 640 480) 640 320,
        ReadsInside (wiiAllocFrames 640 480) store) ↔ RowsSuffice 640 480 :=
  fill_reads_inside_iff [.config 640 480] _ rfl 640 480 ⟨rfl, rfl⟩ (by decide) (by decide)
    (by decide) (by decide)

theorem fill_reads_outside_800x450 :
    ¬ ∀ (events : List Event) (video : YuvState) (width height : Nat),
      run step unconfigured events = some video →
        video.yuvCfgW = width ∧ video.yuvCfgH = height →
          0 < width → 0 < height → 2 ∣ width → 2 ∣ height →
            ∀ store ∈ gxFillTextureYUV video (wiiAllocFrames width height).ystride
                (wiiAllocFrames width height).uvstride,
              ReadsInside (wiiAllocFrames width height) store := by
  intro always
  have configured : (gxVideoConfigYuv unconfigured 800 450).yuvCfgW = 800 ∧
      (gxVideoConfigYuv unconfigured 800 450).yuvCfgH = 450 := ⟨rfl, rfl⟩
  have inside := always [.config 800 450] _ 800 450 rfl configured (by decide) (by decide)
    (by decide) (by decide)
  have derived : Derived (gxVideoConfigYuv unconfigured 800 450) :=
    @reached_derived [.config 800 450] _ rfl
  have planes := (reads_inside_iff_planes derived (by decide)).mp inside
  have rows : RowsSuffice 800 450 :=
    (rowsSuffice_iff_planes (by decide) (by decide) (by decide)).mp planes
  rw [RowsSuffice, if_pos (by decide)] at rows
  exact absurd rows (by decide)

end MoonlightWii.Wii.FrameReads
