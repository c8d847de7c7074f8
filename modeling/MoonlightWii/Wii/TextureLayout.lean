import MoonlightWii.Foundation.TiledLayout
import MoonlightWii.Wii.TextureImage

/-!
# Where a fill stores the samples of a frame (`gx_video.c`)

A sample is a byte of one of the three planes.  Its place is a byte of one of the
four textures: luma columns from 1016 on go to the right texture, eight columns to
the right of its padding tile, if the frame is split at all.
-/

set_option autoImplicit false

namespace MoonlightWii.Wii.TextureLayout

open Foundation.GuardedRun
open Foundation.TiledLayout
open MoonlightWii.Wii.Decoder (Picture Plane alignUp8)
open MoonlightWii.Wii.YuvTexture
open MoonlightWii.Wii.TextureImage hiding step start Event State

/-! ## Samples and places -/

structure Sample where
  plane : Plane
  x : Nat
  y : Nat

def Sample.InFrame (video : YuvState) (sample : Sample) : Prop :=
  match sample.plane with
  | .y => sample.x < video.size.yWidth ∧ sample.y < video.size.yHeight
  | .u => sample.x < video.size.uvWidth ∧ sample.y < video.size.uvHeight
  | .v => sample.x < video.size.uvWidth ∧ sample.y < video.size.uvHeight

/-- A byte of a texture of this width in the format `GX_TF_I8`. -/
def texelOffset (width x y : Nat) : Nat :=
  (y / 4 * (width / 8) + x / 8) * 32 + y % 4 * 8 + x % 8

def place (video : YuvState) (sample : Sample) : Texture × Nat :=
  match sample.plane with
  | .y =>
      if sample.x < 1016 ∨ video.size.yWidth ≤ 1024 then
        (.yl, texelOffset video.ylWidth sample.x sample.y)
      else
        (.yr, texelOffset video.yrWidth (sample.x - 1008) sample.y)
  | .u => (.u, texelOffset video.size.uvWidth sample.x sample.y)
  | .v => (.v, texelOffset video.size.uvWidth sample.x sample.y)

/-- Planes whose rows are as long as the padded rows of the frame. -/
def sourceByte (video : YuvState) (picture : Picture) (sample : Sample) : UInt8 :=
  match sample.plane with
  | .y => picture .y (sample.y * video.size.yWidth + sample.x)
  | .u => picture .u (sample.y * video.size.uvWidth + sample.x)
  | .v => picture .v (sample.y * video.size.uvWidth + sample.x)

theorem texelOffset_eq (width x y : Nat) :
    texelOffset width x y = tileOffset 8 4 (width / 8) x y := rfl

theorem texelOffset_injective {width x y otherX otherY : Nat} (aligned : 8 ∣ width)
    (inside : x < width) (otherInside : otherX < width)
    (same : texelOffset width x y = texelOffset width otherX otherY) :
    x = otherX ∧ y = otherY := by
  have columns : 8 * (width / 8) = width := Nat.mul_div_cancel' aligned
  rw [texelOffset_eq, texelOffset_eq] at same
  refine tileOffset_injective (by decide) (by decide) ?_ ?_ same
  · rw [columns]
    exact inside
  · rw [columns]
    exact otherInside

/-! ## What a configuration leaves behind -/

/-- The widths of the textures are those of the configured size, and the pitches those
of the last strides or still to be computed. -/
structure Derived (video : YuvState) : Prop where
  size : Configured video
  left : 0 < video.yuvCfgW →
    video.ylWidth = if 1016 < video.size.yWidth then 1024 else video.size.yWidth
  right : 0 < video.yuvCfgW →
    video.yrWidth = if 1024 < video.size.yWidth then u16 (video.size.yWidth - 1016 + 8) else 8
  pitches : (video.st0 = 0 ∧ video.st1 = 0) ∨
    (video.yRowPitch = u16 (video.st0 * 4 - video.size.yWidth) ∧
      video.uvRowPitch = u16 (video.st1 * 4 - video.size.uvWidth))

theorem unconfigured_derived : Derived unconfigured where
  size := unconfigured_configured
  left := fun positive => absurd positive (Nat.lt_irrefl 0)
  right := fun positive => absurd positive (Nat.lt_irrefl 0)
  pitches := .inl ⟨rfl, rfl⟩

theorem updateRowPitch_derived {video : YuvState} (derived : Derived video)
    (ystride uvstride : Nat) : Derived (updateRowPitch video ystride uvstride) := by
  unfold updateRowPitch
  split
  · exact ⟨derived.size, derived.left, derived.right, .inr ⟨rfl, rfl⟩⟩
  · exact derived

theorem step_derived (video : YuvState) (event : Event) (next : YuvState)
    (derived : Derived video) (stepped : step video event = some next) : Derived next := by
  cases event with
  | config width height =>
      cases Option.some.inj stepped
      unfold gxVideoConfigYuv
      split
      · exact derived
      · exact ⟨rfl, fun _ => rfl, fun _ => rfl, .inl ⟨rfl, rfl⟩⟩
  | draw ystride uvstride =>
      cases Option.some.inj stepped
      exact updateRowPitch_derived derived ystride uvstride

theorem reached_derived {events : List Event} {video : YuvState}
    (reached : run step unconfigured events = some video) : Derived video :=
  run_preserves Derived step_derived unconfigured_derived reached

/-- A configured size whose textures have widths and pitches of 16 bits. -/
structure Bounded (video : YuvState) : Prop where
  wide : 2 ≤ video.yuvCfgW
  notTooWide : video.yuvCfgW ≤ 16384
  tall : 2 ≤ video.yuvCfgH
  notTooTall : video.yuvCfgH ≤ 16384

section Sizes

variable {video : YuvState}

/-- The sizes of a bounded configuration without the 16-bit truncations. -/
theorem bounded_size (derived : Derived video) (bounded : Bounded video) :
    video.size =
      { yWidth := alignUp8 video.yuvCfgW
        yHeight := alignUp4 video.yuvCfgH
        uvWidth := alignUp8 (video.yuvCfgW / 2)
        uvHeight := alignUp4 (video.yuvCfgH / 2)
        wl := if 1024 / 8 < alignUp8 video.yuvCfgW / 8 then 127 else alignUp8 video.yuvCfgW / 8
        wr := if 1024 / 8 < alignUp8 video.yuvCfgW / 8 then alignUp8 video.yuvCfgW / 8 - 127
          else 0 } := by
  obtain ⟨wide, notTooWide, tall, notTooTall⟩ := bounded
  have luma : u16 (alignUp8 video.yuvCfgW) = alignUp8 video.yuvCfgW := by
    apply u16_of_lt
    rw [alignUp8]
    omega
  have lumaRows : u16 (alignUp4 video.yuvCfgH) = alignUp4 video.yuvCfgH := by
    apply u16_of_lt
    rw [alignUp4]
    omega
  have chroma : u16 (alignUp8 (video.yuvCfgW / 2)) = alignUp8 (video.yuvCfgW / 2) := by
    apply u16_of_lt
    rw [alignUp8]
    omega
  have chromaRows : u16 (alignUp4 (video.yuvCfgH / 2)) = alignUp4 (video.yuvCfgH / 2) := by
    apply u16_of_lt
    rw [alignUp4]
    omega
  have size := derived.size
  unfold Configured at size
  rw [size]
  simp only [geometry, luma, lumaRows, chroma, chromaRows, Geometry.mk.injEq, true_and]
  by_cases split : 1024 / 8 < alignUp8 video.yuvCfgW / 8
  · rw [if_pos split, if_pos split]
    omega
  · rw [if_neg split, if_neg split]

theorem yWidth_bounds (derived : Derived video) (bounded : Bounded video) :
    8 ∣ video.size.yWidth ∧ 8 ≤ video.size.yWidth ∧ video.size.yWidth ≤ 16384 ∧
      video.yuvCfgW ≤ video.size.yWidth ∧ video.size.yWidth < video.yuvCfgW + 8 := by
  obtain ⟨wide, notTooWide, tall, notTooTall⟩ := bounded
  rw [bounded_size derived ⟨wide, notTooWide, tall, notTooTall⟩]
  simp only [alignUp8]
  omega

theorem uvWidth_bounds (derived : Derived video) (bounded : Bounded video) :
    8 ∣ video.size.uvWidth ∧ 8 ≤ video.size.uvWidth ∧ video.size.uvWidth ≤ 16384 := by
  obtain ⟨wide, notTooWide, tall, notTooTall⟩ := bounded
  rw [bounded_size derived ⟨wide, notTooWide, tall, notTooTall⟩]
  simp only [alignUp8]
  omega

theorem heights_aligned (derived : Derived video) (bounded : Bounded video) :
    4 ∣ video.size.yHeight ∧ 4 ∣ video.size.uvHeight ∧ video.yuvCfgH ≤ video.size.yHeight := by
  rw [bounded_size derived bounded]
  simp only [alignUp4]
  omega

/-- The pitches of the strides of a draw. -/
theorem updateRowPitch_pitches (derived : Derived video) {ystride : Nat} (positive : 0 < ystride)
    (uvstride : Nat) :
    (updateRowPitch video ystride uvstride).yRowPitch = u16 (ystride * 4 - video.size.yWidth) ∧
      (updateRowPitch video ystride uvstride).uvRowPitch =
        u16 (uvstride * 4 - video.size.uvWidth) := by
  unfold updateRowPitch
  split
  · exact ⟨rfl, rfl⟩
  · rename_i unchanged
    rw [not_or, not_not, not_not] at unchanged
    rcases derived.pitches with ⟨zero, -⟩ | ⟨yPitch, uvPitch⟩
    · omega
    · rw [yPitch, uvPitch, unchanged.1, unchanged.2]
      exact ⟨rfl, rfl⟩

/-- The pitches of a frame whose strides are its padded widths. -/
theorem exact_pitches (derived : Derived video) (bounded : Bounded video) :
    (updateRowPitch video video.size.yWidth video.size.uvWidth).yRowPitch =
        3 * video.size.yWidth ∧
      (updateRowPitch video video.size.yWidth video.size.uvWidth).uvRowPitch =
        3 * video.size.uvWidth := by
  have luma := yWidth_bounds derived bounded
  have chroma := uvWidth_bounds derived bounded
  have pitches := updateRowPitch_pitches derived (by omega : 0 < video.size.yWidth)
    video.size.uvWidth
  rw [pitches.1, pitches.2]
  simp only [u16]
  omega

/-- A frame wider than 1024 columns is split as `Wide` says. -/
theorem bounded_wide (derived : Derived video) (bounded : Bounded video)
    (columns : 1024 < video.size.yWidth) : Wide video := by
  have width := yWidth_bounds derived bounded
  have heights := heights_aligned derived bounded
  have positive : 0 < video.yuvCfgW := by
    have wide := bounded.wide
    omega
  have left := derived.left positive
  have right := derived.right positive
  rw [if_pos (by omega)] at left right
  have size := bounded_size derived bounded
  have yWidth := congrArg Geometry.yWidth size
  have wl := congrArg Geometry.wl size
  have wr := congrArg Geometry.wr size
  simp only at yWidth wl wr
  rw [← yWidth, if_pos (by omega)] at wl wr
  refine ⟨yWidth, ?_, heights.2.2, heights.1, wl, ?_, left, ?_⟩
  · rw [yWidth, alignUp8] at columns
    omega
  · omega
  · rw [right]
    simp only [u16]
    omega

end Sizes

/-! ## The stores to a chroma texture -/

def chromaPlane : Texture → Plane
  | .u => .u
  | _ => .v

theorem lumaCopy_chroma (video : YuvState) (ystride : Nat) {texture : Texture}
    (chroma : texture = .u ∨ texture = .v) :
    (lumaCopy video ystride).filter (fun store => store.texture = texture) = [] := by
  rw [List.filter_eq_nil_iff]
  intro store member same
  rw [decide_eq_true_eq] at same
  have luma : store.texture = .yl ∨ store.texture = .yr := by
    rcases lumaRows_stop video _ _ _ _ store member with left | right
    · exact .inl left.1
    · exact .inr right.1
  rw [same] at luma
  rcases chroma with rfl | rfl
  · rcases luma with impossible | impossible <;> cases impossible
  · rcases luma with impossible | impossible <;> cases impossible

/-- Of a pair of tiles, one goes to each chroma texture. -/
theorem copyTile_chroma {texture : Texture} (chroma : texture = .u ∨ texture = .v) (dst : Nat)
    (src : Fin 4 → Nat) :
    (copyTile .u .u dst src ++ copyTile .v .v dst src).filter
        (fun store => store.texture = texture) =
      copyTile texture (chromaPlane texture) dst src := by
  rcases chroma with rfl | rfl
  · rfl
  · rfl

section Chroma

variable (picture : Picture) (bytes : Nat → UInt8) {texture : Texture}

/-- One plane, whichever plane is asked for. -/
def planar (plane : Plane) : Picture := fun _ => picture plane

theorem chromaTiles_write (chroma : texture = .u ∨ texture = .v) (tiles dst : Nat)
    (src : Fin 4 → Nat) :
    TextureImage.write picture bytes
        ((chromaTiles tiles dst src).filter fun store => store.texture = texture) =
      TextureImage.write (planar picture (chromaPlane texture)) bytes
        (lumaTiles texture tiles dst src) := by
  induction tiles generalizing bytes dst src with
  | zero => rfl
  | succ tiles inductionHypothesis =>
      rw [chromaTiles, List.filter_append, copyTile_chroma chroma, lumaTiles,
        TextureImage.write_append, TextureImage.write_append, inductionHypothesis]
      rfl

theorem chromaRows_write (video : YuvState) (chroma : texture = .u ∨ texture = .v)
    (rows dst : Nat) (src : Fin 4 → Nat) :
    TextureImage.write picture bytes
        ((chromaRows video rows dst src).filter fun store => store.texture = texture) =
      TextureImage.write (planar picture (chromaPlane texture)) bytes
        (TextureImage.tileRows texture (video.size.uvWidth / 8) 0
          (8 * (video.size.uvWidth / 8) + video.uvRowPitch) rows dst src) := by
  induction rows generalizing bytes dst src with
  | zero => rfl
  | succ rows inductionHypothesis =>
      rw [chromaRows, List.filter_append, TextureImage.tileRows, TextureImage.write_append,
        TextureImage.write_append, chromaTiles_write picture bytes chroma, inductionHypothesis]
      simp only [Nat.add_assoc, Nat.add_zero]

/-- A chroma texture after a fill whose strides are the padded widths. -/
theorem chroma_filled {video : YuvState} (derived : Derived video) (bounded : Bounded video)
    (memory : TextureImage.TextureMemory) (chroma : texture = .u ∨ texture = .v) {x y : Nat}
    (column : x < video.size.uvWidth) (line : y < video.size.uvHeight) :
    TextureImage.applyStores picture memory
        (gxFillTextureYUV video video.size.yWidth video.size.uvWidth) texture
        (texelOffset video.size.uvWidth x y) =
      picture (chromaPlane texture) (y * video.size.uvWidth + x) := by
  have widths := uvWidth_bounds derived bounded
  have heights := heights_aligned derived bounded
  have pitch := (exact_pitches derived bounded).2
  rw [TextureImage.applyStores_texture, gxFillTextureYUV, List.filter_append,
    lumaCopy_chroma _ _ chroma, List.nil_append, chromaCopy]
  have stored := TextureImage.tileRows_at (planar picture (chromaPlane texture)) (memory texture)
    texture (8 * (video.size.uvWidth / 8) + 3 * video.size.uvWidth)
    (fun row => video.size.uvWidth * row) (Nat.dvd_zero 32) (Nat.dvd_zero 32)
    (by omega : y / 4 < video.size.uvHeight / 4) (by omega : x / 8 < video.size.uvWidth / 8)
    ⟨y % 4, Nat.mod_lt y (by decide)⟩ (Nat.mod_lt x (by decide : 0 < 8))
  have advance : 8 * (video.size.uvWidth / 8) + 3 * video.size.uvWidth =
      4 * video.size.uvWidth := by
    omega
  have offset : texelOffset video.size.uvWidth x y =
      0 + y / 4 * (32 * (video.size.uvWidth / 8) + 0) + 32 * (x / 8) + 8 * (y % 4) + x % 8 := by
    have tileRow : y / 4 * (32 * (video.size.uvWidth / 8)) =
        y / 4 * (video.size.uvWidth / 8) * 32 := by
      rw [Nat.mul_comm 32, Nat.mul_assoc]
    rw [texelOffset, Nat.add_zero, tileRow]
    omega
  have written := chromaRows_write picture (memory texture)
    (updateRowPitch video video.size.yWidth video.size.uvWidth) chroma
    (video.size.uvHeight / 4) 0 (fun row => video.size.uvWidth * row)
  rw [updateRowPitch_size, pitch] at written
  rw [updateRowPitch_size, offset]
  rw [advance, TextureImage.source_offset] at stored
  exact (congrFun written _).trans (by rw [advance]; exact stored)

end Chroma

/-! ## The stores to the luma textures -/

section Luma

variable {video : YuvState} (picture : Picture) (memory : TextureImage.TextureMemory)

/-- A frame of at most 1024 columns goes to the left texture alone. -/
theorem narrow_filled (derived : Derived video) (bounded : Bounded video)
    (narrow : video.size.yWidth ≤ 1024) {x y : Nat} (column : x < video.size.yWidth)
    (line : y < video.size.yHeight) :
    TextureImage.applyStores picture memory
        (gxFillTextureYUV video video.size.yWidth video.size.uvWidth) .yl
        (texelOffset video.ylWidth x y) =
      picture .y (y * video.size.yWidth + x) := by
  have widths := yWidth_bounds derived bounded
  have heights := heights_aligned derived bounded
  have pitch := (exact_pitches derived bounded).1
  have size := bounded_size derived bounded
  have yWidth := congrArg Geometry.yWidth size
  have wl := congrArg Geometry.wl size
  have wr := congrArg Geometry.wr size
  simp only at yWidth wl wr
  rw [← yWidth, if_neg (by omega)] at wl wr
  have left : video.ylWidth = video.size.yWidth := by
    have positive : 0 < video.yuvCfgW := Nat.lt_of_lt_of_le Nat.two_pos bounded.wide
    rw [derived.left positive]
    split <;> omega
  have stored := TextureImage.tileRows_at picture (memory .yl) .yl
    (8 * video.size.wl + 3 * video.size.yWidth) (fun row => video.size.yWidth * row)
    (Nat.dvd_zero 32) (Nat.dvd_zero 32) (by omega : y / 4 < video.size.yHeight / 4)
    (by omega : x / 8 < video.size.wl) ⟨y % 4, Nat.mod_lt y (by decide)⟩
    (Nat.mod_lt x (by decide : 0 < 8))
  have advance : 8 * video.size.wl + 3 * video.size.yWidth = 4 * video.size.yWidth := by omega
  have offset : texelOffset video.ylWidth x y =
      0 + y / 4 * (32 * video.size.wl + 0) + 32 * (x / 8) + 8 * (y % 4) + x % 8 := by
    have tileRow : y / 4 * (32 * video.size.wl) = y / 4 * video.size.wl * 32 := by
      rw [Nat.mul_comm 32, Nat.mul_assoc]
    rw [texelOffset, left, ← wl, Nat.add_zero, tileRow]
    omega
  rw [TextureImage.fill_narrow wr, pitch, offset]
  rw [advance, TextureImage.source_offset] at stored
  rw [advance]
  exact stored

/-- A wider frame goes to both luma textures. -/
theorem wide_filled (derived : Derived video) (bounded : Bounded video)
    (columns : 1024 < video.size.yWidth) {x y : Nat} (column : x < video.size.yWidth)
    (line : y < video.size.yHeight) :
    (x < 1016 →
      TextureImage.applyStores picture memory
          (gxFillTextureYUV video video.size.yWidth video.size.uvWidth) .yl
          (texelOffset video.ylWidth x y) =
        picture .y (y * video.size.yWidth + x)) ∧
      (1016 ≤ x →
        TextureImage.applyStores picture memory
            (gxFillTextureYUV video video.size.yWidth video.size.uvWidth) .yr
            (texelOffset video.yrWidth (x - 1008) y) =
          picture .y (y * video.size.yWidth + x)) := by
  have widths := yWidth_bounds derived bounded
  have wide := bounded_wide derived bounded columns
  have current : TextureImage.PitchCurrent video := by
    rcases derived.pitches with zero | ⟨pitch, -⟩
    · exact .inl zero
    · exact .inr pitch
  have fits : TextureImage.PitchFits video video.size.yWidth := .inr (by omega)
  constructor
  · intro left
    exact TextureImage.leftTexel_filled picture memory video.size.uvWidth wide current fits
      (by omega) line
  · intro right
    exact TextureImage.rightTexel_filled picture memory video.size.uvWidth wide current fits
      right column line

end Luma

/-! ## Every sample has its place -/

section Places

variable {video : YuvState}

theorem sample_stored (derived : Derived video) (bounded : Bounded video) (picture : Picture)
    (memory : TextureImage.TextureMemory) (sample : Sample) (inFrame : sample.InFrame video) :
    TextureImage.applyStores picture memory
        (gxFillTextureYUV video video.size.yWidth video.size.uvWidth)
        (place video sample).1 (place video sample).2 =
      sourceByte video picture sample := by
  obtain ⟨plane, x, y⟩ := sample
  cases plane with
  | u => exact chroma_filled picture derived bounded memory (.inl rfl) inFrame.1 inFrame.2
  | v => exact chroma_filled picture derived bounded memory (.inr rfl) inFrame.1 inFrame.2
  | y =>
      by_cases narrow : video.size.yWidth ≤ 1024
      · have whole : x < 1016 ∨ video.size.yWidth ≤ 1024 := .inr narrow
        simp only [place, if_pos whole, sourceByte]
        exact narrow_filled picture memory derived bounded narrow inFrame.1 inFrame.2
      · have stored := wide_filled picture memory derived bounded (Nat.lt_of_not_le narrow)
          inFrame.1 inFrame.2
        by_cases left : x < 1016
        · have leftHalf : x < 1016 ∨ video.size.yWidth ≤ 1024 := .inl left
          simp only [place, if_pos leftHalf, sourceByte]
          exact stored.1 left
        · have rightHalf : ¬ (x < 1016 ∨ video.size.yWidth ≤ 1024) := by
            rw [not_or]
            exact ⟨left, narrow⟩
          simp only [place, if_neg rightHalf, sourceByte]
          exact stored.2 (Nat.le_of_not_lt left)

/-- Luma samples of one frame with one place are the same sample. -/
theorem luma_place_injective (derived : Derived video) (bounded : Bounded video)
    {x y otherX otherY : Nat} (column : x < video.size.yWidth)
    (otherColumn : otherX < video.size.yWidth)
    (same : place video ⟨.y, x, y⟩ = place video ⟨.y, otherX, otherY⟩) :
    x = otherX ∧ y = otherY := by
  have widths := yWidth_bounds derived bounded
  have positive : 0 < video.yuvCfgW := Nat.lt_of_lt_of_le Nat.two_pos bounded.wide
  have left := derived.left positive
  by_cases narrow : video.size.yWidth ≤ 1024
  · have whole (x : Nat) : x < 1016 ∨ video.size.yWidth ≤ 1024 := .inr narrow
    have leftWidth : video.ylWidth = video.size.yWidth := by
      rw [left]
      split <;> omega
    simp only [place, if_pos (whole _), leftWidth, Prod.mk.injEq, true_and] at same
    exact texelOffset_injective widths.1 column otherColumn same
  · have wide := bounded_wide derived bounded (Nat.lt_of_not_le narrow)
    have rightWidth := wide.yrWidth
    have tiles := wide.wr
    simp only [place, narrow, or_false] at same
    by_cases inLeft : x < 1016
    · by_cases otherInLeft : otherX < 1016
      · rw [if_pos inLeft, if_pos otherInLeft, wide.ylWidth] at same
        exact texelOffset_injective (by decide) (by omega) (by omega) (Prod.mk.inj same).2
      · rw [if_pos inLeft, if_neg otherInLeft] at same
        cases (Prod.mk.inj same).1
    · by_cases otherInLeft : otherX < 1016
      · rw [if_neg inLeft, if_pos otherInLeft] at same
        cases (Prod.mk.inj same).1
      · rw [if_neg inLeft, if_neg otherInLeft] at same
        have sameColumn := texelOffset_injective (by omega) (by omega) (by omega)
          (Prod.mk.inj same).2
        omega

theorem place_texture (video : YuvState) (sample : Sample) :
    match sample.plane with
    | .y => (place video sample).1 = .yl ∨ (place video sample).1 = .yr
    | .u => (place video sample).1 = .u
    | .v => (place video sample).1 = .v := by
  obtain ⟨plane, x, y⟩ := sample
  cases plane with
  | u => rfl
  | v => rfl
  | y =>
      simp only [place]
      split
      · exact .inl rfl
      · exact .inr rfl

/-- No two samples of a frame share a place. -/
theorem place_injective (derived : Derived video) (bounded : Bounded video)
    {sample other : Sample} (inFrame : sample.InFrame video) (otherInFrame : other.InFrame video)
    (same : place video sample = place video other) : sample = other := by
  have texture := place_texture video sample
  have otherTexture := place_texture video other
  have widths := uvWidth_bounds derived bounded
  obtain ⟨plane, x, y⟩ := sample
  obtain ⟨otherPlane, otherX, otherY⟩ := other
  have samePlane : plane = otherPlane := by
    rw [same] at texture
    cases plane <;> cases otherPlane <;> simp_all
  subst samePlane
  have coordinates : x = otherX ∧ y = otherY := by
    cases plane with
    | y => exact luma_place_injective derived bounded inFrame.1 otherInFrame.1 same
    | u => exact texelOffset_injective widths.1 inFrame.1 otherInFrame.1 (Prod.mk.inj same).2
    | v => exact texelOffset_injective widths.1 inFrame.1 otherInFrame.1 (Prod.mk.inj same).2
  rw [coordinates.1, coordinates.2]

end Places

/-- After any run of configurations and draws that leaves such a size configured, a fill
stores every sample at its place, and no two samples have one place. -/
theorem fill_stores_every_sample (events : List Event) (video : YuvState)
    (reached : run step unconfigured events = some video) (bounded : Bounded video)
    (picture : Picture) (memory : TextureImage.TextureMemory) :
    (∀ sample : Sample, sample.InFrame video →
      TextureImage.applyStores picture memory
          (gxFillTextureYUV video video.size.yWidth video.size.uvWidth)
          (place video sample).1 (place video sample).2 =
        sourceByte video picture sample) ∧
      ∀ sample other : Sample, sample.InFrame video → other.InFrame video →
        place video sample = place video other → sample = other := by
  have derived := reached_derived reached
  constructor
  · intro sample inFrame
    exact sample_stored derived bounded picture memory sample inFrame
  · intro sample other inFrame otherInFrame same
    exact place_injective derived bounded inFrame otherInFrame same

theorem fill_stores_every_sample_1280x720 :
    (gxVideoConfigYuv unconfigured 1280 720).size.yWidth = 1280 ∧
      ∀ sample : Sample, sample.InFrame (gxVideoConfigYuv unconfigured 1280 720) →
        TextureImage.applyStores (TextureImage.plain 255) TextureImage.clearedTextures
            (gxFillTextureYUV (gxVideoConfigYuv unconfigured 1280 720)
              (gxVideoConfigYuv unconfigured 1280 720).size.yWidth
              (gxVideoConfigYuv unconfigured 1280 720).size.uvWidth)
            (place (gxVideoConfigYuv unconfigured 1280 720) sample).1
            (place (gxVideoConfigYuv unconfigured 1280 720) sample).2 =
          sourceByte (gxVideoConfigYuv unconfigured 1280 720) (TextureImage.plain 255) sample :=
  ⟨by decide,
    (fill_stores_every_sample [.config 1280 720] _ rfl
      ⟨by decide, by decide, by decide, by decide⟩ (TextureImage.plain 255)
      TextureImage.clearedTextures).1⟩

end MoonlightWii.Wii.TextureLayout
