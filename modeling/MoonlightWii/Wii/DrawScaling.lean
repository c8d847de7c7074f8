import Mathlib.Data.Rat.Floor
import MoonlightWii.Foundation.AspectFit
import MoonlightWii.Wii.YuvTexture

/-!
# The picture on the screen (`gx_video.c`)

`draw_scaling` scales the picture for the embedded frame buffer whenever
`gx_video_config_yuv` sees a new size.  The values of `f32` are exact rationals here, and
a division by zero has no result.
-/

set_option autoImplicit false

namespace MoonlightWii.Wii.DrawScaling

open Foundation.AspectFit Foundation.GuardedRun
open MoonlightWii.Wii.YuvTexture

/-- What `draw_scaling` reads of `vmode`. -/
structure Mode where
  fbWidth : Nat
  efbHeight : Nat

/-- The quad in rational coordinates, and its vertices as they are stored. -/
structure Drawing where
  quad : Box ℚ
  square : List (Int × Int × Int)

def quotient (a b : ℚ) : Option ℚ := if b = 0 then none else some (a / b)

/-- Conversion of a value that is not negative to `s16`. -/
def s16 (value : ℚ) : Int := ⌊value⌋

def drawing (qw qh : ℚ) : Drawing where
  quad := ⟨qw, qh⟩
  square :=
    [(-s16 (qw / 2), s16 (qh / 2), 0), (s16 (qw / 2), s16 (qh / 2), 0),
      (s16 (qw / 2), -s16 (qh / 2), 0), (-s16 (qw / 2), -s16 (qh / 2), 0)]

/-- The scale for a video of `vw` by `vh` in a frame buffer of `ew` by `eh`. -/
def drawScale (vw vh ew eh : ℚ) : Option ℚ := do
  let videoAspect ← quotient vw vh
  let efbAspect ← quotient ew eh
  if videoAspect > efbAspect then quotient eh vh else quotient ew vw

def drawScaling (video : YuvState) (vmode : Mode) : Option Drawing :=
  let vw : ℚ := video.size.yWidth
  let vh : ℚ := video.size.yHeight
  let ew : ℚ := vmode.fbWidth
  let eh : ℚ := vmode.efbHeight
  (drawScale vw vh ew eh).map fun scale => drawing (vw * scale) (vh * scale)

structure Screen where
  video : YuvState
  drawn : Option Drawing

def start : Screen := ⟨unconfigured, none⟩

/-- `gx_video_config_yuv` leaves everything as it is when it is called with the size that
it was called with before. -/
def step (vmode : Mode) (screen : Screen) : Event → Option Screen
  | .config width height =>
      if screen.video.yuvCfgW = width ∧ screen.video.yuvCfgH = height then
        some screen
      else
        let video := gxVideoConfigYuv screen.video width height
        some ⟨video, drawScaling video vmode⟩
  | .draw ystride uvstride =>
      some { screen with video := updateRowPitch screen.video ystride uvstride }

/-! ## What the comment of `draw_scaling` says -/

def picture (size : Geometry) : Box ℚ := ⟨size.yWidth, size.yHeight⟩

def efb (vmode : Mode) : Box ℚ := ⟨vmode.fbWidth, vmode.efbHeight⟩

/-- The vertex lies in the ranges of the projection. -/
def Visible (vmode : Mode) (vertex : Int × Int × Int) : Prop :=
  2 * |vertex.1| ≤ vmode.fbWidth ∧ 2 * |vertex.2.1| ≤ vmode.efbHeight

/-- The picture of the last size is fitted into the frame buffer, with all of it visible. -/
def Fitted (vmode : Mode) (screen : Screen) : Prop :=
  ∃ drawn, screen.drawn = some drawn ∧
    Fits (picture screen.video.size) (efb vmode) drawn.quad ∧
      ∀ vertex ∈ drawn.square, Visible vmode vertex

/-- The picture has the aspect of the frame buffer. -/
def SameAspect (vmode : Mode) (size : Geometry) : Prop :=
  0 < size.yWidth ∧ size.yWidth * vmode.efbHeight = size.yHeight * vmode.fbWidth

instance (vmode : Mode) (size : Geometry) : Decidable (SameAspect vmode size) :=
  inferInstanceAs (Decidable (_ ∧ _))

/-! ## The scale -/

section Scale

variable {vw vh ew eh : ℚ}

theorem quotient_of_pos {a b : ℚ} (positive : 0 < b) : quotient a b = some (a / b) :=
  if_neg positive.ne'

/-- The comparison of the aspects picks the larger scale. -/
theorem drawScale_eq (wide : 0 < vw) (tall : 0 < vh) (efb_tall : 0 < eh) :
    drawScale vw vh ew eh = some (coverScale ⟨vw, vh⟩ ⟨ew, eh⟩) := by
  have wider : ew / eh < vw / vh ↔ ew / vw < eh / vh :=
    @wider_iff _ _ _ _ ⟨vw, vh⟩ ⟨ew, eh⟩ wide tall efb_tall
  unfold drawScale coverScale
  rw [quotient_of_pos tall, quotient_of_pos efb_tall, Option.bind_eq_bind, Option.bind_some,
    Option.bind_some]
  by_cases limited : ew / eh < vw / vh
  · rw [if_pos limited, quotient_of_pos tall]
    exact congrArg some (max_eq_right (wider.mp limited).le).symm
  · rw [if_neg limited, quotient_of_pos wide]
    exact congrArg some (max_eq_left (le_of_not_gt (mt wider.mpr limited))).symm

theorem drawScale_eq_none (efb_wide : 0 < ew) (efb_tall : 0 < eh) (flat : vw = 0 ∨ vh = 0) :
    drawScale vw vh ew eh = none := by
  unfold drawScale
  by_cases no_height : vh = 0
  · rw [no_height]
    rfl
  · have no_width : vw = 0 := flat.resolve_right no_height
    have narrow : ¬vw / vh > ew / eh := by
      rw [no_width, zero_div]
      exact (div_pos efb_wide efb_tall).le.not_gt
    have height : quotient vw vh = some (vw / vh) := if_neg no_height
    rw [height, quotient_of_pos efb_tall, Option.bind_eq_bind, Option.bind_some,
      Option.bind_some, if_neg narrow, no_width]
    rfl

end Scale

/-- A coordinate of a quad that is not too large is visible. -/
theorem abs_s16_le {side : ℚ} {limit : Nat} (positive : 0 ≤ side) (le : side ≤ limit) :
    2 * |s16 (side / 2)| ≤ limit := by
  have half : 0 ≤ side / 2 := by positivity
  have floor_le : (s16 (side / 2) : ℚ) ≤ side / 2 := Int.floor_le _
  have not_negative : 0 ≤ s16 (side / 2) := Int.floor_nonneg.mpr half
  rw [abs_of_nonneg not_negative]
  have doubled : ((2 * s16 (side / 2) : Int) : ℚ) ≤ (limit : Int) := by
    push_cast
    linarith
  exact_mod_cast doubled

theorem drawing_visible {vmode : Mode} {qw qh : ℚ} (wide : 0 ≤ qw) (tall : 0 ≤ qh)
    (width_le : qw ≤ vmode.fbWidth) (height_le : qh ≤ vmode.efbHeight) :
    ∀ vertex ∈ (drawing qw qh).square, Visible vmode vertex := by
  have x := abs_s16_le wide width_le
  have y := abs_s16_le tall height_le
  unfold drawing Visible
  simp only [List.forall_mem_cons, abs_neg]
  exact ⟨⟨x, y⟩, ⟨x, y⟩, ⟨x, y⟩, ⟨x, y⟩, fun _ member => absurd member List.not_mem_nil⟩

/-! ## Runs of configurations and draws -/

section Run

variable {vmode : Mode}

/-- The drawing is the one of the last size. -/
structure Current (vmode : Mode) (screen : Screen) : Prop where
  configured : Configured screen.video
  drawn : 0 < screen.video.yuvCfgW → screen.drawn = drawScaling screen.video vmode

theorem start_current : Current vmode start := by
  constructor
  · exact unconfigured_configured
  · intro wide
    cases wide

theorem drawScaling_size {video other : YuvState} (same : video.size = other.size) :
    drawScaling video vmode = drawScaling other vmode := by
  unfold drawScaling
  rw [same]

theorem step_current (screen : Screen) (event : Event) (next : Screen)
    (current : Current vmode screen) (stepped : step vmode screen event = some next) :
    Current vmode next := by
  cases event with
  | config width height =>
      change (if screen.video.yuvCfgW = width ∧ screen.video.yuvCfgH = height then some screen
        else some _) = some next at stepped
      by_cases same : screen.video.yuvCfgW = width ∧ screen.video.yuvCfgH = height
      · rw [if_pos same] at stepped
        cases stepped
        exact current
      · rw [if_neg same] at stepped
        cases stepped
        constructor
        · exact step_configured screen.video (.config width height) _ current.configured rfl
        · exact fun _ => rfl
  | draw ystride uvstride =>
      cases stepped
      constructor
      · exact step_configured screen.video (.draw ystride uvstride) _ current.configured rfl
      · intro wide
        rw [updateRowPitch_width] at wide
        exact (current.drawn wide).trans
          (drawScaling_size (updateRowPitch_size screen.video ystride uvstride).symm)

/-- A size that is cut off to zero in 16 bits has no scale. -/
theorem drawScaling_flat {video : YuvState} (efb_wide : 0 < (efb vmode).width)
    (efb_tall : 0 < (efb vmode).height)
    (flat : video.size.yWidth = 0 ∨ video.size.yHeight = 0) :
    drawScaling video vmode = none := by
  have sides : (video.size.yWidth : ℚ) = 0 ∨ (video.size.yHeight : ℚ) = 0 := by
    exact_mod_cast flat
  exact congrArg (Option.map _) (drawScale_eq_none efb_wide efb_tall sides)

/-- The picture is scaled so that it covers the frame buffer. -/
theorem drawScaling_covers {video : YuvState} (wide : 0 < (picture video.size).width)
    (tall : 0 < (picture video.size).height) (efb_tall : 0 < (efb vmode).height) :
    drawScaling video vmode = some (drawing
      ((picture video.size).width * coverScale (picture video.size) (efb vmode))
      ((picture video.size).height * coverScale (picture video.size) (efb vmode))) :=
  congrArg (Option.map _) (drawScale_eq wide tall efb_tall)

theorem covers_fits_iff {size : Geometry} (wide : 0 < (picture size).width)
    (tall : 0 < (picture size).height) (efb_wide : 0 < (efb vmode).width) :
    Fits (picture size) (efb vmode)
      ((picture size).scaled (coverScale (picture size) (efb vmode))) ↔ SameAspect vmode size := by
  rw [scaled_fit_iff wide tall (coverScale_pos wide efb_wide),
    coverScale_eq_fitScale_iff wide tall]
  have some_width : 0 < size.yWidth := Nat.cast_pos.mp wide
  unfold SameAspect
  rw [and_iff_right some_width]
  change (size.yWidth : ℚ) * vmode.efbHeight = size.yHeight * vmode.fbWidth ↔ _
  exact_mod_cast Iff.rfl

theorem drawScaling_fits_iff {video : YuvState} (efb_wide : 0 < (efb vmode).width)
    (efb_tall : 0 < (efb vmode).height) :
    (∃ drawn, drawScaling video vmode = some drawn ∧
      Fits (picture video.size) (efb vmode) drawn.quad ∧
        ∀ vertex ∈ drawn.square, Visible vmode vertex) ↔ SameAspect vmode video.size := by
  by_cases flat : video.size.yWidth = 0 ∨ video.size.yHeight = 0
  · rw [drawScaling_flat efb_wide efb_tall flat]
    constructor
    · rintro ⟨drawn, failed, -⟩
      cases failed
    · rintro ⟨wide, same⟩
      have positive := Nat.mul_pos wide (Nat.cast_pos.mp efb_tall)
      rcases flat with narrow | low
      · omega
      · rw [same, low, Nat.zero_mul] at positive
        omega
  · rw [not_or] at flat
    have wide : 0 < (picture video.size).width := Nat.cast_pos.mpr (Nat.pos_of_ne_zero flat.1)
    have tall : 0 < (picture video.size).height := Nat.cast_pos.mpr (Nat.pos_of_ne_zero flat.2)
    have positive := coverScale_pos wide efb_wide
    rw [drawScaling_covers wide tall efb_tall, ← covers_fits_iff wide tall efb_wide]
    constructor
    · rintro ⟨drawn, same, fits, -⟩
      cases same
      exact fits
    · intro fits
      refine ⟨_, rfl, fits, ?_⟩
      exact drawing_visible (mul_pos wide positive).le (mul_pos tall positive).le fits.width_le
        fits.height_le

end Run

/-- The picture is fitted into the frame buffer exactly when it has its aspect. -/
theorem picture_fitted_iff (vmode : Mode) (events : List Event) (screen : Screen)
    (efb_wide : 0 < vmode.fbWidth) (efb_tall : 0 < vmode.efbHeight)
    (reached : run (step vmode) start events = some screen)
    (wide : 0 < screen.video.yuvCfgW) :
    Fitted vmode screen ↔
      SameAspect vmode (geometry screen.video.yuvCfgW screen.video.yuvCfgH) := by
  have current := run_preserves (Current vmode) step_current start_current reached
  have configured : screen.video.size = _ := current.configured
  unfold Fitted
  rw [current.drawn wide, ← configured]
  exact drawScaling_fits_iff (Nat.cast_pos.mpr efb_wide) (Nat.cast_pos.mpr efb_tall)

/-- The screen after a menu, which has the aspect of the frame buffer. -/
def menuScreen : Screen where
  video := updateRowPitch (gxVideoConfigYuv unconfigured 640 480) 160 80
  drawn := drawScaling (gxVideoConfigYuv unconfigured 640 480) ⟨640, 480⟩

theorem menu_picture_fitted : Fitted ⟨640, 480⟩ menuScreen :=
  (picture_fitted_iff ⟨640, 480⟩ [.config 640 480, .draw 160 80] menuScreen (by decide)
    (by decide) rfl (by decide)).mpr (by decide)

/-- The screen for a stream of 1280 by 720. -/
def wideScreen : Screen where
  video := gxVideoConfigYuv unconfigured 1280 720
  drawn := drawScaling (gxVideoConfigYuv unconfigured 1280 720) ⟨640, 480⟩

/-- The stream is scaled to the height, and is wider than the frame buffer. -/
theorem wide_picture_cut_off :
    run (step ⟨640, 480⟩) start [.config 1280 720] = some wideScreen ∧
      ¬Fitted ⟨640, 480⟩ wideScreen := by
  constructor
  · rfl
  · intro fitted
    have same := (drawScaling_fits_iff (Nat.cast_pos.mpr (by decide : 0 < 640))
      (Nat.cast_pos.mpr (by decide : 0 < 480))).mp fitted
    revert same
    decide

end MoonlightWii.Wii.DrawScaling
