import Mathlib.Algebra.Order.Field.Basic

/-!
# Fitting a box into a frame

A picture scaled by the smaller of the two ratios of frame and picture just fits into the
frame; scaled by the larger one it just covers the frame.
-/

set_option autoImplicit false

namespace Foundation.AspectFit

structure Box (K : Type) where
  width : K
  height : K

section Field

variable {K : Type} [Field K] [LinearOrder K] [IsStrictOrderedRing K]

def Box.scaled (box : Box K) (scale : K) : Box K :=
  ⟨box.width * scale, box.height * scale⟩

/-- The quad has the aspect of the picture and is as large as the frame allows. -/
structure Fits (picture frame quad : Box K) : Prop where
  aspect : quad.width / quad.height = picture.width / picture.height
  width_le : quad.width ≤ frame.width
  height_le : quad.height ≤ frame.height
  tight : quad.width = frame.width ∨ quad.height = frame.height

def fitScale (picture frame : Box K) : K :=
  min (frame.width / picture.width) (frame.height / picture.height)

def coverScale (picture frame : Box K) : K :=
  max (frame.width / picture.width) (frame.height / picture.height)

variable {picture frame : Box K}

theorem scaled_fit_iff (wide : 0 < picture.width) (tall : 0 < picture.height) {scale : K}
    (positive : 0 < scale) :
    Fits picture frame (picture.scaled scale) ↔ scale = fitScale picture frame := by
  have width_le : picture.width * scale ≤ frame.width ↔ scale ≤ frame.width / picture.width :=
    (le_div_iff₀' wide).symm
  have height_le : picture.height * scale ≤ frame.height ↔
      scale ≤ frame.height / picture.height := (le_div_iff₀' tall).symm
  have width_eq : picture.width * scale = frame.width ↔ scale = frame.width / picture.width := by
    rw [eq_div_iff wide.ne', mul_comm]
  have height_eq : picture.height * scale = frame.height ↔
      scale = frame.height / picture.height := by
    rw [eq_div_iff tall.ne', mul_comm]
  constructor
  · intro fit
    apply le_antisymm
    · exact le_min (width_le.mp fit.width_le) (height_le.mp fit.height_le)
    · rcases fit.tight with full | full
      · rw [width_eq.mp full]
        exact min_le_left _ _
      · rw [height_eq.mp full]
        exact min_le_right _ _
  · intro fitting
    refine ⟨mul_div_mul_right _ _ positive.ne', ?_, ?_, ?_⟩
    · apply width_le.mpr
      rw [fitting]
      exact min_le_left _ _
    · apply height_le.mpr
      rw [fitting]
      exact min_le_right _ _
    · rcases min_choice (frame.width / picture.width) (frame.height / picture.height) with
        full | full
      · exact Or.inl (width_eq.mpr (fitting.trans full))
      · exact Or.inr (height_eq.mpr (fitting.trans full))

theorem coverScale_pos (wide : 0 < picture.width) (frame_wide : 0 < frame.width) :
    0 < coverScale picture frame :=
  lt_of_lt_of_le (div_pos frame_wide wide) (le_max_left _ _)

omit [IsStrictOrderedRing K] in
/-- The scales agree for a picture that has the aspect of the frame. -/
theorem coverScale_eq_fitScale_iff (wide : 0 < picture.width) (tall : 0 < picture.height) :
    coverScale picture frame = fitScale picture frame ↔
      picture.width * frame.height = picture.height * frame.width := by
  have same_ratio : frame.width / picture.width = frame.height / picture.height ↔
      picture.width * frame.height = picture.height * frame.width := by
    rw [div_eq_div_iff wide.ne' tall.ne', mul_comm frame.width, mul_comm frame.height]
    exact eq_comm
  rw [← same_ratio]
  constructor
  · intro same
    apply le_antisymm
    · calc frame.width / picture.width
          ≤ coverScale picture frame := le_max_left _ _
        _ = fitScale picture frame := same
        _ ≤ frame.height / picture.height := min_le_right _ _
    · calc frame.height / picture.height
          ≤ coverScale picture frame := le_max_right _ _
        _ = fitScale picture frame := same
        _ ≤ frame.width / picture.width := min_le_left _ _
  · intro same
    unfold coverScale fitScale
    rw [same, max_self, min_self]

/-- A picture wider than the frame is limited by the width. -/
theorem wider_iff (wide : 0 < picture.width) (tall : 0 < picture.height)
    (frame_tall : 0 < frame.height) :
    frame.width / frame.height < picture.width / picture.height ↔
      frame.width / picture.width < frame.height / picture.height := by
  rw [div_lt_div_iff₀ frame_tall tall, div_lt_div_iff₀ wide tall, mul_comm picture.width]

end Field

end Foundation.AspectFit
