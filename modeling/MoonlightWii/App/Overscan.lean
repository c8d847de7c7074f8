import MoonlightWii.App.SettingsMenu
import MoonlightWii.Foundation.CheckedInt
import MoonlightWii.Wii.InputString
import Mathlib.Tactic.Linarith

/-!
# The overscan margin (`font.c`)

Text is drawn on a canvas of the size of the frame buffer.  `font_overscan_map` moves a
text origin into the part of the canvas that the margin leaves.  The margin is an `int`
of the configuration, kept as `uint32_t` and read as `int` again.
-/

set_option autoImplicit false

namespace MoonlightWii.App.Overscan

open Foundation.CheckedInt
open MoonlightWii.App.Configuration
open MoonlightWii.App.SavedConfig
open MoonlightWii.Gamestream.Errors
open MoonlightWii.Wii.Menu

def int : Range := ⟨-2147483648, 2147483647⟩

/-- `(int) value` of a `uint32_t`. -/
def asInt (value : UInt32) : Int := value.toInt32.toInt

/-- `Font_SetOverscan`: what `font_overscan` holds for an `int` margin. -/
def fontSetOverscan (margin : Int32) : UInt32 := margin.toUInt32

/-- `sw = w - 2 * m; if (sw < 1) sw = 1;` -/
def safeSide (w m : Int) : Option Int := do
  let twice ← mul int 2 m
  let sw ← sub int w twice
  return if sw < 1 then 1 else sw

/-- `m + px * sw / w` -/
def place (m sw w px : Int) : Option Int := do
  let scaled ← mul int px sw
  let quotient ← quot int scaled w
  add int m quotient

/-- `font_overscan_map`; a signed overflow has no result. -/
def fontOverscanMap (fontOverscan fontWidth fontHeight : UInt32) (px py : Int) :
    Option (Int × Int) :=
  if fontOverscan ≤ 0 then some (px, py)
  else
    let m := asInt fontOverscan
    let w := asInt fontWidth
    let h := asInt fontHeight
    do
      let sw ← safeSide w m
      let sh ← safeSide h m
      let x ← place m sw w px
      let y ← place m sh h py
      return (x, y)

/-! ## Where a margin comes from -/

/-- `menu_input_int` -/
def menuInputInt (out : Nat → Char) (initial : Int32) (proc : ProcState) (scans : List Scan) :
    Option Int32 :=
  let buf := snprintf 16 (decimal (if initial < 0 then 0 else initial.toInt))
  match Wii.InputString.menuInputString "0123456789".toList 15 out (some buf) proc scans with
  | none => none
  | some none => some (-1)
  | some (some entered) =>
      let v := atoiInt (Wii.InputString.cString entered)
      some (if v < 0 then 0 else v)

/-- The margins that reach `Font_SetOverscan`: the value of a configuration line, or a number
entered in the settings menu. -/
inductive Delivered : Int32 → Prop where
  | configured (value : CString) : Delivered (atoiInt value)
  | entered (out : Nat → Char) (initial v : Int32) (proc : ProcState) (scans : List Scan)
      (returned : menuInputInt out initial proc scans = some v) (kept : 0 ≤ v) : Delivered v

/-- Every `int` is the value of some configuration line. -/
theorem delivered (margin : Int32) : Delivered margin := by
  have written := Delivered.configured (decimal margin.toInt)
  rwa [atoiInt_decimal] at written

/-! ## One axis -/

/-- What the margin leaves of a side, at least one pixel. -/
def safe (side m : Int) : Int := max 1 (side - 2 * m)

def mapped (side m p : Int) : Int := m + p * safe side m / side

/-- The margin leaves a point of the side, and the largest product does not overflow. -/
structure SideFits (side m : Int) : Prop where
  inside : 0 < m ∧ m < side
  doubled : 2 * m ≤ int.high
  product : (side - 1) * safe side m ≤ int.high

/-- The coordinate that one axis is given, if nothing overflows. -/
def axis (side m p : Int) : Option Int := (safeSide side m).bind fun s => place m s side p

theorem safeSide_eq_some {side m s : Int} :
    safeSide side m = some s ↔ int.Fits (2 * m) ∧ int.Fits (side - 2 * m) ∧ safe side m = s := by
  have clamp : (if side - 2 * m < 1 then 1 else side - 2 * m) = safe side m := by
    unfold safe
    split <;> omega
  simp only [safeSide, Option.bind_eq_bind, Option.bind_eq_some_iff, mul_eq_some, sub_eq_some,
    Option.pure_def, Option.some.injEq]
  constructor
  · rintro ⟨twice, ⟨twiceFits, rfl⟩, rest, ⟨restFits, rfl⟩, known⟩
    exact ⟨twiceFits, restFits, clamp.symm.trans known⟩
  · rintro ⟨twiceFits, restFits, known⟩
    exact ⟨_, ⟨twiceFits, rfl⟩, _, ⟨restFits, rfl⟩, clamp.trans known⟩

theorem place_eq_some {m s side p x : Int} (nonneg : 0 ≤ p * s) (pos : 0 < side) :
    place m s side p = some x ↔
      int.Fits (p * s) ∧ int.Fits (p * s / side) ∧ int.Fits (m + p * s / side) ∧
        m + p * s / side = x := by
  simp only [place, Option.bind_eq_bind, Option.bind_eq_some_iff, mul_eq_some, add_eq_some]
  constructor
  · rintro ⟨scaled, ⟨scaledFits, rfl⟩, quotient, divided, sum⟩
    obtain ⟨quotientFits, rfl⟩ := (quot_eq_some int nonneg pos).mp divided
    exact ⟨scaledFits, quotientFits, sum⟩
  · rintro ⟨scaledFits, quotientFits, sum⟩
    exact ⟨_, ⟨scaledFits, rfl⟩, _, (quot_eq_some int nonneg pos).mpr ⟨quotientFits, rfl⟩, sum⟩

theorem safe_pos (side m : Int) : 1 ≤ safe side m := le_max_left _ _

/-- Inside the side a fitting margin leaves room for the mapped coordinate. -/
theorem mapped_inside {side m p : Int} (margin : 0 < m ∧ m < side) (inside : 0 ≤ p ∧ p < side) :
    0 ≤ p * safe side m / side ∧ m + p * safe side m / side < side := by
  have pos : 0 < side := by omega
  have scale := safe_pos side m
  have product : 0 ≤ p * safe side m := mul_nonneg inside.1 (by omega)
  refine ⟨Int.ediv_nonneg product pos.le, ?_⟩
  have below : p * safe side m / side < safe side m := by
    apply Int.ediv_lt_of_lt_mul pos
    rw [mul_comm (safe side m)]
    exact mul_lt_mul_of_pos_right inside.2 (by omega)
  have width : safe side m = 1 ∨ safe side m = side - 2 * m := max_choice _ _
  omega

theorem axis_of_fits {side m p : Int} (high : side ≤ int.high) (fits : SideFits side m)
    (inside : 0 ≤ p ∧ p < side) : axis side m p = some (mapped side m p) := by
  obtain ⟨margin, doubled, product⟩ := fits
  have pos : 0 < side := by omega
  have scale := safe_pos side m
  have low : 0 ≤ p * safe side m := mul_nonneg inside.1 (by omega)
  have scaled : p * safe side m ≤ (side - 1) * safe side m :=
    mul_le_mul_of_nonneg_right (by omega) (by omega)
  have room := mapped_inside margin inside
  simp only [int] at high doubled product
  have safeFits : safeSide side m = some (safe side m) :=
    safeSide_eq_some.mpr ⟨⟨by simp only [int]; omega, by simpa [int] using doubled⟩,
      ⟨by simp only [int]; omega, by simp only [int]; omega⟩, rfl⟩
  rw [axis, safeFits, Option.bind_some]
  refine (place_eq_some low pos).mpr ⟨⟨?_, ?_⟩, ⟨?_, ?_⟩, ⟨?_, ?_⟩, rfl⟩ <;>
    simp only [int] <;> omega

/-- A margin that keeps the origins of a side inside it fits the side. -/
theorem fits_of_axis {side m : Int} (pos : 0 < side) (margin : m ≠ 0)
    (kept : ∀ p, 0 ≤ p → p < side → ∃ x, axis side m p = some x ∧ 0 ≤ x ∧ x < side) :
    SideFits side m := by
  have scale := safe_pos side m
  obtain ⟨first, firstMapped, firstLow, firstHigh⟩ := kept 0 le_rfl pos
  obtain ⟨s, safeKnown, placed⟩ := Option.bind_eq_some_iff.mp firstMapped
  obtain ⟨twiceFits, -, rfl⟩ := safeSide_eq_some.mp safeKnown
  obtain ⟨-, -, -, same⟩ := (place_eq_some (by rw [zero_mul]) pos).mp placed
  rw [zero_mul, Int.zero_ediv, add_zero] at same
  obtain ⟨last, lastMapped, -, -⟩ := kept (side - 1) (by omega) (by omega)
  rw [axis, safeKnown, Option.bind_some] at lastMapped
  have product : 0 ≤ (side - 1) * safe side m := mul_nonneg (by omega) (by omega)
  obtain ⟨productFits, -⟩ := (place_eq_some product pos).mp lastMapped
  exact ⟨by omega, twiceFits.2, productFits.2⟩

theorem mapped_mono {side m p q : Int} (pos : 0 < side) (le : p ≤ q) :
    mapped side m p ≤ mapped side m q := by
  have scale := safe_pos side m
  have scaled : p * safe side m ≤ q * safe side m := mul_le_mul_of_nonneg_right le (by omega)
  have divided := Int.ediv_le_ediv pos scaled
  unfold mapped
  omega

/-! ## The whole map -/

theorem asInt_fontSetOverscan (margin : Int32) :
    asInt (fontSetOverscan margin) = margin.toInt := by
  rw [asInt, fontSetOverscan, Int32.toInt32_toUInt32]

theorem fontSetOverscan_zero (margin : Int32) :
    fontSetOverscan margin ≤ 0 ↔ margin.toInt = 0 := by
  rw [fontSetOverscan, UInt32.le_zero_iff]
  constructor
  · intro zero
    have same := congrArg UInt32.toInt32 zero
    rw [Int32.toInt32_toUInt32] at same
    rw [same]
    rfl
  · intro zero
    have same : margin = 0 := Int32.toInt.inj zero
    rw [same]
    rfl

theorem fontOverscanMap_eq_some {overscan width height : UInt32} {px py x y : Int}
    (some_margin : ¬ overscan ≤ 0) :
    fontOverscanMap overscan width height px py = some (x, y) ↔
      axis (asInt width) (asInt overscan) px = some x ∧
        axis (asInt height) (asInt overscan) py = some y := by
  simp only [fontOverscanMap, if_neg some_margin, axis, Option.bind_eq_bind,
    Option.bind_eq_some_iff, Option.pure_def, Option.some.injEq, Prod.mk.injEq]
  constructor
  · rintro ⟨sw, wide, sh, tall, x', placedX, y', placedY, rfl, rfl⟩
    exact ⟨⟨sw, wide, placedX⟩, ⟨sh, tall, placedY⟩⟩
  · rintro ⟨⟨sw, wide, placedX⟩, ⟨sh, tall, placedY⟩⟩
    exact ⟨sw, wide, sh, tall, x, placedX, y, placedY, rfl, rfl⟩

/-- A text origin inside the canvas. -/
def OnCanvas (width height : UInt32) (px py : Int) : Prop :=
  (0 ≤ px ∧ px < asInt width) ∧ 0 ≤ py ∧ py < asInt height

/-- What the map is for: origins inside the canvas stay there and keep their order. -/
structure KeepsText (overscan width height : UInt32) : Prop where
  inside : ∀ px py, OnCanvas width height px py →
    ∃ x y, fontOverscanMap overscan width height px py = some (x, y) ∧
      OnCanvas width height x y
  ordered : ∀ px py px' py', OnCanvas width height px py → OnCanvas width height px' py' →
    px ≤ px' → py ≤ py' → ∀ x y x' y',
      fontOverscanMap overscan width height px py = some (x, y) →
      fontOverscanMap overscan width height px' py' = some (x', y') → x ≤ x' ∧ y ≤ y'

theorem keepsText_of_zero {margin : Int32} (width height : UInt32) (zero : margin.toInt = 0) :
    KeepsText (fontSetOverscan margin) width height := by
  have identity : ∀ px py, fontOverscanMap (fontSetOverscan margin) width height px py =
      some (px, py) := fun px py => if_pos ((fontSetOverscan_zero margin).mpr zero)
  refine ⟨fun px py on => ⟨px, py, identity px py, on⟩, ?_⟩
  intro px py px' py' _ _ leX leY x y x' y' first second
  rw [identity] at first second
  obtain ⟨rfl, rfl⟩ := Prod.mk.inj (Option.some.inj first)
  obtain ⟨rfl, rfl⟩ := Prod.mk.inj (Option.some.inj second)
  exact ⟨leX, leY⟩

theorem asInt_high (value : UInt32) : asInt value ≤ int.high :=
  Int32.toInt_le value.toInt32

theorem keepsText_of_fits {margin : Int32} {width height : UInt32} (nonzero : margin.toInt ≠ 0)
    (wide : SideFits (asInt width) margin.toInt) (tall : SideFits (asInt height) margin.toInt) :
    KeepsText (fontSetOverscan margin) width height := by
  have some_margin : ¬ fontSetOverscan margin ≤ 0 :=
    fun zero => nonzero ((fontSetOverscan_zero margin).mp zero)
  have map : ∀ px py, OnCanvas width height px py →
      fontOverscanMap (fontSetOverscan margin) width height px py =
        some (mapped (asInt width) margin.toInt px, mapped (asInt height) margin.toInt py) := by
    intro px py on
    rw [fontOverscanMap_eq_some some_margin, asInt_fontSetOverscan]
    exact ⟨axis_of_fits (asInt_high width) wide on.1, axis_of_fits (asInt_high height) tall on.2⟩
  constructor
  · intro px py on
    refine ⟨_, _, map px py on, ⟨?_, ?_⟩, ?_, ?_⟩
    · have room := mapped_inside wide.inside on.1
      exact add_nonneg wide.inside.1.le room.1
    · exact (mapped_inside wide.inside on.1).2
    · have room := mapped_inside tall.inside on.2
      exact add_nonneg tall.inside.1.le room.1
    · exact (mapped_inside tall.inside on.2).2
  · intro px py px' py' on on' leX leY x y x' y' first second
    rw [map px py on] at first
    rw [map px' py' on'] at second
    obtain ⟨rfl, rfl⟩ := Prod.mk.inj (Option.some.inj first)
    obtain ⟨rfl, rfl⟩ := Prod.mk.inj (Option.some.inj second)
    have wideSide := wide.inside
    have tallSide := tall.inside
    exact ⟨mapped_mono (by omega) leX, mapped_mono (by omega) leY⟩

theorem fits_of_keepsText {margin : Int32} {width height : UInt32} (nonzero : margin.toInt ≠ 0)
    (wide : 0 < asInt width) (tall : 0 < asInt height)
    (keeps : KeepsText (fontSetOverscan margin) width height) :
    SideFits (asInt width) margin.toInt ∧ SideFits (asInt height) margin.toInt := by
  have some_margin : ¬ fontSetOverscan margin ≤ 0 :=
    fun zero => nonzero ((fontSetOverscan_zero margin).mp zero)
  constructor
  · refine fits_of_axis wide nonzero fun p low high => ?_
    obtain ⟨x, y, known, on⟩ := keeps.inside p 0 ⟨⟨low, high⟩, le_rfl, tall⟩
    rw [fontOverscanMap_eq_some some_margin, asInt_fontSetOverscan] at known
    exact ⟨x, known.1, on.1⟩
  · refine fits_of_axis tall nonzero fun p low high => ?_
    obtain ⟨x, y, known, on⟩ := keeps.inside 0 p ⟨⟨le_rfl, wide⟩, low, high⟩
    rw [fontOverscanMap_eq_some some_margin, asInt_fontSetOverscan] at known
    exact ⟨y, known.2, on.2⟩

/-- On a canvas whose sides square to an `int` a margin fits when it is smaller than a side. -/
theorem sideFits_small {side m : Int} (small : side ≤ 46340) :
    SideFits side m ↔ 0 < m ∧ m < side := by
  constructor
  · intro fits
    exact fits.inside
  · intro inside
    have width : safe side m ≤ side := max_le (by omega) (by omega)
    have product : (side - 1) * safe side m ≤ 46340 * 46340 :=
      mul_le_mul (by omega) (by omega) (le_trans zero_le_one (safe_pos side m)) (by omega)
    refine ⟨inside, ?_, ?_⟩ <;> simp only [int] <;> omega

/-- The origins stay on the canvas in their order, without overflow, exactly with no margin
or one that fits both sides. -/
theorem keepsText_iff (margin : Int32) (width height : UInt32)
    (wide : 0 < asInt width) (tall : 0 < asInt height) :
    (KeepsText (fontSetOverscan margin) width height ↔
      margin.toInt = 0 ∨
        SideFits (asInt width) margin.toInt ∧ SideFits (asInt height) margin.toInt) ∧
      (asInt width ≤ 46340 → asInt height ≤ 46340 →
        (KeepsText (fontSetOverscan margin) width height ↔
          0 ≤ margin.toInt ∧ margin.toInt < asInt width ∧ margin.toInt < asInt height)) := by
  have exact_sides : KeepsText (fontSetOverscan margin) width height ↔
      margin.toInt = 0 ∨
        SideFits (asInt width) margin.toInt ∧ SideFits (asInt height) margin.toInt := by
    by_cases zero : margin.toInt = 0
    · exact ⟨fun _ => Or.inl zero, fun _ => keepsText_of_zero width height zero⟩
    · constructor
      · intro keeps
        exact Or.inr (fits_of_keepsText zero wide tall keeps)
      · intro fits
        obtain ⟨wideFits, tallFits⟩ := fits.resolve_left zero
        exact keepsText_of_fits zero wideFits tallFits
  refine ⟨exact_sides, fun smallWidth smallHeight => ?_⟩
  rw [exact_sides, sideFits_small smallWidth, sideFits_small smallHeight]
  omega

theorem keepsText_thirty :
    KeepsText (fontSetOverscan 30) 640 480 ↔
      (0 : Int) ≤ (30 : Int32).toInt ∧ (30 : Int32).toInt < asInt 640 ∧
        (30 : Int32).toInt < asInt 480 :=
  (keepsText_iff 30 640 480 (by decide) (by decide)).2 (by decide) (by decide)

/-- A line of the configuration file moves every text beside the canvas, another one to the
left and above it, and a third one overflows. -/
theorem overscan_leaves_canvas :
    parseArgument (fun _ loader => .ok (false, loader)) '8' "640".toList ⟨defaults, 0⟩ =
        .ok ⟨{ defaults with osdOverscan := 640 }, 0⟩ ∧
      fontOverscanMap (fontSetOverscan 640) 640 480 0 0 = some (640, 640) ∧
      fontOverscanMap (fontSetOverscan (-1)) 640 480 0 0 = some (-1, -1) ∧
      fontOverscanMap (fontSetOverscan 1073741824) 640 480 0 0 = none ∧
      ¬ KeepsText (fontSetOverscan 640) 640 480 := by
  have mapped : fontOverscanMap (fontSetOverscan 640) 640 480 0 0 = some (640, 640) := by decide
  refine ⟨rfl, mapped, by decide, by decide, ?_⟩
  intro keeps
  obtain ⟨x, y, known, on⟩ := keeps.inside 0 0 (by unfold OnCanvas; decide)
  rw [mapped] at known
  obtain ⟨rfl, rfl⟩ := Prod.mk.inj (Option.some.inj known)
  exact absurd on.1.2 (by decide)

end MoonlightWii.App.Overscan
