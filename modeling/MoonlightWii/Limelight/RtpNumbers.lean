import Mathlib.Algebra.Group.Nat.Defs
import MoonlightWii.Foundation.SerialNumber

/-!
# Sequence numbers

The numbers of RTP packets wrap around.  A number is before another when it is less than half
the range behind it.
-/

set_option autoImplicit false

namespace MoonlightWii.Limelight.RtpNumbers

open Foundation.SerialNumber

/-- `isBefore16`. -/
def isBefore16 (x y : UInt16) : Bool := 32767 < x - y

/-- `isBefore24`. -/
def isBefore24 (x y : UInt32) : Bool := 8388607 < (x - y) &&& 0xFFFFFF

/-- `isBefore32`. -/
def isBefore32 (x y : UInt32) : Bool := 2147483647 < x - y

/-- `BE16`. -/
def be16 (high low : UInt8) : UInt16 := high.toUInt16 <<< 8 ||| low.toUInt16

/-- `BE32`. -/
def be32 (a b c d : UInt8) : UInt32 :=
  a.toUInt32 <<< 24 ||| b.toUInt32 <<< 16 ||| c.toUInt32 <<< 8 ||| d.toUInt32

theorem or_low (high low n : ℕ) (small : low < 2 ^ n) :
    high <<< n ||| low = high * 2 ^ n + low := by
  rw [← Nat.shiftLeft_add_eq_or_of_lt small, Nat.shiftLeft_eq]

theorem be16_toNat (high low : UInt8) : (be16 high low).toNat = high.toNat * 256 + low.toNat := by
  have h := high.toNat_lt
  have l := low.toNat_lt
  have shifted : high.toNat <<< 8 % 65536 = high.toNat <<< 8 := by
    rw [Nat.shiftLeft_eq]
    omega
  rw [be16, UInt16.toNat_or, UInt16.toNat_shiftLeft, UInt8.toNat_toUInt16, UInt8.toNat_toUInt16]
  change high.toNat <<< 8 % 65536 ||| low.toNat = _
  rw [shifted]
  exact or_low _ _ 8 l

theorem be32_toNat (a b c d : UInt8) : (be32 a b c d).toNat =
    a.toNat * 16777216 + b.toNat * 65536 + c.toNat * 256 + d.toNat := by
  have ha := a.toNat_lt
  have hb := b.toNat_lt
  have hc := c.toNat_lt
  have hd := d.toNat_lt
  have shifted : ∀ (x : UInt8) (n : ℕ), n ≤ 24 → x.toNat <<< n % 4294967296 = x.toNat <<< n := by
    intro x n small
    have hx := x.toNat_lt
    rw [Nat.shiftLeft_eq]
    apply Nat.mod_eq_of_lt
    calc x.toNat * 2 ^ n ≤ 255 * 2 ^ 24 :=
          Nat.mul_le_mul (by omega) (Nat.pow_le_pow_right (by decide) small)
      _ < 4294967296 := by decide
  rw [be32, UInt32.toNat_or, UInt32.toNat_or, UInt32.toNat_or, UInt32.toNat_shiftLeft,
    UInt32.toNat_shiftLeft, UInt32.toNat_shiftLeft]
  simp only [UInt8.toNat_toUInt32]
  change ((a.toNat <<< 24 % 4294967296 ||| b.toNat <<< 16 % 4294967296) |||
    c.toNat <<< 8 % 4294967296) ||| d.toNat = _
  rw [shifted a 24 (by decide), shifted b 16 (by decide), shifted c 8 (by decide), Nat.or_assoc,
    Nat.or_assoc, or_low c.toNat d.toNat 8 hd, or_low b.toNat _ 16 (by omega),
    or_low a.toNat _ 24 (by omega)]
  omega

/-- How far a number is ahead of the oldest block. -/
def offset (oldest x : UInt16) : ℕ := (x - oldest).toNat

theorem offset_eq_ahead (oldest x : UInt16) :
    offset oldest x = ahead 65536 oldest.toNat x.toNat := by
  rw [offset, UInt16.toNat_sub, ahead, Nat.add_comm]

theorem offset_cases (oldest x : UInt16) :
    (oldest.toNat ≤ x.toNat ∧ offset oldest x = x.toNat - oldest.toNat) ∨
      (x.toNat < oldest.toNat ∧ offset oldest x = x.toNat + (65536 - oldest.toNat)) := by
  rw [offset_eq_ahead]
  exact ahead_cases oldest.toNat_lt x.toNat_lt

theorem offset_self (oldest : UInt16) : offset oldest oldest = 0 := by
  rw [offset_eq_ahead, ahead_self oldest.toNat_lt]

theorem offset_inj {oldest x y : UInt16} (same : offset oldest x = offset oldest y) : x = y := by
  have bounds := And.intro x.toNat_lt (And.intro y.toNat_lt oldest.toNat_lt)
  apply UInt16.toNat_inj.mp
  rcases offset_cases oldest x with ⟨_, hx⟩ | ⟨_, hx⟩ <;>
    rcases offset_cases oldest y with ⟨_, hy⟩ | ⟨_, hy⟩ <;> omega

theorem offset_eq_zero {oldest x : UInt16} (zero : offset oldest x = 0) : x = oldest :=
  offset_inj (zero.trans (offset_self oldest).symm)

theorem isBefore16_iff_offset (x y : UInt16) : isBefore16 x y = true ↔ 32768 ≤ offset y x := by
  rw [isBefore16, decide_eq_true_iff, UInt16.lt_iff_toNat_lt, offset]
  exact Iff.rfl

/-- Ahead of the oldest block, serial order is the order of the distances. -/
theorem isBefore16_iff_lt {oldest x y : UInt16} (x_near : offset oldest x < 32768)
    (y_near : offset oldest y < 32768) :
    isBefore16 x y = true ↔ offset oldest x < offset oldest y := by
  rw [isBefore16_iff_offset, offset_eq_ahead, offset_eq_ahead, offset_eq_ahead] at *
  exact before_iff_lt oldest.toNat_lt x.toNat_lt y.toNat_lt x_near y_near

/-- Distances from a later origin. -/
theorem offset_shift {oldest later x : UInt16} (ahead : offset oldest later ≤ offset oldest x) :
    offset later x = offset oldest x - offset oldest later := by
  have bounds := And.intro x.toNat_lt (And.intro later.toNat_lt oldest.toNat_lt)
  rcases offset_cases oldest later with ⟨_, h₁⟩ | ⟨_, h₁⟩ <;>
    rcases offset_cases oldest x with ⟨_, h₂⟩ | ⟨_, h₂⟩ <;>
    rcases offset_cases later x with ⟨_, h₃⟩ | ⟨_, h₃⟩ <;> omega

theorem toNat_add_small (x : UInt16) {n : ℕ} (small : n < 65536) :
    (x + UInt16.ofNat n).toNat = (x.toNat + n) % 65536 := by
  rw [UInt16.toNat_add, UInt16.toNat_ofNat_of_lt' small]

theorem offset_add {oldest x : UInt16} {n : ℕ} (within : offset oldest x + n < 65536) :
    offset oldest (x + UInt16.ofNat n) = offset oldest x + n := by
  have sum := @toNat_add_small x n (by omega)
  have bounds := And.intro x.toNat_lt oldest.toNat_lt
  rcases offset_cases oldest x with ⟨_, h₁⟩ | ⟨_, h₁⟩ <;>
    rcases offset_cases oldest (x + UInt16.ofNat n) with ⟨_, h₂⟩ | ⟨_, h₂⟩ <;> omega

theorem toNat_add_four (x : UInt16) : (x + 4).toNat = (x.toNat + 4) % 65536 :=
  toNat_add_small x (by decide)

theorem offset_add_four {oldest x : UInt16} (within : offset oldest x + 4 < 65536) :
    offset oldest (x + 4) = offset oldest x + 4 := offset_add within

theorem offset_add_one {oldest x : UInt16} (within : offset oldest x + 1 < 65536) :
    offset oldest (x + 1) = offset oldest x + 1 := offset_add within

theorem add_sub_number (base number : UInt16) :
    base + UInt16.ofNat (number - base).toNat = number := by
  rw [UInt16.ofNat_toNat, UInt16.add_comm, UInt16.sub_add_cancel]

end MoonlightWii.Limelight.RtpNumbers
