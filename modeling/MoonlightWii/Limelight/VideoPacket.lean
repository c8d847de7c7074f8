import Mathlib.Logic.Function.Basic
import MoonlightWii.Limelight.RtpNumbers

/-!
# Video packets

An RTP packet and the `NV_VIDEO_PACKET` in it, as bytes in memory.
-/

set_option autoImplicit false

namespace MoonlightWii.Limelight.VideoPacket

open RtpNumbers Function

/-- The memory that a packet was received into, in the byte order of the console. -/
abbrev Packet : Type := ℕ → UInt8

def read16 (packet : Packet) (offset : ℕ) : UInt16 := be16 (packet offset) (packet (offset + 1))

def read32 (packet : Packet) (offset : ℕ) : UInt32 :=
  be32 (packet offset) (packet (offset + 1)) (packet (offset + 2)) (packet (offset + 3))

def write16 (packet : Packet) (offset : ℕ) (value : UInt16) : Packet :=
  update (update packet offset (value >>> 8).toUInt8) (offset + 1) value.toUInt8

def write32 (packet : Packet) (offset : ℕ) (value : UInt32) : Packet :=
  update (update (update (update packet
    offset (value >>> 24).toUInt8) (offset + 1) (value >>> 16).toUInt8)
    (offset + 2) (value >>> 8).toUInt8) (offset + 3) value.toUInt8

def header (packet : Packet) : UInt8 := packet 0
def sequenceNumber (packet : Packet) : UInt16 := read16 packet 2
def timestamp (packet : Packet) : UInt32 := read32 packet 4
def ssrc (packet : Packet) : UInt32 := read32 packet 8

def FLAG_CONTAINS_PIC_DATA : UInt8 := 1
def FLAG_EOF : UInt8 := 2
def FLAG_SOF : UInt8 := 4
def FLAG_EXTENSION : UInt8 := 0x10

/-- Where the `NV_VIDEO_PACKET` begins, and its fields. -/
def dataOffset (packet : Packet) : ℕ := if header packet &&& FLAG_EXTENSION ≠ 0 then 16 else 12
def streamPacketIndex (packet : Packet) : UInt32 := read32 packet (dataOffset packet)
def frameIndex (packet : Packet) : UInt32 := read32 packet (dataOffset packet + 4)
def flags (packet : Packet) : UInt8 := packet (dataOffset packet + 8)
def multiFecBlocks (packet : Packet) : UInt8 := packet (dataOffset packet + 11)
def fecInfo (packet : Packet) : UInt32 := read32 packet (dataOffset packet + 12)

def fecIndex (packet : Packet) : UInt32 := (fecInfo packet &&& 0x3FF000) >>> 12
def fecDataPackets (packet : Packet) : ℕ := ((fecInfo packet &&& 0xFFC00000) >>> 22).toNat
def fecPercentage (packet : Packet) : ℕ := ((fecInfo packet &&& 0xFF0) >>> 4).toNat
def fecCurrentBlockNumber (packet : Packet) : UInt8 := (multiFecBlocks packet >>> 4) &&& 3
def fecLastBlockNumber (packet : Packet) : UInt8 := (multiFecBlocks packet >>> 6) &&& 3

/-- `LE32` on a field in memory. -/
def swap32 (packet : Packet) (offset : ℕ) : Packet :=
  write32 packet offset
    (be32 (packet (offset + 3)) (packet (offset + 2)) (packet (offset + 1)) (packet offset))

/-- What `RtpvAddPacket` stores into the packet. -/
def hostOrder (multiFecCapable : Bool) (packet : Packet) : Packet :=
  let offset := dataOffset packet
  let packet := swap32 (swap32 (swap32 packet offset) (offset + 4)) (offset + 12)
  if multiFecCapable then packet
  else update (update packet (offset + 10) 0x10) (offset + 11) 0

section Access

variable {packet other : Packet} {offset : ℕ}

theorem read16_congr (same : ∀ byte, offset ≤ byte → byte < offset + 2 →
    packet byte = other byte) : read16 packet offset = read16 other offset := by
  unfold read16
  rw [same offset (by omega) (by omega), same (offset + 1) (by omega) (by omega)]

theorem read32_congr (same : ∀ byte, offset ≤ byte → byte < offset + 4 →
    packet byte = other byte) : read32 packet offset = read32 other offset := by
  unfold read32
  rw [same offset (by omega) (by omega), same (offset + 1) (by omega) (by omega),
    same (offset + 2) (by omega) (by omega), same (offset + 3) (by omega) (by omega)]

theorem write16_other {value : UInt16} {byte : ℕ} (outside : byte < offset ∨ offset + 2 ≤ byte) :
    write16 packet offset value byte = packet byte := by
  unfold write16
  rw [update_of_ne (by omega), update_of_ne (by omega)]

theorem write32_other {value : UInt32} {byte : ℕ} (outside : byte < offset ∨ offset + 4 ≤ byte) :
    write32 packet offset value byte = packet byte := by
  unfold write32
  rw [update_of_ne (by omega), update_of_ne (by omega), update_of_ne (by omega),
    update_of_ne (by omega)]

theorem read16_write16 (packet : Packet) (offset : ℕ) (value : UInt16) :
    read16 (write16 packet offset value) offset = value := by
  have bound := value.toNat_lt
  unfold read16 write16
  rw [update_self, update_of_ne (by omega), update_self]
  apply UInt16.toNat_inj.mp
  rw [be16_toNat, UInt16.toNat_toUInt8, UInt16.toNat_toUInt8, UInt16.toNat_shiftRight,
    Nat.shiftRight_eq_div_pow]
  change value.toNat / 256 % 256 * 256 + value.toNat % 256 = _
  omega

theorem read32_write32 (packet : Packet) (offset : ℕ) (value : UInt32) :
    read32 (write32 packet offset value) offset = value := by
  have bound := value.toNat_lt
  have first : write32 packet offset value offset = (value >>> 24).toUInt8 := by
    unfold write32
    rw [update_of_ne (by omega), update_of_ne (by omega), update_of_ne (by omega), update_self]
  have second : write32 packet offset value (offset + 1) = (value >>> 16).toUInt8 := by
    unfold write32
    rw [update_of_ne (by omega), update_of_ne (by omega), update_self]
  have third : write32 packet offset value (offset + 2) = (value >>> 8).toUInt8 := by
    unfold write32
    rw [update_of_ne (by omega), update_self]
  have fourth : write32 packet offset value (offset + 3) = value.toUInt8 := update_self ..
  unfold read32
  rw [first, second, third, fourth]
  apply UInt32.toNat_inj.mp
  rw [be32_toNat]
  simp only [UInt32.toNat_toUInt8, UInt32.toNat_shiftRight, Nat.shiftRight_eq_div_pow]
  change value.toNat / 16777216 % 256 * 16777216 + value.toNat / 65536 % 256 * 65536 +
    value.toNat / 256 % 256 * 256 + value.toNat % 256 = _
  omega

theorem dataOffset_bounds (packet : Packet) : 12 ≤ dataOffset packet ∧ dataOffset packet ≤ 16 := by
  unfold dataOffset
  split
  · decide
  · decide

theorem dataOffset_congr (same : header packet = header other) :
    dataOffset packet = dataOffset other := by
  unfold dataOffset
  rw [same]

end Access

end MoonlightWii.Limelight.VideoPacket
