import MoonlightWii.Foundation.LastWrite

/-!
# Copies in an address space of 32 bits

Pointers and sizes are words, so that a copy may wrap around the end of the address space;
the blocks of an allocator do not.  A list of copies into places that do not meet each other
or the sources is known from the memory that it began with.
-/

set_option autoImplicit false

namespace Foundation.AddressSpace

open Foundation.LastWrite

universe u v w

abbrev Memory (α : Type u) := UInt32 → α

section Copies

variable {α : Type u}

def memcpy (memory : Memory α) (dst src n : UInt32) : Memory α := fun address =>
  if address - dst < n then memory (src + (address - dst)) else memory address

def memset (memory : Memory α) (dst : UInt32) (value : α) (n : UInt32) : Memory α :=
  fun address => if address - dst < n then value else memory address

/-- The bytes from `start` on, as many as `size`. -/
structure Block where
  start : Nat
  size : Nat
  deriving DecidableEq

def Block.Contains (block : Block) (address : UInt32) : Prop :=
  block.start ≤ address.toNat ∧ address.toNat < block.start + block.size

def Block.Apart (first second : Block) : Prop :=
  first.start + first.size ≤ second.start ∨ second.start + second.size ≤ first.start

theorem apart_contains {first second : Block} {address : UInt32} (apart : first.Apart second)
    (inFirst : first.Contains address) : ¬ second.Contains address := by
  unfold Block.Apart Block.Contains at *
  omega

/-- A copy that does not wrap around. -/
theorem sub_lt_iff {address dst n : UInt32} (fits : dst.toNat + n.toNat ≤ 4294967296) :
    address - dst < n ↔ (Block.mk dst.toNat n.toNat).Contains address := by
  have high := address.toNat_lt
  have base := dst.toNat_lt
  have count := n.toNat_lt
  unfold Block.Contains
  rw [UInt32.lt_iff_toNat_lt, UInt32.toNat_sub]
  simp only
  omega

theorem sub_lt_sub_iff {far n total : UInt32} (fits : n ≤ total) :
    far - n < total - n ↔ ¬ far < n ∧ far < total := by
  have room : (total - n).toNat = total.toNat - n.toNat := UInt32.toNat_sub_of_le _ _ fits
  have high := far.toNat_lt
  have count := total.toNat_lt
  rw [UInt32.le_iff_toNat_le] at fits
  rw [UInt32.lt_iff_toNat_lt, UInt32.lt_iff_toNat_lt, UInt32.lt_iff_toNat_lt, room,
    UInt32.toNat_sub]
  omega

/-- A copy, then a fill of what is left of `total` bytes. -/
theorem memset_memcpy {memory : Memory α} {dst src n total address : UInt32} {value : α}
    (fits : n ≤ total) :
    memset (memcpy memory dst src n) (dst + n) value (total - n) address =
      if address - dst < total then
        if address - dst < n then memory (src + (address - dst)) else value
      else memory address := by
  have offset : address - (dst + n) = address - dst - n := by grind
  unfold memset memcpy
  rw [offset]
  have filled := @sub_lt_sub_iff (address - dst) n total fits
  by_cases copied : address - dst < n
  · have inside : address - dst < total := UInt32.lt_of_lt_of_le copied fits
    simp [filled, copied, inside]
  · simp [filled, copied]

end Copies

section Events

variable {Address : Type u} {Value : Type v} {Event : Type w}

/-- Events that store into places of their own, from sources that none of them changes. -/
structure Separated (step : (Address → Value) → Event → Address → Value)
    (place : Event → Address → Prop) (source : Address → Prop)
    (value : (Address → Value) → Event → Address → Value) (events : List Event) : Prop where
  stores : ∀ event ∈ events, ∀ memory address, place event address →
    step memory event address = value memory event address
  keeps : ∀ event ∈ events, ∀ memory address, ¬ place event address →
    step memory event address = memory address
  reads : ∀ event ∈ events, ∀ memory other address, place event address →
    (∀ origin, source origin → memory origin = other origin) →
    value memory event address = value other event address
  apart : ∀ first ∈ events, ∀ second ∈ events, ∀ address, place first address →
    place second address → first = second
  unharmed : ∀ event ∈ events, ∀ origin, source origin → ¬ place event origin

variable {step : (Address → Value) → Event → Address → Value} {place : Event → Address → Prop}
  {source : Address → Prop} {value : (Address → Value) → Event → Address → Value}
  {events : List Event}

theorem Separated.tail {event : Event} (separated : Separated step place source value
    (event :: events)) : Separated step place source value events where
  stores other member := separated.stores other (List.mem_cons_of_mem _ member)
  keeps other member := separated.keeps other (List.mem_cons_of_mem _ member)
  reads other member := separated.reads other (List.mem_cons_of_mem _ member)
  apart first member second other :=
    separated.apart first (List.mem_cons_of_mem _ member) second (List.mem_cons_of_mem _ other)
  unharmed other member := separated.unharmed other (List.mem_cons_of_mem _ member)

/-- Where no event stores, nothing changes. -/
theorem Separated.elsewhere (separated : Separated step place source value events)
    (memory : Address → Value) {address : Address}
    (outside : ∀ event ∈ events, ¬ place event address) :
    events.foldl step memory address = memory address :=
  @foldl_unchanged _ _ _ step (fun memory : Address → Value => memory address) events
    (fun event member before => separated.keeps event member before address
      (outside event member)) memory

/-- In its place an event leaves what it makes of the first memory. -/
theorem Separated.here (separated : Separated step place source value events)
    (memory : Address → Value) {event : Event} {address : Address} (member : event ∈ events)
    (placed : place event address) :
    events.foldl step memory address = value memory event address := by
  induction events generalizing memory with
  | nil => cases member
  | cons first rest ih =>
      rw [List.foldl_cons]
      have unread : ∀ origin, source origin → step memory first origin = memory origin := by
        intro origin read
        exact separated.keeps first List.mem_cons_self memory origin
          (separated.unharmed first List.mem_cons_self origin read)
      by_cases later : event ∈ rest
      · rw [ih separated.tail _ later]
        exact separated.reads event member _ _ address placed unread
      · have now : event = first := (List.mem_cons.mp member).resolve_right later
        subst now
        have outside : ∀ other ∈ rest, ¬ place other address := by
          intro other listed again
          have same := separated.apart other (List.mem_cons_of_mem _ listed) event member address
            again placed
          rw [same] at listed
          exact later listed
        rw [separated.tail.elsewhere _ outside]
        exact separated.stores event member memory address placed

end Events

end Foundation.AddressSpace
