import Mathlib.Data.List.Basic
import MoonlightWii.Foundation.TextRun

/-!
# Flat memory and block copies

Memory is a total function from offsets to cells; a block copy stores a list of
consecutive cells.  Copies of one buffer can be split into pieces, and a copy is
invisible to every read that it does not overlap.
-/

set_option autoImplicit false

namespace Foundation.ByteMemory

open Foundation.TextRun

universe u

variable {α : Type u}

def readBytes (memory : Nat → α) (offset count : Nat) : List α :=
  (List.range count).map fun index => memory (offset + index)

def writeBytes (memory : Nat → α) (offset : Nat) (data : List α) : Nat → α := fun address =>
  if offset ≤ address then (data[address - offset]?).getD (memory address)
  else memory address

@[simp] theorem readBytes_length (memory : Nat → α) (offset count : Nat) :
    (readBytes memory offset count).length = count := by
  simp [readBytes]

@[simp] theorem readBytes_zero (memory : Nat → α) (offset : Nat) :
    readBytes memory offset 0 = [] := rfl

theorem readBytes_add (memory : Nat → α) (offset first second : Nat) :
    readBytes memory offset (first + second) =
      readBytes memory offset first ++ readBytes memory (offset + first) second := by
  simp only [readBytes, List.range_add, List.map_append, List.map_map]
  congr 1
  apply List.map_congr_left
  intro index _
  simp only [Function.comp_apply]
  congr 1
  omega

theorem readBytes_congr {memory other : Nat → α} {offset count : Nat}
    (same : ∀ address, offset ≤ address → address < offset + count →
      memory address = other address) :
    readBytes memory offset count = readBytes other offset count := by
  unfold readBytes
  apply List.map_congr_left
  intro index member
  have bound := List.mem_range.mp member
  exact same (offset + index) (by omega) (by omega)

theorem writeBytes_before (memory : Nat → α) (offset address : Nat) (data : List α)
    (before : address < offset) : writeBytes memory offset data address = memory address := by
  simp [writeBytes, Nat.not_le.mpr before]

theorem writeBytes_after (memory : Nat → α) (offset address : Nat) (data : List α)
    (after : offset + data.length ≤ address) :
    writeBytes memory offset data address = memory address := by
  have missing : data[address - offset]? = none := by
    rw [List.getElem?_eq_none_iff]
    omega
  simp [writeBytes, missing]

theorem readBytes_writeBytes (memory : Nat → α) (offset : Nat) (data : List α) :
    readBytes (writeBytes memory offset data) offset data.length = data := by
  apply List.ext_getElem
  · simp
  · intro index _ bound
    simp [readBytes, writeBytes, bound]

theorem writeBytes_cons (memory : Nat → α) (offset : Nat) (first : α) (data : List α) :
    writeBytes (writeBytes memory offset [first]) (offset + 1) data =
      writeBytes memory offset (first :: data) := by
  funext address
  by_cases before : address < offset
  · rw [writeBytes_before _ _ _ _ (by omega), writeBytes_before _ _ _ _ before,
      writeBytes_before _ _ _ _ before]
  · obtain ⟨index, rfl⟩ := Nat.exists_eq_add_of_le (Nat.le_of_not_lt before)
    cases index with
    | zero =>
        rw [writeBytes_before _ _ _ _ (by omega)]
        simp [writeBytes]
    | succ index =>
        have start : offset + (index + 1) - (offset + 1) = index := by omega
        have later : offset + (index + 1) - offset = index + 1 := by omega
        have left : offset + 1 ≤ offset + (index + 1) := by omega
        have right : offset ≤ offset + (index + 1) := by omega
        have missed : writeBytes memory offset [first] (offset + (index + 1)) =
            memory (offset + (index + 1)) :=
          writeBytes_after memory offset _ [first] left
        rw [writeBytes, if_pos left, start, missed, writeBytes, if_pos right, later,
          List.getElem?_cons_succ]

/-- A copy read back cell by cell. -/
theorem writeBytes_readBytes (memory source : Nat → α) (offset start count address : Nat) :
    writeBytes memory offset (readBytes source start count) address =
      if offset ≤ address ∧ address < offset + count then source (start + (address - offset))
      else memory address := by
  split
  · rename_i inside
    have bound : address - offset < (readBytes source start count).length := by
      rw [readBytes_length]
      omega
    rw [writeBytes, if_pos inside.1, List.getElem?_eq_getElem bound]
    simp [readBytes]
  · rename_i outside
    by_cases before : address < offset
    · exact writeBytes_before memory offset address _ before
    · apply writeBytes_after
      rw [readBytes_length]
      omega

theorem readBytes_writeBytes_before (memory : Nat → α) (offset count target : Nat)
    (data : List α) (before : offset + count ≤ target) :
    readBytes (writeBytes memory target data) offset count = readBytes memory offset count := by
  apply readBytes_congr
  intro address _ bound
  exact writeBytes_before memory target address data (by omega)

theorem readBytes_writeBytes_after (memory : Nat → α) (offset count target : Nat)
    (data : List α) (after : target + data.length ≤ offset) :
    readBytes (writeBytes memory target data) offset count = readBytes memory offset count := by
  apply readBytes_congr
  intro address bound _
  exact writeBytes_after memory target address data (by omega)

/-- Behind what was copied stands what the memory held before. -/
theorem readBytes_writeBytes_next (memory : Nat → α) (offset : Nat) (data : List α) :
    readBytes (writeBytes memory offset data) offset (data.length + 1) =
      data ++ [memory (offset + data.length)] := by
  have behind : writeBytes memory offset data (offset + data.length) =
      memory (offset + data.length) :=
    writeBytes_after memory offset _ data (Nat.le_refl _)
  rw [readBytes_add, readBytes_writeBytes]
  exact congrArg (data ++ [·]) behind

/-- A text is read back up to the first cell that is not of its kind. -/
theorem takeWhile_readBytes {kind : α → Bool} {memory : Nat → α} {text : List α} {size : Nat}
    (stored : readBytes memory 0 text.length = text) (all : ∀ letter ∈ text, kind letter = true)
    (stops : kind (memory text.length) = false) (room : text.length < size) :
    (readBytes memory 0 size).takeWhile kind = text := by
  obtain ⟨rest, split⟩ := Nat.exists_eq_add_of_lt room
  have next : readBytes memory (0 + text.length) (1 + rest) =
      memory text.length :: readBytes memory (0 + text.length + 1) rest := by
    rw [readBytes_add, Nat.zero_add]
    rfl
  rw [split, Nat.add_assoc, Nat.add_comm rest 1, readBytes_add, stored, next]
  exact takeWhile_run all (stops_cons stops _)

/-- Copying the next piece extends what has been copied so far. -/
theorem readBytes_writeBytes_extend (memory : Nat → α) (offset done : Nat) (data : List α) :
    readBytes (writeBytes memory (offset + done) data) offset (done + data.length) =
      readBytes memory offset done ++ data := by
  rw [readBytes_add, readBytes_writeBytes, readBytes_writeBytes_before]
  exact Nat.le_refl _

end Foundation.ByteMemory
