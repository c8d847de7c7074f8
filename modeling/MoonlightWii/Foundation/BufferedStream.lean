import Mathlib.Data.List.TakeDrop

/-!
# Writing a file through a buffer

A stream takes a part of what it is given and hands it on in drains, each of
which may stop early.  Nothing is reordered, so a file written in this way holds
a prefix of the text.
-/

set_option autoImplicit false

namespace Foundation.BufferedStream

universe u

variable {α : Type u}

/-- What has reached the file, and what still waits in the buffer. -/
structure Stream (α : Type u) where
  stored : List α
  pending : List α

/-- A file that has just been truncated. -/
def truncated : Stream α := ⟨[], []⟩

def Stream.write (stream : Stream α) (accepted : Nat) (items : List α) : Stream α :=
  { stream with pending := stream.pending ++ items.take accepted }

def Stream.drain (stream : Stream α) (count : Nat) : Stream α :=
  ⟨stream.stored ++ stream.pending.take count, stream.pending.drop count⟩

def total (drains : List Nat) : Nat := drains.foldr (· + ·) 0

/-- What the file holds after one write and the drains that follow it. -/
def leaves (accepted : Nat) (drains : List Nat) (items : List α) : List α :=
  (drains.foldl Stream.drain (truncated.write accepted items)).stored

theorem foldl_drain_stored (drains : List Nat) (stream : Stream α) :
    (drains.foldl Stream.drain stream).stored =
      stream.stored ++ stream.pending.take (total drains) := by
  induction drains generalizing stream with
  | nil => exact (List.append_nil stream.stored).symm
  | cons count drains ih =>
      have split : total (count :: drains) = count + total drains := rfl
      rw [List.foldl_cons, ih, split, List.take_add]
      exact List.append_assoc _ _ _

/-- The file holds a prefix. -/
theorem leaves_eq (accepted : Nat) (drains : List Nat) (items : List α) :
    leaves accepted drains items = items.take (min (total drains) accepted) := by
  unfold leaves
  rw [foldl_drain_stored]
  exact List.take_take

theorem leaves_all_iff (accepted : Nat) (drains : List Nat) (items : List α) :
    leaves accepted drains items = items ↔
      items.length ≤ accepted ∧ items.length ≤ total drains := by
  rw [leaves_eq, List.take_eq_self_iff, Nat.le_min]
  exact and_comm

end Foundation.BufferedStream
