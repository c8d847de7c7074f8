import MoonlightWii.Foundation.BoundedFifo
import MoonlightWii.Foundation.CircularBuffer

/-!
# The decoded-frame queue of `wii.c`

`add_frame` runs on the decoder thread and `get_frame` on the main thread, both
under `queueMutex`, so each is one atomic operation.  The two indices are
32-bit counters that are never reduced: only their difference and their low
four bits are used.  A message is a non-null `frame_t` pointer.
-/

set_option autoImplicit false

namespace MoonlightWii.Wii.FrameQueue

open Foundation Foundation.CircularBuffer

def numBuffers : Nat := 2

theorem numBuffers_pos : 0 < numBuffers := Nat.two_pos

def maxQueueMessages : Nat := 16

structure Queue (Message : Type) where
  queueMessages : Nat → Message
  queueWriteIndex : UInt32
  queueReadIndex : UInt32

variable {Message : Type}

def elementsIn (queue : Queue Message) : UInt32 :=
  queue.queueWriteIndex - queue.queueReadIndex

def getFrame (queue : Queue Message) : Option Message × Queue Message :=
  if elementsIn queue = 0 then
    (none, queue)
  else
    let index := queue.queueReadIndex &&& 15
    (some (queue.queueMessages index.toNat),
      { queue with queueReadIndex := queue.queueReadIndex + 1 })

def addFrame (queue : Queue Message) (msg : Message) : Queue Message :=
  if elementsIn queue = 16 then
    queue
  else
    let index := queue.queueWriteIndex &&& 15
    { queue with
      queueMessages := Function.update queue.queueMessages index.toNat msg
      queueWriteIndex := queue.queueWriteIndex + 1 }

def contents (queue : Queue Message) : List Message :=
  window maxQueueMessages queue.queueMessages queue.queueReadIndex.toNat
    (elementsIn queue).toNat

@[simp] theorem contents_length (queue : Queue Message) :
    (contents queue).length = (elementsIn queue).toNat := by
  simp [contents]

theorem low_bits (index : UInt32) :
    (index &&& 15).toNat = index.toNat % maxQueueMessages := by
  rw [UInt32.toNat_and]
  exact Nat.and_two_pow_sub_one_eq_mod index.toNat 4

theorem elementsIn_toNat (queue : Queue Message) :
    (elementsIn queue).toNat =
      (4294967296 - queue.queueReadIndex.toNat + queue.queueWriteIndex.toNat) % 4294967296 := by
  simp [elementsIn, UInt32.toNat_sub]

theorem elementsIn_eq_zero_iff (queue : Queue Message) :
    elementsIn queue = 0 ↔ contents queue = [] := by
  rw [← List.length_eq_zero_iff, contents_length, ← UInt32.toNat_inj]
  rfl

theorem elementsIn_eq_full_iff (queue : Queue Message) :
    elementsIn queue = 16 ↔ (contents queue).length = maxQueueMessages := by
  rw [contents_length, ← UInt32.toNat_inj]
  rfl

/-- The slot of the write index is the first one after the live window, whatever
number of times either counter has wrapped. -/
theorem write_slot (queue : Queue Message) :
    (queue.queueWriteIndex &&& 15).toNat =
      (queue.queueReadIndex.toNat + (contents queue).length) % maxQueueMessages := by
  have readBound := queue.queueReadIndex.toNat_lt
  have writeBound := queue.queueWriteIndex.toNat_lt
  rw [low_bits, contents_length, elementsIn_toNat, maxQueueMessages]
  omega

theorem getFrame_empty (queue : Queue Message) (empty : contents queue = []) :
    getFrame queue = (none, queue) := by
  simp [getFrame, (elementsIn_eq_zero_iff queue).mpr empty]

theorem getFrame_cons (queue : Queue Message) (oldest : Message) (rest : List Message)
    (nonempty : contents queue = oldest :: rest) :
    (getFrame queue).1 = some oldest ∧ contents (getFrame queue).2 = rest := by
  have occupied : elementsIn queue ≠ 0 := by
    intro zero
    rw [(elementsIn_eq_zero_iff queue).mp zero] at nonempty
    cases nonempty
  obtain ⟨count, countEquation⟩ : ∃ count, (elementsIn queue).toNat = count + 1 := by
    have length := congrArg List.length nonempty
    rw [contents_length] at length
    exact ⟨rest.length, length⟩
  have after : (elementsIn (getFrame queue).2).toNat = count := by
    have readBound := queue.queueReadIndex.toNat_lt
    have writeBound := queue.queueWriteIndex.toNat_lt
    rw [elementsIn_toNat] at countEquation
    simp only [getFrame, if_neg occupied, elementsIn_toNat, UInt32.toNat_add]
    have one : (1 : UInt32).toNat = 1 := rfl
    omega
  have split : contents queue =
      queue.queueMessages (queue.queueReadIndex.toNat % maxQueueMessages) ::
        window maxQueueMessages queue.queueMessages (queue.queueReadIndex.toNat + 1) count := by
    rw [contents, countEquation, window_pop]
  rw [nonempty] at split
  obtain ⟨headExact, restExact⟩ := List.cons.inj split
  constructor
  · simp only [getFrame, if_neg occupied, low_bits]
    rw [headExact]
  · rw [contents, after, restExact]
    simp only [getFrame, if_neg occupied]
    apply window_first_congr
    rw [UInt32.toNat_add]
    have one : (1 : UInt32).toNat = 1 := rfl
    simp only [maxQueueMessages]
    omega

theorem addFrame_full (queue : Queue Message) (msg : Message)
    (full : (contents queue).length = maxQueueMessages) : addFrame queue msg = queue := by
  simp [addFrame, (elementsIn_eq_full_iff queue).mpr full]

theorem addFrame_space (queue : Queue Message) (msg : Message)
    (space : (contents queue).length < maxQueueMessages) :
    contents (addFrame queue msg) = contents queue ++ [msg] := by
  have open_ : elementsIn queue ≠ 16 := by
    intro full
    rw [elementsIn_eq_full_iff] at full
    omega
  have after : (elementsIn (addFrame queue msg)).toNat = (contents queue).length + 1 := by
    have readBound := queue.queueReadIndex.toNat_lt
    have writeBound := queue.queueWriteIndex.toNat_lt
    rw [contents_length, elementsIn_toNat, maxQueueMessages] at space
    rw [contents_length, elementsIn_toNat]
    simp only [addFrame, if_neg open_, elementsIn_toNat, UInt32.toNat_add]
    have one : (1 : UInt32).toNat = 1 := rfl
    omega
  rw [contents, after]
  simp only [addFrame, if_neg open_]
  rw [write_slot, window_push _ _ _ _ _ space]
  simp [contents]

/-! ## The queue with its bound -/

/-- A queue whose two counters are at most `MAX_QUEUEMESSAGES` apart. -/
structure LiveQueue (Message : Type) extends Queue Message where
  bounded : (contents toQueue).length ≤ maxQueueMessages

theorem getFrame_bounded (queue : Queue Message)
    (bounded : (contents queue).length ≤ maxQueueMessages) :
    (contents (getFrame queue).2).length ≤ maxQueueMessages := by
  cases held : contents queue with
  | nil => rw [getFrame_empty queue held]; exact bounded
  | cons oldest rest =>
      rw [(getFrame_cons queue oldest rest held).2]
      rw [held, List.length_cons] at bounded
      omega

theorem addFrame_bounded (queue : Queue Message) (msg : Message)
    (bounded : (contents queue).length ≤ maxQueueMessages) :
    (contents (addFrame queue msg)).length ≤ maxQueueMessages := by
  by_cases full : (contents queue).length = maxQueueMessages
  · rw [addFrame_full queue msg full]
    exact bounded
  · rw [addFrame_space queue msg (by omega), List.length_append, List.length_singleton]
    omega

def LiveQueue.messages (queue : LiveQueue Message) : List Message :=
  contents queue.toQueue

def LiveQueue.get (queue : LiveQueue Message) : Option Message × LiveQueue Message :=
  ((getFrame queue.toQueue).1,
    ⟨(getFrame queue.toQueue).2, getFrame_bounded _ queue.bounded⟩)

def LiveQueue.add (queue : LiveQueue Message) (msg : Message) : LiveQueue Message :=
  ⟨addFrame queue.toQueue msg, addFrame_bounded _ msg queue.bounded⟩

/-- `queueReadIndex = queueWriteIndex = 0`; the slots hold what they held. -/
def LiveQueue.reset (slots : Nat → Message) : LiveQueue Message :=
  ⟨⟨slots, 0, 0⟩, by simp [elementsIn]⟩

@[simp] theorem LiveQueue.reset_messages (slots : Nat → Message) :
    (LiveQueue.reset slots).messages = [] := by
  simp [LiveQueue.messages, LiveQueue.reset, contents, elementsIn]

/-- `get_frame` on the abstract queue: `NULL` exactly when nothing is queued,
otherwise the oldest message. -/
theorem LiveQueue.get_spec (queue : LiveQueue Message) :
    queue.get.1 = queue.messages.head? ∧ queue.get.2.messages = queue.messages.tail := by
  cases held : contents queue.toQueue with
  | nil =>
      have empty := getFrame_empty queue.toQueue held
      simp [LiveQueue.get, LiveQueue.messages, empty, held]
  | cons oldest rest =>
      obtain ⟨returned, remaining⟩ := getFrame_cons queue.toQueue oldest rest held
      simp [LiveQueue.get, LiveQueue.messages, returned, remaining, held]

/-- `add_frame` on the abstract queue: the newest message is dropped when
`MAX_QUEUEMESSAGES` are queued. -/
theorem LiveQueue.add_spec (queue : LiveQueue Message) (msg : Message) :
    (queue.add msg).messages =
      if queue.messages.length = maxQueueMessages then queue.messages
      else queue.messages ++ [msg] := by
  by_cases full : queue.messages.length = maxQueueMessages
  · rw [if_pos full]
    exact congrArg contents (addFrame_full queue.toQueue msg full)
  · rw [if_neg full]
    exact addFrame_space queue.toQueue msg
      (Nat.lt_of_le_of_ne queue.bounded full)

/-! ## Interleavings of the two threads

Both functions hold `queueMutex` throughout, so an interleaving of the decoder
thread and the main thread is a list of whole calls. -/

def LiveQueue.accepts (queue : LiveQueue Message) : Bool :=
  elementsIn queue.toQueue != 16

def operations : BoundedFifo.Operations (LiveQueue Message) Message where
  accepts := LiveQueue.accepts
  push := LiveQueue.add
  pop := LiveQueue.get

theorem LiveQueue.accepts_iff (queue : LiveQueue Message) :
    queue.accepts = (queue.messages.length != maxQueueMessages) := by
  have sameTest := elementsIn_eq_full_iff queue.toQueue
  by_cases full : elementsIn queue.toQueue = 16
  · simp [LiveQueue.accepts, LiveQueue.messages, full, sameTest.mp full]
  · have space : (contents queue.toQueue).length ≠ maxQueueMessages := by
      intro length
      exact full (sameTest.mpr length)
    simp only [LiveQueue.accepts, LiveQueue.messages, bne, beq_eq_false_iff_ne.mpr full,
      beq_eq_false_iff_ne.mpr space]

theorem operations_refine :
    BoundedFifo.Refines operations maxQueueMessages (@LiveQueue.messages Message) where
  accepts := LiveQueue.accepts_iff
  push := LiveQueue.add_spec
  pop := LiveQueue.get_spec

def callsFrom (queue : LiveQueue Message) (calls : List (BoundedFifo.Call Message)) :
    BoundedFifo.History (LiveQueue Message) Message :=
  BoundedFifo.performAll operations (BoundedFifo.opened queue) calls

/-- Any number of calls of the two threads in any order, from the queue that a
stream starts with. -/
theorem queue_refines_bounded_fifo (slots : Nat → Message)
    (calls : List (BoundedFifo.Call Message)) :
    (callsFrom (LiveQueue.reset slots) calls).abstract LiveQueue.messages =
        BoundedFifo.performAll (BoundedFifo.fifo maxQueueMessages) (BoundedFifo.opened [])
          calls ∧
      (elementsIn (callsFrom (LiveQueue.reset slots) calls).state.toQueue).toNat ≤
        maxQueueMessages ∧
      ((callsFrom (LiveQueue.reset slots) calls).state.get.1 = none ↔
        (callsFrom (LiveQueue.reset slots) calls).state.messages = []) ∧
      (callsFrom (LiveQueue.reset slots) calls).accepted =
        (callsFrom (LiveQueue.reset slots) calls).delivered ++
          (callsFrom (LiveQueue.reset slots) calls).state.messages := by
  generalize reached : callsFrom (LiveQueue.reset slots) calls = history
  have refined : history.abstract LiveQueue.messages =
      BoundedFifo.performAll (BoundedFifo.fifo maxQueueMessages) (BoundedFifo.opened []) calls := by
    have simulated := BoundedFifo.performAll_refines operations_refine calls
      (BoundedFifo.opened (LiveQueue.reset slots))
    rw [← reached, callsFrom, simulated]
    simp [BoundedFifo.History.abstract, BoundedFifo.opened]
  have conserved : BoundedFifo.Conserved [] (history.abstract LiveQueue.messages) := by
    rw [refined]
    exact BoundedFifo.fifo_conserved maxQueueMessages [] calls _ rfl
  refine ⟨refined, ?_, ?_, conserved⟩
  · have bounded := history.state.bounded
    rw [contents_length] at bounded
    exact bounded
  · rw [history.state.get_spec.1, List.head?_eq_none_iff]

end MoonlightWii.Wii.FrameQueue
