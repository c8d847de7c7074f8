import MoonlightWii.Limelight.VideoFrames

/-!
# Predicted losses

The video queue may report a frame as lost before its time.  When it does, the packets at hand and
all those that can still come in order are too few.
-/

set_option autoImplicit false

namespace MoonlightWii.Limelight.LossPrediction

open RtpNumbers VideoPacket VideoQueue VideoFrames

section Counts

variable {settings : Settings} {queue : RtpVideoQueue} {packet : Packet}

/-- How far the highest number received is into the block. -/
def highestPlace (queue : RtpVideoQueue) : ℕ :=
  offset queue.bufferLowestSequenceNumber queue.receivedHighestSequenceNumber

/-- The holes behind the highest number are counted right, and as long as nothing can have been
recovered, the packets at hand are those received. -/
structure Counted (queue : RtpVideoQueue) : Prop where
  inside : highestPlace queue < queue.bufferDataPackets + queue.bufferParityPackets
  missing : queue.missingPackets = (highestPlace queue + 1 : ℤ) -
    (queue.receivedDataPackets + queue.receivedParityPackets)
  received : queue.pendingFecBlockList.length < queue.bufferDataPackets →
    queue.pendingFecBlockList.length = queue.receivedDataPackets + queue.receivedParityPackets

/-- The counts before the first packet of a block, or after some. -/
def Ready (queue : RtpVideoQueue) : Prop :=
  (queue.pendingFecBlockList = [] ∧ queue.missingPackets = 0 ∧ queue.receivedDataPackets = 0 ∧
    queue.receivedParityPackets = 0) ∨ (queue.pendingFecBlockList ≠ [] ∧ Counted queue)

/-- Not even all packets above the highest received would be enough. -/
def Hopeless (queue : RtpVideoQueue) : Prop :=
  queue.pendingFecBlockList.length +
    offset queue.receivedHighestSequenceNumber queue.bufferHighestSequenceNumber <
      queue.bufferDataPackets

/-- The numbers strictly between two of a block. -/
theorem gap {lowest low high : UInt16} (less : offset lowest low < offset lowest high) :
    (high - low - 1).toNat = offset lowest high - offset lowest low - 1 := by
  have distance : (high - low).toNat = offset lowest high - offset lowest low :=
    offset_shift (Nat.le_of_lt less)
  have one : (1 : UInt16).toNat = 1 := rfl
  rw [UInt16.toNat_sub_of_le _ _ (UInt16.le_iff_toNat_le.mpr (by omega)), distance, one]

theorem countPacket_counted {queued : RtpVideoQueue} {entry : Entry} {number : UInt16}
    (geometry : Geometry queue) (ready : Ready queue)
    (inside : offset queue.bufferLowestSequenceNumber number <
      queue.bufferDataPackets + queue.bufferParityPackets)
    (updated : Updated queue queued)
    (appended : queued.pendingFecBlockList = queue.pendingFecBlockList ++ [entry]) :
    Counted (countPacket queued number) := by
  have few := geometry.few
  obtain ⟨pending, next, fast, reported, presentation, received, rfl⟩ := updated
  dsimp only at appended
  subst appended
  rcases ready with ⟨empty, no_missing, no_data, no_parity⟩ | ⟨some_pending, counted⟩
  · have first : (queue.pendingFecBlockList ++ [entry]).length = 1 := by rw [empty]; rfl
    unfold countPacket
    dsimp only
    rw [if_pos first]
    split_ifs
    all_goals
      refine ⟨inside, ?_, fun _ => ?_⟩
      · dsimp only [highestPlace]
        rw [no_missing, no_data, no_parity]
        change 0 + ((offset queue.bufferLowestSequenceNumber number : ℕ) : ℤ) = _
        push_cast
        omega
      · rw [no_data, no_parity]
        exact first
  · have not_first : ¬ (queue.pendingFecBlockList ++ [entry]).length = 1 := by
      have := List.length_pos_of_ne_nil some_pending
      rw [List.length_append, List.length_singleton]
      omega
    have old_inside : offset queue.bufferLowestSequenceNumber queue.receivedHighestSequenceNumber <
        queue.bufferDataPackets + queue.bufferParityPackets := counted.inside
    have old_missing := counted.missing
    have old_received := counted.received
    unfold highestPlace at old_missing
    have above_iff := @isBefore16_iff_lt queue.bufferLowestSequenceNumber
      queue.receivedHighestSequenceNumber number (by omega) (by omega)
    unfold countPacket
    dsimp only
    rw [if_neg not_first]
    by_cases above : isBefore16 queue.receivedHighestSequenceNumber number = true
    · have between := gap (above_iff.mp above)
      have less := above_iff.mp above
      rw [if_pos above, between]
      split_ifs
      all_goals
        refine ⟨inside, ?_, fun short => ?_⟩
        · dsimp only [highestPlace]
          push_cast [Nat.sub_sub, Nat.cast_sub less]
          omega
        · dsimp only at short ⊢
          rw [List.length_append, List.length_singleton] at short ⊢
          have := old_received (by omega)
          omega
    · rw [if_neg above]
      split_ifs
      all_goals
        refine ⟨old_inside, ?_, fun short => ?_⟩
        · dsimp only [highestPlace]
          push_cast
          omega
        · dsimp only at short ⊢
          rw [List.length_append, List.length_singleton] at short ⊢
          have := old_received (by omega)
          omega

/-- A prediction is only made when it is right. -/
theorem predictLoss_hopeless (geometry : Geometry queue) (counted : Counted queue)
    (short : queue.pendingFecBlockList.length < queue.bufferDataPackets) {frame : UInt32}
    (predicted : .notifyFrameLost frame true ∈ (predictLoss queue).2) :
    frame = queue.currentFrameNumber ∧ Hopeless (predictLoss queue).1 := by
  have few := geometry.few
  have inside : offset queue.bufferLowestSequenceNumber queue.receivedHighestSequenceNumber <
    queue.bufferDataPackets + queue.bufferParityPackets := counted.inside
  have missing := counted.missing
  have received := counted.received short
  have last : offset queue.bufferLowestSequenceNumber queue.bufferHighestSequenceNumber =
      queue.bufferDataPackets + queue.bufferParityPackets - 1 := by
    obtain ⟨total, positive⟩ : ∃ total, queue.bufferDataPackets + queue.bufferParityPackets =
        total + 1 := Nat.exists_eq_succ_of_ne_zero (by omega)
    have number : queue.bufferHighestSequenceNumber =
        queue.bufferLowestSequenceNumber + UInt16.ofNat total := by
      rw [geometry.highest, UInt16.add_assoc, ← UInt16.ofNat_add, positive, UInt16.ofNat_add,
        ← UInt16.add_assoc]
      exact UInt16.add_sub_cancel _ _
    rw [number, positive, offset_add_ofNat _ (by omega)]
    rfl
  have rest := @offset_shift queue.bufferLowestSequenceNumber queue.receivedHighestSequenceNumber
    queue.bufferHighestSequenceNumber (by omega)
  unfold highestPlace at missing
  unfold predictLoss at predicted ⊢
  split_ifs at predicted ⊢ with predict
  · obtain ⟨-, -, many⟩ := predict
    refine ⟨?_, ?_⟩
    · cases List.mem_singleton.mp predicted
      rfl
    · unfold Hopeless
      dsimp only
      rw [rest, received]
      omega
  · exact absurd predicted List.not_mem_nil

/-- The counts do not depend on what changes while a block is repaired. -/
theorem Counted.updated (counted : Counted queue) {other : RtpVideoQueue}
    (updated : Updated queue other)
    (same : other.pendingFecBlockList.length < queue.bufferDataPackets →
      other.pendingFecBlockList.length = queue.pendingFecBlockList.length) : Counted other := by
  obtain ⟨_, _, _, _, _, _, rfl⟩ := updated
  refine ⟨counted.inside, counted.missing, fun short => ?_⟩
  have kept := same short
  exact kept.trans (counted.received (kept ▸ short))

theorem finishBlock_pending (pending : Pending queue)
    (all : ∀ i < queue.bufferDataPackets, Present queue i) :
    (finishBlock queue).1.pendingFecBlockList = [] := by
  have empty := (pending.stage all).1
  unfold finishBlock
  dsimp only
  split_ifs
  · exact empty
  · exact empty

theorem finishBlock_silent (queue : RtpVideoQueue) (frame : UInt32) :
    .notifyFrameLost frame true ∉ (finishBlock queue).2 := by
  unfold finishBlock
  dsimp only
  split_ifs
  · exact List.not_mem_nil
  · intro member
    obtain ⟨entry, -, same⟩ := List.mem_map.mp member
    cases same

theorem takePacket_predictions (pending : Pending queue) (ready : Ready queue) {length : ℕ}
    (long : dataOffset packet + 16 ≤ length) (frame : frameIndex packet = queue.currentFrameNumber)
    (block : fecCurrentBlockNumber packet = queue.multiFecCurrentBlockNumber)
    (near : offset queue.bufferLowestSequenceNumber (sequenceNumber packet) ≤ 32767 +
      (queue.bufferDataPackets + queue.bufferParityPackets))
    (allocated : Option (ℕ → Packet)) :
    let result := takePacket settings queue packet length allocated
    (∀ lost, .notifyFrameLost lost true ∈ result.2 →
        lost = result.1.currentFrameNumber ∧ Hopeless result.1) ∧
      (result.1.pendingFecBlockList ≠ [] → Counted result.1) := by
  intro result
  have waiting : queue.pendingFecBlockList ≠ [] → Counted queue := fun some_pending =>
    (ready.resolve_left fun fresh => some_pending fresh.1).2
  unfold result takePacket
  dsimp only
  split_ifs with beyond
  · exact ⟨fun lost none => absurd none List.not_mem_nil, waiting⟩
  have inside := pending.geometry.inside near (Bool.eq_false_of_not_eq_true beyond)
  cases queued : queuePacket queue packet length
      (!isBefore16 (sequenceNumber packet) queue.bufferFirstParitySequenceNumber) false with
  | none => exact ⟨fun lost none => absurd none List.not_mem_nil, waiting⟩
  | some queued_queue =>
      obtain ⟨counted_pending, updated, appended⟩ := pending.receive long frame block inside queued
      have counted := countPacket_counted pending.geometry ready inside updated appended
      obtain ⟨rebuilt_pending, rebuilt, more, present⟩ :=
        @Pending.reconstructFrame settings _ counted_pending allocated
      dsimp only
      generalize countPacket queued_queue (sequenceNumber packet) = enlarged at *
      by_cases short : enlarged.pendingFecBlockList.length < enlarged.bufferDataPackets
      · rw [reconstructFrame_short short] at rebuilt ⊢
        dsimp only at rebuilt ⊢
        refine ⟨fun lost member => ?_, fun _ => ?_⟩
        · have sound := predictLoss_hopeless counted_pending.geometry counted short member
          have same : (predictLoss enlarged).1.currentFrameNumber =
              enlarged.currentFrameNumber := by
            obtain ⟨_, _, _, _, _, _, updated⟩ := rebuilt
            rw [updated]
          exact ⟨sound.1.trans same.symm, sound.2⟩
        · refine counted.updated rebuilt fun _ => ?_
          unfold predictLoss
          split_ifs <;> rfl
      · have silent := @reconstructFrame_long settings enlarged allocated short
        generalize reconstructFrame settings enlarged allocated = reconstructed at *
        obtain ⟨complete, rebuilt_queue, outputs⟩ := reconstructed
        dsimp only at rebuilt_pending rebuilt more present silent
        subst silent
        cases complete with
        | false =>
            refine ⟨fun lost none => absurd none List.not_mem_nil, fun _ => ?_⟩
            refine counted.updated rebuilt fun few => ?_
            have fewer :
                rebuilt_queue.pendingFecBlockList.length < enlarged.bufferDataPackets := few
            omega
        | true =>
            have all : ∀ i < rebuilt_queue.bufferDataPackets, Present rebuilt_queue i := by
              intro i below
              refine present rfl i ?_
              obtain ⟨_, _, _, _, _, _, rfl⟩ := rebuilt
              exact below
            exact ⟨fun lost member => absurd member (finishBlock_silent rebuilt_queue lost),
              fun some_pending => absurd (finishBlock_pending rebuilt_pending all) some_pending⟩

theorem skipFrame_silent (queue : RtpVideoQueue) (next lost : UInt32) :
    .notifyFrameLost lost true ∉ (skipFrame queue next).2 ∧
      (skipFrame queue next).1.pendingFecBlockList = [] := by
  unfold skipFrame reportLoss
  dsimp only
  split_ifs <;> simp

theorem openBlock_ready (now : UInt64)
    (waiting : queue.pendingFecBlockList ≠ [] → Counted queue) :
    let result := openBlock queue packet now
    (∀ lost, .notifyFrameLost lost true ∉ result.2.2) ∧
      (result.1 = false → result.2.1.pendingFecBlockList = []) ∧
      (result.1 = true → Ready result.2.1) := by
  intro result
  unfold result openBlock
  dsimp only
  by_cases fresh : queue.pendingFecBlockList = [] ∨
      queue.currentFrameNumber ≠ frameIndex packet ∨
      queue.multiFecCurrentBlockNumber ≠ fecCurrentBlockNumber packet
  swap
  · rw [if_neg fresh]
    have some_pending : queue.pendingFecBlockList ≠ [] := fun empty => fresh (Or.inl empty)
    exact ⟨fun lost => List.not_mem_nil, fun refused => absurd refused (by simp),
      fun _ => Or.inr ⟨some_pending, waiting some_pending⟩⟩
  rw [if_pos fresh]
  by_cases broken : queue.pendingFecBlockList ≠ [] ∧ queue.multiFecLastBlockNumber ≠ 0 ∧
      queue.currentFrameNumber = frameIndex packet
  · rw [if_pos broken]
    exact ⟨fun lost => (skipFrame_silent queue _ lost).1, fun _ => (skipFrame_silent queue _ 0).2,
      fun taken => absurd taken (by simp)⟩
  rw [if_neg broken]
  by_cases mismatch : fecCurrentBlockNumber packet ≠
      if queue.currentFrameNumber = frameIndex packet then queue.multiFecCurrentBlockNumber else 0
  · rw [if_pos mismatch]
    exact ⟨fun lost => (skipFrame_silent queue _ lost).1, fun _ => (skipFrame_silent queue _ 0).2,
      fun taken => absurd taken (by simp)⟩
  rw [if_neg mismatch]
  refine ⟨fun lost => ?_, fun refused => absurd refused (by simp), fun _ =>
    Or.inl ⟨rfl, rfl, rfl, rfl⟩⟩
  unfold beginBlock
  dsimp only
  split_ifs <;> simp

end Counts

section Runs

variable {settings : Settings} {multiFecCapable : Bool}

theorem addPacket_predictions {announced : UInt32 → UInt8 → Extent → Prop}
    {queue : RtpVideoQueue} {packet : Packet} (collected : Collected announced queue)
    (waiting : queue.pendingFecBlockList ≠ [] → Counted queue) (length : ℕ) (now : UInt64)
    (allocated : Option (ℕ → Packet))
    (announces : announced (frameIndex (hostOrder queue.multiFecCapable packet))
      (fecCurrentBlockNumber (hostOrder queue.multiFecCapable packet))
      (extent (hostOrder queue.multiFecCapable packet))) :
    let result := RtpvAddPacket settings queue packet length now allocated
    (∀ lost, .notifyFrameLost lost true ∈ result.2 →
        lost = result.1.currentFrameNumber ∧ Hopeless result.1) ∧
      (result.1.pendingFecBlockList ≠ [] → Counted result.1) := by
  intro result
  unfold result RtpvAddPacket
  dsimp only
  split_ifs with behind short old_frame old_block
  · exact ⟨fun lost none => absurd none List.not_mem_nil, waiting⟩
  · exact ⟨fun lost none => absurd none List.not_mem_nil, waiting⟩
  · exact ⟨fun lost none => absurd none List.not_mem_nil, waiting⟩
  · exact ⟨fun lost none => absurd none List.not_mem_nil, waiting⟩
  have not_behind : isBefore16 (sequenceNumber (hostOrder queue.multiFecCapable packet))
      queue.nextContiguousSequenceNumber = false := by
    rw [hostOrder_number]
    exact Bool.eq_false_of_not_eq_true behind
  have long : dataOffset (hostOrder queue.multiFecCapable packet) + 16 ≤ length := by
    rw [hostOrder_offset]
    exact Nat.le_of_not_lt short
  obtain ⟨-, -, -, taken⟩ := collected.openBlock now not_behind announces
  obtain ⟨silent, refused, ready⟩ :=
    @openBlock_ready queue (hostOrder queue.multiFecCapable packet) now waiting
  generalize openBlock queue (hostOrder queue.multiFecCapable packet) now = opened
    at taken silent refused ready ⊢
  obtain ⟨accepted, open_queue, outputs⟩ := opened
  dsimp only at taken silent refused ready
  cases accepted with
  | false =>
      exact ⟨fun lost member => absurd member (silent lost),
        fun some_pending => absurd (refused rfl) some_pending⟩
  | true =>
      obtain ⟨pending, -, -, frame, block, near⟩ := taken rfl
      obtain ⟨predictions, counted⟩ := @takePacket_predictions settings open_queue _ pending
        (ready rfl) length long frame block near allocated
      refine ⟨fun lost member => ?_, counted⟩
      rcases List.mem_append.mp member with before | now
      · exact absurd before (silent lost)
      · exact predictions lost now

theorem run_counted (arrivals : List Arrival) :
    (run settings multiFecCapable arrivals).1.pendingFecBlockList ≠ [] →
      Counted (run settings multiFecCapable arrivals).1 := by
  induction arrivals using List.reverseRecOn with
  | nil => exact fun some_pending => absurd rfl some_pending
  | append_singleton arrivals arrival ih =>
      obtain ⟨collected, capable, -⟩ := run_collected settings multiFecCapable arrivals
      rw [run_append]
      exact (addPacket_predictions (collected.mono fun _ _ _ _ => trivial)
        ih arrival.length arrival.now arrival.allocated trivial).2

/-- In every run, when a frame is predicted to be lost, it is the open one, and the packets of its
block that are there and all those above the highest received are fewer than its data packets. -/
theorem predicted_losses (settings : Settings) (multiFecCapable : Bool) (arrivals : List Arrival)
    (arrival : Arrival) (lost : UInt32)
    (predicted : .notifyFrameLost lost true ∈ (RtpvAddPacket settings
      (run settings multiFecCapable arrivals).1 arrival.packet arrival.length arrival.now
      arrival.allocated).2) :
    let queue := (run settings multiFecCapable (arrivals ++ [arrival])).1
    lost = queue.currentFrameNumber ∧
      queue.pendingFecBlockList.length +
        offset queue.receivedHighestSequenceNumber queue.bufferHighestSequenceNumber <
          queue.bufferDataPackets := by
  obtain ⟨collected, -, -⟩ := run_collected settings multiFecCapable arrivals
  rw [run_append]
  exact (addPacket_predictions (collected.mono fun _ _ _ _ => trivial) (run_counted arrivals)
    arrival.length arrival.now arrival.allocated trivial).1 lost predicted

/-- The second of three packets is missing when the third comes. -/
theorem predicted_losses_gap :
    let queue := (run smallPackets true [⟨framePacket 3 0, 40, 3, none⟩,
      ⟨framePacket 3 2, 40, 4, none⟩]).1
    queue.pendingFecBlockList.length +
      offset queue.receivedHighestSequenceNumber queue.bufferHighestSequenceNumber <
        queue.bufferDataPackets := by
  have predicted : ((RtpvAddPacket smallPackets (run smallPackets true
      [⟨framePacket 3 0, 40, 3, none⟩]).1 (framePacket 3 2) 40 4 none).2.map fun
        | .notifyFrameLost lost speculative => some (lost, speculative)
        | _ => none) = [some (1, true)] := by decide
  obtain ⟨output, only, here⟩ := List.map_eq_singleton_iff.mp predicted
  cases output with
  | notifyFrameLost lost speculative =>
      cases here
      exact (predicted_losses smallPackets true [⟨framePacket 3 0, 40, 3, none⟩]
        ⟨framePacket 3 2, 40, 4, none⟩ 1 (by rw [only]; exact List.mem_singleton_self _)).2
  | connectionSawFrame frame => cases here
  | queueRtpPacket entry => cases here

end Runs

end MoonlightWii.Limelight.LossPrediction
