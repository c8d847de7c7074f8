import Mathlib.Data.Finset.Card
import Mathlib.Data.List.Perm.Subperm
import MoonlightWii.Limelight.VideoQueue

/-!
# Whole frames

What the video queue passes on are whole frames: of every block of the frame, from the first on,
all data packets in order, each once.
-/

set_option autoImplicit false

namespace MoonlightWii.Limelight.VideoFrames

open RtpNumbers VideoPacket VideoQueue Fec.ShardRecovery

section Window

theorem offset_add_ofNat (lowest : UInt16) {n : ℕ} (small : n < 65536) :
    offset lowest (lowest + UInt16.ofNat n) = n := by
  have sum := @offset_add lowest lowest n (by rw [offset_self]; omega)
  rw [sum, offset_self, Nat.zero_add]

theorem eq_add_offset (lowest number : UInt16) :
    number = lowest + UInt16.ofNat (offset lowest number) := (add_sub_number lowest number).symm

/-- The geometry of a block. -/
structure Geometry (queue : RtpVideoQueue) : Prop where
  few : queue.bufferDataPackets + queue.bufferParityPackets < 32768
  parity : queue.bufferFirstParitySequenceNumber =
    queue.bufferLowestSequenceNumber + UInt16.ofNat queue.bufferDataPackets
  highest : queue.bufferHighestSequenceNumber = queue.bufferLowestSequenceNumber +
    UInt16.ofNat queue.bufferDataPackets + UInt16.ofNat queue.bufferParityPackets - 1
  next : offset queue.bufferLowestSequenceNumber queue.nextContiguousSequenceNumber ≤
    queue.bufferDataPackets + queue.bufferParityPackets

variable {queue : RtpVideoQueue} {number : UInt16}

theorem Geometry.isParity (geometry : Geometry queue)
    (inside : offset queue.bufferLowestSequenceNumber number <
      queue.bufferDataPackets + queue.bufferParityPackets) :
    isBefore16 number queue.bufferFirstParitySequenceNumber = true ↔
      offset queue.bufferLowestSequenceNumber number < queue.bufferDataPackets := by
  have few := geometry.few
  have first : offset queue.bufferLowestSequenceNumber queue.bufferFirstParitySequenceNumber =
      queue.bufferDataPackets := by
    rw [geometry.parity]
    exact offset_add_ofNat _ (by omega)
  rw [@isBefore16_iff_lt queue.bufferLowestSequenceNumber _ _ (by omega) (by omega), first]

/-- What is neither behind the contiguous packets nor beyond the last belongs to the block. -/
theorem Geometry.inside (geometry : Geometry queue)
    (near : offset queue.bufferLowestSequenceNumber number ≤ 32767 +
      (queue.bufferDataPackets + queue.bufferParityPackets))
    (not_beyond : isBefore16 queue.bufferHighestSequenceNumber number = false) :
    offset queue.bufferLowestSequenceNumber number <
      queue.bufferDataPackets + queue.bufferParityPackets := by
  have few := geometry.few
  by_contra beyond
  have far : 32768 ≤ offset number queue.bufferHighestSequenceNumber := by
    have bounds := And.intro number.toNat_lt queue.bufferLowestSequenceNumber.toNat_lt
    have first := @toNat_add_small queue.bufferLowestSequenceNumber queue.bufferDataPackets
      (by omega)
    have after := @toNat_add_small (queue.bufferLowestSequenceNumber +
      UInt16.ofNat queue.bufferDataPackets) queue.bufferParityPackets (by omega)
    have last := congrArg UInt16.toNat geometry.highest
    rw [UInt16.toNat_sub] at last
    have one : (1 : UInt16).toNat = 1 := rfl
    rcases offset_cases queue.bufferLowestSequenceNumber number with ⟨_, h₁⟩ | ⟨_, h₁⟩ <;>
      rcases offset_cases number queue.bufferHighestSequenceNumber with ⟨_, h₂⟩ | ⟨_, h₂⟩ <;> omega
  rw [(isBefore16_iff_offset _ _).mpr far] at not_beyond
  cases not_beyond

theorem Geometry.near (geometry : Geometry queue)
    (not_behind : isBefore16 number queue.nextContiguousSequenceNumber = false) :
    offset queue.bufferLowestSequenceNumber number ≤ 32767 +
      (queue.bufferDataPackets + queue.bufferParityPackets) := by
  have next := geometry.next
  have few := geometry.few
  have small : offset queue.nextContiguousSequenceNumber number < 32768 := by
    by_contra far
    rw [(isBefore16_iff_offset _ _).mpr (Nat.le_of_not_lt far)] at not_behind
    cases not_behind
  by_contra beyond
  have shifted := @offset_shift queue.bufferLowestSequenceNumber
    queue.nextContiguousSequenceNumber number (by omega)
  omega

end Window

section Entries

/-- What is known of an entry without the rest of the queue: its frame, its block, its number and
whether it is parity. -/
def key (entry : Entry) : UInt32 × UInt8 × UInt16 × Bool :=
  (frameIndex entry.packet, fecCurrentBlockNumber entry.packet, entry.number, entry.isParity)

/-- An entry is long enough for the headers. -/
def Long (entry : Entry) : Prop := dataOffset entry.packet + 16 ≤ entry.length

theorem padEntry_byte {receiveSize : ℕ} {entry : Entry} {byte : ℕ} (within : byte < entry.length) :
    (padEntry receiveSize entry).packet byte = entry.packet byte :=
  if_neg fun padded => absurd padded.1 (Nat.not_le_of_lt within)

theorem padEntry_key (receiveSize : ℕ) {entry : Entry} (long : Long entry) :
    key (padEntry receiveSize entry) = key entry ∧
      Long (padEntry receiveSize entry) := by
  have enough : dataOffset entry.packet + 16 ≤ entry.length := long
  have bounds := dataOffset_bounds entry.packet
  have same : ∀ byte < entry.length, (padEntry receiveSize entry).packet byte = entry.packet byte :=
    fun _ within => padEntry_byte within
  have offsets : dataOffset (padEntry receiveSize entry).packet = dataOffset entry.packet :=
    dataOffset_congr (same 0 (by omega))
  refine ⟨?_, ?_⟩
  case refine_2 =>
    unfold Long
    rw [offsets]
    exact enough
  have frame : frameIndex (padEntry receiveSize entry).packet = frameIndex entry.packet := by
    unfold frameIndex
    rw [offsets]
    exact read32_congr fun byte _ _ => same byte (by omega)
  have block : fecCurrentBlockNumber (padEntry receiveSize entry).packet =
      fecCurrentBlockNumber entry.packet := by
    unfold fecCurrentBlockNumber multiFecBlocks
    rw [offsets, same _ (by omega)]
  have number : (padEntry receiveSize entry).number = entry.number :=
    read16_congr fun byte _ _ => same byte (by omega)
  unfold key
  rw [frame, block, number]
  rfl

theorem block_bits {current last : UInt8} (small : current ≤ 3) (few : last ≤ 3) :
    ((last <<< 2 ||| current) <<< 4 >>> 4) &&& 3 = current := by
  have all : ∀ a < 4, ∀ b < 4, ((UInt8.ofNat b <<< 2 ||| UInt8.ofNat a) <<< 4 >>> 4) &&& 3 =
      UInt8.ofNat a := by decide
  have current_small : current.toNat ≤ 3 := UInt8.le_iff_toNat_le.mp small
  have last_small : last.toNat ≤ 3 := UInt8.le_iff_toNat_le.mp few
  have here := all current.toNat (by omega) last.toNat (by omega)
  rwa [UInt8.ofNat_toNat, UInt8.ofNat_toNat] at here

/-- A recovered packet has the fields of its place. -/
theorem restoreFields_key {queue : RtpVideoQueue} (current : queue.multiFecCurrentBlockNumber ≤ 3)
    (last : queue.multiFecLastBlockNumber ≤ 3) (i : ℕ) (packet : Packet) :
    sequenceNumber (restoreFields queue i packet) =
        queue.bufferLowestSequenceNumber + UInt16.ofNat i ∧
      frameIndex (restoreFields queue i packet) = queue.currentFrameNumber ∧
      fecCurrentBlockNumber (restoreFields queue i packet) =
        queue.multiFecCurrentBlockNumber := by
  unfold restoreFields
  dsimp only
  generalize (queue.pendingFecBlockList.map Entry.packet).headD packet = first
  generalize numbered : write16 packet 2 (UInt16.ofNat i + queue.bufferLowestSequenceNumber) =
    numbered_packet
  generalize stamped : write32 (write32 (Function.update numbered_packet 0 (header first)) 4
    (timestamp first)) 8 (ssrc first) = stamped_packet
  have bounds := dataOffset_bounds stamped_packet
  generalize framed : write32 stamped_packet (dataOffset stamped_packet + 4)
    queue.currentFrameNumber = framed_packet
  generalize blocks : (queue.multiFecLastBlockNumber <<< 2 |||
    queue.multiFecCurrentBlockNumber) <<< 4 = block_byte
  have low : ∀ byte < 12,
      Function.update framed_packet (dataOffset stamped_packet + 11) block_byte byte =
        stamped_packet byte := by
    intro byte below
    rw [Function.update_of_ne (by omega), ← framed]
    exact write32_other (Or.inl (by omega))
  have offsets : dataOffset (Function.update framed_packet (dataOffset stamped_packet + 11)
      block_byte) = dataOffset stamped_packet := dataOffset_congr (low 0 (by decide))
  refine ⟨?_, ?_, ?_⟩
  · have number := read16_write16 packet 2 (UInt16.ofNat i + queue.bufferLowestSequenceNumber)
    rw [numbered] at number
    rw [UInt16.add_comm, ← number]
    refine read16_congr fun byte above below => ?_
    rw [low byte (by omega), ← stamped, write32_other (Or.inl (by omega)),
      write32_other (Or.inl (by omega)), Function.update_of_ne (by omega)]
  · have frame := read32_write32 stamped_packet (dataOffset stamped_packet + 4)
      queue.currentFrameNumber
    rw [framed] at frame
    unfold frameIndex
    rw [offsets, ← frame]
    exact read32_congr fun byte above below => Function.update_of_ne (by omega) _ _
  · unfold fecCurrentBlockNumber multiFecBlocks
    rw [offsets, Function.update_self, ← blocks]
    exact block_bits current last

end Entries

section Pending

variable {settings : Settings} {queue : RtpVideoQueue}

/-- What is known of a packet of the open block. -/
structure OfBlock (queue : RtpVideoQueue) (entry : Entry) : Prop where
  inside : offset queue.bufferLowestSequenceNumber entry.number <
    queue.bufferDataPackets + queue.bufferParityPackets
  parity : entry.isParity = true ↔
    queue.bufferDataPackets ≤ offset queue.bufferLowestSequenceNumber entry.number
  long : Long entry
  frame : frameIndex entry.packet = queue.currentFrameNumber
  block : fecCurrentBlockNumber entry.packet = queue.multiFecCurrentBlockNumber

/-- The open block. -/
structure Pending (queue : RtpVideoQueue) : Prop where
  geometry : Geometry queue
  current : queue.multiFecCurrentBlockNumber ≤ 3
  last : queue.multiFecLastBlockNumber ≤ 3
  entries : ∀ entry ∈ queue.pendingFecBlockList, OfBlock queue entry
  distinct : (queue.pendingFecBlockList.map Entry.number).Nodup
  fast : queue.useFastQueuePath = true → ∀ entry ∈ queue.pendingFecBlockList,
    offset queue.bufferLowestSequenceNumber entry.number <
      offset queue.bufferLowestSequenceNumber queue.nextContiguousSequenceNumber
  counted : queue.receivedDataPackets ≤
    (queue.pendingFecBlockList.filter fun entry => !entry.isParity).length

/-- What stays while a block is collected. -/
def Updated (queue other : RtpVideoQueue) : Prop :=
  ∃ pending next fast reported presentation outOfSequence, other = { queue with
    pendingFecBlockList := pending
    nextContiguousSequenceNumber := next
    useFastQueuePath := fast
    reportedLostFrame := reported
    lastOosFramePresentationTimestamp := presentation
    receivedOosData := outOfSequence }

theorem Updated.refl (queue : RtpVideoQueue) : Updated queue queue := ⟨_, _, _, _, _, _, rfl⟩

theorem Updated.trans {queue middle other : RtpVideoQueue} (first : Updated queue middle)
    (second : Updated middle other) : Updated queue other := by
  obtain ⟨_, _, _, _, _, _, rfl⟩ := first
  obtain ⟨_, _, _, _, _, _, rfl⟩ := second
  exact ⟨_, _, _, _, _, _, rfl⟩

theorem noteSequence_updated (queue : RtpVideoQueue) (presentationTimeMs : UInt32)
    (outOfSequence : Bool) : ∃ presentation received,
      noteSequence queue presentationTimeMs outOfSequence = { queue with
        lastOosFramePresentationTimestamp := presentation
        receivedOosData := received } := by
  unfold noteSequence
  split_ifs
  · exact ⟨_, _, rfl⟩
  · exact ⟨_, _, rfl⟩
  · exact ⟨_, _, rfl⟩

theorem insertPacket_updated (queue : RtpVideoQueue) (packet : Packet) (length : ℕ)
    (isParity isFecRecovery outOfSequence : Bool) : ∃ presentation received,
      insertPacket queue packet length isParity isFecRecovery outOfSequence = { queue with
        pendingFecBlockList := queue.pendingFecBlockList ++ [newEntry packet length isParity]
        lastOosFramePresentationTimestamp := presentation
        receivedOosData := received } := by
  unfold insertPacket
  dsimp only
  split_ifs
  · exact ⟨_, _, rfl⟩
  · obtain ⟨presentation, received, noted⟩ := noteSequence_updated queue
      (newEntry packet length isParity).presentationTimeMs outOfSequence
    rw [noted]
    exact ⟨_, _, rfl⟩

/-- A packet is appended, unless its number is there. -/
theorem queuePacket_updated (queue : RtpVideoQueue) (packet : Packet) (length : ℕ)
    (isParity isFecRecovery : Bool) :
    (queuePacket queue packet length isParity isFecRecovery = none ∧
        ∃ entry ∈ queue.pendingFecBlockList, entry.number = sequenceNumber packet) ∨
      ∃ next fast presentation received,
        queuePacket queue packet length isParity isFecRecovery = some { queue with
          pendingFecBlockList := queue.pendingFecBlockList ++ [newEntry packet length isParity]
          nextContiguousSequenceNumber := next
          useFastQueuePath := fast
          lastOosFramePresentationTimestamp := presentation
          receivedOosData := received } ∧
        (queue.useFastQueuePath = true ∧
            sequenceNumber packet = queue.nextContiguousSequenceNumber ∧
            next = sequenceNumber packet + 1 ∨
          fast = false ∧ next = queue.nextContiguousSequenceNumber ∧
            ∀ entry ∈ queue.pendingFecBlockList, entry.number ≠ sequenceNumber packet) := by
  unfold queuePacket
  dsimp only
  split_ifs with contiguous duplicate
  · obtain ⟨presentation, received, inserted⟩ := insertPacket_updated
      { queue with nextContiguousSequenceNumber := sequenceNumber packet + 1 } packet length
      isParity isFecRecovery false
    rw [inserted]
    exact Or.inr ⟨_, queue.useFastQueuePath, _, _, rfl, Or.inl ⟨contiguous.1, contiguous.2, rfl⟩⟩
  · obtain ⟨entry, member, same⟩ := List.any_eq_true.mp duplicate
    exact Or.inl ⟨rfl, entry, member, (beq_iff_eq.mp same).symm⟩
  · obtain ⟨presentation, received, inserted⟩ := insertPacket_updated
      { queue with useFastQueuePath := false } packet length isParity isFecRecovery
      (queue.pendingFecBlockList.any fun entry => isBefore16 (sequenceNumber packet) entry.number)
    rw [inserted]
    refine Or.inr ⟨queue.nextContiguousSequenceNumber, false, _, _, rfl, Or.inr ⟨rfl, rfl, ?_⟩⟩
    intro entry member same
    exact duplicate (List.any_eq_true.mpr ⟨entry, member, beq_iff_eq.mpr same.symm⟩)

/-- A packet of the block is queued. -/
theorem Pending.queuePacket (pending : Pending queue) {packet : Packet} {length : ℕ}
    {isParity isFecRecovery : Bool} (own : OfBlock queue (newEntry packet length isParity))
    {other : RtpVideoQueue}
    (queued : VideoQueue.queuePacket queue packet length isParity isFecRecovery = some other) :
    Pending other ∧ Updated queue other ∧
      other.pendingFecBlockList =
        queue.pendingFecBlockList ++ [newEntry packet length isParity] := by
  rcases queuePacket_updated queue packet length isParity isFecRecovery with
    ⟨refused, -⟩ | ⟨next, fast, presentation, received, appended, how⟩
  · rw [refused] at queued
    cases queued
  rw [appended] at queued
  cases queued
  have inside : offset queue.bufferLowestSequenceNumber (sequenceNumber packet) <
      queue.bufferDataPackets + queue.bufferParityPackets := own.inside
  have few := pending.geometry.few
  have fresh : ∀ entry ∈ queue.pendingFecBlockList, entry.number ≠ sequenceNumber packet := by
    rcases how with ⟨fast_path, contiguous, -⟩ | ⟨-, -, fresh⟩
    · intro entry member same
      have before := pending.fast fast_path entry member
      rw [same, ← contiguous] at before
      exact Nat.lt_irrefl _ before
    · exact fresh
  have after_next : next = sequenceNumber packet + 1 →
      offset queue.bufferLowestSequenceNumber next =
        offset queue.bufferLowestSequenceNumber (sequenceNumber packet) + 1 := by
    rintro rfl
    exact offset_add_one (by omega)
  refine ⟨⟨⟨few, pending.geometry.parity, pending.geometry.highest, ?_⟩, pending.current,
    pending.last, ?_, ?_, ?_, ?_⟩, ⟨_, _, _, _, _, _, rfl⟩, rfl⟩
  · dsimp only
    rcases how with ⟨-, -, same⟩ | ⟨-, same, -⟩
    · have := after_next same
      omega
    · rw [same]
      exact pending.geometry.next
  · intro entry member
    rcases List.mem_append.mp member with before | now
    · have old := pending.entries entry before
      exact ⟨old.inside, old.parity, old.long, old.frame, old.block⟩
    · rw [List.mem_singleton.mp now]
      exact ⟨own.inside, own.parity, own.long, own.frame, own.block⟩
  · rw [List.map_append, List.nodup_append]
    refine ⟨pending.distinct, List.nodup_singleton _, ?_⟩
    intro a old b new same
    obtain ⟨entry, member, rfl⟩ := List.mem_map.mp old
    rw [List.map_singleton, List.mem_singleton] at new
    exact fresh entry member (same.trans new)
  · intro is_fast entry member
    dsimp only at is_fast ⊢
    rcases how with ⟨was_fast, contiguous, same⟩ | ⟨slow, -, -⟩
    · rw [after_next same]
      rcases List.mem_append.mp member with before | now
      · have old := pending.fast was_fast entry before
        rw [← contiguous] at old
        omega
      · rw [List.mem_singleton.mp now]
        exact Nat.lt_succ_self _
    · rw [slow] at is_fast
      cases is_fast
  · dsimp only
    rw [List.filter_append, List.length_append]
    exact Nat.le_add_right_of_le pending.counted

end Pending

section Reconstruct

variable {settings : Settings} {queue : RtpVideoQueue}

/-- The packet of a place is there. -/
def Present (queue : RtpVideoQueue) (i : ℕ) : Prop :=
  ∃ entry ∈ queue.pendingFecBlockList,
    entry.number = queue.bufferLowestSequenceNumber + UInt16.ofNat i

/-- Flags of the queue that say nothing about the block. -/
theorem Pending.flags (pending : Pending queue) (reported outOfSequence : Bool)
    (presentation : UInt32) :
    Pending { queue with
      reportedLostFrame := reported
      receivedOosData := outOfSequence
      lastOosFramePresentationTimestamp := presentation } := by
  obtain ⟨⟨few, parity, highest, next⟩, current, last, entries, distinct, fast, counted⟩ := pending
  refine ⟨⟨few, parity, highest, next⟩, current, last, ?_, distinct, fast, counted⟩
  intro entry member
  obtain ⟨inside, parity, long, frame, block⟩ := entries entry member
  exact ⟨inside, parity, long, frame, block⟩

theorem Pending.padded (pending : Pending queue) (receiveSize : ℕ) :
    Pending { queue with pendingFecBlockList :=
      queue.pendingFecBlockList.map (padEntry receiveSize) } := by
  have same : ∀ entry ∈ queue.pendingFecBlockList, key (padEntry receiveSize entry) = key entry ∧
      Long (padEntry receiveSize entry) :=
    fun entry member => padEntry_key receiveSize (pending.entries entry member).long
  have number : ∀ entry ∈ queue.pendingFecBlockList,
      (padEntry receiveSize entry).number = entry.number :=
    fun entry member => congrArg (fun k => k.2.2.1) (same entry member).1
  refine ⟨⟨pending.geometry.few, pending.geometry.parity, pending.geometry.highest,
    pending.geometry.next⟩, pending.current, pending.last, ?_, ?_, ?_, ?_⟩
  · intro padded inside
    obtain ⟨entry, member, rfl⟩ := List.mem_map.mp inside
    obtain ⟨keys, long⟩ := same entry member
    have old := pending.entries entry member
    have frame : frameIndex (padEntry receiveSize entry).packet = frameIndex entry.packet :=
      congrArg (fun k => k.1) keys
    have block : fecCurrentBlockNumber (padEntry receiveSize entry).packet =
        fecCurrentBlockNumber entry.packet := congrArg (fun k => k.2.1) keys
    refine ⟨?_, ?_, long, frame.trans old.frame, block.trans old.block⟩
    · rw [number entry member]
      exact old.inside
    · rw [number entry member]
      exact old.parity
  · have numbers : (queue.pendingFecBlockList.map (padEntry receiveSize)).map Entry.number =
        queue.pendingFecBlockList.map Entry.number := by
      rw [List.map_map]
      exact List.map_congr_left number
    dsimp only
    rw [numbers]
    exact pending.distinct
  · intro is_fast padded inside
    obtain ⟨entry, member, rfl⟩ := List.mem_map.mp inside
    rw [number entry member]
    exact pending.fast is_fast entry member
  · dsimp only
    rw [List.filter_map, List.length_map]
    exact pending.counted

theorem foldl_marks (entries : List Entry) (position : Entry → ℕ) (marks : ℕ → Bool) (i : ℕ) :
    entries.foldl (fun marks entry => Function.update marks (position entry) false) marks i =
        false ↔ marks i = false ∨ ∃ entry ∈ entries, position entry = i := by
  induction entries generalizing marks with
  | nil => simp
  | cons entry rest ih =>
      rw [List.foldl_cons, ih, List.exists_mem_cons_iff]
      by_cases here : position entry = i
      · simp [here]
      · rw [Function.update_of_ne (Ne.symm here)]
        simp [here]

theorem place_eq_iff (queue : RtpVideoQueue) (entry : Entry) {i : ℕ} (small : i < 65536) :
    place queue entry = i ↔
      entry.number = queue.bufferLowestSequenceNumber + UInt16.ofNat i := by
  constructor
  · rintro rfl
    exact eq_add_offset _ _
  · intro same
    have distance := offset_add_ofNat queue.bufferLowestSequenceNumber small
    rwa [← same] at distance

/-- A place is marked exactly when nothing of it is there. -/
theorem marksOf_iff (queue : RtpVideoQueue) {i : ℕ} (small : i < 65536) :
    marksOf queue i = false ↔ Present queue i := by
  unfold marksOf
  rw [foldl_marks]
  constructor
  · rintro (marked | ⟨entry, member, here⟩)
    · cases marked
    · exact ⟨entry, member, (place_eq_iff queue entry small).mp here⟩
  · rintro ⟨entry, member, number⟩
    exact Or.inr ⟨entry, member, (place_eq_iff queue entry small).mpr number⟩

theorem Updated.present {other : RtpVideoQueue} (updated : Updated queue other)
    (more : queue.pendingFecBlockList ⊆ other.pendingFecBlockList) {i : ℕ}
    (present : Present queue i) : Present other i := by
  obtain ⟨entry, member, number⟩ := present
  refine ⟨entry, more member, ?_⟩
  obtain ⟨_, _, _, _, _, _, rfl⟩ := updated
  exact number

/-- One recovered packet. -/
theorem Pending.takeRecovered (pending : Pending queue) {marks : ℕ → Bool}
    {shards : Shards settings.receiveSize} {i : ℕ} (within : i < queue.bufferDataPackets)
    (ok : Bool) :
    let taken := VideoQueue.takeRecovered settings marks shards (ok, queue) i
    Pending taken.2 ∧ Updated queue taken.2 ∧
      queue.pendingFecBlockList <+: taken.2.pendingFecBlockList ∧
      (taken.1 = true → ok = true ∧ (marks i = true → Present taken.2 i)) := by
  intro taken
  have few := pending.geometry.few
  unfold taken VideoQueue.takeRecovered
  dsimp only
  by_cases wanted : marks i = true ∧ ok = true
  swap
  · rw [if_neg wanted]
    refine ⟨pending, Updated.refl queue, List.prefix_refl _, fun is_ok => ⟨is_ok, ?_⟩⟩
    exact fun marked => absurd ⟨marked, is_ok⟩ wanted
  rw [if_pos wanted]
  obtain ⟨number, frame, block⟩ := restoreFields_key pending.current pending.last i fun byte =>
    if within : byte < settings.receiveSize then (shards i ⟨byte, within⟩).byte else 0
  generalize restoreFields queue i _ = packet at number frame block ⊢
  split_ifs with sane
  · have position : offset queue.bufferLowestSequenceNumber (sequenceNumber packet) = i := by
      rw [number]
      exact offset_add_ofNat _ (by omega)
    have own : OfBlock queue
        (newEntry packet (settings.packetSize + dataOffset packet) false) := by
      refine ⟨?_, ?_, ?_, frame, block⟩
      · change offset queue.bufferLowestSequenceNumber (sequenceNumber packet) < _
        omega
      · change false = true ↔
          _ ≤ offset queue.bufferLowestSequenceNumber (sequenceNumber packet)
        rw [position]
        exact ⟨fun none => Bool.noConfusion none, fun beyond => by omega⟩
      · have sized := settings.sized
        change dataOffset packet + 16 ≤ settings.packetSize + dataOffset packet
        omega
    rcases queuePacket_updated queue packet (settings.packetSize + dataOffset packet) false true
      with ⟨refused, entry, member, same⟩ | ⟨next, fast, presentation, received, appended, -⟩
    · rw [refused]
      exact ⟨pending, Updated.refl queue, List.prefix_refl _, fun _ =>
        ⟨wanted.2, fun _ => ⟨entry, member, same.trans number⟩⟩⟩
    · rw [appended]
      obtain ⟨pending', updated, -⟩ := pending.queuePacket own appended
      refine ⟨pending', updated, List.prefix_append _ _, fun _ =>
        ⟨wanted.2, fun _ => ?_⟩⟩
      exact ⟨_, List.mem_append_right _ List.mem_cons_self, number⟩
  · exact ⟨pending, Updated.refl queue, List.prefix_refl _, fun failed => absurd failed (by simp)⟩

/-- The loop over the recovered packets. -/
theorem Pending.takeAll (pending : Pending queue) {marks : ℕ → Bool}
    {shards : Shards settings.receiveSize} {n : ℕ} (within : n ≤ queue.bufferDataPackets) :
    let taken := (List.range n).foldl (VideoQueue.takeRecovered settings marks shards)
      (true, queue)
    Pending taken.2 ∧ Updated queue taken.2 ∧
      queue.pendingFecBlockList <+: taken.2.pendingFecBlockList ∧
      (taken.1 = true → ∀ i < n, marks i = true → Present taken.2 i) := by
  induction n with
  | zero =>
      exact ⟨pending, Updated.refl queue, List.prefix_refl _,
        fun _ i none => absurd none (Nat.not_lt_zero i)⟩
  | succ n ih =>
      obtain ⟨pending', updated, more, present⟩ := ih (by omega)
      rw [List.range_succ, List.foldl_append]
      generalize (List.range n).foldl (VideoQueue.takeRecovered settings marks shards)
        (true, queue) = before at pending' updated more present ⊢
      obtain ⟨ok, before⟩ := before
      have same_data : before.bufferDataPackets = queue.bufferDataPackets := by
        obtain ⟨_, _, _, _, _, _, rfl⟩ := updated
        rfl
      obtain ⟨pending'', updated', more', present'⟩ :=
        @Pending.takeRecovered settings before pending' marks shards n (by omega) ok
      refine ⟨pending'', updated.trans updated', more.trans more', ?_⟩
      intro succeeded i below marked
      obtain ⟨was_ok, here⟩ := present' succeeded
      rcases Nat.lt_succ_iff_lt_or_eq.mp below with earlier | rfl
      · exact updated'.present more'.subset (present was_ok i earlier marked)
      · exact here marked

/-- As many numbers below a bound as it allows are all of them. -/
theorem mem_of_nodup_of_length {numbers : List ℕ} {n : ℕ} (distinct : numbers.Nodup)
    (bound : ∀ number ∈ numbers, number < n) (many : n ≤ numbers.length) {i : ℕ} (below : i < n) :
    i ∈ numbers := by
  have subset : numbers.toFinset ⊆ Finset.range n := fun number member =>
    Finset.mem_range.mpr (bound number (List.mem_toFinset.mp member))
  have all := Finset.eq_of_subset_of_card_le subset (by
    rw [Finset.card_range, List.toFinset_card_of_nodup distinct]
    exact many)
  exact List.mem_toFinset.mp (all ▸ Finset.mem_range.mpr below)

/-- When as many data packets have come as there are, all are there. -/
theorem Pending.all_received (pending : Pending queue)
    (all : queue.receivedDataPackets = queue.bufferDataPackets) {i : ℕ}
    (below : i < queue.bufferDataPackets) : Present queue i := by
  have few := pending.geometry.few
  have data : ∀ entry ∈ queue.pendingFecBlockList.filter (fun entry => !entry.isParity),
      entry ∈ queue.pendingFecBlockList ∧
        place queue entry < queue.bufferDataPackets := by
    intro entry member
    obtain ⟨inside, not_parity⟩ := List.mem_filter.mp member
    refine ⟨inside, Nat.lt_of_not_le fun beyond => ?_⟩
    rw [((pending.entries entry inside).parity).mpr beyond] at not_parity
    cases not_parity
  have distinct : ((queue.pendingFecBlockList.filter fun entry => !entry.isParity).map
      (place queue)).Nodup := by
    have numbers := pending.distinct.sublist
      (List.filter_sublist (p := fun entry : Entry => !entry.isParity)
        (l := queue.pendingFecBlockList) |>.map Entry.number)
    rw [List.Nodup, List.pairwise_map] at numbers ⊢
    exact numbers.imp fun differ same => differ (offset_inj same)
  have member := mem_of_nodup_of_length distinct (by
    intro number inside
    obtain ⟨entry, member, rfl⟩ := List.mem_map.mp inside
    exact (data entry member).2) (by
    rw [List.length_map, ← all]
    exact pending.counted) below
  obtain ⟨entry, inside, here⟩ := List.mem_map.mp member
  exact ⟨entry, (data entry inside).1, (place_eq_iff queue entry (by omega)).mp here⟩

/-- Whether or not the block can be completed, it stays in order; and if it is complete, all its
data packets are there. -/
theorem Pending.reconstructFrame (pending : Pending queue) (allocated : Option (ℕ → Packet)) :
    let result := VideoQueue.reconstructFrame settings queue allocated
    Pending result.2.1 ∧ Updated queue result.2.1 ∧
      queue.pendingFecBlockList.length ≤ result.2.1.pendingFecBlockList.length ∧
      (result.1 = true → ∀ i < queue.bufferDataPackets, Present result.2.1 i) := by
  intro result
  have few := pending.geometry.few
  unfold result VideoQueue.reconstructFrame
  by_cases short : queue.pendingFecBlockList.length < queue.bufferDataPackets
  · rw [if_pos short]
    unfold predictLoss
    split_ifs
    · exact ⟨pending.flags true _ _, ⟨_, _, _, _, _, _, rfl⟩, Nat.le_refl _,
        fun failed => absurd failed (by simp)⟩
    · exact ⟨pending, Updated.refl queue, Nat.le_refl _, fun failed => absurd failed (by simp)⟩
  rw [if_neg short]
  dsimp only
  have noted : ∃ outOfSequence presentation,
      (if queue.reportedLostFrame ∧ queue.receivedOosData = false then { queue with
        receivedOosData := true
        lastOosFramePresentationTimestamp :=
          (queue.pendingFecBlockList.map Entry.presentationTimeMs).headD 0 }
        else queue) = { queue with
          receivedOosData := outOfSequence
          lastOosFramePresentationTimestamp := presentation } := by
    split_ifs
    · exact ⟨_, _, rfl⟩
    · exact ⟨_, _, rfl⟩
  obtain ⟨outOfSequence, presentation, noted⟩ := noted
  rw [noted]
  have flagged := pending.flags queue.reportedLostFrame outOfSequence presentation
  split_ifs with all unsupported
  · exact ⟨flagged, ⟨_, _, _, _, _, _, rfl⟩, Nat.le_refl _,
      fun _ i below => flagged.all_received all below⟩
  · exact ⟨flagged, ⟨_, _, _, _, _, _, rfl⟩, Nat.le_refl _,
        fun failed => absurd failed (by simp)⟩
  · cases reed_solomon_new queue.bufferDataPackets queue.bufferParityPackets with
    | none => exact ⟨flagged, ⟨_, _, _, _, _, _, rfl⟩, Nat.le_refl _,
        fun failed => absurd failed (by simp)⟩
    | some rs =>
        have padded := flagged.padded settings.receiveSize
        have same_length : (queue.pendingFecBlockList.map
            (padEntry settings.receiveSize)).length = queue.pendingFecBlockList.length :=
          List.length_map _
        cases allocated with
        | none => exact ⟨padded, ⟨_, _, _, _, _, _, rfl⟩, same_length.ge,
        fun failed => absurd failed (by simp)⟩
        | some allocated =>
            dsimp only
            split_ifs
            · exact ⟨padded, ⟨_, _, _, _, _, _, rfl⟩, same_length.ge,
        fun failed => absurd failed (by simp)⟩
            · obtain ⟨taken_pending, updated, more, present⟩ := padded.takeAll (Nat.le_refl _)
              refine ⟨taken_pending,
                Updated.trans ⟨_, _, _, _, _, _, rfl⟩ updated, same_length.ge.trans more.length_le,
                fun succeeded i below => ?_⟩
              by_cases marked : marksOf { queue with
                  receivedOosData := outOfSequence
                  lastOosFramePresentationTimestamp := presentation } i = true
              · exact present succeeded i below marked
              · have there := (marksOf_iff _ (by omega)).mp (Bool.eq_false_of_not_eq_true marked)
                obtain ⟨entry, member, number⟩ := there
                refine updated.present more.subset ⟨padEntry settings.receiveSize entry,
                  List.mem_map_of_mem member, ?_⟩
                have same := (padEntry_key settings.receiveSize
                  (flagged.entries entry member).long).1
                exact (congrArg (fun k => k.2.2.1) same).trans number

theorem reconstructFrame_short {allocated : Option (ℕ → Packet)}
    (short : queue.pendingFecBlockList.length < queue.bufferDataPackets) :
    VideoQueue.reconstructFrame settings queue allocated = (false, predictLoss queue) :=
  if_pos short

theorem reconstructFrame_long {allocated : Option (ℕ → Packet)}
    (long : ¬ queue.pendingFecBlockList.length < queue.bufferDataPackets) :
    (VideoQueue.reconstructFrame settings queue allocated).2.2 = [] := by
  unfold VideoQueue.reconstructFrame
  rw [if_neg long]
  dsimp only
  generalize (if queue.reportedLostFrame ∧ queue.receivedOosData = false then { queue with
    receivedOosData := true
    lastOosFramePresentationTimestamp :=
      (queue.pendingFecBlockList.map Entry.presentationTimeMs).headD 0 } else queue) = noted
  split_ifs
  · rfl
  · rfl
  · cases reed_solomon_new noted.bufferDataPackets noted.bufferParityPackets with
    | none => rfl
    | some rs =>
        cases allocated with
        | none => rfl
        | some allocated =>
            dsimp only
            split_ifs
            · rfl
            · rfl

theorem reconstructFrame_outputs (queue : RtpVideoQueue) (allocated : Option (ℕ → Packet)) :
    ∀ output ∈ (VideoQueue.reconstructFrame settings queue allocated).2.2,
      output = .notifyFrameLost queue.currentFrameNumber true := by
  by_cases short : queue.pendingFecBlockList.length < queue.bufferDataPackets
  · rw [reconstructFrame_short short]
    unfold predictLoss
    split_ifs
    · exact fun output member => List.mem_singleton.mp member
    · exact fun output none => absurd none List.not_mem_nil
  · rw [reconstructFrame_long short]
    exact fun output none => absurd none List.not_mem_nil

end Reconstruct

section Stage

theorem scanPending_found {next lowest : UInt16} {entries : List Entry}
    (distinct : (entries.map Entry.number).Nodup)
    (wanted : ∃ entry ∈ entries, entry.isParity = false ∧ entry.number = next) :
    ∃ found rest, scanPending next lowest entries = (rest, .inr found) ∧
      found ∈ entries ∧ found.isParity = false ∧ found.number = next ∧
      rest.Sublist entries ∧
      (∀ entry ∈ entries, entry.isParity = false → entry.number ≠ next → entry ∈ rest) ∧
      ∀ entry ∈ rest, entry.isParity = false → entry.number ≠ next := by
  induction entries generalizing lowest with
  | nil =>
      obtain ⟨entry, none, -⟩ := wanted
      exact absurd none List.not_mem_nil
  | cons first entries ih =>
      rw [List.map_cons, List.nodup_cons] at distinct
      rw [scanPending]
      split_ifs with parity here lower
      · obtain ⟨entry, member, data, number⟩ := wanted
        have elsewhere : entry ∈ entries := by
          rcases List.mem_cons.mp member with rfl | later
          · rw [parity] at data
            cases data
          · exact later
        obtain ⟨found, rest, scanned, inside, found_data, found_number, sublist, kept, others⟩ :=
          @ih lowest distinct.2 ⟨entry, elsewhere, data, number⟩
        refine ⟨found, rest, scanned, List.mem_cons_of_mem _ inside, found_data, found_number,
          sublist.cons first, fun other other_member other_data => ?_, others⟩
        rcases List.mem_cons.mp other_member with rfl | later
        · rw [parity] at other_data
          cases other_data
        · exact kept other later other_data
      · refine ⟨first, entries, rfl, List.mem_cons_self, Bool.eq_false_of_not_eq_true parity, here,
          List.sublist_cons_self first entries, ?_, ?_⟩
        · intro other member _ differs
          rcases List.mem_cons.mp member with rfl | later
          · exact absurd here differs
          · exact later
        · intro other member _ same
          exact distinct.1 (List.mem_map.mpr ⟨other, member, same.trans here.symm⟩)
      all_goals
        obtain ⟨entry, member, data, number⟩ := wanted
        have elsewhere : entry ∈ entries := by
          rcases List.mem_cons.mp member with rfl | later
          · exact absurd number here
          · exact later
        obtain ⟨found, rest, scanned, inside, found_data, found_number, sublist, kept, others⟩ :=
          ih distinct.2 ⟨entry, elsewhere, data, number⟩
        rw [scanned]
        refine ⟨found, first :: rest, rfl, List.mem_cons_of_mem _ inside, found_data,
          found_number, sublist.cons_cons first, ?_, ?_⟩
        · intro other other_member other_data differs
          rcases List.mem_cons.mp other_member with rfl | later
          · exact List.mem_cons_self
          · exact List.mem_cons_of_mem _ (kept other later other_data differs)
        · intro other other_member other_data
          rcases List.mem_cons.mp other_member with rfl | later
          · exact here
          · exact others other later other_data

theorem scanPending_parity {next lowest : UInt16} {entries : List Entry}
    (parity : ∀ entry ∈ entries, entry.isParity = true) :
    scanPending next lowest entries = ([], .inl lowest) := by
  induction entries with
  | nil => rfl
  | cons first entries ih =>
      rw [List.forall_mem_cons] at parity
      rw [scanPending, if_pos parity.1]
      exact ih parity.2

/-- Without data packets only parity is left, and it is dropped. -/
theorem stagePending_parity (receiveTimeMs : UInt64) (fuel : ℕ) (next : UInt16)
    {pending : List Entry} (completed : List Entry)
    (parity : ∀ entry ∈ pending, entry.isParity = true) :
    stagePending receiveTimeMs (fuel + 2) next pending completed = ([], completed) := by
  cases pending with
  | nil => rfl
  | cons entry rest =>
      rw [stagePending, scanPending_parity parity]
      rfl

/-- From a block that is complete, the data packets are moved in the order of their numbers. -/
theorem stagePending_spec (receiveTimeMs : UInt64) (lowest : UInt16) {m k fuel : ℕ}
    {pending completed : List Entry} (distinct : (pending.map Entry.number).Nodup)
    (data : ∀ entry ∈ pending, entry.isParity = false →
      ∃ i, k ≤ i ∧ i < k + m ∧ entry.number = lowest + UInt16.ofNat i)
    (all : ∀ i, k ≤ i → i < k + m →
      ∃ entry ∈ pending, entry.isParity = false ∧ entry.number = lowest + UInt16.ofNat i)
    (few : k + m < 65536) (enough : m + 2 ≤ fuel) :
    ∃ moved, stagePending receiveTimeMs fuel (lowest + UInt16.ofNat k) pending completed =
        ([], completed ++ moved) ∧
      moved.map Entry.number = (List.range m).map (fun i => lowest + UInt16.ofNat (k + i)) ∧
      ∀ entry ∈ moved, ∃ old ∈ pending, old.isParity = false ∧
        entry = { old with receiveTimeMs := receiveTimeMs } := by
  induction m generalizing k fuel pending completed with
  | zero =>
      obtain ⟨fuel, rfl⟩ := Nat.exists_eq_add_of_le' enough
      refine ⟨[], ?_, rfl, fun entry none => absurd none List.not_mem_nil⟩
      rw [List.append_nil]
      refine stagePending_parity receiveTimeMs fuel _ completed fun entry member => ?_
      by_contra not_parity
      obtain ⟨i, low, high, -⟩ := data entry member (Bool.eq_false_of_not_eq_true not_parity)
      omega
  | succ m ih =>
      obtain ⟨fuel, rfl⟩ := Nat.exists_eq_add_of_le' (Nat.le_trans (Nat.le_add_left 1 _) enough)
      have wanted := all k (Nat.le_refl k) (by omega)
      obtain ⟨first, others, rfl⟩ : ∃ first others, pending = first :: others := by
        obtain ⟨entry, member, -⟩ := wanted
        exact List.exists_cons_of_ne_nil (List.ne_nil_of_mem member)
      obtain ⟨found, rest, scanned, inside, found_data, found_number, sublist, kept, apart⟩ :=
        @scanPending_found _ first.number _ distinct wanted
      have next : lowest + UInt16.ofNat k + 1 = lowest + UInt16.ofNat (k + 1) := by
        rw [UInt16.ofNat_add, ← UInt16.add_assoc]
        rfl
      obtain ⟨moved, staged, numbers, origin⟩ := @ih (k + 1) fuel rest
        (completed ++ [{ found with receiveTimeMs := receiveTimeMs }])
        (distinct.sublist (sublist.map Entry.number)) (by
          intro entry member not_parity
          obtain ⟨i, low, high, number⟩ := data entry (sublist.subset member) not_parity
          refine ⟨i, ?_, by omega, number⟩
          rcases Nat.eq_or_lt_of_le low with rfl | later
          · exact absurd number (apart entry member not_parity)
          · exact later) (by
          intro i low high
          obtain ⟨entry, member, not_parity, number⟩ := all i (by omega) (by omega)
          refine ⟨entry, kept entry member not_parity ?_, not_parity, number⟩
          rw [number]
          intro same
          have distance := congrArg (offset lowest) same
          rw [offset_add_ofNat lowest (by omega), offset_add_ofNat lowest (by omega)] at distance
          omega) (by omega) (by omega)
      refine ⟨{ found with receiveTimeMs := receiveTimeMs } :: moved, ?_, ?_, ?_⟩
      · rw [stagePending, scanned]
        dsimp only
        rw [next, staged, List.append_assoc, List.singleton_append]
      · rw [List.map_cons, numbers, List.range_succ_eq_map, List.map_cons, List.map_map]
        refine congrArg₂ _ found_number (List.map_congr_left fun i _ => ?_)
        exact congrArg (fun n => lowest + UInt16.ofNat n) (by omega)
      · rw [List.forall_mem_cons]
        refine ⟨⟨found, inside, found_data, rfl⟩, fun entry member => ?_⟩
        obtain ⟨old, old_member, not_parity, same⟩ := origin entry member
        exact ⟨old, sublist.subset old_member, not_parity, same⟩

end Stage

section Frames

/-- Where a block begins, and how many data packets it has. -/
abbrev Extent : Type := UInt16 × ℕ

/-- The data packets of a block, in order. -/
def blockKeys (frame : UInt32) (block : UInt8) (extent : Extent) :
    List (UInt32 × UInt8 × UInt16 × Bool) :=
  (List.range extent.2).map fun i => (frame, block, extent.1 + UInt16.ofNat i, false)

/-- The data packets of consecutive blocks of a frame, from a block on. -/
def frameKeys (frame : UInt32) : ℕ → List Extent → List (UInt32 × UInt8 × UInt16 × Bool)
  | _, [] => []
  | block, extent :: rest =>
    blockKeys frame (UInt8.ofNat block) extent ++ frameKeys frame (block + 1) rest

theorem frameKeys_append (frame : UInt32) (block : ℕ) (extents : List Extent) (extent : Extent) :
    frameKeys frame block (extents ++ [extent]) = frameKeys frame block extents ++
      blockKeys frame (UInt8.ofNat (block + extents.length)) extent := by
  induction extents generalizing block with
  | nil => simp [frameKeys]
  | cons first rest ih =>
      rw [List.cons_append, frameKeys, frameKeys, ih, List.append_assoc, List.length_cons]
      congr 4
      omega

/-- Every block of a frame was announced. -/
def Announced (announced : UInt32 → UInt8 → Extent → Prop) (frame : UInt32)
    (extents : List Extent) : Prop :=
  ∀ i extent, extents[i]? = some extent → announced frame (UInt8.ofNat i) extent

theorem Announced.append {announced : UInt32 → UInt8 → Extent → Prop} {frame : UInt32}
    {extents : List Extent} (all : Announced announced frame extents) {extent : Extent}
    (last : announced frame (UInt8.ofNat extents.length) extent) :
    Announced announced frame (extents ++ [extent]) := by
  intro i other found
  rcases Nat.lt_trichotomy i extents.length with before | rfl | after
  · rw [List.getElem?_append_left before] at found
    exact all i other found
  · rw [List.getElem?_concat_length] at found
    cases found
    exact last
  · rw [List.getElem?_eq_none (by simp; omega)] at found
    cases found

/-- A whole frame: the data packets of its blocks from the first on, all in order. -/
def Whole (announced : UInt32 → UInt8 → Extent → Prop) (entries : List Entry) : Prop :=
  ∃ frame extents, extents ≠ [] ∧ Announced announced frame extents ∧
    entries.map key = frameKeys frame 0 extents

/-- The blocks of the current frame that are complete. -/
def Completed (announced : UInt32 → UInt8 → Extent → Prop) (queue : RtpVideoQueue) : Prop :=
  ∃ extents, extents.length = queue.multiFecCurrentBlockNumber.toNat ∧
    Announced announced queue.currentFrameNumber extents ∧
    queue.completedFecBlockList.map key = frameKeys queue.currentFrameNumber 0 extents

/-- The open block was announced. -/
def Opened (announced : UInt32 → UInt8 → Extent → Prop) (queue : RtpVideoQueue) : Prop :=
  announced queue.currentFrameNumber queue.multiFecCurrentBlockNumber
    (queue.bufferLowestSequenceNumber, queue.bufferDataPackets)

/-- What holds between two packets. -/
structure Collected (announced : UInt32 → UInt8 → Extent → Prop) (queue : RtpVideoQueue) :
    Prop where
  pending : queue.pendingFecBlockList = [] ∨ Pending queue ∧ Opened announced queue
  completed : Completed announced queue

/-- The packets that go to the depacketizer. -/
def submitted (outputs : List Output) : List Entry :=
  outputs.filterMap fun
    | .queueRtpPacket entry => some entry
    | _ => none

variable {announced : UInt32 → UInt8 → Extent → Prop} {settings : Settings}
  {queue : RtpVideoQueue}

theorem submitted_map (entries : List Entry) :
    submitted (entries.map Output.queueRtpPacket) = entries := by
  unfold submitted
  rw [List.filterMap_map]
  exact List.filterMap_some

theorem Pending.stage (pending : Pending queue)
    (all : ∀ i < queue.bufferDataPackets, Present queue i) :
    (stageCompleteFecBlock queue).pendingFecBlockList = [] ∧
      (stageCompleteFecBlock queue).completedFecBlockList.map key =
        queue.completedFecBlockList.map key ++
          blockKeys queue.currentFrameNumber queue.multiFecCurrentBlockNumber
            (queue.bufferLowestSequenceNumber, queue.bufferDataPackets) := by
  have few := pending.geometry.few
  have position : ∀ i < queue.bufferDataPackets, offset queue.bufferLowestSequenceNumber
      (queue.bufferLowestSequenceNumber + UInt16.ofNat i) = i :=
    fun i below => offset_add_ofNat _ (by omega)
  obtain ⟨moved, staged, numbers, origin⟩ := @stagePending_spec queue.bufferFirstRecvTimeMs
    queue.bufferLowestSequenceNumber queue.bufferDataPackets 0
    (2 * queue.pendingFecBlockList.length + 2) queue.pendingFecBlockList
    queue.completedFecBlockList pending.distinct (by
      intro entry member data
      refine ⟨_, Nat.zero_le _, ?_, eq_add_offset queue.bufferLowestSequenceNumber entry.number⟩
      rw [Nat.zero_add]
      by_contra beyond
      rw [(pending.entries entry member).parity.mpr (Nat.le_of_not_lt beyond)] at data
      cases data) (by
      intro i _ below
      rw [Nat.zero_add] at below
      obtain ⟨entry, member, number⟩ := all i below
      refine ⟨entry, member, Bool.eq_false_of_not_eq_true fun parity => ?_, number⟩
      have beyond := (pending.entries entry member).parity.mp parity
      rw [number, position i below] at beyond
      omega) (by omega) (by
      have places : queue.bufferDataPackets ≤ queue.pendingFecBlockList.length := by
        have subset : List.range queue.bufferDataPackets ⊆
            queue.pendingFecBlockList.map (place queue) := by
          intro i below
          obtain ⟨entry, member, number⟩ := all i (List.mem_range.mp below)
          refine List.mem_map.mpr ⟨entry, member, ?_⟩
          have below := List.mem_range.mp below
          exact (place_eq_iff queue entry (by omega)).mpr number
        have bound := (List.subperm_of_subset List.nodup_range subset).length_le
        rwa [List.length_range, List.length_map] at bound
      omega)
  have zero : queue.bufferLowestSequenceNumber + UInt16.ofNat 0 =
      queue.bufferLowestSequenceNumber := UInt16.add_zero _
  rw [zero] at staged
  unfold stageCompleteFecBlock
  dsimp only
  rw [staged]
  refine ⟨rfl, ?_⟩
  rw [List.map_append]
  refine congrArg _ ?_
  have keys : moved.map key = moved.map fun entry => (queue.currentFrameNumber,
      queue.multiFecCurrentBlockNumber, entry.number, false) := by
    refine List.map_congr_left fun entry member => ?_
    obtain ⟨old, old_member, data, rfl⟩ := origin entry member
    have own := pending.entries old old_member
    exact Prod.ext own.frame (Prod.ext own.block (Prod.ext rfl data))
  calc moved.map key = (moved.map Entry.number).map fun number => (queue.currentFrameNumber,
        queue.multiFecCurrentBlockNumber, number, false) := by
        rw [keys, List.map_map]
        rfl
    _ = _ := by
        rw [numbers, List.map_map]
        refine List.map_congr_left fun i _ => ?_
        simp only [Function.comp_apply, Nat.zero_add]

theorem Pending.finishBlock (pending : Pending queue)
    (all : ∀ i < queue.bufferDataPackets, Present queue i) (opened : Opened announced queue)
    (completed : Completed announced queue) :
    Collected announced (VideoQueue.finishBlock queue).1 ∧
      (submitted (VideoQueue.finishBlock queue).2 = [] ∨
        Whole announced (submitted (VideoQueue.finishBlock queue).2)) := by
  obtain ⟨empty, keys⟩ := pending.stage all
  obtain ⟨extents, count, announcements, layout⟩ := completed
  have current := UInt8.le_iff_toNat_le.mp pending.current
  have block : UInt8.ofNat extents.length = queue.multiFecCurrentBlockNumber := by
    rw [count, UInt8.ofNat_toNat]
  have more : Announced announced queue.currentFrameNumber
      (extents ++ [(queue.bufferLowestSequenceNumber, queue.bufferDataPackets)]) :=
    announcements.append (block ▸ opened)
  rw [layout, ← block, ← Nat.zero_add extents.length, ← frameKeys_append] at keys
  unfold VideoQueue.finishBlock
  dsimp only
  split_ifs with another
  · refine ⟨⟨Or.inl empty, _, ?_, more, keys⟩, Or.inl rfl⟩
    change _ = (queue.multiFecCurrentBlockNumber + 1).toNat
    rw [List.length_append, count, UInt8.toNat_add]
    change _ + 1 = (_ + 1) % 256
    have three : (3 : UInt8).toNat = 3 := rfl
    omega
  · refine ⟨⟨Or.inl empty, [], rfl, fun i extent none => absurd none (by simp), rfl⟩,
      Or.inr ⟨queue.currentFrameNumber, _, by simp, more, ?_⟩⟩
    unfold submitCompletedFrame
    dsimp only
    rw [submitted_map]
    exact keys

end Frames

section Adding

variable {announced : UInt32 → UInt8 → Extent → Prop} {settings : Settings}
  {queue : RtpVideoQueue} {packet : Packet}

theorem fecDataPackets_lt (packet : Packet) : fecDataPackets packet < 1024 := by
  have bound := (fecInfo packet &&& 0xFFC00000).toNat_lt
  unfold fecDataPackets
  rw [UInt32.toNat_shiftRight, Nat.shiftRight_eq_div_pow]
  change _ / 4194304 < 1024
  omega

theorem fecPercentage_lt (packet : Packet) : fecPercentage packet < 256 := by
  have bound : (fecInfo packet &&& 0xFF0).toNat ≤ 0xFF0 := by
    rw [UInt32.toNat_and]
    exact Nat.and_le_right
  unfold fecPercentage
  rw [UInt32.toNat_shiftRight, Nat.shiftRight_eq_div_pow]
  change _ / 16 < 256
  omega

theorem fecIndex_lt (packet : Packet) : (fecIndex packet).toNat < 1024 := by
  have bound : (fecInfo packet &&& 0x3FF000).toNat ≤ 0x3FF000 := by
    rw [UInt32.toNat_and]
    exact Nat.and_le_right
  unfold fecIndex
  rw [UInt32.toNat_shiftRight, Nat.shiftRight_eq_div_pow]
  change _ / 4096 < 1024
  omega

theorem two_bits (byte : UInt8) : byte &&& 3 ≤ 3 := by
  rw [UInt8.le_iff_toNat_le, UInt8.toNat_and]
  exact Nat.and_le_right

/-- What a packet says of its block. -/
def extent (packet : Packet) : Extent :=
  (sequenceNumber packet - (fecIndex packet).toUInt16, fecDataPackets packet)

theorem beginBlock_pending (queue : RtpVideoQueue) (packet : Packet) (now : UInt64) :
    Pending (beginBlock queue packet now).1 ∧
      offset (beginBlock queue packet now).1.bufferLowestSequenceNumber (sequenceNumber packet) ≤
        32767 := by
  have data := fecDataPackets_lt packet
  have percentage := fecPercentage_lt packet
  have index := fecIndex_lt packet
  have product : fecDataPackets packet * fecPercentage packet ≤ 1023 * 255 :=
    Nat.mul_le_mul (by omega) (by omega)
  unfold beginBlock
  dsimp only
  refine ⟨⟨⟨?_, rfl, rfl, ?_⟩, two_bits _, two_bits _, fun entry none => absurd none
    List.not_mem_nil, List.nodup_nil, fun _ entry none => absurd none List.not_mem_nil,
    Nat.zero_le _⟩, ?_⟩
  · dsimp only
    omega
  · exact (offset_self _).trans_le (Nat.zero_le _)
  · have distance : offset (sequenceNumber packet - (fecIndex packet).toUInt16)
        (sequenceNumber packet) = (fecIndex packet).toUInt16.toNat := by
      have bounds := And.intro (sequenceNumber packet).toNat_lt (fecIndex packet).toUInt16.toNat_lt
      rw [offset, UInt16.toNat_sub, UInt16.toNat_sub]
      omega
    rw [distance, UInt32.toNat_toUInt16]
    omega

/-- A frame that is given up leaves nothing. -/
theorem skipFrame_collected (queue : RtpVideoQueue) (next : UInt32) :
    Collected announced (skipFrame queue next).1 ∧ submitted (skipFrame queue next).2 = [] := by
  unfold skipFrame reportLoss
  dsimp only
  split_ifs
  · exact ⟨⟨Or.inl rfl, [], rfl, fun i extent none => absurd none (by simp), rfl⟩, rfl⟩
  · exact ⟨⟨Or.inl rfl, [], rfl, fun i extent none => absurd none (by simp), rfl⟩, rfl⟩

theorem skipFrame_capable (queue : RtpVideoQueue) (next : UInt32) :
    (skipFrame queue next).1.multiFecCapable = queue.multiFecCapable := by
  unfold skipFrame reportLoss
  dsimp only
  split_ifs <;> rfl

theorem Collected.openBlock (collected : Collected announced queue) (now : UInt64)
    (not_behind : isBefore16 (sequenceNumber packet) queue.nextContiguousSequenceNumber = false)
    (announces : announced (frameIndex packet) (fecCurrentBlockNumber packet) (extent packet)) :
    let result := VideoQueue.openBlock queue packet now
    submitted result.2.2 = [] ∧ result.2.1.multiFecCapable = queue.multiFecCapable ∧
      (result.1 = false → Collected announced result.2.1) ∧
      (result.1 = true → Pending result.2.1 ∧ Opened announced result.2.1 ∧
        Completed announced result.2.1 ∧
        frameIndex packet = result.2.1.currentFrameNumber ∧
        fecCurrentBlockNumber packet = result.2.1.multiFecCurrentBlockNumber ∧
        offset result.2.1.bufferLowestSequenceNumber (sequenceNumber packet) ≤ 32767 +
          (result.2.1.bufferDataPackets + result.2.1.bufferParityPackets)) := by
  intro result
  unfold result VideoQueue.openBlock
  dsimp only
  by_cases fresh : queue.pendingFecBlockList = [] ∨
      queue.currentFrameNumber ≠ frameIndex packet ∨
      queue.multiFecCurrentBlockNumber ≠ fecCurrentBlockNumber packet
  swap
  · rw [if_neg fresh]
    push Not at fresh
    obtain ⟨some_pending, frame, block⟩ := fresh
    obtain ⟨pending, opened⟩ := collected.pending.resolve_left some_pending
    exact ⟨rfl, rfl, fun refused => absurd refused (by simp), fun _ => ⟨pending, opened,
      collected.completed, frame.symm, block.symm, pending.geometry.near not_behind⟩⟩
  rw [if_pos fresh]
  by_cases broken : queue.pendingFecBlockList ≠ [] ∧ queue.multiFecLastBlockNumber ≠ 0 ∧
      queue.currentFrameNumber = frameIndex packet
  · rw [if_pos broken]
    obtain ⟨skipped, silent⟩ := @skipFrame_collected announced queue (queue.currentFrameNumber + 1)
    exact ⟨silent, skipFrame_capable queue _, fun _ => skipped,
      fun taken => absurd taken (by simp)⟩
  rw [if_neg broken]
  by_cases mismatch : fecCurrentBlockNumber packet ≠
      if queue.currentFrameNumber = frameIndex packet then queue.multiFecCurrentBlockNumber else 0
  · rw [if_pos mismatch]
    obtain ⟨skipped, silent⟩ := @skipFrame_collected announced queue (frameIndex packet + 1)
    exact ⟨silent, skipFrame_capable queue _, fun _ => skipped,
      fun taken => absurd taken (by simp)⟩
  rw [if_neg mismatch]
  have expected := not_not.mp mismatch
  obtain ⟨pending, near⟩ := beginBlock_pending queue packet now
  refine ⟨?_, rfl, fun refused => absurd refused (by simp), fun _ => ⟨pending, announces, ?_, rfl,
    rfl, Nat.le_add_right_of_le near⟩⟩
  · unfold beginBlock
    dsimp only
    split_ifs
    · rfl
    · rfl
  · unfold Completed beginBlock
    dsimp only
    by_cases same : queue.currentFrameNumber = frameIndex packet
    · rw [if_neg (not_not.mpr same)]
      rw [if_pos same] at expected
      rw [expected, ← same]
      exact collected.completed
    · rw [if_pos same]
      rw [if_neg same] at expected
      rw [expected]
      exact ⟨[], rfl, fun i extent none => absurd none (by simp), rfl⟩

theorem finishBlock_capable (queue : RtpVideoQueue) :
    (VideoQueue.finishBlock queue).1.multiFecCapable = queue.multiFecCapable := by
  unfold VideoQueue.finishBlock
  dsimp only
  split_ifs <;> rfl

theorem countPacket_fields (queue : RtpVideoQueue) (number : UInt16) :
    ∃ missing highest data parity, countPacket queue number = { queue with
      missingPackets := missing
      receivedHighestSequenceNumber := highest
      receivedDataPackets := data
      receivedParityPackets := parity } ∧
      data = if isBefore16 number queue.bufferFirstParitySequenceNumber then
        queue.receivedDataPackets + 1 else queue.receivedDataPackets := by
  unfold countPacket
  dsimp only
  split_ifs
  all_goals exact ⟨_, _, _, _, rfl, rfl⟩

/-- A packet of the open block is queued and counted. -/
theorem Pending.receive (pending : Pending queue) {length : ℕ}
    (long : dataOffset packet + 16 ≤ length) (frame : frameIndex packet = queue.currentFrameNumber)
    (block : fecCurrentBlockNumber packet = queue.multiFecCurrentBlockNumber)
    (inside : offset queue.bufferLowestSequenceNumber (sequenceNumber packet) <
      queue.bufferDataPackets + queue.bufferParityPackets) {queued : RtpVideoQueue}
    (accepted : VideoQueue.queuePacket queue packet length
      (!isBefore16 (sequenceNumber packet) queue.bufferFirstParitySequenceNumber) false =
        some queued) :
    Pending (countPacket queued (sequenceNumber packet)) ∧ Updated queue queued ∧
      queued.pendingFecBlockList = queue.pendingFecBlockList ++ [newEntry packet length
        (!isBefore16 (sequenceNumber packet) queue.bufferFirstParitySequenceNumber)] := by
  have data_iff := pending.geometry.isParity inside
  have own : OfBlock queue (newEntry packet length
      (!isBefore16 (sequenceNumber packet) queue.bufferFirstParitySequenceNumber)) := by
    refine ⟨inside, ?_, long, frame, block⟩
    change (!isBefore16 _ _) = true ↔
      _ ≤ offset queue.bufferLowestSequenceNumber (sequenceNumber packet)
    rw [Bool.not_eq_true', ← Bool.not_eq_true, data_iff, Nat.not_lt]
  obtain ⟨queued_pending, updated, appended⟩ := pending.queuePacket own accepted
  refine ⟨?_, updated, appended⟩
  obtain ⟨missing, highest, data, parity, counted, data_eq⟩ :=
    countPacket_fields queued (sequenceNumber packet)
  have enough : data ≤ (queued.pendingFecBlockList.filter
      fun entry => !entry.isParity).length := by
    rw [data_eq, appended, List.filter_append, List.length_append]
    have before := pending.counted
    obtain ⟨_, _, _, _, _, _, rfl⟩ := updated
    dsimp only
    split_ifs with is_data
    · have one : ([newEntry packet length (!isBefore16 (sequenceNumber packet)
          queue.bufferFirstParitySequenceNumber)].filter
            fun entry => !entry.isParity).length = 1 := by
        rw [is_data]
        rfl
      omega
    · omega
  rw [counted]
  obtain ⟨⟨few, parity_first, last, next⟩, current, last_block, entries, distinct, fast, -⟩ :=
    queued_pending
  refine ⟨⟨few, parity_first, last, next⟩, current, last_block, ?_, distinct, fast, enough⟩
  intro entry member
  obtain ⟨entry_inside, entry_parity, entry_long, entry_frame, entry_block⟩ :=
    entries entry member
  exact ⟨entry_inside, entry_parity, entry_long, entry_frame, entry_block⟩

theorem Collected.takePacket (pending : Pending queue) (opened : Opened announced queue)
    (completed : Completed announced queue) {length : ℕ}
    (long : dataOffset packet + 16 ≤ length) (frame : frameIndex packet = queue.currentFrameNumber)
    (block : fecCurrentBlockNumber packet = queue.multiFecCurrentBlockNumber)
    (near : offset queue.bufferLowestSequenceNumber (sequenceNumber packet) ≤ 32767 +
      (queue.bufferDataPackets + queue.bufferParityPackets))
    (allocated : Option (ℕ → Packet)) :
    let result := VideoQueue.takePacket settings queue packet length allocated
    Collected announced result.1 ∧ result.1.multiFecCapable = queue.multiFecCapable ∧
      (submitted result.2 = [] ∨ Whole announced (submitted result.2)) := by
  intro result
  unfold result VideoQueue.takePacket
  dsimp only
  split_ifs with beyond
  · exact ⟨⟨Or.inr ⟨pending, opened⟩, completed⟩, rfl, Or.inl rfl⟩
  have inside := pending.geometry.inside near (Bool.eq_false_of_not_eq_true beyond)
  cases queued : VideoQueue.queuePacket queue packet length
      (!isBefore16 (sequenceNumber packet) queue.bufferFirstParitySequenceNumber) false with
  | none => exact ⟨⟨Or.inr ⟨pending, opened⟩, completed⟩, rfl, Or.inl rfl⟩
  | some queued_queue =>
      obtain ⟨counted_pending, updated, -⟩ := pending.receive long frame block inside queued
      obtain ⟨missing, highest, data, parity, counted, -⟩ :=
        countPacket_fields queued_queue (sequenceNumber packet)
      have same : Opened announced (countPacket queued_queue (sequenceNumber packet)) ∧
          Completed announced (countPacket queued_queue (sequenceNumber packet)) ∧
          (countPacket queued_queue (sequenceNumber packet)).multiFecCapable =
            queue.multiFecCapable := by
        rw [counted]
        obtain ⟨_, _, _, _, _, _, rfl⟩ := updated
        exact ⟨opened, completed, rfl⟩
      obtain ⟨counted_opened, counted_completed, counted_capable⟩ := same
      obtain ⟨rebuilt_pending, rebuilt, -, present⟩ :=
        @Pending.reconstructFrame settings _ counted_pending allocated
      have silent := @reconstructFrame_outputs settings
        (countPacket queued_queue (sequenceNumber packet)) allocated
      dsimp only
      generalize countPacket queued_queue (sequenceNumber packet) = ready at *
      generalize VideoQueue.reconstructFrame settings ready allocated = reconstructed at *
      obtain ⟨complete, rebuilt_queue, outputs⟩ := reconstructed
      have nothing : submitted outputs = [] := by
        unfold submitted
        rw [List.filterMap_eq_nil_iff]
        intro output member
        rw [silent output member]
      dsimp only at rebuilt_pending rebuilt present
      have same : Opened announced rebuilt_queue ∧ Completed announced rebuilt_queue ∧
          rebuilt_queue.multiFecCapable = queue.multiFecCapable := by
        obtain ⟨_, _, _, _, _, _, rfl⟩ := rebuilt
        exact ⟨counted_opened, counted_completed, counted_capable⟩
      obtain ⟨rebuilt_opened, rebuilt_completed, rebuilt_capable⟩ := same
      cases complete with
      | false =>
          exact ⟨⟨Or.inr ⟨rebuilt_pending, rebuilt_opened⟩, rebuilt_completed⟩, rebuilt_capable,
            Or.inl nothing⟩
      | true =>
          have all : ∀ i < rebuilt_queue.bufferDataPackets, Present rebuilt_queue i := by
            intro i below
            refine present rfl i ?_
            obtain ⟨_, _, _, _, _, _, rfl⟩ := rebuilt
            exact below
          obtain ⟨collected, whole⟩ :=
            rebuilt_pending.finishBlock all rebuilt_opened rebuilt_completed
          have joined : submitted (outputs ++ (VideoQueue.finishBlock rebuilt_queue).2) =
              submitted (VideoQueue.finishBlock rebuilt_queue).2 := by
            unfold submitted at nothing ⊢
            rw [List.filterMap_append, nothing, List.nil_append]
          dsimp only
          rw [joined]
          exact ⟨collected, (finishBlock_capable rebuilt_queue).trans rebuilt_capable, whole⟩

theorem swap32_other {offset byte : ℕ} (packet : Packet)
    (outside : byte < offset ∨ offset + 4 ≤ byte) : swap32 packet offset byte = packet byte :=
  write32_other outside

theorem hostOrder_low (multiFecCapable : Bool) (packet : Packet) {byte : ℕ} (low : byte < 12) :
    hostOrder multiFecCapable packet byte = packet byte := by
  have bounds := dataOffset_bounds packet
  have swapped : swap32 (swap32 (swap32 packet (dataOffset packet)) (dataOffset packet + 4))
      (dataOffset packet + 12) byte = packet byte := by
    rw [swap32_other _ (Or.inl (by omega)), swap32_other _ (Or.inl (by omega)),
      swap32_other _ (Or.inl (by omega))]
  unfold hostOrder
  split_ifs
  · exact swapped
  · rw [Function.update_of_ne (by omega), Function.update_of_ne (by omega)]
    exact swapped

theorem hostOrder_number (multiFecCapable : Bool) (packet : Packet) :
    sequenceNumber (hostOrder multiFecCapable packet) = sequenceNumber packet :=
  read16_congr fun _ _ _ => hostOrder_low multiFecCapable packet (by omega)

theorem hostOrder_offset (multiFecCapable : Bool) (packet : Packet) :
    dataOffset (hostOrder multiFecCapable packet) = dataOffset packet :=
  dataOffset_congr (hostOrder_low multiFecCapable packet (by decide))

theorem Collected.addPacket (collected : Collected announced queue) (length : ℕ) (now : UInt64)
    (allocated : Option (ℕ → Packet))
    (announces : announced (frameIndex (hostOrder queue.multiFecCapable packet))
      (fecCurrentBlockNumber (hostOrder queue.multiFecCapable packet))
      (extent (hostOrder queue.multiFecCapable packet))) :
    let result := RtpvAddPacket settings queue packet length now allocated
    Collected announced result.1 ∧ result.1.multiFecCapable = queue.multiFecCapable ∧
      (submitted result.2 = [] ∨ Whole announced (submitted result.2)) := by
  intro result
  unfold result RtpvAddPacket
  dsimp only
  split_ifs with behind short old_frame old_block
  · exact ⟨collected, rfl, Or.inl rfl⟩
  · exact ⟨collected, rfl, Or.inl rfl⟩
  · exact ⟨collected, rfl, Or.inl rfl⟩
  · exact ⟨collected, rfl, Or.inl rfl⟩
  have not_behind : isBefore16 (sequenceNumber (hostOrder queue.multiFecCapable packet))
      queue.nextContiguousSequenceNumber = false := by
    rw [hostOrder_number]
    exact Bool.eq_false_of_not_eq_true behind
  have long : dataOffset (hostOrder queue.multiFecCapable packet) + 16 ≤ length := by
    rw [hostOrder_offset]
    exact Nat.le_of_not_lt short
  obtain ⟨silent, capable, refused, taken⟩ := collected.openBlock now not_behind announces
  generalize VideoQueue.openBlock queue (hostOrder queue.multiFecCapable packet) now = opened
    at silent capable refused taken ⊢
  obtain ⟨accepted, open_queue, outputs⟩ := opened
  dsimp only at silent capable refused taken
  cases accepted with
  | false => exact ⟨refused rfl, capable, Or.inl silent⟩
  | true =>
      obtain ⟨pending, announced_block, completed, frame, block, near⟩ := taken rfl
      obtain ⟨after, after_capable, whole⟩ := @Collected.takePacket announced settings open_queue
        _ pending announced_block completed length long frame block near allocated
      have joined : submitted (outputs ++ (VideoQueue.takePacket settings open_queue
          (hostOrder queue.multiFecCapable packet) length allocated).2) =
          submitted (VideoQueue.takePacket settings open_queue
            (hostOrder queue.multiFecCapable packet) length allocated).2 := by
        unfold submitted at silent ⊢
        rw [List.filterMap_append, silent, List.nil_append]
      dsimp only
      rw [joined]
      exact ⟨after, after_capable.trans capable, whole⟩

end Adding

section Runs

variable (settings : Settings) (multiFecCapable : Bool)

/-- Some packet said where the block begins and how many data packets it has. -/
def AnnouncedBy (arrivals : List Arrival) (frame : UInt32) (block : UInt8) (here : Extent) :
    Prop :=
  ∃ arrival ∈ arrivals, frameIndex (hostOrder multiFecCapable arrival.packet) = frame ∧
    fecCurrentBlockNumber (hostOrder multiFecCapable arrival.packet) = block ∧
    extent (hostOrder multiFecCapable arrival.packet) = here

theorem run_append (arrivals : List Arrival) (arrival : Arrival) :
    run settings multiFecCapable (arrivals ++ [arrival]) =
      step settings (run settings multiFecCapable arrivals) arrival := by
  rw [run, List.foldl_append]
  rfl

theorem Whole.mono {announced more : UInt32 → UInt8 → Extent → Prop} {entries : List Entry}
    (weaker : ∀ frame block extent, announced frame block extent → more frame block extent)
    (whole : Whole announced entries) : Whole more entries := by
  obtain ⟨frame, extents, some_block, all, layout⟩ := whole
  exact ⟨frame, extents, some_block, fun i extent found => weaker _ _ _ (all i extent found),
    layout⟩

theorem Collected.mono {announced more : UInt32 → UInt8 → Extent → Prop} {queue : RtpVideoQueue}
    (weaker : ∀ frame block extent, announced frame block extent → more frame block extent)
    (collected : Collected announced queue) : Collected more queue := by
  obtain ⟨extents, count, all, layout⟩ := collected.completed
  exact ⟨collected.pending.imp id fun opened => ⟨opened.1, weaker _ _ _ opened.2⟩, extents, count,
    fun i extent found => weaker _ _ _ (all i extent found), layout⟩

theorem run_collected (arrivals : List Arrival) :
    Collected (AnnouncedBy multiFecCapable arrivals)
        (run settings multiFecCapable arrivals).1 ∧
      (run settings multiFecCapable arrivals).1.multiFecCapable = multiFecCapable ∧
      ∀ outputs ∈ (run settings multiFecCapable arrivals).2, submitted outputs = [] ∨
        Whole (AnnouncedBy multiFecCapable arrivals) (submitted outputs) := by
  induction arrivals using List.reverseRecOn with
  | nil =>
      exact ⟨⟨Or.inl rfl, [], rfl, fun i extent none => absurd none (by simp), rfl⟩, rfl,
        fun outputs none => absurd none List.not_mem_nil⟩
  | append_singleton arrivals arrival ih =>
      obtain ⟨collected, capable, whole⟩ := ih
      have weaker : ∀ frame block extent, AnnouncedBy multiFecCapable arrivals frame block extent →
          AnnouncedBy multiFecCapable (arrivals ++ [arrival]) frame block extent := by
        rintro frame block extent ⟨earlier, member, fields⟩
        exact ⟨earlier, List.mem_append_left _ member, fields⟩
      rw [run_append]
      generalize run settings multiFecCapable arrivals = state at collected capable whole ⊢
      obtain ⟨queue, outputs⟩ := state
      dsimp only at collected capable whole
      subst capable
      obtain ⟨after, same, added⟩ := @Collected.addPacket _ settings queue arrival.packet
        (collected.mono weaker) arrival.length arrival.now arrival.allocated
        ⟨arrival, List.mem_append_right _ List.mem_cons_self, rfl, rfl, rfl⟩
      refine ⟨after, same, fun others member => ?_⟩
      rcases List.mem_append.mp member with before | now
      · exact (whole others before).imp id (Whole.mono weaker)
      · rw [List.mem_singleton.mp now]
        exact added

/-- A packet of frame 1, which has up to three of them and no parity. -/
def framePacket (count index : UInt8) : Packet := fun byte =>
  [0x90, 0, 0, 7 + index, 0, 0, 0, 9, 0, 0, 0, 0, 0, 0, 0, 0, 0, index, 0, 0, 1, 0, 0, 0,
    1, 0, 0x10, 0, 0, 0x10 * index, 0x40 * count, 0].getD byte 0

/-- The second packet comes first, and twice. -/
def reordered : List Arrival :=
  [⟨framePacket 2 1, 40, 3, none⟩, ⟨framePacket 2 1, 40, 4, none⟩,
    ⟨framePacket 2 0, 40, 5, none⟩]

def smallPackets : Settings := ⟨1024, true, by decide⟩

end Runs

end MoonlightWii.Limelight.VideoFrames
