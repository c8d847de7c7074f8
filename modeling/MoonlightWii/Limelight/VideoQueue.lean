import MoonlightWii.Fec.ShardRecovery
import MoonlightWii.Limelight.VideoPacket

/-!
# The video queue

`RtpVideoQueue.c` of the streaming library.  A frame is sent in one or more blocks, each of data
packets and then parity packets.  The queue collects a block in any order, repairs it as soon as
enough of it is there, and passes the data packets on when every block of the frame is complete.
-/

set_option autoImplicit false

namespace MoonlightWii.Limelight.VideoQueue

open RtpNumbers VideoPacket Fec.ByteField Fec.ShardRecovery

def PTS_DIVISOR : UInt32 := 90
def SPECULATIVE_RFI_COOLDOWN_PERIOD_MS : UInt32 := 300000
def MAX_RTP_HEADER_SIZE : ℕ := 16

/-- `RTPV_QUEUE_ENTRY`. -/
structure Entry where
  packet : Packet
  receiveTimeMs : UInt64
  presentationTimeMs : UInt32
  length : ℕ
  isParity : Bool

/-- The number of an entry's packet. -/
def Entry.number (entry : Entry) : UInt16 := sequenceNumber entry.packet

/-- `RTP_VIDEO_QUEUE`. -/
structure RtpVideoQueue where
  pendingFecBlockList : List Entry
  completedFecBlockList : List Entry
  bufferFirstRecvTimeMs : UInt64
  bufferLowestSequenceNumber : UInt16
  bufferHighestSequenceNumber : UInt16
  bufferFirstParitySequenceNumber : UInt16
  bufferDataPackets : ℕ
  bufferParityPackets : ℕ
  receivedDataPackets : ℕ
  receivedParityPackets : ℕ
  receivedHighestSequenceNumber : UInt16
  fecPercentage : ℕ
  nextContiguousSequenceNumber : UInt16
  missingPackets : ℤ
  useFastQueuePath : Bool
  reportedLostFrame : Bool
  currentFrameNumber : UInt32
  multiFecCapable : Bool
  multiFecCurrentBlockNumber : UInt8
  multiFecLastBlockNumber : UInt8
  lastOosFramePresentationTimestamp : UInt32
  receivedOosData : Bool

/-- What the queue tells the depacketizer and the control stream. -/
inductive Output
  | notifyFrameLost (frameNumber : UInt32) (speculative : Bool)
  | connectionSawFrame (frameNumber : UInt32)
  | queueRtpPacket (entry : Entry)

/-- The negotiated size of the packets, which `LiStartConnection` rounds to a positive multiple of
16, and whether the server is of generation 5 or later. -/
structure Settings where
  packetSize : ℕ
  recoverable : Bool
  sized : 16 ≤ packetSize

def Settings.receiveSize (settings : Settings) : ℕ := settings.packetSize + MAX_RTP_HEADER_SIZE

/-- `RtpvInitializeQueue`. -/
def RtpvInitializeQueue (multiFecCapable : Bool) : RtpVideoQueue where
  pendingFecBlockList := []
  completedFecBlockList := []
  bufferFirstRecvTimeMs := 0
  bufferLowestSequenceNumber := 0
  bufferHighestSequenceNumber := 0
  bufferFirstParitySequenceNumber := 0
  bufferDataPackets := 0
  bufferParityPackets := 0
  receivedDataPackets := 0
  receivedParityPackets := 0
  receivedHighestSequenceNumber := 0
  fecPercentage := 0
  nextContiguousSequenceNumber := 0
  missingPackets := 0
  useFastQueuePath := false
  reportedLostFrame := false
  currentFrameNumber := 1
  multiFecCapable := multiFecCapable
  multiFecCurrentBlockNumber := 0
  multiFecLastBlockNumber := 0
  lastOosFramePresentationTimestamp := 0
  receivedOosData := false

/-- What `queuePacket` remembers of packets that came out of sequence. -/
def noteSequence (queue : RtpVideoQueue) (presentationTimeMs : UInt32) (outOfSequence : Bool) :
    RtpVideoQueue :=
  if outOfSequence then
    { queue with
      lastOosFramePresentationTimestamp := presentationTimeMs
      receivedOosData := true }
  else if queue.receivedOosData ∧ presentationTimeMs >
      queue.lastOosFramePresentationTimestamp + SPECULATIVE_RFI_COOLDOWN_PERIOD_MS then
    { queue with receivedOosData := false }
  else queue

def newEntry (packet : Packet) (length : ℕ) (isParity : Bool) : Entry where
  packet := packet
  receiveTimeMs := 0
  presentationTimeMs := timestamp packet / PTS_DIVISOR
  length := length
  isParity := isParity

/-- The end of `queuePacket`. -/
def insertPacket (queue : RtpVideoQueue) (packet : Packet) (length : ℕ)
    (isParity isFecRecovery outOfSequence : Bool) : RtpVideoQueue :=
  let entry := newEntry packet length isParity
  let queue := if isFecRecovery then queue
    else noteSequence queue entry.presentationTimeMs outOfSequence
  { queue with pendingFecBlockList := queue.pendingFecBlockList ++ [entry] }

/-- `queuePacket`; nothing for a duplicate. -/
def queuePacket (queue : RtpVideoQueue) (packet : Packet) (length : ℕ)
    (isParity isFecRecovery : Bool) : Option RtpVideoQueue :=
  let number := sequenceNumber packet
  if queue.useFastQueuePath ∧ number = queue.nextContiguousSequenceNumber then
    some (insertPacket { queue with nextContiguousSequenceNumber := number + 1 }
      packet length isParity isFecRecovery false)
  else if queue.pendingFecBlockList.any fun entry => number == entry.number then none
  else
    let outOfSequence := queue.pendingFecBlockList.any fun entry => isBefore16 number entry.number
    some (insertPacket { queue with useFastQueuePath := false }
      packet length isParity isFecRecovery outOfSequence)

section Reconstruct

/-- The place of an entry in its block. -/
def place (queue : RtpVideoQueue) (entry : Entry) : ℕ :=
  (entry.number - queue.bufferLowestSequenceNumber).toNat

/-- The padding of a short packet is cleared. -/
def padEntry (receiveSize : ℕ) (entry : Entry) : Entry :=
  { entry with packet := fun byte =>
      if entry.length ≤ byte ∧ byte < receiveSize then 0 else entry.packet byte }

/-- The array `marks`. -/
def marksOf (queue : RtpVideoQueue) : ℕ → Bool :=
  queue.pendingFecBlockList.foldl (fun marks entry => Function.update marks (place queue entry) false)
    fun _ => true

/-- The array `packets`; the others are newly allocated. -/
def packetsOf (queue : RtpVideoQueue) (receiveSize : ℕ) (allocated : ℕ → Packet) :
    Shards receiveSize :=
  let packets := queue.pendingFecBlockList.foldl
    (fun packets entry => Function.update packets (place queue entry) entry.packet) allocated
  fun i byte => ⟨packets i byte⟩

/-- The fields that recovery stores into a packet. -/
def restoreFields (queue : RtpVideoQueue) (i : ℕ) (packet : Packet) : Packet :=
  let first := (queue.pendingFecBlockList.map Entry.packet).headD packet
  let packet := write16 packet 2 (UInt16.ofNat i + queue.bufferLowestSequenceNumber)
  let packet := Function.update packet 0 (header first)
  let packet := write32 (write32 packet 4 (timestamp first)) 8 (ssrc first)
  let offset := dataOffset packet
  Function.update (write32 packet (offset + 4) queue.currentFrameNumber) (offset + 11)
    ((queue.multiFecLastBlockNumber <<< 2 ||| queue.multiFecCurrentBlockNumber) <<< 4)

/-- The checks that a recovered packet is sane. -/
def saneFlags (bufferDataPackets i : ℕ) (flags : UInt8) : Bool :=
  ¬ (i = 0 ∧ flags &&& FLAG_SOF = 0) ∧
    ¬ (i + 1 = bufferDataPackets ∧ flags &&& FLAG_EOF = 0) ∧
    ¬ (0 < i ∧ i + 1 < bufferDataPackets ∧ flags &&& FLAG_CONTAINS_PIC_DATA = 0) ∧
    flags &&& ~~~(FLAG_SOF ||| FLAG_EOF ||| FLAG_CONTAINS_PIC_DATA) = 0

/-- One pass of the loop over the recovered packets; the flag says that none was corrupt. -/
def takeRecovered (settings : Settings) (marks : ℕ → Bool) (shards : Shards settings.receiveSize)
    (state : Bool × RtpVideoQueue) (i : ℕ) : Bool × RtpVideoQueue :=
  if marks i ∧ state.1 then
    let queue := state.2
    let packet := restoreFields queue i fun byte =>
      if within : byte < settings.receiveSize then (shards i ⟨byte, within⟩).byte else 0
    if saneFlags queue.bufferDataPackets i (flags packet) then
      (true, (queuePacket queue packet (settings.packetSize + dataOffset packet) false true).getD
        queue)
    else (false, queue)
  else state

/-- The prediction that a frame cannot be completed, when too few packets have come. -/
def predictLoss (queue : RtpVideoQueue) : RtpVideoQueue × List Output :=
  if queue.reportedLostFrame = false ∧ queue.receivedOosData = false ∧
      queue.missingPackets > queue.bufferParityPackets then
    ({ queue with reportedLostFrame := true },
      [.notifyFrameLost queue.currentFrameNumber true])
  else (queue, [])

/-- `reconstructFrame`, and whether the block is complete; `allocated` is what the new buffers
hold, if there is memory for them. -/
def reconstructFrame (settings : Settings) (queue : RtpVideoQueue)
    (allocated : Option (ℕ → Packet)) : Bool × RtpVideoQueue × List Output :=
  if queue.pendingFecBlockList.length < queue.bufferDataPackets then (false, predictLoss queue)
  else
    let queue :=
      if queue.reportedLostFrame ∧ queue.receivedOosData = false then
        { queue with
          receivedOosData := true
          lastOosFramePresentationTimestamp :=
            (queue.pendingFecBlockList.map Entry.presentationTimeMs).headD 0 }
      else queue
    if queue.receivedDataPackets = queue.bufferDataPackets then (true, queue, [])
    else if settings.recoverable = false then (false, queue, [])
    else
      match reed_solomon_new queue.bufferDataPackets queue.bufferParityPackets with
      | none => (false, queue, [])
      | some rs =>
        let marks := marksOf queue
        let queue := { queue with pendingFecBlockList :=
          queue.pendingFecBlockList.map (padEntry settings.receiveSize) }
        match allocated with
        | none => (false, queue, [])
        | some allocated =>
          let repaired := reed_solomon_reconstruct rs marks
            (queue.bufferDataPackets + queue.bufferParityPackets)
            (packetsOf queue settings.receiveSize allocated)
          if repaired.1 ≠ 0 then (false, queue, [])
          else
            let taken := (List.range queue.bufferDataPackets).foldl
              (takeRecovered settings marks repaired.2) (true, queue)
            (taken.1, taken.2, [])

end Reconstruct

section Stage

/-- One pass over the list: parity packets are dropped until the wanted packet is found.  Without
it, the result is the lowest number of the others. -/
def scanPending (nextSeqNum : UInt16) : UInt16 → List Entry → List Entry × (UInt16 ⊕ Entry)
  | lowest, [] => ([], .inl lowest)
  | lowest, entry :: rest =>
    if entry.isParity then scanPending nextSeqNum lowest rest
    else if entry.number = nextSeqNum then (rest, .inr entry)
    else
      let scanned := scanPending nextSeqNum
        (if isBefore16 entry.number lowest then entry.number else lowest) rest
      (entry :: scanned.1, scanned.2)

/-- The loop of `stageCompleteFecBlock`, with a bound on its passes. -/
def stagePending (receiveTimeMs : UInt64) :
    ℕ → UInt16 → List Entry → List Entry → List Entry × List Entry
  | 0, _, pending, completed => (pending, completed)
  | fuel + 1, nextSeqNum, pending, completed =>
    match pending with
    | [] => ([], completed)
    | entry :: rest =>
      match scanPending nextSeqNum entry.number (entry :: rest) with
      | (pending, .inl lowest) => stagePending receiveTimeMs fuel lowest pending completed
      | (pending, .inr found) => stagePending receiveTimeMs fuel (nextSeqNum + 1) pending
          (completed ++ [{ found with receiveTimeMs := receiveTimeMs }])

/-- `stageCompleteFecBlock`. -/
def stageCompleteFecBlock (queue : RtpVideoQueue) : RtpVideoQueue :=
  let staged := stagePending queue.bufferFirstRecvTimeMs (2 * queue.pendingFecBlockList.length + 2)
    queue.bufferLowestSequenceNumber queue.pendingFecBlockList queue.completedFecBlockList
  { queue with
    pendingFecBlockList := staged.1
    completedFecBlockList := staged.2 }

/-- `submitCompletedFrame`. -/
def submitCompletedFrame (queue : RtpVideoQueue) : RtpVideoQueue × List Output :=
  ({ queue with completedFecBlockList := [] }, queue.completedFecBlockList.map .queueRtpPacket)

end Stage

/-- The report of a lost frame, unless it was made before. -/
def reportLoss (queue : RtpVideoQueue) : RtpVideoQueue × List Output :=
  if queue.reportedLostFrame then (queue, [])
  else ({ queue with reportedLostFrame := true },
    [.notifyFrameLost queue.currentFrameNumber false])

/-- Gives up the frame and goes on with another. -/
def skipFrame (queue : RtpVideoQueue) (next : UInt32) : RtpVideoQueue × List Output :=
  let reported := reportLoss { queue with
    pendingFecBlockList := []
    completedFecBlockList := [] }
  ({ reported.1 with currentFrameNumber := next, multiFecCurrentBlockNumber := 0 }, reported.2)

/-- The state at the first packet of a block. -/
def beginBlock (queue : RtpVideoQueue) (packet : Packet) (now : UInt64) :
    RtpVideoQueue × List Output :=
  let lost : List Output :=
    if queue.currentFrameNumber ≠ frameIndex packet ∧
        (queue.currentFrameNumber + 1 ≠ frameIndex packet ∨ queue.reportedLostFrame = false) then
      [.notifyFrameLost (frameIndex packet - 1) false]
    else []
  let lowest := sequenceNumber packet - (fecIndex packet).toUInt16
  let parityPackets := (fecDataPackets packet * fecPercentage packet + 99) / 100
  ({ queue with
    pendingFecBlockList := []
    completedFecBlockList :=
      if queue.currentFrameNumber ≠ frameIndex packet then [] else queue.completedFecBlockList
    currentFrameNumber := frameIndex packet
    bufferFirstRecvTimeMs := now
    bufferLowestSequenceNumber := lowest
    nextContiguousSequenceNumber := lowest
    receivedDataPackets := 0
    receivedParityPackets := 0
    receivedHighestSequenceNumber := 0
    missingPackets := 0
    useFastQueuePath := true
    reportedLostFrame := false
    bufferDataPackets := fecDataPackets packet
    fecPercentage := fecPercentage packet
    bufferParityPackets := parityPackets
    bufferFirstParitySequenceNumber := lowest + UInt16.ofNat (fecDataPackets packet)
    bufferHighestSequenceNumber :=
      lowest + UInt16.ofNat (fecDataPackets packet) + UInt16.ofNat parityPackets - 1
    multiFecCurrentBlockNumber := fecCurrentBlockNumber packet
    multiFecLastBlockNumber := fecLastBlockNumber packet },
    lost ++ [.connectionSawFrame (frameIndex packet)])

/-- Makes ready for a packet, or refuses it. -/
def openBlock (queue : RtpVideoQueue) (packet : Packet) (now : UInt64) :
    Bool × RtpVideoQueue × List Output :=
  let frame := frameIndex packet
  let block := fecCurrentBlockNumber packet
  if queue.pendingFecBlockList = [] ∨ queue.currentFrameNumber ≠ frame ∨
      queue.multiFecCurrentBlockNumber ≠ block then
    if queue.pendingFecBlockList ≠ [] ∧ queue.multiFecLastBlockNumber ≠ 0 ∧
        queue.currentFrameNumber = frame then
      (false, skipFrame queue (queue.currentFrameNumber + 1))
    else if block ≠ (if queue.currentFrameNumber = frame then queue.multiFecCurrentBlockNumber
        else 0) then
      (false, skipFrame queue (frame + 1))
    else (true, beginBlock queue packet now)
  else (true, queue, [])

/-- The counts after a packet was queued. -/
def countPacket (queue : RtpVideoQueue) (number : UInt16) : RtpVideoQueue :=
  let queue :=
    if queue.pendingFecBlockList.length = 1 then
      { queue with
        missingPackets :=
          queue.missingPackets + (number - queue.bufferLowestSequenceNumber).toNat
        receivedHighestSequenceNumber := number }
    else if isBefore16 queue.receivedHighestSequenceNumber number then
      { queue with
        missingPackets :=
          queue.missingPackets + (number - queue.receivedHighestSequenceNumber - 1).toNat
        receivedHighestSequenceNumber := number }
    else { queue with missingPackets := queue.missingPackets - 1 }
  if isBefore16 number queue.bufferFirstParitySequenceNumber then
    { queue with receivedDataPackets := queue.receivedDataPackets + 1 }
  else { queue with receivedParityPackets := queue.receivedParityPackets + 1 }

/-- The end of a block: the next block of the frame, or the frame is passed on. -/
def finishBlock (queue : RtpVideoQueue) : RtpVideoQueue × List Output :=
  let queue := stageCompleteFecBlock queue
  if queue.multiFecCurrentBlockNumber < queue.multiFecLastBlockNumber then
    ({ queue with multiFecCurrentBlockNumber := queue.multiFecCurrentBlockNumber + 1 }, [])
  else
    let submitted := submitCompletedFrame queue
    ({ submitted.1 with
      currentFrameNumber := submitted.1.currentFrameNumber + 1
      multiFecCurrentBlockNumber := 0 }, submitted.2)

/-- A packet of the open block. -/
def takePacket (settings : Settings) (queue : RtpVideoQueue) (packet : Packet) (length : ℕ)
    (allocated : Option (ℕ → Packet)) : RtpVideoQueue × List Output :=
  let number := sequenceNumber packet
  if isBefore16 queue.bufferHighestSequenceNumber number then (queue, [])
  else
    match queuePacket queue packet length
        (!isBefore16 number queue.bufferFirstParitySequenceNumber) false with
    | none => (queue, [])
    | some queue =>
      match reconstructFrame settings (countPacket queue number) allocated with
      | (false, queue, outputs) => (queue, outputs)
      | (true, queue, outputs) =>
        let finished := finishBlock queue
        (finished.1, outputs ++ finished.2)

/-- `RtpvAddPacket`. -/
def RtpvAddPacket (settings : Settings) (queue : RtpVideoQueue) (packet : Packet) (length : ℕ)
    (now : UInt64) (allocated : Option (ℕ → Packet)) : RtpVideoQueue × List Output :=
  if isBefore16 (sequenceNumber packet) queue.nextContiguousSequenceNumber then (queue, [])
  else if length < dataOffset packet + 16 then (queue, [])
  else
    let packet := hostOrder queue.multiFecCapable packet
    if isBefore16 (frameIndex packet).toUInt16 queue.currentFrameNumber.toUInt16 then (queue, [])
    else if frameIndex packet = queue.currentFrameNumber ∧
        fecCurrentBlockNumber packet < queue.multiFecCurrentBlockNumber then (queue, [])
    else
      match openBlock queue packet now with
      | (false, queue, outputs) => (queue, outputs)
      | (true, queue, outputs) =>
        let taken := takePacket settings queue packet length allocated
        (taken.1, outputs ++ taken.2)

/-- A packet from the network, when it came, and the memory for recovered packets. -/
structure Arrival where
  packet : Packet
  length : ℕ
  now : UInt64
  allocated : Option (ℕ → Packet)

def step (settings : Settings) (state : RtpVideoQueue × List (List Output)) (arrival : Arrival) :
    RtpVideoQueue × List (List Output) :=
  let added := RtpvAddPacket settings state.1 arrival.packet arrival.length arrival.now
    arrival.allocated
  (added.1, state.2 ++ [added.2])

/-- A run, and what each packet of it led to. -/
def run (settings : Settings) (multiFecCapable : Bool) (arrivals : List Arrival) :
    RtpVideoQueue × List (List Output) :=
  arrivals.foldl (step settings) (RtpvInitializeQueue multiFecCapable, [])

end MoonlightWii.Limelight.VideoQueue
