import Mathlib.Data.List.Basic
import MoonlightWii.Fec.ShardRecovery
import MoonlightWii.Limelight.RtpNumbers

/-!
# The audio queue

`RtpAudioQueue.c` of the streaming library.  Audio arrives in blocks of four packets with two
parity packets.  The queue keeps unfinished blocks in order, hands out the packets in the order
of their numbers, and gives up a block when a later one has begun.
-/

set_option autoImplicit false

namespace MoonlightWii.Limelight.AudioQueue

open RtpNumbers Fec.ByteField Fec.ShardRecovery

/-- `RTP_PACKET`, in host byte order. -/
structure RtpHeader where
  header : UInt8
  packetType : UInt8
  sequenceNumber : UInt16
  timestamp : UInt32
  ssrc : UInt32

structure RtpPacket where
  rtp : RtpHeader
  payload : List UInt8

/-- `AUDIO_FEC_HEADER`, without the index of the shard. -/
structure AudioFecHeader where
  payloadType : UInt8
  baseSequenceNumber : UInt16
  baseTimestamp : UInt32
  ssrc : UInt32

/-- `RTPA_FEC_BLOCK`.  The first four shards are the payloads of `dataPackets`, the others are
`fecPackets`; a mark stands for a shard that is missing. -/
structure FecBlock where
  fecHeader : AudioFecHeader
  blockSize : ℕ
  dataPackets : ℕ → RtpHeader
  shards : Shards blockSize
  marks : ℕ → Bool
  queueTimeMs : UInt64
  dataShardsReceived : ℕ
  fecShardsReceived : ℕ
  fullyReassembled : Bool
  nextDataPacketIndex : ℕ
  allowDiscontinuity : Bool

/-- What a slab holds before anything is copied into it. -/
structure Slab where
  dataPackets : ℕ → RtpHeader
  bytes : ℕ → ℕ → Gf

/-- `RTP_AUDIO_QUEUE`, without the list of blocks kept for reuse. -/
structure RtpAudioQueue where
  blocks : List FecBlock
  nextRtpSequenceNumber : UInt16
  oldestRtpBaseSequenceNumber : UInt16
  lastOosSequenceNumber : UInt16
  receivedOosData : Bool
  synchronizing : Bool
  incompatibleServer : Bool

def RTP_PAYLOAD_TYPE_AUDIO : UInt8 := 97
def RTP_PAYLOAD_TYPE_FEC : UInt8 := 127
def RTPA_DATA_SHARDS : ℕ := 4
def RTPA_FEC_SHARDS : ℕ := 2
def RTPA_TOTAL_SHARDS : ℕ := RTPA_DATA_SHARDS + RTPA_FEC_SHARDS
def RTPQ_OOS_WAIT_TIME_MS : UInt64 := 10

/-- The index of the shard, the header and the data of a parity packet that is long enough. -/
def readFecHeader : List UInt8 → Option (ℕ × AudioFecHeader × List UInt8)
  | index :: type :: b₀ :: b₁ :: t₀ :: t₁ :: t₂ :: t₃ :: s₀ :: s₁ :: s₂ :: s₃ :: data =>
    some (index.toNat, ⟨type, be16 b₀ b₁, be32 t₀ t₁ t₂ t₃, be32 s₀ s₁ s₂ s₃⟩, data)
  | _ => none

/-- Packets from blocks that are finished switch the fast recovery off, and a long time without
any switches it on again. -/
def noteOrder (queue : RtpAudioQueue) (number : UInt16) : RtpAudioQueue :=
  if queue.synchronizing = false ∧ isBefore16 number queue.oldestRtpBaseSequenceNumber then
    { queue with lastOosSequenceNumber := number, receivedOosData := true }
  else if queue.receivedOosData ∧
      isBefore16 queue.oldestRtpBaseSequenceNumber queue.lastOosSequenceNumber then
    { queue with receivedOosData := false }
  else queue

/-- The block header and the size of the shard that a packet carries. -/
def packetBlock (duration : UInt32) (queue : RtpAudioQueue) (packet : RtpPacket) :
    RtpAudioQueue × Option (AudioFecHeader × ℕ) :=
  if packet.rtp.packetType = RTP_PAYLOAD_TYPE_AUDIO then
    let number := packet.rtp.sequenceNumber
    let base := number / 4 * 4
    (noteOrder queue number, some (⟨packet.rtp.packetType, base,
      packet.rtp.timestamp - (number - base).toUInt32 * duration, packet.rtp.ssrc⟩,
      packet.payload.length))
  else if packet.rtp.packetType = RTP_PAYLOAD_TYPE_FEC then
    match readFecHeader packet.payload with
    | none => (queue, none)
    | some (index, fecHeader, data) =>
      if RTPA_FEC_SHARDS ≤ index then (queue, none)
      else if fecHeader.baseSequenceNumber % 4 ≠ 0 then
        ({ queue with incompatibleServer := true }, none)
      else (queue, some (fecHeader, data.length))
  else (queue, none)

/-- The search through the list: the blocks before the place, the block when it is there, and the
blocks after. -/
def locate (base : UInt16) :
    List FecBlock → List FecBlock → List FecBlock × Option FecBlock × List FecBlock
  | earlier, [] => (earlier, none, [])
  | earlier, existing :: rest =>
    if existing.fecHeader.baseSequenceNumber = base then (earlier, some existing, rest)
    else if isBefore16 base existing.fecHeader.baseSequenceNumber then
      (earlier, none, existing :: rest)
    else locate base (earlier ++ [existing]) rest

def newBlock (fecHeader : AudioFecHeader) (blockSize : ℕ) (now : UInt64) (slab : Slab) :
    FecBlock where
  fecHeader := fecHeader
  blockSize := blockSize
  dataPackets := slab.dataPackets
  shards := fun shard byte => slab.bytes shard byte
  marks := fun _ => true
  queueTimeMs := now
  dataShardsReceived := 0
  fecShardsReceived := 0
  fullyReassembled := false
  nextDataPacketIndex := 0
  allowDiscontinuity := false

/-- `getFecBlockForRtpPacket`; the slab is what `allocateFecBlock` returns. -/
def getFecBlockForRtpPacket (duration : UInt32) (queue : RtpAudioQueue) (packet : RtpPacket)
    (now : UInt64) (slab : Option Slab) :
    RtpAudioQueue × Option (List FecBlock × FecBlock × List FecBlock) :=
  match packetBlock duration queue packet with
  | (queue, none) => (queue, none)
  | (queue, some (fecHeader, blockSize)) =>
    let base := fecHeader.baseSequenceNumber
    if queue.synchronizing ∧ queue.oldestRtpBaseSequenceNumber = 0 then
      ({ queue with
        nextRtpSequenceNumber := base + 4
        oldestRtpBaseSequenceNumber := base + 4 }, none)
    else if isBefore16 base queue.oldestRtpBaseSequenceNumber then (queue, none)
    else
      match locate base [] queue.blocks with
      | (earlier, some block, later) =>
        if block.blockSize ≠ blockSize then ({ queue with incompatibleServer := true }, none)
        else if block.fullyReassembled then (queue, none)
        else (queue, some (earlier, block, later))
      | (earlier, none, later) =>
        match slab with
        | none => (queue, none)
        | some slab =>
          let block := newBlock fecHeader blockSize now slab
          ({ queue with blocks := earlier ++ block :: later }, some (earlier, block, later))

/-- `completeFecBlock`. -/
def completeFecBlock (rs : ReedSolomon) (duration : UInt32) (block : FecBlock) :
    Bool × FecBlock :=
  if block.dataShardsReceived + block.fecShardsReceived < RTPA_DATA_SHARDS then (false, block)
  else if block.dataShardsReceived = RTPA_DATA_SHARDS then (true, block)
  else
    let repaired := reed_solomon_reconstruct rs block.marks RTPA_TOTAL_SHARDS block.shards
    if repaired.1 ≠ 0 then (false, { block with shards := repaired.2 })
    else
      let recovered := fun i : ℕ => i < RTPA_DATA_SHARDS ∧ block.marks i
      (true, { block with
        shards := repaired.2
        dataPackets := fun i =>
          if recovered i then
            { header := 0x80
              packetType := block.fecHeader.payloadType
              sequenceNumber := block.fecHeader.baseSequenceNumber + UInt16.ofNat i
              timestamp := block.fecHeader.baseTimestamp + UInt32.ofNat i * duration
              ssrc := block.fecHeader.ssrc }
          else block.dataPackets i
        marks := fun i => if i < RTPA_DATA_SHARDS then false else block.marks i })

/-- `freeFecBlockHead`. -/
def freeFecBlockHead (queue : RtpAudioQueue) : RtpAudioQueue :=
  match queue.blocks with
  | [] => queue
  | head :: rest =>
    { queue with
      blocks := rest
      oldestRtpBaseSequenceNumber := head.fecHeader.baseSequenceNumber + 4
      synchronizing := false }

/-- `queueHasPacketReady`. -/
def queueHasPacketReady (queue : RtpAudioQueue) : Bool :=
  match queue.blocks with
  | [] => false
  | head :: _ =>
    (head.marks head.nextDataPacketIndex = false ∧
      head.fecHeader.baseSequenceNumber.toNat + head.nextDataPacketIndex =
        queue.nextRtpSequenceNumber.toNat) ∨ head.allowDiscontinuity

/-- `handleMissingPackets`. -/
def handleMissingPackets (duration : UInt32) (now : UInt64) (queue : RtpAudioQueue) :
    RtpAudioQueue :=
  match queue.blocks with
  | [] => queue
  | head :: rest =>
    if isBefore16 queue.nextRtpSequenceNumber head.fecHeader.baseSequenceNumber then
      { queue with
        nextRtpSequenceNumber := head.fecHeader.baseSequenceNumber
        oldestRtpBaseSequenceNumber := head.fecHeader.baseSequenceNumber }
    else if rest.isEmpty then queue
    else if queue.receivedOosData = false ∨
        now - head.queueTimeMs > (duration * 4).toUInt64 + RTPQ_OOS_WAIT_TIME_MS then
      { queue with blocks := { head with allowDiscontinuity := true } :: rest }
    else queue

/-- The result of `RtpaAddPacket`. -/
inductive Status
  | rejected
  | RTPQ_RET_PACKET_READY
  | RTPQ_RET_HANDLE_NOW

/-- The end of `RtpaAddPacket`, after a shard was copied into its block. -/
def finishAdd (rs : ReedSolomon) (duration : UInt32) (now : UInt64) (queue : RtpAudioQueue)
    (earlier : List FecBlock) (block : FecBlock) (later : List FecBlock) :
    RtpAudioQueue × Status :=
  let completed := completeFecBlock rs duration block
  let block := if completed.1 then { completed.2 with fullyReassembled := true } else completed.2
  let queue := { queue with blocks := earlier ++ block :: later }
  let queue := if queueHasPacketReady queue then queue
    else handleMissingPackets duration now queue
  (queue, if queueHasPacketReady queue then .RTPQ_RET_PACKET_READY else .rejected)

def shardOf (blockSize : ℕ) (data : List UInt8) : Fin blockSize → Gf :=
  fun byte => ⟨data.getD byte 0⟩

def copyData (block : FecBlock) (pos : ℕ) (packet : RtpPacket) : FecBlock :=
  { block with
    dataPackets := Function.update block.dataPackets pos packet.rtp
    shards := Function.update block.shards pos (shardOf block.blockSize packet.payload)
    marks := Function.update block.marks pos false
    dataShardsReceived := block.dataShardsReceived + 1 }

def copyFec (block : FecBlock) (index : ℕ) (data : List UInt8) : FecBlock :=
  { block with
    shards := Function.update block.shards (RTPA_DATA_SHARDS + index)
      (shardOf block.blockSize data)
    marks := Function.update block.marks (RTPA_DATA_SHARDS + index) false
    fecShardsReceived := block.fecShardsReceived + 1 }

/-- `RtpaAddPacket`. -/
def RtpaAddPacket (rs : ReedSolomon) (duration : UInt32) (queue : RtpAudioQueue)
    (packet : RtpPacket) (now : UInt64) (slab : Option Slab) : RtpAudioQueue × Status :=
  if queue.incompatibleServer then
    (queue, if packet.rtp.packetType = RTP_PAYLOAD_TYPE_AUDIO then .RTPQ_RET_HANDLE_NOW
      else .rejected)
  else
    match getFecBlockForRtpPacket duration queue packet now slab with
    | (queue, none) => (queue, .rejected)
    | (queue, some (earlier, block, later)) =>
      let number := packet.rtp.sequenceNumber
      let base := block.fecHeader.baseSequenceNumber
      if packet.rtp.packetType = RTP_PAYLOAD_TYPE_AUDIO then
        let pos := (number - base).toNat
        if block.marks pos then
          let block := copyData block pos packet
          if number = queue.nextRtpSequenceNumber then
            let block := { block with nextDataPacketIndex := block.nextDataPacketIndex + 1 }
            let queue := { queue with
              nextRtpSequenceNumber := number + 1
              blocks := earlier ++ block :: later }
            if queue.nextRtpSequenceNumber = base + 4 then
              (freeFecBlockHead queue, .RTPQ_RET_HANDLE_NOW)
            else (queue, .RTPQ_RET_HANDLE_NOW)
          else finishAdd rs duration now queue earlier block later
        else (queue, .rejected)
      else
        match readFecHeader packet.payload with
        | none => (queue, .rejected)
        | some (index, _, data) =>
          if block.marks (RTPA_DATA_SHARDS + index) then
            finishAdd rs duration now queue earlier (copyFec block index data) later
          else (queue, .rejected)

/-- What `RtpaGetQueuedPacket` returns: an empty entry for a lost packet, or a packet. -/
abbrev Entry : Type := Option RtpPacket

/-- Moves past the next packet of the first block. -/
def passPacket (queue : RtpAudioQueue) : RtpAudioQueue :=
  match queue.blocks with
  | [] => queue
  | head :: rest =>
    let head := { head with nextDataPacketIndex := head.nextDataPacketIndex + 1 }
    let queue := { queue with
      nextRtpSequenceNumber := queue.nextRtpSequenceNumber + 1
      blocks := head :: rest }
    if head.nextDataPacketIndex = RTPA_DATA_SHARDS then freeFecBlockHead queue else queue

def packetBytes {blockSize : ℕ} (shard : Fin blockSize → Gf) : List UInt8 :=
  List.ofFn fun byte => (shard byte).byte

def takeReady (queue : RtpAudioQueue) (allocated : Bool) : RtpAudioQueue × Option Entry :=
  match queue.blocks with
  | [] => (queue, none)
  | head :: _ =>
    if queueHasPacketReady queue then
      if allocated then
        (passPacket queue, some (some ⟨head.dataPackets head.nextDataPacketIndex,
          packetBytes (head.shards head.nextDataPacketIndex)⟩))
      else (queue, none)
    else (queue, none)

/-- `RtpaGetQueuedPacket`, whose allocation may fail. -/
def RtpaGetQueuedPacket (queue : RtpAudioQueue) (allocated : Bool) :
    RtpAudioQueue × Option Entry :=
  match queue.blocks with
  | [] => (queue, none)
  | head :: _ =>
    if head.allowDiscontinuity then
      if head.marks head.nextDataPacketIndex then
        if allocated then (passPacket queue, some none) else (queue, none)
      else if head.nextDataPacketIndex = RTPA_DATA_SHARDS then
        takeReady (freeFecBlockHead queue) allocated
      else takeReady queue allocated
    else takeReady queue allocated

/-- The parity matrix that OpenFEC generates. -/
def parityBytes : List UInt8 := [0x77, 0x40, 0x38, 0x0e, 0xc7, 0xa7, 0x0d, 0x6c]

def parityEntry (row col : ℕ) : Gf := ⟨parityBytes.getD (row * RTPA_DATA_SHARDS + col) 0⟩

/-- The matrix is copied over the eight elements from `m[16]` on, and over `parity`. -/
def replaceParity (rs : ReedSolomon) : ReedSolomon :=
  { rs with
    m := fun row col => if row < RTPA_DATA_SHARDS then rs.m row col
      else parityEntry (row - RTPA_DATA_SHARDS) col
    parity := parityEntry }

/-- `queue->rs`. -/
def queueCodec : Option ReedSolomon :=
  (reed_solomon_new RTPA_DATA_SHARDS RTPA_FEC_SHARDS).map replaceParity

theorem queueCodec_isSome : queueCodec.isSome = true := by
  unfold queueCodec
  rw [Option.isSome_map]
  exact (reed_solomon_new_isSome _ _).mpr (by decide)

/-- `RtpaInitializeQueue`, for a server that is recent enough or not. -/
def RtpaInitializeQueue (compatible : Bool) : RtpAudioQueue where
  blocks := []
  nextRtpSequenceNumber := 0
  oldestRtpBaseSequenceNumber := 0
  lastOosSequenceNumber := 0
  receivedOosData := false
  synchronizing := true
  incompatibleServer := !compatible

/-- What the receive thread does with the queue. -/
inductive Event
  | add (packet : RtpPacket) (now : UInt64) (slab : Option Slab)
  | get (allocated : Bool)

/-- A packet number and what went to the decoder for it. -/
structure Delivery where
  number : UInt16
  entry : Entry

structure State where
  queue : RtpAudioQueue
  delivered : List Delivery

/-- One call; a packet to be handled now goes to the decoder at once. -/
def step (rs : ReedSolomon) (duration : UInt32) (state : State) : Event → State
  | .add packet now slab =>
    match RtpaAddPacket rs duration state.queue packet now slab with
    | (queue, .RTPQ_RET_HANDLE_NOW) =>
      ⟨queue, state.delivered ++ [⟨packet.rtp.sequenceNumber, some packet⟩]⟩
    | (queue, _) => ⟨queue, state.delivered⟩
  | .get allocated =>
    match RtpaGetQueuedPacket state.queue allocated with
    | (queue, some entry) =>
      ⟨queue, state.delivered ++ [⟨state.queue.nextRtpSequenceNumber, entry⟩]⟩
    | (queue, none) => ⟨queue, state.delivered⟩

def run (rs : ReedSolomon) (duration : UInt32) (events : List Event) (state : State) : State :=
  events.foldl (step rs duration) state

end MoonlightWii.Limelight.AudioQueue
