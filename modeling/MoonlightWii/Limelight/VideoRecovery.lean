import MoonlightWii.Fec.ShardColumns
import MoonlightWii.Limelight.VideoDepacketizer
import MoonlightWii.Limelight.VideoFrames

/-!
# What the video packets carry

The host fills in some of the headers after it has encoded a block, and the console turns others
around before it decodes.  With such a host, the contents of a packet that the queue recovers are
those of the packet that was lost.
-/

set_option autoImplicit false

namespace MoonlightWii.Limelight.VideoRecovery

open RtpNumbers VideoPacket VideoQueue VideoFrames Fec.ByteField Fec.ShardRecovery
  Fec.ShardColumns Function

section Bytes

/-- The bytes that are encoded: the index in the stream, the flags and the payload. -/
def Coded (offset byte : ℕ) : Prop :=
  offset ≤ byte ∧ byte < offset + 4 ∨ byte = offset + 8 ∨ offset + 16 ≤ byte

/-- Where a byte that is encoded came from, before the console turned the index around. -/
def turned (offset byte : ℕ) : ℕ := if byte < offset + 4 then 2 * offset + 3 - byte else byte

/-- A packet with its padding. -/
def padded (packet : Packet) (length : ℕ) : Packet := fun byte =>
  if byte < length then packet byte else 0

theorem turned_coded {offset byte : ℕ} (coded : Coded offset byte) :
    Coded offset (turned offset byte) := by
  unfold Coded turned at *
  split_ifs
  · omega
  · exact coded

theorem turned_lt_iff {offset byte length : ℕ} (coded : Coded offset byte)
    (long : offset + 16 ≤ length) : turned offset byte < length ↔ byte < length := by
  unfold Coded at coded
  unfold turned
  split_ifs
  · omega
  · exact Iff.rfl

theorem be32_bytes (a b c d : UInt8) :
    (be32 a b c d >>> 24).toUInt8 = a ∧ (be32 a b c d >>> 16).toUInt8 = b ∧
      (be32 a b c d >>> 8).toUInt8 = c ∧ (be32 a b c d).toUInt8 = d := by
  have value := be32_toNat a b c d
  have bounds := And.intro (And.intro a.toNat_lt b.toNat_lt) (And.intro c.toNat_lt d.toNat_lt)
  refine ⟨?_, ?_, ?_, ?_⟩
  all_goals
    apply UInt8.toNat_inj.mp
    simp only [UInt32.toNat_toUInt8, UInt32.toNat_shiftRight, Nat.shiftRight_eq_div_pow]
    rw [value]
  · change _ / 16777216 % 256 = _
    omega
  · change _ / 65536 % 256 = _
    omega
  · change _ / 256 % 256 = _
    omega
  · omega

theorem swap32_inside (packet : Packet) {offset byte : ℕ} (low : offset ≤ byte)
    (high : byte < offset + 4) : swap32 packet offset byte = packet (2 * offset + 3 - byte) := by
  obtain ⟨first, second, third, fourth⟩ := be32_bytes (packet (offset + 3)) (packet (offset + 2))
    (packet (offset + 1)) (packet offset)
  unfold swap32 write32
  rw [first, second, third, fourth]
  obtain rfl | rfl | rfl | rfl : byte = offset ∨ byte = offset + 1 ∨ byte = offset + 2 ∨
      byte = offset + 3 := by omega
  · rw [update_of_ne (by omega), update_of_ne (by omega), update_of_ne (by omega), update_self]
    congr 1
    omega
  · rw [update_of_ne (by omega), update_of_ne (by omega), update_self]
    congr 1
    omega
  · rw [update_of_ne (by omega), update_self]
    congr 1
    omega
  · rw [update_self]
    congr 1
    omega

theorem swap32_congr {packet other : Packet} {offset length : ℕ} (long : offset + 4 ≤ length)
    (same : ∀ byte < length, packet byte = other byte) :
    ∀ byte < length, swap32 packet offset byte = swap32 other offset byte := by
  intro byte within
  by_cases inside : offset ≤ byte ∧ byte < offset + 4
  · rw [swap32_inside packet inside.1 inside.2, swap32_inside other inside.1 inside.2]
    exact same _ (by omega)
  · rw [swap32_other packet (by omega), swap32_other other (by omega)]
    exact same byte within

theorem update_congr {packet other : Packet} {length : ℕ} (place : ℕ) (value : UInt8)
    (same : ∀ byte < length, packet byte = other byte) :
    ∀ byte < length, update packet place value byte = update other place value byte := by
  intro byte within
  rw [update_apply, update_apply, same byte within]

/-- What the console makes of the first bytes depends on these only. -/
theorem hostOrder_congr {packet other : Packet} {length : ℕ} (multiFecCapable : Bool)
    (long : dataOffset other + 16 ≤ length)
    (same : ∀ byte < length, packet byte = other byte) :
    ∀ byte < length, hostOrder multiFecCapable packet byte =
      hostOrder multiFecCapable other byte := by
  have offsets : dataOffset packet = dataOffset other := dataOffset_congr (same 0 (by omega))
  have swapped := @swap32_congr _ _ (dataOffset other + 12) length (by omega)
    (@swap32_congr _ _ (dataOffset other + 4) length (by omega)
      (@swap32_congr _ _ (dataOffset other) length (by omega) same))
  unfold hostOrder
  rw [offsets]
  split_ifs
  · exact swapped
  · exact update_congr _ _ (update_congr _ _ swapped)

/-- The encoded bytes are those that were sent, with the index turned around. -/
theorem hostOrder_coded (multiFecCapable : Bool) (packet : Packet) {byte : ℕ}
    (coded : Coded (dataOffset packet) byte) :
    hostOrder multiFecCapable packet byte = packet (turned (dataOffset packet) byte) := by
  have swapped : swap32 (swap32 (swap32 packet (dataOffset packet)) (dataOffset packet + 4))
      (dataOffset packet + 12) byte = packet (turned (dataOffset packet) byte) := by
    unfold Coded at coded
    rw [swap32_other _ (by omega), swap32_other _ (by omega)]
    unfold turned
    split_ifs with index
    · exact swap32_inside packet (by omega) index
    · exact swap32_other packet (by omega)
  unfold hostOrder
  split_ifs
  · exact swapped
  · unfold Coded at coded
    rw [update_of_ne (by omega), update_of_ne (by omega)]
    exact swapped

theorem padded_hostOrder (multiFecCapable : Bool) (packet : Packet) {length byte : ℕ}
    (long : dataOffset packet + 16 ≤ length) (coded : Coded (dataOffset packet) byte) :
    padded (hostOrder multiFecCapable packet) length byte =
      padded packet length (turned (dataOffset packet) byte) := by
  unfold padded
  rw [hostOrder_coded multiFecCapable packet coded]
  exact if_congr (turned_lt_iff coded long).symm rfl rfl

end Bytes

section Host

/-- A block of a frame: its first number, how many data packets it has, the percentage of parity,
and the packets as they are sent. -/
structure HostBlock where
  base : UInt16
  dataPackets : ℕ
  fecPercentage : ℕ
  wire : ℕ → Packet
  length : ℕ → ℕ

def HostBlock.parityPackets (block : HostBlock) : ℕ :=
  (block.dataPackets * block.fecPercentage + 99) / 100

def HostBlock.total (block : HostBlock) : ℕ := block.dataPackets + block.parityPackets

/-- Where the `NV_VIDEO_PACKET` is in the packets of a block. -/
def HostBlock.offset (block : HostBlock) : ℕ := dataOffset (block.wire 0)

/-- The packets that are encoded. -/
def HostBlock.shards (block : HostBlock) (size : ℕ) : Shards size := fun k byte =>
  if k < block.total then ⟨padded (block.wire k) (block.length k) byte⟩ else 0

/-- The same packets as the console holds them. -/
def HostBlock.memory (block : HostBlock) (multiFecCapable : Bool) (size : ℕ) : Shards size :=
  fun k byte => if k < block.total then
    ⟨padded (hostOrder multiFecCapable (block.wire k)) (block.length k) byte⟩ else 0

/-- The blocks of the frames. -/
abbrev Host : Type := UInt32 → UInt8 → Option HostBlock

variable {settings : Settings} {multiFecCapable : Bool}

/-- What the host puts into the packets of a block.  Only some columns are encoded. -/
structure Sends (settings : Settings) (multiFecCapable : Bool) (frame : UInt32) (number : UInt8)
    (block : HostBlock) : Prop where
  header : ∀ k < block.total, header (block.wire k) = header (block.wire 0)
  sequence : ∀ k < block.total, sequenceNumber (block.wire k) = block.base + UInt16.ofNat k
  frame : ∀ k < block.total, frameIndex (hostOrder multiFecCapable (block.wire k)) = frame
  number : ∀ k < block.total,
    fecCurrentBlockNumber (hostOrder multiFecCapable (block.wire k)) = number
  index : ∀ k < block.total,
    fecIndex (hostOrder multiFecCapable (block.wire k)) = UInt32.ofNat k
  data : ∀ k < block.total,
    fecDataPackets (hostOrder multiFecCapable (block.wire k)) = block.dataPackets
  percentage : ∀ k < block.total,
    fecPercentage (hostOrder multiFecCapable (block.wire k)) = block.fecPercentage
  long : ∀ k < block.total, block.offset + 16 ≤ block.length k
  short : ∀ k < block.total, block.length k ≤ settings.packetSize + block.offset
  encoded : ∀ rs, reed_solomon_new block.dataPackets block.parityPackets = some rs →
    ∀ k < block.total, ∀ byte : Fin settings.receiveSize, Coded block.offset byte →
      block.shards settings.receiveSize k byte =
        reed_solomon_encode rs block.total (block.shards settings.receiveSize) k byte

/-- A packet arrives as it was sent. -/
def FromHost (host : Host) (arrival : Arrival) : Prop :=
  ∃ frame number block k, host frame number = some block ∧ k < block.total ∧
    arrival.length = block.length k ∧
    ∀ byte < arrival.length, arrival.packet byte = block.wire k byte

/-- The entry holds what the host sent as a packet of the block. -/
structure Copies (multiFecCapable : Bool) (block : HostBlock) (k : ℕ) (entry : Entry) : Prop where
  number : entry.number = block.base + UInt16.ofNat k
  header : header entry.packet = header (block.wire 0)
  long : block.length k ≤ entry.length
  bytes : ∀ byte < entry.length, Coded block.offset byte →
    entry.packet byte = padded (hostOrder multiFecCapable (block.wire k)) (block.length k) byte

/-- The entry holds what the host sent under its frame, block and number. -/
def Genuine (host : Host) (multiFecCapable : Bool) (entry : Entry) : Prop :=
  ∃ block k, host (frameIndex entry.packet) (fecCurrentBlockNumber entry.packet) = some block ∧
    k < block.total ∧ Copies multiFecCapable block k entry

variable {host : Host} {frame : UInt32} {number : UInt8} {block : HostBlock} {k : ℕ}

theorem Sends.offset (sends : Sends settings multiFecCapable frame number block)
    (within : k < block.total) : dataOffset (block.wire k) = block.offset :=
  dataOffset_congr (sends.header k within)

theorem padEntry_genuine {entry : Entry} (receiveSize : ℕ) (long : Long entry)
    (genuine : Genuine host multiFecCapable entry) :
    Genuine host multiFecCapable (padEntry receiveSize entry) := by
  obtain ⟨block, k, sent, within, copies⟩ := genuine
  obtain ⟨keys, -⟩ := padEntry_key receiveSize long
  have frame : frameIndex (padEntry receiveSize entry).packet = frameIndex entry.packet :=
    congrArg (fun key => key.1) keys
  have number : fecCurrentBlockNumber (padEntry receiveSize entry).packet =
      fecCurrentBlockNumber entry.packet := congrArg (fun key => key.2.1) keys
  have some_bytes : 0 < entry.length := by
    have enough : dataOffset entry.packet + 16 ≤ entry.length := long
    omega
  refine ⟨block, k, ?_, within, ?_, ?_, copies.long, fun byte below coded => ?_⟩
  · rw [frame, number]
    exact sent
  · exact (congrArg (fun key => key.2.2.1) keys).trans copies.number
  · exact (padEntry_byte some_bytes).trans copies.header
  · exact (@padEntry_byte receiveSize entry byte below).trans (copies.bytes byte below coded)

/-- The fields of a packet that arrived. -/
theorem Sends.fields (sends : Sends settings multiFecCapable frame number block)
    (within : k < block.total) {packet : Packet}
    (same : ∀ byte < block.length k, packet byte = block.wire k byte) :
    sequenceNumber (hostOrder multiFecCapable packet) = block.base + UInt16.ofNat k ∧
      VideoPacket.header (hostOrder multiFecCapable packet) =
        VideoPacket.header (block.wire 0) ∧
      frameIndex (hostOrder multiFecCapable packet) = frame ∧
      fecCurrentBlockNumber (hostOrder multiFecCapable packet) = number ∧
      fecInfo (hostOrder multiFecCapable packet) =
        fecInfo (hostOrder multiFecCapable (block.wire k)) := by
  have long := sends.long k within
  have offset := sends.offset within
  have bounds := dataOffset_bounds (block.wire k)
  have ordered := hostOrder_congr multiFecCapable (by rw [offset]; exact long) same
  have offsets : dataOffset (hostOrder multiFecCapable packet) = block.offset := by
    rw [hostOrder_offset, ← offset]
    exact dataOffset_congr (same 0 (by omega))
  have wire_offset : dataOffset (hostOrder multiFecCapable (block.wire k)) = block.offset := by
    rw [hostOrder_offset, offset]
  refine ⟨?_, ?_, ?_, ?_, ?_⟩
  · refine Eq.trans ?_ (sends.sequence k within)
    refine (hostOrder_number multiFecCapable packet).trans (read16_congr fun byte _ _ => ?_)
    exact same byte (by omega)
  · refine Eq.trans (hostOrder_low multiFecCapable packet (by decide)) ?_
    exact (same 0 (by omega)).trans (sends.header k within)
  · rw [← sends.frame k within]
    unfold frameIndex
    rw [offsets, wire_offset]
    exact read32_congr fun byte _ below => ordered byte (by omega)
  · rw [← sends.number k within]
    unfold fecCurrentBlockNumber multiFecBlocks
    rw [offsets, wire_offset, ordered _ (by omega)]
  · unfold fecInfo
    rw [offsets, wire_offset]
    exact read32_congr fun byte _ below => ordered byte (by omega)

/-- What has arrived is what was sent. -/
theorem Sends.received (sends : Sends settings multiFecCapable frame number block)
    (sent : host frame number = some block) (within : k < block.total) {packet : Packet}
    (same : ∀ byte < block.length k, packet byte = block.wire k byte) (isParity : Bool) :
    Genuine host multiFecCapable
      (newEntry (hostOrder multiFecCapable packet) (block.length k) isParity) := by
  have long := sends.long k within
  obtain ⟨sequence, first_byte, frame_same, number_same, -⟩ := sends.fields within same
  refine ⟨block, k, ?_, within, sequence, first_byte, Nat.le_refl _, fun byte below coded => ?_⟩
  · change host (frameIndex (hostOrder multiFecCapable packet))
      (fecCurrentBlockNumber (hostOrder multiFecCapable packet)) = _
    rw [frame_same, number_same]
    exact sent
  · have here : byte < block.length k := below
    unfold padded
    rw [if_pos here]
    exact hostOrder_congr multiFecCapable (by rw [sends.offset within]; exact long) same byte here

end Host

section Columns

variable {settings : Settings} {multiFecCapable : Bool} {host : Host} {frame : UInt32}
  {number : UInt8} {block : HostBlock}

/-- What the console holds is encoded as well as what was sent. -/
theorem Sends.memory (sends : Sends settings multiFecCapable frame number block)
    {rs : ReedSolomon}
    (made : reed_solomon_new block.dataPackets block.parityPackets = some rs) {k : ℕ}
    (within : k < block.total) {byte : Fin settings.receiveSize} (coded : Coded block.offset byte) :
    block.memory multiFecCapable settings.receiveSize k byte =
      reed_solomon_encode rs block.total
        (block.memory multiFecCapable settings.receiveSize) k byte := by
  have bounds := dataOffset_bounds (block.wire 0)
  have sized := settings.sized
  have turned_within : turned block.offset byte < settings.receiveSize := by
    refine (turned_lt_iff coded ?_).mpr byte.isLt
    change dataOffset (block.wire 0) + 16 ≤ settings.packetSize + 16
    omega
  let here : Fin 1 → Fin settings.receiveSize := fun _ => byte
  let sent : Fin 1 → Fin settings.receiveSize := fun _ => ⟨turned block.offset byte, turned_within⟩
  have column : columns here (block.memory multiFecCapable settings.receiveSize) =
      columns sent (block.shards settings.receiveSize) := by
    funext k one
    unfold columns HostBlock.memory HostBlock.shards
    by_cases within : k < block.total
    · rw [if_pos within, if_pos within]
      have offset := sends.offset within
      have long := sends.long k within
      rw [← offset] at coded long
      rw [padded_hostOrder multiFecCapable _ long coded, offset]
    · rw [if_neg within, if_neg within]
  have encoded := sends.encoded rs made k within ⟨turned block.offset byte, turned_within⟩
    (turned_coded coded)
  calc block.memory multiFecCapable settings.receiveSize k byte =
        columns here (block.memory multiFecCapable settings.receiveSize) k 0 := rfl
    _ = columns sent (block.shards settings.receiveSize) k 0 := by rw [column]
    _ = columns sent (reed_solomon_encode rs block.total (block.shards settings.receiveSize)) k 0 :=
        encoded
    _ = columns here (reed_solomon_encode rs block.total
          (block.memory multiFecCapable settings.receiveSize)) k 0 := by
        rw [← reed_solomon_encode_columns, ← reed_solomon_encode_columns, column]

theorem foldl_packets (entries : List Entry) (position : Entry → ℕ) (packets : ℕ → Packet)
    (i : ℕ) :
    (∃ entry ∈ entries, position entry = i ∧ entries.foldl (fun packets entry =>
        update packets (position entry) entry.packet) packets i = entry.packet) ∨
      (∀ entry ∈ entries, position entry ≠ i) ∧ entries.foldl (fun packets entry =>
        update packets (position entry) entry.packet) packets i = packets i := by
  induction entries generalizing packets with
  | nil => exact Or.inr ⟨fun entry none => absurd none List.not_mem_nil, rfl⟩
  | cons first rest ih =>
      rw [List.foldl_cons]
      rcases ih (update packets (position first) first.packet) with
        ⟨entry, member, here, value⟩ | ⟨others, value⟩
      · exact Or.inl ⟨entry, List.mem_cons_of_mem _ member, here, value⟩
      · by_cases here : position first = i
        · refine Or.inl ⟨first, List.mem_cons_self, here, value.trans ?_⟩
          rw [here, update_self]
        · refine Or.inr ⟨?_, value.trans (update_of_ne (Ne.symm here) _ _)⟩
          rw [List.forall_mem_cons]
          exact ⟨here, others⟩

/-- The open block is one of the host's. -/
structure Serves (host : Host) (queue : RtpVideoQueue) (block : HostBlock) : Prop where
  sent : host queue.currentFrameNumber queue.multiFecCurrentBlockNumber = some block
  lowest : queue.bufferLowestSequenceNumber = block.base
  data : queue.bufferDataPackets = block.dataPackets
  parity : queue.bufferParityPackets = block.parityPackets

/-- All packets at hand are as the host sent them. -/
def AllGenuine (host : Host) (multiFecCapable : Bool) (entries : List Entry) : Prop :=
  ∀ entry ∈ entries, Genuine host multiFecCapable entry

variable {queue : RtpVideoQueue}

theorem Serves.updated (serves : Serves host queue block) {other : RtpVideoQueue}
    (updated : Updated queue other) : Serves host other block := by
  obtain ⟨_, _, _, _, _, _, rfl⟩ := updated
  exact ⟨serves.sent, serves.lowest, serves.data, serves.parity⟩

/-- A genuine packet of the open block is a copy of the one with its number. -/
theorem Serves.copies (serves : Serves host queue block) {entry : Entry}
    (own : OfBlock queue entry) (genuine : Genuine host multiFecCapable entry) :
    ∃ k < block.total, Copies multiFecCapable block k entry := by
  obtain ⟨other, k, sent, within, copies⟩ := genuine
  rw [own.frame, own.block, serves.sent] at sent
  cases sent
  exact ⟨k, within, copies⟩

theorem Copies.padded_byte {entry : Entry} {k : ℕ} (copies : Copies multiFecCapable block k entry)
    {receiveSize byte : ℕ} (within : byte < receiveSize) (coded : Coded block.offset byte) :
    (padEntry receiveSize entry).packet byte =
      padded (hostOrder multiFecCapable (block.wire k)) (block.length k) byte := by
  have long := copies.long
  unfold padEntry
  dsimp only
  split_ifs with beyond
  · exact (if_neg (by omega)).symm
  · exact copies.bytes byte (by omega) coded

/-- The queue with the padding of its packets cleared. -/
def cleared (settings : Settings) (queue : RtpVideoQueue) : RtpVideoQueue :=
  { queue with
    pendingFecBlockList := queue.pendingFecBlockList.map (padEntry settings.receiveSize) }

/-- When the block can be repaired, what was encoded comes back. -/
theorem Sends.recovered (sends : Sends settings multiFecCapable frame number block)
    (pending : Pending queue) (serves : Serves host queue block)
    (genuine : AllGenuine host multiFecCapable queue.pendingFecBlockList) {rs : ReedSolomon}
    (made : reed_solomon_new queue.bufferDataPackets queue.bufferParityPackets = some rs)
    (allocated : ℕ → Packet)
    (success : (reed_solomon_reconstruct rs (marksOf queue)
      (queue.bufferDataPackets + queue.bufferParityPackets)
      (packetsOf (cleared settings queue) settings.receiveSize allocated)).1 = 0) :
    ∀ i < queue.bufferDataPackets, ∀ byte : Fin settings.receiveSize, Coded block.offset byte →
      (reed_solomon_reconstruct rs (marksOf queue)
        (queue.bufferDataPackets + queue.bufferParityPackets)
        (packetsOf (cleared settings queue) settings.receiveSize allocated)).2 i byte =
        block.memory multiFecCapable settings.receiveSize i byte := by
  have few := pending.geometry.few
  have total : queue.bufferDataPackets + queue.bufferParityPackets = block.total := by
    rw [serves.data, serves.parity]
    rfl
  obtain ⟨codec, data, parity⟩ := reed_solomon_new_codec made
  have count : queue.bufferDataPackets + queue.bufferParityPackets = rs.shards := by
    rw [codec.shards]
    omega
  rw [count] at success ⊢
  have data_count : rs.data_shards = queue.bufferDataPackets := by exact_mod_cast data
  intro i below byte coded
  have block_made := made
  rw [serves.data, serves.parity] at block_made
  refine column_recovered made (fun spot within there => ?_) success i (by omega)
  obtain ⟨entry, member, position⟩ := (marksOf_iff queue (by omega)).mp there
  rw [← count, total, ← sends.memory block_made (by omega) coded]
  have numbers : ∀ entry ∈ queue.pendingFecBlockList,
      (padEntry settings.receiveSize entry).number = entry.number := fun entry member =>
    congrArg (fun key => key.2.2.1) (padEntry_key _ (pending.entries entry member).long).1
  rcases foldl_packets (cleared settings queue).pendingFecBlockList
      (place (cleared settings queue)) allocated spot with
    ⟨found, listed, here, value⟩ | ⟨none, -⟩
  · obtain ⟨old, old_member, rfl⟩ := List.mem_map.mp listed
    obtain ⟨k, k_within, copies⟩ :=
      serves.copies (pending.entries old old_member) (genuine old old_member)
    have same : k = spot := by
      have same_number := (place_eq_iff (cleared settings queue) _ (by omega)).mp here
      rw [numbers old old_member, copies.number] at same_number
      have lowest : (cleared settings queue).bufferLowestSequenceNumber = block.base :=
        serves.lowest
      rw [lowest] at same_number
      have distance := congrArg (RtpNumbers.offset block.base) same_number
      rwa [offset_add_ofNat block.base (by omega), offset_add_ofNat block.base (by omega)]
        at distance
    have bytes := copies.padded_byte byte.isLt coded
    rw [same] at bytes
    refine (congrArg Gf.mk ((congrFun value byte).trans bytes)).trans ?_
    unfold HostBlock.memory
    rw [if_pos (by omega)]
  · refine absurd ((@place_eq_iff (cleared settings queue) _ spot (by omega)).mpr ?_)
      (none (padEntry settings.receiveSize entry) (List.mem_map_of_mem member))
    exact (numbers entry member).trans position

end Columns

section Recovery

variable {settings : Settings} {multiFecCapable : Bool} {host : Host} {block : HostBlock}
  {queue : RtpVideoQueue}

/-- Recovery stores the header of another packet, and leaves what is encoded. -/
theorem restoreFields_bytes (queue : RtpVideoQueue) (i : ℕ) (packet : Packet) :
    header (restoreFields queue i packet) =
        header ((queue.pendingFecBlockList.map Entry.packet).headD packet) ∧
      ∀ byte, Coded (dataOffset ((queue.pendingFecBlockList.map Entry.packet).headD packet)) byte →
        restoreFields queue i packet byte = packet byte := by
  unfold restoreFields
  dsimp only
  generalize (queue.pendingFecBlockList.map Entry.packet).headD packet = first
  generalize numbered : write16 packet 2 (UInt16.ofNat i + queue.bufferLowestSequenceNumber) =
    numbered_packet
  generalize stamped : write32 (write32 (update numbered_packet 0 (header first)) 4
    (timestamp first)) 8 (ssrc first) = stamped_packet
  have first_byte : header stamped_packet = header first := by
    unfold header
    rw [← stamped, write32_other (Or.inl (by omega)), write32_other (Or.inl (by omega)),
      update_self]
    rfl
  rw [dataOffset_congr first_byte]
  have bounds := dataOffset_bounds first
  refine ⟨?_, fun byte coded => ?_⟩
  · refine Eq.trans ?_ first_byte
    unfold header
    rw [update_of_ne (by omega), write32_other (Or.inl (by omega))]
  · unfold Coded at coded
    rw [update_of_ne (by omega), write32_other (by omega), ← stamped,
      write32_other (Or.inr (by omega)), write32_other (Or.inr (by omega)),
      update_of_ne (by omega), ← numbered, write16_other (Or.inr (by omega))]

/-- One recovered packet. -/
theorem Serves.takeRecovered {frame : UInt32} {number : UInt8}
    (sends : Sends settings multiFecCapable frame number block) (pending : Pending queue)
    (serves : Serves host queue block)
    (genuine : AllGenuine host multiFecCapable queue.pendingFecBlockList)
    (some_pending : queue.pendingFecBlockList ≠ []) {marks : ℕ → Bool}
    {shards : Shards settings.receiveSize} {i : ℕ} (within : i < queue.bufferDataPackets)
    (recovered : ∀ byte : Fin settings.receiveSize, Coded block.offset byte →
      shards i byte = block.memory multiFecCapable settings.receiveSize i byte) (ok : Bool) :
    AllGenuine host multiFecCapable
      (VideoQueue.takeRecovered settings marks shards (ok, queue) i).2.pendingFecBlockList := by
  unfold VideoQueue.takeRecovered
  dsimp only
  split_ifs with wanted sane
  swap
  · exact genuine
  swap
  · exact genuine
  obtain ⟨first, rest, list⟩ := List.exists_cons_of_ne_nil some_pending
  have first_member : first ∈ queue.pendingFecBlockList := list ▸ List.mem_cons_self
  obtain ⟨_, -, first_copies⟩ :=
    serves.copies (pending.entries first first_member) (genuine first first_member)
  obtain ⟨sequence, frame_number, block_number⟩ := restoreFields_key pending.current pending.last i
    fun byte => if within : byte < settings.receiveSize then (shards i ⟨byte, within⟩).byte else 0
  obtain ⟨first_header, bytes⟩ := restoreFields_bytes queue i
    fun byte => if within : byte < settings.receiveSize then (shards i ⟨byte, within⟩).byte else 0
  have head : ∀ packet, (queue.pendingFecBlockList.map Entry.packet).headD packet =
      first.packet := by
    intro packet
    rw [list]
    rfl
  rw [head, first_copies.header] at first_header
  rw [head, dataOffset_congr first_copies.header] at bytes
  have bounds := dataOffset_bounds (block.wire 0)
  have total : i < block.total := by
    rw [HostBlock.total, ← serves.data]
    omega
  generalize restoreFields queue i _ = packet
    at sequence frame_number block_number first_header bytes ⊢
  have offset := dataOffset_congr first_header
  rcases queuePacket_updated queue packet (settings.packetSize + dataOffset packet) false true
    with ⟨refused, -⟩ | ⟨next, fast, presentation, received, appended, -⟩
  · rw [refused]
    exact genuine
  rw [appended]
  intro entry member
  rcases List.mem_append.mp member with before | now
  · exact genuine entry before
  rw [List.mem_singleton.mp now]
  refine ⟨block, i, ?_, total, ?_, first_header, ?_, fun byte below coded => ?_⟩
  · change host (frameIndex packet) (fecCurrentBlockNumber packet) = some block
    rw [frame_number, block_number]
    exact serves.sent
  · exact sequence.trans (by rw [serves.lowest])
  · change block.length i ≤ settings.packetSize + dataOffset packet
    rw [offset]
    exact sends.short i total
  · have below_size : byte < settings.receiveSize := by
      have here : byte < settings.packetSize + dataOffset packet := below
      change byte < settings.packetSize + 16
      omega
    refine (bytes byte coded).trans ?_
    rw [dif_pos below_size, recovered ⟨byte, below_size⟩ coded]
    unfold HostBlock.memory
    rw [if_pos total]

/-- The loop over the recovered packets. -/
theorem Serves.takeAll {frame : UInt32} {number : UInt8}
    (sends : Sends settings multiFecCapable frame number block) (pending : Pending queue)
    (serves : Serves host queue block)
    (genuine : AllGenuine host multiFecCapable queue.pendingFecBlockList)
    (some_pending : queue.pendingFecBlockList ≠ []) {marks : ℕ → Bool}
    {shards : Shards settings.receiveSize}
    (recovered : ∀ i < queue.bufferDataPackets, ∀ byte : Fin settings.receiveSize,
      Coded block.offset byte →
        shards i byte = block.memory multiFecCapable settings.receiveSize i byte)
    {n : ℕ} (within : n ≤ queue.bufferDataPackets) :
    AllGenuine host multiFecCapable ((List.range n).foldl
      (VideoQueue.takeRecovered settings marks shards) (true, queue)).2.pendingFecBlockList := by
  induction n with
  | zero => exact genuine
  | succ n ih =>
      have before_genuine := ih (by omega)
      obtain ⟨before_pending, updated, more, -⟩ :=
        @Pending.takeAll settings queue pending marks shards n (by omega)
      rw [List.range_succ, List.foldl_append]
      generalize (List.range n).foldl (VideoQueue.takeRecovered settings marks shards)
        (true, queue) = before at before_genuine before_pending updated more ⊢
      obtain ⟨ok, before⟩ := before
      have same_data : before.bufferDataPackets = queue.bufferDataPackets := by
        obtain ⟨_, _, _, _, _, _, rfl⟩ := updated
        rfl
      have some_before : before.pendingFecBlockList ≠ [] := fun none =>
        some_pending (List.prefix_nil.mp (none ▸ more))
      exact (serves.updated updated).takeRecovered sends before_pending before_genuine some_before
        (same_data ▸ within) (recovered n (by omega)) ok

/-- Whatever is recovered is as the host sent it. -/
theorem Serves.reconstructFrame {frame : UInt32} {number : UInt8}
    (sends : Sends settings multiFecCapable frame number block) (pending : Pending queue)
    (serves : Serves host queue block)
    (genuine : AllGenuine host multiFecCapable queue.pendingFecBlockList)
    (some_pending : queue.pendingFecBlockList ≠ []) (allocated : Option (ℕ → Packet)) :
    AllGenuine host multiFecCapable
      (VideoQueue.reconstructFrame settings queue allocated).2.1.pendingFecBlockList := by
  unfold VideoQueue.reconstructFrame
  by_cases short : queue.pendingFecBlockList.length < queue.bufferDataPackets
  · rw [if_pos short]
    unfold predictLoss
    split_ifs
    · exact genuine
    · exact genuine
  rw [if_neg short]
  dsimp only
  have noted : ∃ outOfSequence presentation,
      (if queue.reportedLostFrame ∧ queue.receivedOosData = false then { queue with
        receivedOosData := true
        lastOosFramePresentationTimestamp :=
          (queue.pendingFecBlockList.map Entry.presentationTimeMs).headD 0 }
        else queue) = { queue with
          receivedOosData := outOfSequence
          lastOosFramePresentationTimestamp := presentation } := by
    split_ifs
    · exact ⟨_, _, rfl⟩
    · exact ⟨_, _, rfl⟩
  obtain ⟨outOfSequence, presentation, noted⟩ := noted
  rw [noted]
  have flagged := pending.flags queue.reportedLostFrame outOfSequence presentation
  have flagged_serves : Serves host { queue with
      receivedOosData := outOfSequence
      lastOosFramePresentationTimestamp := presentation } block :=
    ⟨serves.sent, serves.lowest, serves.data, serves.parity⟩
  split_ifs with all unsupported
  · exact genuine
  · exact genuine
  · cases made : reed_solomon_new queue.bufferDataPackets queue.bufferParityPackets with
    | none => exact genuine
    | some rs =>
        have padded_genuine : AllGenuine host multiFecCapable
            (queue.pendingFecBlockList.map (padEntry settings.receiveSize)) := by
          intro entry member
          obtain ⟨old, old_member, rfl⟩ := List.mem_map.mp member
          exact padEntry_genuine _ (pending.entries old old_member).long (genuine old old_member)
        cases allocated with
        | none => exact padded_genuine
        | some allocated =>
            dsimp only
            split_ifs with failed
            · exact padded_genuine
            · have padded_serves : Serves host (cleared settings { queue with
                  receivedOosData := outOfSequence
                  lastOosFramePresentationTimestamp := presentation }) block :=
                ⟨serves.sent, serves.lowest, serves.data, serves.parity⟩
              exact padded_serves.takeAll sends (flagged.padded settings.receiveSize)
                padded_genuine (fun none => some_pending (List.map_eq_nil_iff.mp none))
                (sends.recovered flagged flagged_serves genuine made allocated
                  (not_not.mp failed)) (Nat.le_refl _)

end Recovery

section Passing

variable {settings : Settings} {multiFecCapable : Bool} {host : Host} {block : HostBlock}
  {queue : RtpVideoQueue}

theorem scanPending_members {next lowest : UInt16} {entries : List Entry} :
    (scanPending next lowest entries).1 ⊆ entries ∧
      ∀ found, (scanPending next lowest entries).2 = .inr found → found ∈ entries := by
  induction entries generalizing lowest with
  | nil => exact ⟨List.Subset.refl _, fun found none => by cases none⟩
  | cons first rest ih =>
      rw [scanPending]
      split_ifs with parity here lower
      · obtain ⟨kept, member⟩ := @ih lowest
        exact ⟨List.Subset.trans kept (List.subset_cons_self first rest),
          fun found is_found => List.mem_cons_of_mem _ (member found is_found)⟩
      · refine ⟨List.subset_cons_self first rest, fun found is_found => ?_⟩
        cases is_found
        exact List.mem_cons_self
      all_goals
        obtain ⟨kept, member⟩ := ih
        exact ⟨List.cons_subset_cons first kept,
          fun found is_found => List.mem_cons_of_mem _ (member found is_found)⟩

theorem stagePending_genuine (receiveTimeMs : UInt64) (fuel : ℕ) (next : UInt16)
    {pending completed : List Entry} (waiting : AllGenuine host multiFecCapable pending)
    (done : AllGenuine host multiFecCapable completed) :
    AllGenuine host multiFecCapable
      (stagePending receiveTimeMs fuel next pending completed).2 := by
  induction fuel generalizing next pending completed with
  | zero => exact done
  | succ fuel ih =>
      cases pending with
      | nil => exact done
      | cons entry rest =>
          obtain ⟨kept, member⟩ := @scanPending_members next entry.number (entry :: rest)
          rw [stagePending]
          generalize scanPending next entry.number (entry :: rest) = scanned at kept member
          obtain ⟨left, lowest | found⟩ := scanned
          · exact ih lowest (fun entry inside => waiting entry (kept inside)) done
          · refine ih (next + 1) (fun entry inside => waiting entry (kept inside)) ?_
            intro entry inside
            rcases List.mem_append.mp inside with before | now
            · exact done entry before
            · obtain ⟨block, k, sent, within, number, first_byte, long, bytes⟩ :=
                waiting found (member found rfl)
              rw [List.mem_singleton.mp now]
              exact ⟨block, k, sent, within, number, first_byte, long, bytes⟩

/-- What holds between two packets. -/
structure Sound (host : Host) (multiFecCapable : Bool) (queue : RtpVideoQueue) : Prop where
  pending : AllGenuine host multiFecCapable queue.pendingFecBlockList
  completed : AllGenuine host multiFecCapable queue.completedFecBlockList
  serves : queue.pendingFecBlockList ≠ [] → ∃ block, Serves host queue block

theorem AllGenuine.nil : AllGenuine host multiFecCapable [] :=
  fun _ none => absurd none List.not_mem_nil

theorem Sound.finishBlock (pending : Pending queue)
    (all : ∀ i < queue.bufferDataPackets, Present queue i)
    (waiting : AllGenuine host multiFecCapable queue.pendingFecBlockList)
    (done : AllGenuine host multiFecCapable queue.completedFecBlockList) :
    Sound host multiFecCapable (VideoQueue.finishBlock queue).1 ∧
      AllGenuine host multiFecCapable (submitted (VideoQueue.finishBlock queue).2) := by
  obtain ⟨empty, -⟩ := pending.stage all
  have staged : AllGenuine host multiFecCapable
      (stageCompleteFecBlock queue).completedFecBlockList :=
    stagePending_genuine _ _ _ waiting done
  have none_waiting : AllGenuine host multiFecCapable
      (stageCompleteFecBlock queue).pendingFecBlockList := by
    rw [empty]
    exact AllGenuine.nil
  unfold VideoQueue.finishBlock
  dsimp only
  split_ifs
  · exact ⟨⟨none_waiting, staged, fun something => absurd empty something⟩, AllGenuine.nil⟩
  · refine ⟨⟨none_waiting, AllGenuine.nil, fun something => absurd empty something⟩, ?_⟩
    unfold submitCompletedFrame
    dsimp only
    rw [submitted_map]
    exact staged

theorem skipFrame_sound (queue : RtpVideoQueue) (next : UInt32) :
    Sound host multiFecCapable (skipFrame queue next).1 := by
  unfold skipFrame reportLoss
  dsimp only
  split_ifs
  · exact ⟨AllGenuine.nil, AllGenuine.nil, fun something => absurd rfl something⟩
  · exact ⟨AllGenuine.nil, AllGenuine.nil, fun something => absurd rfl something⟩

/-- The block that a packet of the host opens is the host's. -/
theorem Sound.openBlock (sound : Sound host multiFecCapable queue) {packet : Packet}
    (now : UInt64) (begins : Serves host (beginBlock queue packet now).1 block) :
    let result := VideoQueue.openBlock queue packet now
    (result.1 = false → Sound host multiFecCapable result.2.1) ∧
      (result.1 = true → AllGenuine host multiFecCapable result.2.1.pendingFecBlockList ∧
        AllGenuine host multiFecCapable result.2.1.completedFecBlockList ∧
        ∃ block, Serves host result.2.1 block) := by
  intro result
  unfold result VideoQueue.openBlock
  dsimp only
  by_cases fresh : queue.pendingFecBlockList = [] ∨
      queue.currentFrameNumber ≠ frameIndex packet ∨
      queue.multiFecCurrentBlockNumber ≠ fecCurrentBlockNumber packet
  swap
  · rw [if_neg fresh]
    push Not at fresh
    exact ⟨fun refused => absurd refused (by simp),
      fun _ => ⟨sound.pending, sound.completed, sound.serves fresh.1⟩⟩
  rw [if_pos fresh]
  by_cases broken : queue.pendingFecBlockList ≠ [] ∧ queue.multiFecLastBlockNumber ≠ 0 ∧
      queue.currentFrameNumber = frameIndex packet
  · rw [if_pos broken]
    exact ⟨fun _ => skipFrame_sound queue _, fun taken => absurd taken (by simp)⟩
  rw [if_neg broken]
  by_cases mismatch : fecCurrentBlockNumber packet ≠
      if queue.currentFrameNumber = frameIndex packet then queue.multiFecCurrentBlockNumber else 0
  · rw [if_pos mismatch]
    exact ⟨fun _ => skipFrame_sound queue _, fun taken => absurd taken (by simp)⟩
  rw [if_neg mismatch]
  refine ⟨fun refused => absurd refused (by simp), fun _ => ⟨AllGenuine.nil, ?_, block, begins⟩⟩
  unfold beginBlock
  dsimp only
  split_ifs
  · exact AllGenuine.nil
  · exact sound.completed

/-- The host is one whose blocks are as they should be. -/
def Valid (settings : Settings) (multiFecCapable : Bool) (host : Host) : Prop :=
  ∀ frame number block, host frame number = some block →
    Sends settings multiFecCapable frame number block

theorem Sound.takePacket (valid : Valid settings multiFecCapable host)
    (pending : Pending queue) (serves : Serves host queue block)
    (waiting : AllGenuine host multiFecCapable queue.pendingFecBlockList)
    (done : AllGenuine host multiFecCapable queue.completedFecBlockList) {packet : Packet}
    {length : ℕ} (long : dataOffset packet + 16 ≤ length)
    (frame : frameIndex packet = queue.currentFrameNumber)
    (number : fecCurrentBlockNumber packet = queue.multiFecCurrentBlockNumber)
    (near : RtpNumbers.offset queue.bufferLowestSequenceNumber (sequenceNumber packet) ≤ 32767 +
      (queue.bufferDataPackets + queue.bufferParityPackets))
    (genuine : ∀ isParity, Genuine host multiFecCapable (newEntry packet length isParity))
    (allocated : Option (ℕ → Packet)) :
    Sound host multiFecCapable
        (VideoQueue.takePacket settings queue packet length allocated).1 ∧
      AllGenuine host multiFecCapable
        (submitted (VideoQueue.takePacket settings queue packet length allocated).2) := by
  have sends := valid _ _ _ serves.sent
  unfold VideoQueue.takePacket
  dsimp only
  split_ifs with beyond
  · exact ⟨⟨waiting, done, fun _ => ⟨block, serves⟩⟩, AllGenuine.nil⟩
  have inside := pending.geometry.inside near (Bool.eq_false_of_not_eq_true beyond)
  cases queued : VideoQueue.queuePacket queue packet length
      (!isBefore16 (sequenceNumber packet) queue.bufferFirstParitySequenceNumber) false with
  | none => exact ⟨⟨waiting, done, fun _ => ⟨block, serves⟩⟩, AllGenuine.nil⟩
  | some queued_queue =>
      obtain ⟨counted_pending, updated, appended⟩ := pending.receive long frame number inside queued
      obtain ⟨missing, highest, data, parity, counted, -⟩ :=
        countPacket_fields queued_queue (sequenceNumber packet)
      dsimp only
      have counted_serves :
          Serves host (countPacket queued_queue (sequenceNumber packet)) block := by
        have queued_serves := serves.updated updated
        rw [counted]
        exact ⟨queued_serves.sent, queued_serves.lowest, queued_serves.data, queued_serves.parity⟩
      have same_lists : (countPacket queued_queue (sequenceNumber packet)).pendingFecBlockList =
            queue.pendingFecBlockList ++ [newEntry packet length
              (!isBefore16 (sequenceNumber packet) queue.bufferFirstParitySequenceNumber)] ∧
          (countPacket queued_queue (sequenceNumber packet)).completedFecBlockList =
            queue.completedFecBlockList := by
        rw [counted]
        refine ⟨appended, ?_⟩
        obtain ⟨_, _, _, _, _, _, rfl⟩ := updated
        rfl
      generalize countPacket queued_queue (sequenceNumber packet) = ready
        at counted_pending counted_serves same_lists ⊢
      obtain ⟨pending_list, completed_list⟩ := same_lists
      have counted_waiting : AllGenuine host multiFecCapable ready.pendingFecBlockList := by
        rw [pending_list]
        intro entry member
        rcases List.mem_append.mp member with before | now
        · exact waiting entry before
        · rw [List.mem_singleton.mp now]
          exact genuine _
      have some_waiting : ready.pendingFecBlockList ≠ [] := by
        rw [pending_list]
        exact List.append_ne_nil_of_right_ne_nil _ (List.cons_ne_nil _ _)
      have ready_sends := valid _ _ _ counted_serves.sent
      have rebuilt_waiting := counted_serves.reconstructFrame ready_sends counted_pending
        counted_waiting some_waiting allocated
      obtain ⟨rebuilt_pending, rebuilt, -, present⟩ :=
        @Pending.reconstructFrame settings _ counted_pending allocated
      have silent := @reconstructFrame_outputs settings ready allocated
      generalize VideoQueue.reconstructFrame settings ready allocated = reconstructed
        at rebuilt_waiting rebuilt_pending rebuilt present silent ⊢
      obtain ⟨complete, rebuilt_queue, outputs⟩ := reconstructed
      dsimp only at rebuilt_waiting rebuilt_pending rebuilt present silent
      have nothing : submitted outputs = [] := by
        unfold submitted
        rw [List.filterMap_eq_nil_iff]
        intro output member
        rw [silent output member]
      have rebuilt_done : AllGenuine host multiFecCapable rebuilt_queue.completedFecBlockList := by
        obtain ⟨_, _, _, _, _, _, rfl⟩ := rebuilt
        rw [← completed_list] at done
        exact done
      cases complete with
      | false =>
          refine ⟨⟨rebuilt_waiting, rebuilt_done, fun _ => ⟨block, ?_⟩⟩, ?_⟩
          · exact counted_serves.updated rebuilt
          · dsimp only
            rw [nothing]
            exact AllGenuine.nil
      | true =>
          have all : ∀ i < rebuilt_queue.bufferDataPackets, Present rebuilt_queue i := by
            intro i below
            refine present rfl i ?_
            obtain ⟨_, _, _, _, _, _, rfl⟩ := rebuilt
            exact below
          have finished := Sound.finishBlock rebuilt_pending all rebuilt_waiting rebuilt_done
          have joined : submitted (outputs ++ (VideoQueue.finishBlock rebuilt_queue).2) =
              submitted (VideoQueue.finishBlock rebuilt_queue).2 := by
            unfold submitted at nothing ⊢
            rw [List.filterMap_append, nothing, List.nil_append]
          dsimp only
          rw [joined]
          exact finished

theorem small_index (k : ℕ) : (UInt32.ofNat k).toUInt16 = UInt16.ofNat k := by
  apply UInt16.toNat_inj.mp
  rw [UInt32.toNat_toUInt16, UInt32.toNat_ofNat', UInt16.toNat_ofNat']
  omega

/-- A packet that arrived from the host says where its block is. -/
theorem Sends.announces {frame : UInt32} {number : UInt8} {k : ℕ}
    (sends : Sends settings multiFecCapable frame number block) (within : k < block.total)
    {packet : Packet} (same : ∀ byte < block.length k, packet byte = block.wire k byte) :
    extent (hostOrder multiFecCapable packet) = (block.base, block.dataPackets) ∧
      fecPercentage (hostOrder multiFecCapable packet) = block.fecPercentage := by
  obtain ⟨sequence, -, -, -, info⟩ := sends.fields within same
  have index : fecIndex (hostOrder multiFecCapable packet) = UInt32.ofNat k := by
    rw [← sends.index k within]
    unfold fecIndex
    rw [info]
  have data : fecDataPackets (hostOrder multiFecCapable packet) = block.dataPackets := by
    rw [← sends.data k within]
    unfold fecDataPackets
    rw [info]
  refine ⟨Prod.ext ?_ data, ?_⟩
  · change sequenceNumber _ - (fecIndex _).toUInt16 = block.base
    rw [sequence, index, small_index, UInt16.add_sub_cancel]
  · rw [← sends.percentage k within]
    unfold fecPercentage
    rw [info]

theorem Sound.addPacket (valid : Valid settings multiFecCapable host)
    (sound : Sound host multiFecCapable queue)
    (collected : Collected (fun _ _ _ => True) queue)
    (capable : queue.multiFecCapable = multiFecCapable) {arrival : Arrival}
    (from_host : FromHost host arrival) :
    let result := RtpvAddPacket settings queue arrival.packet arrival.length arrival.now
      arrival.allocated
    Sound host multiFecCapable result.1 ∧ AllGenuine host multiFecCapable (submitted result.2) := by
  intro result
  obtain ⟨frame, number, block, k, sent, within, length, same⟩ := from_host
  have sends := valid frame number block sent
  rw [length] at same
  unfold result RtpvAddPacket
  rw [capable]
  dsimp only
  split_ifs with behind short old_frame old_block
  · exact ⟨sound, AllGenuine.nil⟩
  · exact ⟨sound, AllGenuine.nil⟩
  · exact ⟨sound, AllGenuine.nil⟩
  · exact ⟨sound, AllGenuine.nil⟩
  have not_behind : isBefore16 (sequenceNumber (hostOrder multiFecCapable arrival.packet))
      queue.nextContiguousSequenceNumber = false := by
    rw [hostOrder_number]
    exact Bool.eq_false_of_not_eq_true behind
  have long : dataOffset (hostOrder multiFecCapable arrival.packet) + 16 ≤ arrival.length := by
    rw [hostOrder_offset]
    exact Nat.le_of_not_lt short
  obtain ⟨sequence, -, frame_same, number_same, -⟩ := sends.fields within same
  obtain ⟨place, percentage⟩ := sends.announces within same
  have begins : Serves host
      (beginBlock queue (hostOrder multiFecCapable arrival.packet) arrival.now).1 block := by
    refine ⟨?_, congrArg Prod.fst place, congrArg Prod.snd place, ?_⟩
    · change host (frameIndex _) (fecCurrentBlockNumber _) = some block
      rw [frame_same, number_same]
      exact sent
    · change (fecDataPackets _ * fecPercentage _ + 99) / 100 = block.parityPackets
      rw [percentage]
      exact congrArg (fun n => (n * block.fecPercentage + 99) / 100) (congrArg Prod.snd place)
  have genuine : ∀ isParity, Genuine host multiFecCapable
      (newEntry (hostOrder multiFecCapable arrival.packet) arrival.length isParity) := by
    rw [length]
    exact sends.received sent within same
  obtain ⟨silent, -, -, taken⟩ := collected.openBlock arrival.now not_behind trivial
  obtain ⟨refused, accepted⟩ := sound.openBlock arrival.now begins
  generalize VideoQueue.openBlock queue (hostOrder multiFecCapable arrival.packet) arrival.now =
    opened at silent taken refused accepted ⊢
  obtain ⟨accept, open_queue, outputs⟩ := opened
  dsimp only at silent taken refused accepted
  cases accept with
  | false =>
      refine ⟨refused rfl, ?_⟩
      dsimp only
      rw [silent]
      exact AllGenuine.nil
  | true =>
      obtain ⟨pending, -, -, open_frame, open_number, near⟩ := taken rfl
      obtain ⟨waiting, done, open_block, serves⟩ := accepted rfl
      have finished := Sound.takePacket valid pending serves waiting done long open_frame
        open_number near genuine arrival.allocated
      have joined : submitted (outputs ++ (VideoQueue.takePacket settings open_queue
          (hostOrder multiFecCapable arrival.packet) arrival.length arrival.allocated).2) =
          submitted (VideoQueue.takePacket settings open_queue
            (hostOrder multiFecCapable arrival.packet) arrival.length arrival.allocated).2 := by
        unfold submitted at silent ⊢
        rw [List.filterMap_append, silent, List.nil_append]
      dsimp only
      rw [joined]
      exact finished

/-- A block in one packet, which came back. -/
theorem finishBlock_repaired {queue : RtpVideoQueue} {parity repaired : Entry}
    (pending : queue.pendingFecBlockList = [parity, repaired])
    (completed : queue.completedFecBlockList = []) (skipped : parity.isParity = true)
    (wanted : repaired.isParity = false)
    (number : repaired.number = queue.bufferLowestSequenceNumber)
    (last : ¬ queue.multiFecCurrentBlockNumber < queue.multiFecLastBlockNumber) :
    (submitted (VideoQueue.finishBlock queue).2).length = 1 := by
  have staged : (stageCompleteFecBlock queue).completedFecBlockList.length = 1 := by
    unfold stageCompleteFecBlock
    rw [pending, completed]
    simp [stagePending, scanPending, skipped, wanted, number]
  have still_last : ¬ (stageCompleteFecBlock queue).multiFecCurrentBlockNumber <
      (stageCompleteFecBlock queue).multiFecLastBlockNumber := last
  unfold VideoQueue.finishBlock
  dsimp only
  rw [if_neg still_last]
  unfold submitCompletedFrame
  dsimp only
  rw [submitted_map]
  exact staged

theorem takePacket_completes {settings : Settings} {queue held next : RtpVideoQueue}
    {packet : Packet} {length : ℕ} {allocated : Option (ℕ → Packet)} {outputs : List Output}
    (inside : isBefore16 queue.bufferHighestSequenceNumber (sequenceNumber packet) = false)
    (queued : queuePacket queue packet length
      (!isBefore16 (sequenceNumber packet) queue.bufferFirstParitySequenceNumber) false = some held)
    (rebuilt : reconstructFrame settings (countPacket held (sequenceNumber packet)) allocated =
      (true, next, outputs)) :
    VideoQueue.takePacket settings queue packet length allocated =
      ((VideoQueue.finishBlock next).1, outputs ++ (VideoQueue.finishBlock next).2) := by
  unfold VideoQueue.takePacket
  dsimp only
  rw [if_neg (Bool.eq_false_iff.mp inside), queued]
  dsimp only
  rw [rebuilt]

theorem addPacket_takes {settings : Settings} {queue opened : RtpVideoQueue}
    {packet held : Packet} {length : ℕ} {now : UInt64} {allocated : Option (ℕ → Packet)}
    {outputs : List Output} (holds : hostOrder queue.multiFecCapable packet = held)
    (new : isBefore16 (sequenceNumber packet) queue.nextContiguousSequenceNumber = false)
    (long : dataOffset packet + 16 ≤ length)
    (new_frame : isBefore16 (frameIndex held).toUInt16 queue.currentFrameNumber.toUInt16 = false)
    (new_block : ¬ fecCurrentBlockNumber held < queue.multiFecCurrentBlockNumber)
    (opens : VideoQueue.openBlock queue held now = (true, opened, outputs)) :
    (RtpvAddPacket settings queue packet length now allocated).2 =
      outputs ++ (VideoQueue.takePacket settings opened held length allocated).2 := by
  unfold RtpvAddPacket
  rw [if_neg (Bool.eq_false_iff.mp new), if_neg (Nat.not_lt_of_le long), holds]
  dsimp only
  rw [if_neg (Bool.eq_false_iff.mp new_frame), if_neg (fun old => new_block old.2), opens]

end Passing

section Runs

variable {settings : Settings} {multiFecCapable : Bool} {host : Host} {entry : Entry}

theorem run_sound (valid : Valid settings multiFecCapable host) {arrivals : List Arrival}
    (from_host : ∀ arrival ∈ arrivals, FromHost host arrival) :
    Sound host multiFecCapable (run settings multiFecCapable arrivals).1 ∧
      ∀ outputs ∈ (run settings multiFecCapable arrivals).2,
        AllGenuine host multiFecCapable (submitted outputs) := by
  induction arrivals using List.reverseRecOn with
  | nil =>
      exact ⟨⟨AllGenuine.nil, AllGenuine.nil, fun something => absurd rfl something⟩,
        fun outputs none => absurd none List.not_mem_nil⟩
  | append_singleton arrivals arrival ih =>
      obtain ⟨sound, passed⟩ := ih fun earlier member =>
        from_host earlier (List.mem_append_left _ member)
      obtain ⟨collected, capable, -⟩ := run_collected settings multiFecCapable arrivals
      rw [run_append]
      obtain ⟨after, added⟩ := sound.addPacket valid (collected.mono fun _ _ _ _ => trivial)
        capable (from_host arrival (List.mem_append_right _ List.mem_cons_self))
      refine ⟨after, fun outputs member => ?_⟩
      rcases List.mem_append.mp member with before | now
      · exact passed outputs before
      · rw [List.mem_singleton.mp now]
        exact added

/-- The bytes of a packet after its `NV_VIDEO_PACKET`. -/
def HostBlock.payload (block : HostBlock) (k : ℕ) : List UInt8 :=
  (List.range (block.length k - (block.offset + 16))).map fun i =>
    block.wire k (block.offset + 16 + i)

/-- The entry has the contents of a packet of the block, with zeros behind them if it was short
among the packets of its block. -/
structure Carries (multiFecCapable : Bool) (sent : HostBlock × ℕ) (entry : Entry) : Prop where
  number : entry.number = sent.1.base + UInt16.ofNat sent.2
  index : streamPacketIndex entry.packet =
    streamPacketIndex (hostOrder multiFecCapable (sent.1.wire sent.2))
  flags : flags entry.packet = flags (hostOrder multiFecCapable (sent.1.wire sent.2))
  payload : ∃ padding, VideoDepacketizer.payload entry =
    sent.1.payload sent.2 ++ List.replicate padding 0

variable {frame : UInt32} {number : UInt8} {block : HostBlock} {k : ℕ}

/-- What the padding adds to the payload. -/
theorem Copies.payload (copies : Copies multiFecCapable block k entry)
    (sends : Sends settings multiFecCapable frame number block) (within : k < block.total) :
    VideoDepacketizer.payload entry =
      block.payload k ++ List.replicate (entry.length - block.length k) 0 := by
  have offset : dataOffset entry.packet = block.offset := dataOffset_congr copies.header
  have long := sends.long k within
  have longer := copies.long
  have split : entry.length - (block.offset + 16) =
      (block.length k - (block.offset + 16)) + (entry.length - block.length k) := by omega
  have bytes : ∀ i < entry.length - (block.offset + 16),
      entry.packet (block.offset + 16 + i) =
        padded (block.wire k) (block.length k) (block.offset + 16 + i) := by
    intro i below
    have coded : Coded block.offset (block.offset + 16 + i) :=
      Or.inr (Or.inr (Nat.le_add_right _ _))
    rw [copies.bytes _ (by omega) coded]
    rw [← sends.offset within] at coded long ⊢
    rw [padded_hostOrder multiFecCapable _ long coded]
    unfold turned
    rw [if_neg (by omega)]
  unfold VideoDepacketizer.payload HostBlock.payload
  rw [offset, split, List.range_add, List.map_append, List.map_map]
  congr 1
  · refine List.map_congr_left fun i member => ?_
    have below := List.mem_range.mp member
    rw [bytes i (by omega)]
    exact if_pos (by omega)
  · rw [List.eq_replicate_iff]
    refine ⟨by simp, fun byte member => ?_⟩
    obtain ⟨i, inside, rfl⟩ := List.mem_map.mp member
    have below := List.mem_range.mp inside
    rw [comp_apply, bytes _ (by omega)]
    exact if_neg (by omega)

theorem Copies.carries (copies : Copies multiFecCapable block k entry)
    (sends : Sends settings multiFecCapable frame number block) (within : k < block.total) :
    Carries multiFecCapable (block, k) entry := by
  have offset : dataOffset entry.packet = block.offset := dataOffset_congr copies.header
  have wire_offset : dataOffset (hostOrder multiFecCapable (block.wire k)) = block.offset := by
    rw [hostOrder_offset, sends.offset within]
  have long := sends.long k within
  have longer := copies.long
  have byte : ∀ place < block.offset + 16, Coded block.offset place →
      entry.packet place = hostOrder multiFecCapable (block.wire k) place := by
    intro place below coded
    rw [copies.bytes place (by omega) coded]
    exact if_pos (by omega)
  refine ⟨copies.number, ?_, ?_, _, copies.payload sends within⟩
  · unfold streamPacketIndex
    rw [offset, wire_offset]
    exact read32_congr fun place low high => byte place (by omega) (Or.inl ⟨low, high⟩)
  · unfold VideoPacket.flags
    rw [offset, wire_offset]
    exact byte _ (by omega) (Or.inr (Or.inl rfl))

/-- A block has fewer packets than there are numbers. -/
theorem Sends.few (sends : Sends settings multiFecCapable frame number block)
    (within : k < block.total) : block.total < 65536 := by
  have data := fecDataPackets_lt (hostOrder multiFecCapable (block.wire k))
  have percentage := fecPercentage_lt (hostOrder multiFecCapable (block.wire k))
  rw [sends.data k within] at data
  rw [sends.percentage k within] at percentage
  have product : block.dataPackets * block.fecPercentage ≤ 1023 * 255 :=
    Nat.mul_le_mul (by omega) (by omega)
  unfold HostBlock.total HostBlock.parityPackets
  omega

/-- A genuine entry carries the packet of its frame, block and number. -/
theorem Genuine.carries (valid : Valid settings multiFecCapable host)
    (genuine : Genuine host multiFecCapable entry) (sent : host frame number = some block)
    (below : k < block.dataPackets)
    (named : key entry = (frame, number, block.base + UInt16.ofNat k, false)) :
    Carries multiFecCapable (block, k) entry := by
  obtain ⟨other, j, found, within, copies⟩ := genuine
  have frame_same : frameIndex entry.packet = frame := congrArg (fun key => key.1) named
  have block_same : fecCurrentBlockNumber entry.packet = number :=
    congrArg (fun key => key.2.1) named
  have number_same : entry.number = block.base + UInt16.ofNat k :=
    congrArg (fun key => key.2.2.1) named
  rw [frame_same, block_same, sent] at found
  cases found
  have sends := valid frame number block sent
  have few := sends.few within
  have index : UInt16.ofNat j = UInt16.ofNat k :=
    (UInt16.add_right_inj block.base).mp (copies.number.symm.trans number_same)
  have same : j = k := by
    have values := congrArg UInt16.toNat index
    rw [UInt16.toNat_ofNat', UInt16.toNat_ofNat'] at values
    have fits : k < block.total := Nat.lt_of_lt_of_le below (Nat.le_add_right _ _)
    omega
  rw [← same]
  exact copies.carries sends within

/-- The data packets of the blocks, in order. -/
def dataPacketsOf (blocks : List HostBlock) : List (HostBlock × ℕ) :=
  blocks.flatMap fun block => (List.range block.dataPackets).map fun k => (block, k)

def HostBlock.extent (block : HostBlock) : Extent := (block.base, block.dataPackets)

/-- The blocks are those of the frame from a number on. -/
def BlocksFrom (host : Host) (frame : UInt32) (start : ℕ) (blocks : List HostBlock) : Prop :=
  ∀ i block, blocks[i]? = some block → host frame (UInt8.ofNat (start + i)) = some block

theorem BlocksFrom.cons {start : ℕ} {rest : List HostBlock}
    (blocks : BlocksFrom host frame start (block :: rest)) :
    host frame (UInt8.ofNat start) = some block ∧ BlocksFrom host frame (start + 1) rest := by
  refine ⟨blocks 0 block rfl, fun i other found => ?_⟩
  rw [show start + 1 + i = start + (i + 1) by omega]
  exact blocks (i + 1) other found

theorem carries_block (valid : Valid settings multiFecCapable host)
    (sent : host frame number = some block) {entries : List Entry}
    (genuine : AllGenuine host multiFecCapable entries)
    (keys : entries.map key = blockKeys frame number block.extent) :
    List.Forall₂ (Carries multiFecCapable)
      ((List.range block.dataPackets).map fun k => (block, k)) entries := by
  rw [List.forall₂_map_left_iff]
  have count : (List.range block.dataPackets).length = entries.length := by
    have lengths := congrArg List.length keys
    rw [blockKeys, List.length_map, List.length_map] at lengths
    exact lengths.symm
  refine List.forall₂_iff_get.mpr ⟨count, fun i low high => ?_⟩
  have below : i < block.dataPackets := by
    rw [List.length_range] at low
    exact low
  have here : (entries.map key)[i]? = (blockKeys frame number block.extent)[i]? := by rw [keys]
  unfold blockKeys HostBlock.extent at here
  dsimp only at here
  rw [List.getElem?_map, List.getElem?_map, List.getElem?_range below,
    List.getElem?_eq_getElem high] at here
  have named := Option.some_inj.mp here
  simp only [List.get_eq_getElem, List.getElem_range]
  exact (genuine _ (List.getElem_mem high)).carries valid sent below named

/-- By induction on the blocks, each with its part of the entries. -/
theorem carries_blocks (valid : Valid settings multiFecCapable host) (blocks : List HostBlock)
    {start : ℕ} {entries : List Entry} (sent : BlocksFrom host frame start blocks)
    (genuine : AllGenuine host multiFecCapable entries)
    (keys : entries.map key = frameKeys frame start (blocks.map HostBlock.extent)) :
    List.Forall₂ (Carries multiFecCapable) (dataPacketsOf blocks) entries := by
  induction blocks generalizing start entries with
  | nil =>
      rw [List.map_eq_nil_iff.mp keys]
      exact List.Forall₂.nil
  | cons block rest ih =>
      obtain ⟨here, later⟩ := sent.cons
      obtain ⟨front, back, rfl, front_keys, back_keys⟩ := List.map_eq_append_iff.mp keys
      unfold dataPacketsOf
      rw [List.flatMap_cons]
      refine List.rel_append ?_ ?_
      · exact carries_block valid here
          (fun entry member => genuine entry (List.mem_append_left _ member)) front_keys
      · exact ih later (fun entry member => genuine entry (List.mem_append_right _ member))
          back_keys

/-- The blocks that were announced are blocks of the host. -/
theorem announced_blocks (valid : Valid settings multiFecCapable host) {arrivals : List Arrival}
    (from_host : ∀ arrival ∈ arrivals, FromHost host arrival) {extents : List Extent} {start : ℕ}
    (announced : ∀ i extent, extents[i]? = some extent →
      AnnouncedBy multiFecCapable arrivals frame (UInt8.ofNat (start + i)) extent) :
    ∃ blocks, blocks.map HostBlock.extent = extents ∧ BlocksFrom host frame start blocks := by
  induction extents generalizing start with
  | nil => exact ⟨[], rfl, fun i block none => absurd none (by simp)⟩
  | cons extent rest ih =>
      obtain ⟨blocks, extents_same, sent⟩ := @ih (start + 1) fun i other found => by
        rw [show start + 1 + i = start + (i + 1) by omega]
        exact announced (i + 1) other found
      obtain ⟨arrival, member, frame_same, number_same, here⟩ := announced 0 extent rfl
      obtain ⟨named_frame, named_number, block, k, block_sent, within, length, same⟩ :=
        from_host arrival member
      have sends := valid _ _ _ block_sent
      rw [length] at same
      obtain ⟨-, -, own_frame, own_number, -⟩ := sends.fields within same
      have place := (sends.announces within same).1
      rw [own_frame] at frame_same
      rw [own_number] at number_same
      rw [frame_same, number_same] at block_sent
      refine ⟨block :: blocks, ?_, fun i other found => ?_⟩
      · rw [List.map_cons, extents_same, ← here, place]
        rfl
      · cases i with
        | zero =>
            cases found
            exact block_sent
        | succ i =>
            rw [show start + (i + 1) = start + 1 + i by omega]
            exact sent i other found

/-- Frame 1 in one packet, and the parity, which has its contents. -/
def copiedPacket (k : UInt8) : Packet := fun byte =>
  [0x90, 0, 0, 7 + k, 0, 0, 0, 9, 0, 0, 0, 0, 0, 0, 0, 0, 0, 1, 0, 0, 1, 0, 0, 0,
    7, 0, 0x10, 0, 0x40, 6 + 0x10 * k, 0x40, 0, 11, 12].getD byte 0

def copiedBlock : HostBlock := ⟨7, 1, 100, fun k => copiedPacket (UInt8.ofNat k), fun _ => 40⟩

def copiedHost : Host := fun frame number =>
  if frame = 1 ∧ number = 0 then some copiedBlock else none

/-- Only the parity arrives. -/
def onlyParity : List Arrival := [⟨copiedPacket 1, 40, 3, some fun _ _ => 0⟩]

theorem copiedPacket_same {byte : ℕ} (sequence : byte ≠ 3) (index : byte ≠ 29) :
    copiedPacket 0 byte = copiedPacket 1 byte := by
  have all : ∀ byte < 34, byte ≠ 3 → byte ≠ 29 → copiedPacket 0 byte = copiedPacket 1 byte := by
    decide
  by_cases below : byte < 34
  · exact all byte below sequence index
  · exact (List.getD_eq_default _ _ (Nat.le_of_not_lt below)).trans
      (List.getD_eq_default _ _ (Nat.le_of_not_lt below)).symm

theorem parity_one {rs : ReedSolomon} (made : reed_solomon_new 1 1 = some rs) :
    rs.parity 0 0 = 1 := by
  unfold reed_solomon_new at made
  split_ifs at made
  cases made
  dsimp only
  rw [sub_matrix, cauchyRows, if_pos (by decide), gf_inverse_eq]
  exact inv_one

/-- With one data packet the parity is the packet itself. -/
theorem encode_one {rs : ReedSolomon} (made : reed_solomon_new 1 1 = some rs) {size : ℕ}
    (shards : Shards size) :
    reed_solomon_encode rs 2 shards 0 = shards 0 ∧
      reed_solomon_encode rs 2 shards 1 = shards 0 := by
  obtain ⟨codec, data_shards, parity_shards⟩ := reed_solomon_new_codec made
  have one_data : rs.data_shards = 1 := by exact_mod_cast data_shards
  have one_parity : rs.parity_shards = 1 := by exact_mod_cast parity_shards
  have two : 1 * rs.shards = 2 := by rw [codec.shards, one_data, one_parity]
  obtain ⟨encoded, left⟩ := reed_solomon_encode_spec codec 1 shards
  rw [two] at encoded left
  have first := left 0 (Or.inl (by omega))
  refine ⟨first, funext fun byte => ?_⟩
  have second := congrFun (encoded 0 Nat.one_pos 0 (by omega)) byte
  rw [one_data, one_parity, Finset.sum_range_one, parity_one made, one_mul, one_mul] at second
  exact second.trans (congrFun first byte)

theorem copiedBlock_encoded {rs : ReedSolomon} (made : reed_solomon_new 1 1 = some rs) {size : ℕ}
    {k : ℕ} (within : k < 2) {byte : Fin size} (coded : Coded copiedBlock.offset byte) :
    copiedBlock.shards size k byte =
      reed_solomon_encode rs 2 (copiedBlock.shards size) k byte := by
  obtain ⟨first, second⟩ := encode_one made (copiedBlock.shards size)
  obtain rfl | rfl : k = 0 ∨ k = 1 := by omega
  · rw [first]
  · rw [second]
    have same : copiedPacket 1 byte = copiedPacket 0 byte := by
      change Coded 16 byte at coded
      unfold Coded at coded
      exact (copiedPacket_same (by omega) (by omega)).symm
    have contents : padded (copiedPacket 1) 40 byte = padded (copiedPacket 0) 40 byte := by
      unfold padded
      rw [same]
    exact congrArg Gf.mk contents

theorem copiedHost_valid : Valid smallPackets true copiedHost := by
  intro frame number block sent
  unfold copiedHost at sent
  split_ifs at sent with here
  obtain ⟨rfl, rfl⟩ := here
  cases sent
  exact ⟨by decide, by decide, by decide, by decide, by decide, by decide, by decide, by decide,
    by decide, fun rs made k within byte coded => copiedBlock_encoded made within coded⟩

/-- The parity as the console holds it, and the queue with it. -/
def heldParity : Packet := hostOrder true (copiedPacket 1)

def openedQueue : RtpVideoQueue := (beginBlock (RtpvInitializeQueue true) heldParity 3).1

def parityQueue : RtpVideoQueue :=
  countPacket ((queuePacket openedQueue heldParity 40 true false).getD openedQueue) 8

/-- The packet with the missing number completes the frame. -/
theorem submitted_copied {packet : Packet} (number : sequenceNumber packet = 7) (length : ℕ) :
    (submitted (VideoQueue.finishBlock ((queuePacket (cleared smallPackets parityQueue) packet
      length false true).getD (cleared smallPackets parityQueue))).2).length = 1 := by
  have queued : queuePacket (cleared smallPackets parityQueue) packet length false true =
      some (insertPacket { cleared smallPackets parityQueue with useFastQueuePath := false }
        packet length false true false) := by
    unfold VideoQueue.queuePacket
    dsimp only
    rw [number, if_neg (by decide), if_neg (by decide)]
    rfl
  have last : ¬ (parityQueue.multiFecCurrentBlockNumber < parityQueue.multiFecLastBlockNumber) := by
    decide
  rw [queued, Option.getD_some]
  exact finishBlock_repaired rfl rfl rfl rfl number last

theorem takeRecovered_copied {shards : Shards smallPackets.receiveSize}
    (flagged : shards 0 ⟨24, by decide⟩ = ⟨7⟩) :
    let taken := takeRecovered smallPackets (marksOf parityQueue) shards
      (true, cleared smallPackets parityQueue) 0
    taken.1 = true ∧ (submitted (VideoQueue.finishBlock taken.2).2).length = 1 := by
  intro taken
  obtain ⟨same_header, bytes⟩ := restoreFields_bytes (cleared smallPackets parityQueue) 0 fun byte =>
    if within : byte < smallPackets.receiveSize then (shards 0 ⟨byte, within⟩).byte else 0
  have first : ∀ packet, ((cleared smallPackets parityQueue).pendingFecBlockList.map
      Entry.packet).headD packet =
        (padEntry smallPackets.receiveSize (newEntry heldParity 40 true)).packet := fun _ => rfl
  have first_offset : dataOffset
      (padEntry smallPackets.receiveSize (newEntry heldParity 40 true)).packet = 16 := by decide
  obtain ⟨number, -, -⟩ := @restoreFields_key (cleared smallPackets parityQueue) (by decide)
    (by decide) 0 fun byte =>
      if within : byte < smallPackets.receiveSize then (shards 0 ⟨byte, within⟩).byte else 0
  rw [first] at same_header bytes
  rw [first_offset] at bytes
  have offset := (dataOffset_congr same_header).trans first_offset
  have restored := (bytes 24 (Or.inr (Or.inl rfl))).trans (congrArg Gf.byte flagged)
  unfold taken VideoQueue.takeRecovered
  rw [if_pos (by decide)]
  dsimp only
  unfold VideoPacket.flags
  rw [offset, restored, if_pos (by decide)]
  exact ⟨rfl, submitted_copied number _⟩

theorem reconstructFrame_copied {rs : ReedSolomon} (made : reed_solomon_new 1 1 = some rs) :
    ∃ next, reconstructFrame smallPackets parityQueue (some fun _ _ => 0) = (true, next, []) ∧
      (submitted (VideoQueue.finishBlock next).2).length = 1 := by
  obtain ⟨codec, data_shards, parity_shards⟩ := reed_solomon_new_codec made
  have one_data : rs.data_shards = 1 := by exact_mod_cast data_shards
  have one_parity : rs.parity_shards = 1 := by exact_mod_cast parity_shards
  have two : rs.shards = 2 := by rw [codec.shards, one_data, one_parity]
  have recoverable : Recoverable rs 1 (marksOf parityQueue) 0 := by
    rw [Recoverable, lostData, keptParity, one_data, one_parity]
    decide
  have success := reconstruct_result made (marksOf parityQueue)
    (packetsOf (cleared smallPackets parityQueue) smallPackets.receiveSize fun _ _ => 0)
  rw [if_pos recoverable] at success
  have flagged := @column_recovered _ rs 1 1 made (marksOf parityQueue) (fun _ _ => ⟨7⟩)
    (packetsOf (cleared smallPackets parityQueue) smallPackets.receiveSize fun _ _ => 0)
    ⟨24, by decide⟩ (by
      rw [two]
      intro block below there
      obtain rfl | rfl : block = 0 ∨ block = 1 := by omega
      · exact absurd there (by decide)
      · rw [(encode_one made _).2]
        decide) success 0 (by omega)
  rw [two] at success flagged
  have count : parityQueue.bufferDataPackets + parityQueue.bufferParityPackets = 2 := by decide
  have made_here : reed_solomon_new (parityQueue.bufferDataPackets : ℤ)
      (parityQueue.bufferParityPackets : ℤ) = some rs := made
  have padded_queue : { parityQueue with
      pendingFecBlockList := parityQueue.pendingFecBlockList.map
        (padEntry smallPackets.receiveSize) } = cleared smallPackets parityQueue := rfl
  unfold reconstructFrame
  rw [if_neg (by decide)]
  dsimp only
  rw [if_neg (by decide), if_neg (by decide), if_neg (by decide), made_here]
  dsimp only
  rw [count, padded_queue]
  generalize reed_solomon_reconstruct rs (marksOf parityQueue) 2
    (packetsOf (cleared smallPackets parityQueue) smallPackets.receiveSize fun _ _ => 0) = repaired
    at success flagged ⊢
  obtain ⟨fine, passed⟩ := takeRecovered_copied flagged
  rw [if_neg (not_not.mpr success)]
  exact ⟨_, Prod.ext fine rfl, passed⟩

theorem run_one (settings : Settings) (multiFecCapable : Bool) (arrival : Arrival) :
    (run settings multiFecCapable [arrival]).2 =
      [(RtpvAddPacket settings (RtpvInitializeQueue multiFecCapable) arrival.packet arrival.length
        arrival.now arrival.allocated).2] := rfl

theorem openBlock_copied : VideoQueue.openBlock (RtpvInitializeQueue true) heldParity 3 =
    (true, openedQueue, [.connectionSawFrame 1]) := by
  rw [VideoQueue.openBlock, if_pos (by decide), if_neg (by decide), if_neg (by decide)]
  rfl

theorem queuePacket_copied : queuePacket openedQueue heldParity 40
    (!isBefore16 (sequenceNumber heldParity) openedQueue.bufferFirstParitySequenceNumber) false =
      some ((queuePacket openedQueue heldParity 40 true false).getD openedQueue) := by
  have parity : (!isBefore16 (sequenceNumber heldParity)
      openedQueue.bufferFirstParitySequenceNumber) = true := by decide
  rw [parity]
  rfl

theorem countPacket_copied :
    countPacket ((queuePacket openedQueue heldParity 40 true false).getD openedQueue)
      (sequenceNumber heldParity) = parityQueue := by
  have number : sequenceNumber heldParity = 8 := by decide
  rw [number]
  rfl

theorem addPacket_copied {next : RtpVideoQueue}
    (rebuilt : reconstructFrame smallPackets parityQueue (some fun _ _ => 0) = (true, next, [])) :
    (RtpvAddPacket smallPackets (RtpvInitializeQueue true) (copiedPacket 1) 40 3
      (some fun _ _ => 0)).2 = .connectionSawFrame 1 :: (VideoQueue.finishBlock next).2 := by
  rw [← countPacket_copied] at rebuilt
  have taken := takePacket_completes (by decide) queuePacket_copied rebuilt
  have added := @addPacket_takes smallPackets (RtpvInitializeQueue true) openedQueue
    (copiedPacket 1) heldParity 40 3 (some fun _ _ => 0) [.connectionSawFrame 1] rfl (by decide)
    (by decide) (by decide) (by decide) openBlock_copied
  rw [added, taken]
  rfl

theorem onlyParity_outputs : ∃ outputs ∈ (run smallPackets true onlyParity).2,
    (submitted outputs).length = 1 := by
  obtain ⟨rs, made⟩ :=
    Option.isSome_iff_exists.mp ((reed_solomon_new_isSome 1 1).mpr (by decide))
  obtain ⟨next, rebuilt, passed⟩ := reconstructFrame_copied made
  rw [onlyParity, run_one]
  refine ⟨_, List.mem_singleton_self _, ?_⟩
  dsimp only
  rw [addPacket_copied rebuilt]
  exact passed

end Runs

end MoonlightWii.Limelight.VideoRecovery
