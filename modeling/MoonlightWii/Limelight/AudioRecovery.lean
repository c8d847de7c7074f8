import MoonlightWii.Limelight.AudioOrder

/-!
# What the audio packets carry

With a host that encodes its packets with the parity matrix of the queue, a packet that the queue
recovers is the one that the host sent.
-/

set_option autoImplicit false

namespace MoonlightWii.Limelight.AudioRecovery

open RtpNumbers AudioQueue AudioOrder Fec.ByteField Fec.ShardRecovery Foundation.ErasureCode

section Parity

theorem parityEntry_mul (r c s d : ℕ) :
    parityEntry r c * parityEntry s d = ⟨schoolbook (parityBytes.getD (r * 4 + c) 0)
      (parityBytes.getD (s * 4 + d) 0)⟩ :=
  mul_eq_schoolbook _ _

theorem parity_strong :
    Strong fun (row : Fin RTPA_FEC_SHARDS) (column : Fin RTPA_DATA_SHARDS) =>
      parityEntry row column := by
  refine strong_of_two_rows (fun row column => ?_) fun c d differ => ?_
  · have entries : ∀ (row : Fin 2) (column : Fin 4),
        parityBytes.getD (row.val * 4 + column.val) 0 ≠ 0 := by decide
    exact mk_ne_zero (entries row column)
  · have minors : ∀ c d : Fin 4, c ≠ d →
        schoolbook (parityBytes.getD (0 * 4 + c.val) 0) (parityBytes.getD (1 * 4 + d.val) 0) ≠
          schoolbook (parityBytes.getD (0 * 4 + d.val) 0)
            (parityBytes.getD (1 * 4 + c.val) 0) := by decide
    intro same
    have products := (parityEntry_mul 0 c 1 d).symm.trans (same.trans (parityEntry_mul 0 d 1 c))
    exact minors c d differ (Gf.mk.inj products)

/-- The matrix of the audio packets recovers any loss as well as the one it replaces. -/
theorem queueCodec_spec {rs : ReedSolomon} (made : queueCodec = some rs) :
    Codec rs ∧ rs.data_shards = RTPA_DATA_SHARDS ∧ rs.parity_shards = RTPA_FEC_SHARDS := by
  unfold queueCodec at made
  obtain ⟨original, created, rfl⟩ := Option.map_eq_some_iff.mp made
  obtain ⟨codec, data, parity⟩ := reed_solomon_new_codec created
  have four : original.data_shards = 4 := by exact_mod_cast data
  have two : original.parity_shards = 2 := by exact_mod_cast parity
  refine ⟨⟨codec.shards, codec.some_data, ?_, ?_, ?_⟩, four, two⟩
  · intro i hi c hc
    have row : i < RTPA_DATA_SHARDS := hi.trans_eq four
    exact (if_pos row).trans (codec.symbols i hi c hc)
  · intro j _ c _
    have row : ¬ original.data_shards + j < RTPA_DATA_SHARDS := by
      rw [four]
      exact Nat.not_lt.mpr (Nat.le_add_right _ _)
    have place : original.data_shards + j - RTPA_DATA_SHARDS = j := by
      rw [four]
      exact Nat.add_sub_cancel_left _ _
    exact (if_neg row).trans (congrArg (fun row => parityEntry row c) place)
  · change Strong fun (row : Fin original.parity_shards) (column : Fin original.data_shards) =>
      parityEntry row column
    rw [four, two]
    exact parity_strong

end Parity

section Host

/-- The payloads of a block, before they are encoded. -/
def blockShards (sent : UInt16 → RtpPacket) (base : UInt16) (size : ℕ) : Shards size := fun i =>
  if i < RTPA_DATA_SHARDS then shardOf size (sent (base + UInt16.ofNat i)).payload else 0

def parityShard (rs : ReedSolomon) (sent : UInt16 → RtpPacket) (base : UInt16) (size index : ℕ) :
    Fin size → Gf :=
  reed_solomon_encode rs RTPA_TOTAL_SHARDS (blockShards sent base size) (RTPA_DATA_SHARDS + index)

/-- The header that the parity packets of a block carry. -/
def headerOf (sent : UInt16 → RtpPacket) (base : UInt16) : AudioFecHeader :=
  ⟨ RTP_PAYLOAD_TYPE_AUDIO, base, (sent base).rtp.timestamp, (sent base).rtp.ssrc⟩

/-- Each number stands for one packet, and the four packets of a block go together. -/
structure Host (duration : UInt32) (sent : UInt16 → RtpPacket) : Prop where
  header : ∀ number, (sent number).rtp = ⟨0x80, RTP_PAYLOAD_TYPE_AUDIO, number,
    (sent (number / 4 * 4)).rtp.timestamp + (number - number / 4 * 4).toUInt32 * duration,
    (sent (number / 4 * 4)).rtp.ssrc⟩
  size : ∀ number, (sent number).payload.length = (sent (number / 4 * 4)).payload.length

/-- What arrives is a packet of the host, the parity of one of its blocks, or of neither type. -/
structure FromHost (rs : ReedSolomon) (sent : UInt16 → RtpPacket) (packet : RtpPacket) : Prop where
  audio : packet.rtp.packetType = RTP_PAYLOAD_TYPE_AUDIO → packet = sent packet.rtp.sequenceNumber
  fec : packet.rtp.packetType = RTP_PAYLOAD_TYPE_FEC → ∀ index fecHeader data,
    readFecHeader packet.payload = some (index, fecHeader, data) → index < RTPA_FEC_SHARDS →
      fecHeader.baseSequenceNumber % 4 = 0 ∧
        fecHeader = headerOf sent fecHeader.baseSequenceNumber ∧
        data.length = (sent fecHeader.baseSequenceNumber).payload.length ∧
        shardOf data.length data =
          parityShard rs sent fecHeader.baseSequenceNumber data.length index

/-- How many of the places are not marked. -/
def received (marks : ℕ → Bool) (first count : ℕ) : ℕ :=
  ((List.range count).filter fun i => !marks (first + i)).length

/-- A block holds what the host sent, as far as it is there. -/
structure Sound (rs : ReedSolomon) (sent : UInt16 → RtpPacket) (block : FecBlock) : Prop where
  aligned : block.fecHeader.baseSequenceNumber.toNat % 4 = 0
  header : block.fecHeader = headerOf sent block.fecHeader.baseSequenceNumber
  size : block.blockSize = (sent block.fecHeader.baseSequenceNumber).payload.length
  data : ∀ i < RTPA_DATA_SHARDS, block.marks i = false →
    block.dataPackets i = (sent (block.fecHeader.baseSequenceNumber + UInt16.ofNat i)).rtp ∧
      block.shards i = blockShards sent block.fecHeader.baseSequenceNumber block.blockSize i
  parity : ∀ i < RTPA_FEC_SHARDS, block.marks (RTPA_DATA_SHARDS + i) = false →
    block.shards (RTPA_DATA_SHARDS + i) =
      parityShard rs sent block.fecHeader.baseSequenceNumber block.blockSize i
  counts : block.fullyReassembled = false →
    block.dataShardsReceived = received block.marks 0 RTPA_DATA_SHARDS ∧
      block.fecShardsReceived = received block.marks RTPA_DATA_SHARDS RTPA_FEC_SHARDS

theorem received_succ (marks : ℕ → Bool) (first count : ℕ) :
    received marks first (count + 1) =
      received marks first count + if marks (first + count) then 0 else 1 := by
  unfold received
  rw [List.range_succ, List.filter_append, List.length_append]
  cases mark : marks (first + count) <;> simp [mark]

theorem received_other (marks : ℕ → Bool) {first count other : ℕ}
    (outside : ∀ i < count, first + i ≠ other) (mark : Bool) :
    received (Function.update marks other mark) first count = received marks first count := by
  unfold received
  refine congrArg List.length (List.filter_congr fun i member => ?_)
  rw [Function.update_of_ne (outside i (List.mem_range.mp member))]

theorem received_insert (marks : ℕ → Bool) {first count pos : ℕ} (within : pos < count)
    (missing : marks (first + pos) = true) :
    received (Function.update marks (first + pos) false) first count =
      received marks first count + 1 := by
  induction count with
  | zero => exact absurd within (Nat.not_lt_zero pos)
  | succ count ih =>
      rw [received_succ, received_succ]
      rcases Nat.lt_succ_iff_lt_or_eq.mp within with earlier | rfl
      · rw [ih earlier, Function.update_of_ne (by omega)]
        omega
      · rw [received_other marks (by omega), Function.update_self, missing]
        rfl

theorem received_lost (marks : ℕ → Bool) (first count : ℕ) :
    received marks first count + ((List.range count).filter fun i => marks (first + i)).length =
      count :=
  intact_length (fun i => marks (first + i)) count

end Host

section Blocks

variable {rs : ReedSolomon} {sent : UInt16 → RtpPacket} {duration : UInt32}

/-- What the queue relies on in its codec. -/
structure AudioCodec (rs : ReedSolomon) : Prop extends Codec rs where
  four : rs.data_shards = RTPA_DATA_SHARDS
  two : rs.parity_shards = RTPA_FEC_SHARDS

/-- Four shards of a block are enough. -/
theorem AudioCodec.recovers (codec : AudioCodec rs) {size : ℕ} {base : UInt16} {marks : ℕ → Bool}
    {shards : Shards size}
    (data : ∀ i < RTPA_DATA_SHARDS, marks i = false → shards i = blockShards sent base size i)
    (parity : ∀ i < RTPA_FEC_SHARDS, marks (RTPA_DATA_SHARDS + i) = false →
      shards (RTPA_DATA_SHARDS + i) = parityShard rs sent base size i)
    (enough : RTPA_DATA_SHARDS ≤ received marks 0 RTPA_DATA_SHARDS +
      received marks RTPA_DATA_SHARDS RTPA_FEC_SHARDS) :
    (reed_solomon_reconstruct rs marks RTPA_TOTAL_SHARDS shards).1 = 0 ∧
      (∀ i < RTPA_DATA_SHARDS, (reed_solomon_reconstruct rs marks RTPA_TOTAL_SHARDS shards).2 i =
        blockShards sent base size i) ∧
      ∀ i ≥ RTPA_DATA_SHARDS,
        (reed_solomon_reconstruct rs marks RTPA_TOTAL_SHARDS shards).2 i = shards i := by
  have total : RTPA_TOTAL_SHARDS = 1 * rs.shards := by
    rw [codec.shards, codec.four, codec.two, Nat.one_mul]
    rfl
  obtain ⟨encoded, kept⟩ := reed_solomon_encode_spec codec.toCodec 1 (blockShards sent base size)
  have data_places : ∀ i < rs.data_shards,
      reed_solomon_encode rs (1 * rs.shards) (blockShards sent base size) i =
        blockShards sent base size i := by
    intro i below
    exact kept i (Or.inl (by rwa [Nat.one_mul]))
  have arrived : ∀ j < 1, Arrived rs 1 marks
      (reed_solomon_encode rs (1 * rs.shards) (blockShards sent base size)) j shards := by
    intro j below
    rw [Nat.lt_one_iff.mp below]
    constructor
    · intro i within there
      rw [Nat.zero_mul, Nat.zero_add] at there ⊢
      rw [data_places i within]
      exact data i (within.trans_eq codec.four) there
    · intro i within there
      rw [Nat.zero_mul, Nat.add_zero, Nat.one_mul, codec.four] at there ⊢
      rw [← Nat.one_mul rs.shards, ← total]
      exact parity i (within.trans_eq codec.two) there
  have recoverable : ∀ j < 1, Recoverable rs 1 marks j := by
    intro j below
    rw [Nat.lt_one_iff.mp below, Recoverable, lostData, keptParity, codec.four, codec.two]
    have lost := received_lost marks 0 RTPA_DATA_SHARDS
    simp only [Nat.zero_mul, Nat.add_zero, Nat.one_mul]
    unfold received at lost enough
    omega
  have repaired := reed_solomon_reconstruct_repairs codec.toCodec encoded arrived
  rw [total]
  refine ⟨repaired.error.trans (if_pos recoverable), fun i below => ?_, fun i beyond => ?_⟩
  · have restored := repaired.restored 0 Nat.one_pos (recoverable 0 Nat.one_pos) i
      (below.trans_eq codec.four.symm)
    rw [Nat.zero_mul, Nat.zero_add, data_places i (below.trans_eq codec.four.symm)] at restored
    exact restored
  · exact repaired.others i (by rw [Nat.one_mul, codec.four]; exact beyond)

/-- A packet of a block, by its place. -/
theorem Host.packet (host : Host duration sent) {base : UInt16} (aligned : base.toNat % 4 = 0)
    {i : ℕ} (below : i < 4) :
    (sent (base + UInt16.ofNat i)).rtp = ⟨0x80, RTP_PAYLOAD_TYPE_AUDIO, base + UInt16.ofNat i,
      (sent base).rtp.timestamp + UInt32.ofNat i * duration, (sent base).rtp.ssrc⟩ ∧
      (sent (base + UInt16.ofNat i)).payload.length = (sent base).payload.length := by
  have start : (base + UInt16.ofNat i) / 4 * 4 = base := by
    apply UInt16.toNat_inj.mp
    have sum := @toNat_add_small base i (by omega)
    have bound := base.toNat_lt
    rw [base_toNat]
    omega
  have distance : (base + UInt16.ofNat i - base).toUInt32 = UInt32.ofNat i := by
    rw [UInt16.add_comm, UInt16.add_sub_cancel]
    apply UInt32.toNat_inj.mp
    rw [UInt16.toNat_toUInt32, UInt16.toNat_ofNat_of_lt' (by change i < 65536; omega),
      UInt32.toNat_ofNat_of_lt' (by change i < 4294967296; omega)]
  have header := host.header (base + UInt16.ofNat i)
  have size := host.size (base + UInt16.ofNat i)
  rw [start] at header size
  rw [distance] at header
  exact ⟨header, size⟩

theorem Sound.complete (codec : AudioCodec rs) (host : Host duration sent) {block : FecBlock}
    (sound : Sound rs sent block) (unfinished : block.fullyReassembled = false) :
    Sound rs sent (if (completeFecBlock rs duration block).1 then
      { (completeFecBlock rs duration block).2 with fullyReassembled := true }
      else (completeFecBlock rs duration block).2) := by
  obtain ⟨data_count, fec_count⟩ := sound.counts unfinished
  unfold completeFecBlock
  dsimp only
  by_cases few : block.dataShardsReceived + block.fecShardsReceived < RTPA_DATA_SHARDS
  · rw [if_pos few, if_neg Bool.false_ne_true]
    exact sound
  rw [if_neg few]
  by_cases all : block.dataShardsReceived = RTPA_DATA_SHARDS
  · rw [if_pos all, if_pos rfl]
    exact ⟨sound.aligned, sound.header, sound.size, sound.data, sound.parity,
      fun unfinished => Bool.noConfusion unfinished⟩
  rw [if_neg all]
  obtain ⟨result, data, parity⟩ :=
    codec.recovers (fun i below there => (sound.data i below there).2) sound.parity (by omega)
  rw [if_neg (not_not.mpr result), if_pos rfl]
  refine ⟨sound.aligned, sound.header, sound.size, ?_, ?_,
    fun unfinished => Bool.noConfusion unfinished⟩
  · intro i below _
    refine ⟨?_, data i below⟩
    dsimp only
    split_ifs with recovered
    · rw [(host.packet sound.aligned below).1, sound.header]
      rfl
    · refine (sound.data i below ?_).1
      exact Bool.eq_false_of_not_eq_true fun marked => recovered ⟨below, marked⟩
  · intro i below there
    dsimp only at there ⊢
    rw [if_neg (by omega)] at there
    rw [parity _ (Nat.le_add_right _ _)]
    exact sound.parity i below there

theorem Sound.copyData {block : FecBlock} (sound : Sound rs sent block)
    (unfinished : block.fullyReassembled = false) {pos : ℕ} (within : pos < RTPA_DATA_SHARDS)
    (missing : block.marks pos = true) {packet : RtpPacket}
    (own : packet = sent (block.fecHeader.baseSequenceNumber + UInt16.ofNat pos)) :
    Sound rs sent (AudioQueue.copyData block pos packet) where
  aligned := sound.aligned
  header := sound.header
  size := sound.size
  data := by
    intro i below there
    change Function.update block.marks pos false i = false at there
    change Function.update block.dataPackets pos packet.rtp i = _ ∧
      Function.update block.shards pos (shardOf block.blockSize packet.payload) i = _
    by_cases here : i = pos
    · subst here
      rw [Function.update_self, Function.update_self, own]
      exact ⟨rfl, (if_pos below).symm⟩
    · rw [Function.update_of_ne here] at there ⊢
      rw [Function.update_of_ne here]
      exact sound.data i below there
  parity := by
    intro i below there
    have apart : RTPA_DATA_SHARDS + i ≠ pos := by omega
    change Function.update block.marks pos false (RTPA_DATA_SHARDS + i) = false at there
    change Function.update block.shards pos _ (RTPA_DATA_SHARDS + i) = _
    rw [Function.update_of_ne apart] at there ⊢
    exact sound.parity i below there
  counts := by
    intro _
    obtain ⟨data_count, fec_count⟩ := sound.counts unfinished
    have inserted := @received_insert block.marks 0 RTPA_DATA_SHARDS pos within
      (by rwa [Nat.zero_add])
    rw [Nat.zero_add] at inserted
    exact ⟨(congrArg (· + 1) data_count).trans inserted.symm,
      fec_count.trans (received_other block.marks (by omega) false).symm⟩

theorem Sound.copyFec {block : FecBlock} (sound : Sound rs sent block)
    (unfinished : block.fullyReassembled = false) {index : ℕ} (within : index < RTPA_FEC_SHARDS)
    (missing : block.marks (RTPA_DATA_SHARDS + index) = true) {data : List UInt8}
    (own : shardOf block.blockSize data =
      parityShard rs sent block.fecHeader.baseSequenceNumber block.blockSize index) :
    Sound rs sent (AudioQueue.copyFec block index data) where
  aligned := sound.aligned
  header := sound.header
  size := sound.size
  data := by
    intro i below there
    have apart : i ≠ RTPA_DATA_SHARDS + index := by omega
    change Function.update block.marks (RTPA_DATA_SHARDS + index) false i = false at there
    change block.dataPackets i = _ ∧
      Function.update block.shards (RTPA_DATA_SHARDS + index) _ i = _
    rw [Function.update_of_ne apart] at there ⊢
    exact sound.data i below there
  parity := by
    intro i below there
    change Function.update block.marks (RTPA_DATA_SHARDS + index) false
      (RTPA_DATA_SHARDS + i) = false at there
    change Function.update block.shards (RTPA_DATA_SHARDS + index)
      (shardOf block.blockSize data) (RTPA_DATA_SHARDS + i) = _
    by_cases here : i = index
    · subst here
      rw [Function.update_self]
      exact own
    · rw [Function.update_of_ne (by omega)] at there ⊢
      exact sound.parity i below there
  counts := by
    intro _
    obtain ⟨data_count, fec_count⟩ := sound.counts unfinished
    exact ⟨data_count.trans (received_other block.marks (by omega) false).symm,
      (congrArg (· + 1) fec_count).trans (received_insert block.marks within missing).symm⟩

theorem newBlock_sound {fecHeader : AudioFecHeader}
    (aligned : fecHeader.baseSequenceNumber.toNat % 4 = 0)
    (header : fecHeader = headerOf sent fecHeader.baseSequenceNumber) (now : UInt64)
    (slab : Slab) :
    Sound rs sent (newBlock fecHeader (sent fecHeader.baseSequenceNumber).payload.length now
      slab) where
  aligned := aligned
  header := header
  size := rfl
  data := fun _ _ there => Bool.noConfusion there
  parity := fun _ _ there => Bool.noConfusion there
  counts := fun _ => ⟨rfl, rfl⟩

theorem Sound.passed {block : FecBlock} (sound : Sound rs sent block) (index : ℕ)
    (discontinuity : Bool) :
    Sound rs sent { block with
      nextDataPacketIndex := index
      allowDiscontinuity := discontinuity } :=
  ⟨sound.aligned, sound.header, sound.size, sound.data, sound.parity, sound.counts⟩

end Blocks

section Queue

variable {rs : ReedSolomon} {sent : UInt16 → RtpPacket} {duration : UInt32}
  {queue : RtpAudioQueue} {packet : RtpPacket} {now : UInt64}

theorem freeFecBlockHead_sound (sound : ∀ block ∈ queue.blocks, Sound rs sent block) :
    ∀ block ∈ (freeFecBlockHead queue).blocks, Sound rs sent block := by
  unfold freeFecBlockHead
  cases blocks : queue.blocks with
  | nil =>
      dsimp only
      exact sound
  | cons head rest =>
      rw [blocks] at sound
      exact fun block member => sound block (List.mem_cons_of_mem head member)

theorem passPacket_sound (sound : ∀ block ∈ queue.blocks, Sound rs sent block) :
    ∀ block ∈ (passPacket queue).blocks, Sound rs sent block := by
  unfold passPacket
  by_cases blocks : queue.blocks = []
  · rw [blocks]
    dsimp only
    exact sound
  obtain ⟨head, rest, blocks⟩ := List.exists_cons_of_ne_nil blocks
  rw [blocks] at sound ⊢
  rw [List.forall_mem_cons] at sound
  dsimp only
  split_ifs
  · exact sound.2
  · exact List.forall_mem_cons.mpr ⟨sound.1.passed _ _, sound.2⟩

theorem handleMissing_sound (sound : ∀ block ∈ queue.blocks, Sound rs sent block) :
    ∀ block ∈ (handleMissingPackets duration now queue).blocks, Sound rs sent block := by
  by_cases blocks : queue.blocks = []
  · unfold handleMissingPackets
    rw [blocks]
    dsimp only
    exact sound
  obtain ⟨head, rest, blocks⟩ := List.exists_cons_of_ne_nil blocks
  rw [handleMissing_cons duration now blocks]
  split_ifs
  · exact sound
  · exact sound
  · rw [blocks, List.forall_mem_cons] at sound
    exact List.forall_mem_cons.mpr ⟨sound.1.passed _ _, sound.2⟩
  · exact sound

theorem finishAdd_sound (codec : AudioCodec rs) (host : Host duration sent)
    {earlier later : List FecBlock} {block : FecBlock}
    (others : ∀ other ∈ earlier ++ later, Sound rs sent other) (sound : Sound rs sent block)
    (unfinished : block.fullyReassembled = false) :
    ∀ other ∈ (finishAdd rs duration now queue earlier block later).1.blocks,
      Sound rs sent other := by
  have completed := sound.complete codec host unfinished
  have all : ∀ other ∈ earlier ++ (if (completeFecBlock rs duration block).1 then
      { (completeFecBlock rs duration block).2 with fullyReassembled := true }
      else (completeFecBlock rs duration block).2) :: later, Sound rs sent other := by
    intro other member
    rcases mem_middle.mp member with rfl | elsewhere
    · exact completed
    · exact others other elsewhere
  unfold finishAdd
  dsimp only
  generalize queueHasPacketReady _ = ready
  cases ready with
  | false => exact handleMissing_sound all
  | true => exact all

theorem locate_missing {base : UInt16} {earlier blocks before after : List FecBlock}
    (absent : locate base earlier blocks = (before, none, after)) :
    earlier ++ blocks = before ++ after := by
  induction blocks generalizing earlier with
  | nil =>
      cases absent
      rfl
  | cons existing rest ih =>
      rw [locate] at absent
      split_ifs at absent
      · cases absent
      · cases absent
        rfl
      · have later := ih absent
        rwa [List.append_assoc, List.singleton_append] at later

theorem packetBlock_compatible (from_host : FromHost rs sent packet)
    (compatible : queue.incompatibleServer = false) :
    (packetBlock duration queue packet).1.incompatibleServer = false := by
  unfold packetBlock
  split_ifs with audio fec
  · dsimp only
    unfold noteOrder
    split_ifs <;> exact compatible
  · cases shard : readFecHeader packet.payload with
    | none => exact compatible
    | some fields =>
        obtain ⟨index, fecHeader, data⟩ := fields
        dsimp only
        split_ifs with large unaligned
        · exact compatible
        · exact absurd (from_host.fec fec index fecHeader data shard (Nat.lt_of_not_le large)).1
            unaligned
        · exact compatible
  · exact compatible

/-- The block that a packet is put into is the host's. -/
theorem packetBlock_header (host : Host duration sent) (from_host : FromHost rs sent packet)
    {fecHeader : AudioFecHeader} {blockSize : ℕ}
    (wanted : (packetBlock duration queue packet).2 = some (fecHeader, blockSize)) :
    fecHeader = headerOf sent fecHeader.baseSequenceNumber ∧
      blockSize = (sent fecHeader.baseSequenceNumber).payload.length := by
  unfold packetBlock at wanted
  split_ifs at wanted with audio fec
  · cases wanted
    have own := from_host.audio audio
    have header := host.header packet.rtp.sequenceNumber
    rw [← own] at header
    refine ⟨?_, ?_⟩
    · unfold headerOf
      rw [header]
      dsimp only
      rw [UInt32.add_sub_cancel]
    · exact (congrArg (fun packet => packet.payload.length) own).trans (host.size _)
  · cases shard : readFecHeader packet.payload with
    | none =>
        rw [shard] at wanted
        cases wanted
    | some fields =>
        obtain ⟨index, header, data⟩ := fields
        rw [shard] at wanted
        dsimp only at wanted
        split_ifs at wanted with large unaligned
        cases wanted
        obtain ⟨-, header, size, -⟩ :=
          from_host.fec fec index _ data shard (Nat.lt_of_not_le large)
        exact ⟨header, size⟩

/-- What the block lookup tells about a parity packet. -/
theorem packetBlock_fec {fecHeader : AudioFecHeader} {blockSize : ℕ}
    (other : packet.rtp.packetType ≠ RTP_PAYLOAD_TYPE_AUDIO)
    (wanted : (packetBlock duration queue packet).2 = some (fecHeader, blockSize)) :
    packet.rtp.packetType = RTP_PAYLOAD_TYPE_FEC ∧ ∃ index data,
      readFecHeader packet.payload = some (index, fecHeader, data) ∧ index < RTPA_FEC_SHARDS ∧
        data.length = blockSize := by
  unfold packetBlock at wanted
  rw [if_neg other] at wanted
  split_ifs at wanted with fec
  cases shard : readFecHeader packet.payload with
  | none =>
      rw [shard] at wanted
      cases wanted
  | some fields =>
      obtain ⟨index, header, data⟩ := fields
      rw [shard] at wanted
      dsimp only at wanted
      split_ifs at wanted with large unaligned
      cases wanted
      exact ⟨fec, index, data, rfl, Nat.lt_of_not_le large, rfl⟩

theorem getFecBlock_sound (host : Host duration sent) (from_host : FromHost rs sent packet)
    (compatible : queue.incompatibleServer = false)
    (sound : ∀ block ∈ queue.blocks, Sound rs sent block) (slab : Option Slab) :
    (∀ block ∈ (getFecBlockForRtpPacket duration queue packet now slab).1.blocks,
        Sound rs sent block) ∧
      (getFecBlockForRtpPacket duration queue packet now slab).1.incompatibleServer = false ∧
      ∀ earlier block later,
        (getFecBlockForRtpPacket duration queue packet now slab).2 =
            some (earlier, block, later) →
          block.fullyReassembled = false ∧ ∃ fecHeader,
            (packetBlock duration queue packet).2 = some (fecHeader, block.blockSize) ∧
              block.fecHeader.baseSequenceNumber = fecHeader.baseSequenceNumber := by
  have blocks := (packetBlock_same duration queue packet).1
  have still_compatible :=
    @packetBlock_compatible rs sent duration queue packet from_host compatible
  have aligned : ∀ fecHeader blockSize,
      (packetBlock duration queue packet).2 = some (fecHeader, blockSize) →
        fecHeader.baseSequenceNumber.toNat % 4 = 0 :=
    fun _ _ wanted => (packetBlock_base wanted).1
  have header : ∀ fecHeader blockSize,
      (packetBlock duration queue packet).2 = some (fecHeader, blockSize) →
        fecHeader = headerOf sent fecHeader.baseSequenceNumber ∧
          blockSize = (sent fecHeader.baseSequenceNumber).payload.length :=
    fun _ _ wanted => packetBlock_header host from_host wanted
  unfold getFecBlockForRtpPacket
  generalize packetBlock duration queue packet = result at blocks still_compatible aligned header ⊢
  obtain ⟨noted, wanted⟩ := result
  dsimp only at blocks still_compatible aligned header
  rw [← blocks] at sound
  cases wanted with
  | none => exact ⟨sound, still_compatible, fun _ _ _ none => absurd none (by simp)⟩
  | some fields =>
      obtain ⟨fecHeader, blockSize⟩ := fields
      obtain ⟨own_header, own_size⟩ := header fecHeader blockSize rfl
      dsimp only
      split_ifs with resync early
      · exact ⟨sound, still_compatible, fun _ _ _ none => absurd none (by simp)⟩
      · exact ⟨sound, still_compatible, fun _ _ _ none => absurd none (by simp)⟩
      · cases search : locate fecHeader.baseSequenceNumber [] noted.blocks with
        | mk before found =>
            obtain ⟨existing, after⟩ := found
            cases existing with
            | some block =>
                obtain ⟨all, same⟩ := locate_found search
                rw [List.nil_append] at all
                have member : block ∈ noted.blocks := all ▸ mem_middle.mpr (Or.inl rfl)
                dsimp only
                split_ifs with differs finished
                · -- all packets of a block are of one size
                  have size := (sound block member).size
                  rw [same, ← own_size] at size
                  exact absurd size differs
                · exact ⟨sound, still_compatible, fun _ _ _ none => absurd none (by simp)⟩
                · refine ⟨sound, still_compatible, fun earlier other later is_found => ?_⟩
                  cases is_found
                  refine ⟨Bool.eq_false_of_not_eq_true finished, fecHeader, ?_, same⟩
                  rw [not_not.mp differs]
            | none =>
                dsimp only
                cases slab with
                | none => exact ⟨sound, still_compatible, fun _ _ _ none => absurd none (by simp)⟩
                | some slab =>
                    refine ⟨?_, still_compatible, fun earlier other later is_found => ?_⟩
                    · intro other member
                      have all := locate_missing search
                      rw [List.nil_append] at all
                      rcases mem_middle.mp member with rfl | elsewhere
                      · rw [own_size]
                        exact newBlock_sound (aligned fecHeader blockSize rfl) own_header now slab
                      · exact sound other (all ▸ elsewhere)
                    · cases is_found
                      exact ⟨rfl, fecHeader, rfl, rfl⟩

end Queue

section Runs

variable {rs : ReedSolomon} {sent : UInt16 → RtpPacket} {duration : UInt32}

/-- The queue and what it has delivered are the host's. -/
structure Genuine (rs : ReedSolomon) (sent : UInt16 → RtpPacket) (state : State) : Prop where
  sound : ∀ block ∈ state.queue.blocks, Sound rs sent block
  compatible : state.queue.incompatibleServer = false
  delivered : ∀ delivery ∈ state.delivered, ∀ packet, delivery.entry = some packet →
    packet = sent delivery.number

theorem handleMissing_compatible (duration : UInt32) (now : UInt64) (queue : RtpAudioQueue) :
    (handleMissingPackets duration now queue).incompatibleServer = queue.incompatibleServer := by
  unfold handleMissingPackets
  cases queue.blocks with
  | nil => rfl
  | cons head rest =>
      dsimp only
      split_ifs <;> rfl

theorem finishAdd_compatible (rs : ReedSolomon) (duration : UInt32) (now : UInt64)
    (queue : RtpAudioQueue) (earlier : List FecBlock) (block : FecBlock) (later : List FecBlock) :
    (finishAdd rs duration now queue earlier block later).1.incompatibleServer =
      queue.incompatibleServer := by
  unfold finishAdd
  dsimp only
  generalize queueHasPacketReady _ = ready
  cases ready with
  | false => exact handleMissing_compatible duration now _
  | true => rfl

theorem finishAdd_genuine {queue : RtpAudioQueue} {now : UInt64}
    {earlier later : List FecBlock} {block : FecBlock} {delivered extended : List Delivery}
    (finished : Genuine rs sent
      ⟨(finishAdd rs duration now queue earlier block later).1, delivered⟩) :
    Genuine rs sent (match finishAdd rs duration now queue earlier block later with
      | (queue, .RTPQ_RET_HANDLE_NOW) => ⟨queue, extended⟩
      | (queue, _) => ⟨queue, delivered⟩) := by
  have waits := @finishAdd_status queue duration now rs earlier later block
  generalize finishAdd rs duration now queue earlier block later = result at finished waits ⊢
  obtain ⟨queue, status⟩ := result
  cases status with
  | RTPQ_RET_HANDLE_NOW => exact absurd rfl waits
  | rejected => exact finished
  | RTPQ_RET_PACKET_READY => exact finished

theorem Genuine.deliver {queue : RtpAudioQueue} {delivered : List Delivery}
    (genuine : Genuine rs sent ⟨queue, delivered⟩) {other : RtpAudioQueue}
    (sound : ∀ block ∈ other.blocks, Sound rs sent block)
    (compatible : other.incompatibleServer = false) {number : UInt16} {entry : Entry}
    (own : ∀ packet, entry = some packet → packet = sent number) :
    Genuine rs sent ⟨other, delivered ++ [⟨number, entry⟩]⟩ where
  sound := sound
  compatible := compatible
  delivered := by
    intro delivery member packet is_packet
    rcases List.mem_append.mp member with before | now
    · exact genuine.delivered delivery before packet is_packet
    · cases List.mem_singleton.mp now
      exact own packet is_packet

theorem number_place (number : UInt16) : (number - number / 4 * 4).toNat < RTPA_DATA_SHARDS := by
  have start := base_toNat number
  have small := UInt16.toNat_sub_of_le number (number / 4 * 4)
    (UInt16.le_iff_toNat_le.mpr (by omega))
  change _ < 4
  omega

theorem Genuine.add (codec : AudioCodec rs) (host : Host duration sent) {queue : RtpAudioQueue}
    {delivered : List Delivery} {packet : RtpPacket} (from_host : FromHost rs sent packet)
    (genuine : Genuine rs sent ⟨queue, delivered⟩) (inOrder : InOrder ⟨queue, delivered⟩)
    (synchronizable : Synchronizable queue) (now : UInt64) (slab : Option Slab) :
    Genuine rs sent (step rs duration ⟨queue, delivered⟩ (.add packet now slab)) := by
  have compatible : queue.incompatibleServer = false := genuine.compatible
  obtain ⟨-, found_block⟩ :=
    @InOrder.getFecBlock queue delivered duration packet now inOrder synchronizable slab
  obtain ⟨found_sound, found_compatible, found_header⟩ :=
    @getFecBlock_sound rs sent duration queue packet now host from_host compatible genuine.sound
      slab
  have fec : ∀ fecHeader blockSize, packet.rtp.packetType ≠ RTP_PAYLOAD_TYPE_AUDIO →
      (packetBlock duration queue packet).2 = some (fecHeader, blockSize) →
        packet.rtp.packetType = RTP_PAYLOAD_TYPE_FEC ∧ ∃ index data,
          readFecHeader packet.payload = some (index, fecHeader, data) ∧
            index < RTPA_FEC_SHARDS ∧ data.length = blockSize :=
    fun _ _ other wanted => packetBlock_fec other wanted
  unfold step RtpaAddPacket
  dsimp only
  rw [compatible, if_neg Bool.false_ne_true]
  generalize getFecBlockForRtpPacket duration queue packet now slab = result at *
  obtain ⟨found, wanted⟩ := result
  dsimp only at found_block found_sound found_compatible found_header
  cases wanted with
  | none => exact ⟨found_sound, found_compatible, genuine.delivered⟩
  | some place =>
      obtain ⟨earlier, block, later⟩ := place
      obtain ⟨blocks, audio_base⟩ := found_block earlier block later rfl
      obtain ⟨unfinished, fecHeader, header, base⟩ := found_header earlier block later rfl
      have block_sound : Sound rs sent block :=
        found_sound block (blocks ▸ mem_middle.mpr (Or.inl rfl))
      have others : ∀ other ∈ earlier ++ later, Sound rs sent other := fun other member =>
        found_sound other (blocks ▸ mem_middle.mpr (Or.inr member))
      dsimp only
      by_cases audio : packet.rtp.packetType = RTP_PAYLOAD_TYPE_AUDIO
      · rw [if_pos audio]
        have own := from_host.audio audio
        have within : (packet.rtp.sequenceNumber - block.fecHeader.baseSequenceNumber).toNat <
            RTPA_DATA_SHARDS := by
          rw [audio_base audio]
          exact number_place packet.rtp.sequenceNumber
        by_cases missing : block.marks
            (packet.rtp.sequenceNumber - block.fecHeader.baseSequenceNumber).toNat = true
        · rw [if_pos missing]
          have copied := @Sound.copyData rs sent block block_sound unfinished _ within missing
            packet (by rwa [add_sub_number])
          by_cases next : packet.rtp.sequenceNumber = found.nextRtpSequenceNumber
          · rw [if_pos next]
            have found_genuine : Genuine rs sent ⟨found, delivered⟩ :=
              ⟨found_sound, found_compatible, genuine.delivered⟩
            have advanced : ∀ other ∈ earlier ++ { copyData block
                (packet.rtp.sequenceNumber - block.fecHeader.baseSequenceNumber).toNat packet with
                nextDataPacketIndex := (copyData block (packet.rtp.sequenceNumber -
                  block.fecHeader.baseSequenceNumber).toNat packet).nextDataPacketIndex + 1 } ::
                    later, Sound rs sent other := by
              intro other member
              rcases mem_middle.mp member with rfl | elsewhere
              · exact copied.passed _ _
              · exact others other elsewhere
            have carried : ∀ other, some packet = some other →
                other = sent packet.rtp.sequenceNumber := by
              intro other same
              cases same
              exact own
            split_ifs
            · refine found_genuine.deliver (freeFecBlockHead_sound advanced) ?_ carried
              exact (freeFecBlockHead_incompatible _).trans found_compatible
            · refine found_genuine.deliver ?_ ?_ carried
              · exact advanced
              · exact found_compatible
          · rw [if_neg next]
            exact finishAdd_genuine ⟨finishAdd_sound codec host others copied unfinished,
              (finishAdd_compatible rs duration now found earlier _ later).trans found_compatible,
              genuine.delivered⟩
        · rw [if_neg missing]
          exact ⟨found_sound, found_compatible, genuine.delivered⟩
      · rw [if_neg audio]
        obtain ⟨type, index, data, shard, within, size⟩ := fec fecHeader _ audio header
        obtain ⟨-, -, -, parity⟩ := from_host.fec type index fecHeader data shard within
        rw [shard]
        dsimp only
        by_cases missing : block.marks (RTPA_DATA_SHARDS + index) = true
        · rw [if_pos missing]
          rw [size, ← base] at parity
          have copied := block_sound.copyFec unfinished within missing parity
          exact finishAdd_genuine ⟨finishAdd_sound codec host others copied unfinished,
            (finishAdd_compatible rs duration now found earlier _ later).trans found_compatible,
            genuine.delivered⟩
        · rw [if_neg missing]
          exact ⟨found_sound, found_compatible, genuine.delivered⟩

theorem shardOf_bytes {size : ℕ} {data : List UInt8} (length : data.length = size) :
    packetBytes (shardOf size data) = data := by
  subst length
  unfold packetBytes shardOf
  refine List.ext_getElem (List.length_ofFn ..) fun i _ below => ?_
  rw [List.getElem_ofFn]
  exact (List.getElem_eq_getD 0).symm

theorem Genuine.takeReady (host : Host duration sent) {queue : RtpAudioQueue}
    {delivered : List Delivery} (genuine : Genuine rs sent ⟨queue, delivered⟩)
    (inOrder : InOrder ⟨queue, delivered⟩) {head : FecBlock} {rest : List FecBlock}
    (blocks : queue.blocks = head :: rest)
    (present : head.allowDiscontinuity = true →
      head.marks head.nextDataPacketIndex = false) (allocated : Bool) :
    Genuine rs sent (match AudioQueue.takeReady queue allocated with
      | (other, some entry) => ⟨other, delivered ++ [⟨queue.nextRtpSequenceNumber, entry⟩]⟩
      | (other, none) => ⟨other, delivered⟩) := by
  have ordered : Ordered queue := inOrder.ordered
  have member : head ∈ queue.blocks := blocks ▸ List.mem_cons_self
  have sound := genuine.sound head member
  unfold AudioQueue.takeReady
  rw [blocks]
  dsimp only
  split_ifs with ready
  · refine genuine.deliver (passPacket_sound genuine.sound)
      ((passPacket_incompatible queue).trans genuine.compatible) ?_
    intro packet is_packet
    cases is_packet
    obtain ⟨below, mark, number⟩ := inOrder.take blocks present ready
    obtain ⟨header, shard⟩ := sound.data _ below mark
    have size := (host.packet sound.aligned below).2.trans sound.size.symm
    have payload : blockShards sent head.fecHeader.baseSequenceNumber head.blockSize
        head.nextDataPacketIndex = shardOf head.blockSize (sent _).payload := if_pos below
    rw [header, shard, payload, shardOf_bytes size, ← number]
  · exact genuine
  · exact genuine

theorem Genuine.get (host : Host duration sent) {queue : RtpAudioQueue}
    {delivered : List Delivery} (genuine : Genuine rs sent ⟨queue, delivered⟩)
    (inOrder : InOrder ⟨queue, delivered⟩) (allocated : Bool) :
    Genuine rs sent (step rs duration ⟨queue, delivered⟩ (.get allocated)) := by
  have ordered : Ordered queue := inOrder.ordered
  unfold step RtpaGetQueuedPacket
  dsimp only
  by_cases blocks : queue.blocks = []
  · rw [blocks]
    exact genuine
  obtain ⟨head, rest, blocks⟩ := List.exists_cons_of_ne_nil blocks
  have member : head ∈ queue.blocks := blocks ▸ List.mem_cons_self
  rw [blocks]
  dsimp only
  split_ifs with discontinuity missing room finished
  · exact genuine.deliver (passPacket_sound genuine.sound)
      ((passPacket_incompatible queue).trans genuine.compatible)
      fun packet none => absurd none (by simp)
  · exact genuine
  · have index := ordered.progress head member
    rw [if_pos (ordered.given_up head member discontinuity), finished] at index
    exact absurd ordered.near (index ▸ Nat.lt_irrefl 4)
  · exact genuine.takeReady host inOrder blocks (fun _ => Bool.not_eq_true _ ▸ missing) allocated
  · exact genuine.takeReady host inOrder blocks
      (fun given_up => absurd given_up discontinuity) allocated

/-- The packets that are added are the host's. -/
def Event.FromHost (rs : ReedSolomon) (sent : UInt16 → RtpPacket) : Event → Prop
  | .add packet _ _ => AudioRecovery.FromHost rs sent packet
  | .get _ => True

theorem run_genuine (codec : AudioCodec rs) (host : Host duration sent) {events : List Event}
    (from_host : ∀ event ∈ events, Event.FromHost rs sent event)
    (synchronizable : ∀ earlier, earlier <+: events →
      Synchronizable (run rs duration earlier ⟨RtpaInitializeQueue true, []⟩).queue) :
    InOrder (run rs duration events ⟨RtpaInitializeQueue true, []⟩) ∧
      Genuine rs sent (run rs duration events ⟨RtpaInitializeQueue true, []⟩) := by
  induction events using List.reverseRecOn with
  | nil =>
      exact ⟨initial_in_order true, fun block none => absurd none List.not_mem_nil, rfl,
        fun delivery none => absurd none List.not_mem_nil⟩
  | append_singleton events event ih =>
      obtain ⟨order, genuine⟩ := ih
        (fun earlier member => from_host earlier (List.mem_append_left [event] member))
        fun earlier inside => synchronizable earlier (inside.trans (List.prefix_append events _))
      have now := synchronizable events (List.prefix_append events [event])
      have genuine_event := from_host event (List.mem_append_right events List.mem_cons_self)
      rw [run_append]
      refine ⟨InOrder.step rs duration order genuine.compatible now event, ?_⟩
      cases event with
      | add packet time slab => exact genuine.add codec host genuine_event order now time slab
      | get allocated => exact genuine.get host order allocated

/-- Whatever is lost, repeated or out of order, every packet that reaches the decoder, received or
recovered, is the one that the host sent under its number. -/
theorem delivered_genuine (made : queueCodec = some rs) (host : Host duration sent)
    (events : List Event) (from_host : ∀ event ∈ events, Event.FromHost rs sent event)
    (synchronizable : ∀ earlier, earlier <+: events →
      Synchronizable (run rs duration earlier ⟨RtpaInitializeQueue true, []⟩).queue) :
    ∀ delivery ∈ (run rs duration events ⟨RtpaInitializeQueue true, []⟩).delivered,
      ∀ packet, delivery.entry = some packet → packet = sent delivery.number := by
  obtain ⟨codec, four, two⟩ := queueCodec_spec made
  exact (run_genuine ⟨codec, four, two⟩ host from_host synchronizable).2.delivered

theorem audioPacket_host : Host 5 audioPacket where
  header := by
    intro number
    have distance : number.toUInt32 = (number / 4 * 4).toUInt32 +
        (number - number / 4 * 4).toUInt32 := by
      have start := base_toNat number
      have bound := number.toNat_lt
      have rest := UInt16.toNat_sub_of_le number (number / 4 * 4)
        (UInt16.le_iff_toNat_le.mpr (by omega))
      apply UInt32.toNat_inj.mp
      rw [UInt32.toNat_add, UInt16.toNat_toUInt32, UInt16.toNat_toUInt32, UInt16.toNat_toUInt32]
      omega
    unfold audioPacket
    rw [← UInt32.add_mul, ← distance]
  size := fun _ => rfl

theorem audioPacket_fromHost (rs : ReedSolomon) (number : UInt16) :
    FromHost rs audioPacket (audioPacket number) where
  audio := fun _ => rfl
  fec := fun type => absurd (show RTP_PAYLOAD_TYPE_AUDIO = RTP_PAYLOAD_TYPE_FEC from type)
    (by decide)

theorem delivered_genuine_lossy :
    ∃ rs, queueCodec = some rs ∧
      ∀ delivery ∈ (run rs 5 lossyEvents ⟨RtpaInitializeQueue true, []⟩).delivered,
        ∀ packet, delivery.entry = some packet → packet = audioPacket delivery.number := by
  refine ⟨queueCodec.get queueCodec_isSome, (Option.some_get _).symm, ?_⟩
  refine delivered_genuine (Option.some_get _).symm audioPacket_host lossyEvents ?_ ?_
  · simp only [lossyEvents, List.forall_mem_cons, Event.FromHost, audioPacket_fromHost, true_and,
      List.not_mem_nil, false_imp_iff, implies_true]
  · have all : ∀ earlier ∈ lossyEvents.inits, Synchronizable
        (run (queueCodec.get queueCodec_isSome) 5 earlier
          ⟨RtpaInitializeQueue true, []⟩).queue := by decide
    exact fun earlier inside => all earlier ((List.mem_inits earlier lossyEvents).mpr inside)

end Runs

end MoonlightWii.Limelight.AudioRecovery
