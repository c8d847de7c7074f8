import MoonlightWii.Limelight.AudioQueue

/-!
# The order of the audio packets

Whatever arrives, in whatever order, what goes to the decoder carries consecutive numbers.  Only
whole blocks are passed over, and inside a block every number is accounted for, by its packet or
by an empty entry.
-/

set_option autoImplicit false

namespace MoonlightWii.Limelight.AudioOrder

open RtpNumbers AudioQueue Fec.ShardRecovery

section Numbers

theorem aligned_offset {oldest x : UInt16} (old : oldest.toNat % 4 = 0) (aligned : x.toNat % 4 = 0) :
    offset oldest x % 4 = 0 := by
  have bounds := And.intro x.toNat_lt oldest.toNat_lt
  rcases offset_cases oldest x with ⟨_, h⟩ | ⟨_, h⟩ <;> omega

/-- The first number of a packet's block. -/
theorem base_toNat (number : UInt16) :
    (number / 4 * 4).toNat = number.toNat / 4 * 4 := by
  have bound := number.toNat_lt
  rw [UInt16.toNat_mul, UInt16.toNat_div]
  change number.toNat / 4 * 4 % 65536 = _
  omega

theorem aligned_mod {x : UInt16} (aligned : x % 4 = 0) : x.toNat % 4 = 0 := by
  have value := congrArg UInt16.toNat aligned
  rwa [UInt16.toNat_mod] at value

end Numbers

section Invariant

/-- Deliveries go on with the next number, or with a later block after the end of one. -/
def Follows (a b : UInt16) : Prop :=
  b = a + 1 ∨ a.toNat % 4 = 3 ∧ b.toNat % 4 = 0 ∧ isBefore16 a b = true

/-- The blocks are in order from the oldest on, and only the oldest is being handed out. -/
structure Ordered (queue : RtpAudioQueue) : Prop where
  aligned : queue.oldestRtpBaseSequenceNumber.toNat % 4 = 0
  near : offset queue.oldestRtpBaseSequenceNumber queue.nextRtpSequenceNumber < 4
  bases : ∀ block ∈ queue.blocks, block.fecHeader.baseSequenceNumber.toNat % 4 = 0 ∧
    offset queue.oldestRtpBaseSequenceNumber block.fecHeader.baseSequenceNumber < 32768
  sorted : queue.blocks.Pairwise fun a b =>
    offset queue.oldestRtpBaseSequenceNumber a.fecHeader.baseSequenceNumber <
      offset queue.oldestRtpBaseSequenceNumber b.fecHeader.baseSequenceNumber
  progress : ∀ block ∈ queue.blocks, block.nextDataPacketIndex =
    if block.fecHeader.baseSequenceNumber = queue.oldestRtpBaseSequenceNumber then
      offset queue.oldestRtpBaseSequenceNumber queue.nextRtpSequenceNumber else 0
  waiting : (∀ block ∈ queue.blocks,
    block.fecHeader.baseSequenceNumber ≠ queue.oldestRtpBaseSequenceNumber) →
      queue.nextRtpSequenceNumber = queue.oldestRtpBaseSequenceNumber
  numbered : ∀ block ∈ queue.blocks, ∀ i < 4, block.marks i = false →
    (block.dataPackets i).sequenceNumber =
      block.fecHeader.baseSequenceNumber + UInt16.ofNat i
  given_up : ∀ block ∈ queue.blocks, block.allowDiscontinuity = true →
    block.fecHeader.baseSequenceNumber = queue.oldestRtpBaseSequenceNumber

/-- What was delivered so far, and how the queue goes on from there. -/
structure InOrder (state : State) : Prop where
  ordered : Ordered state.queue
  chain : state.delivered.IsChain fun a b => Follows a.number b.number
  numbers : ∀ delivery ∈ state.delivered, ∀ packet, delivery.entry = some packet →
    packet.rtp.sequenceNumber = delivery.number
  last : ∀ delivery ∈ state.delivered.getLast?,
    state.queue.nextRtpSequenceNumber = delivery.number + 1 ∨
      (Follows delivery.number state.queue.nextRtpSequenceNumber ∧
        ∃ head ∈ state.queue.blocks, head.fecHeader.baseSequenceNumber =
          state.queue.oldestRtpBaseSequenceNumber)
  unsynchronized : state.queue.synchronizing = true → state.queue.blocks = [] →
    state.delivered = []

end Invariant

section Blocks

theorem Ordered.congr {queue other : RtpAudioQueue} (ordered : Ordered queue)
    (blocks : other.blocks = queue.blocks)
    (next : other.nextRtpSequenceNumber = queue.nextRtpSequenceNumber)
    (oldest : other.oldestRtpBaseSequenceNumber = queue.oldestRtpBaseSequenceNumber) :
    Ordered other := by
  obtain ⟨aligned, near, bases, sorted, progress, waiting, numbered, given_up⟩ := ordered
  constructor <;> simp only [blocks, next, oldest] <;> assumption

/-- The packets of a block that are there carry the numbers of their places. -/
def Numbered (block : FecBlock) : Prop :=
  ∀ i < 4, block.marks i = false → (block.dataPackets i).sequenceNumber =
    block.fecHeader.baseSequenceNumber + UInt16.ofNat i

/-- A block with the same place and the same progress. -/
structure Kept (block changed : FecBlock) : Prop where
  base : changed.fecHeader.baseSequenceNumber = block.fecHeader.baseSequenceNumber
  index : changed.nextDataPacketIndex = block.nextDataPacketIndex
  numbered : Numbered block → Numbered changed

theorem mem_middle {earlier later : List FecBlock} {block other : FecBlock} :
    other ∈ earlier ++ block :: later ↔ other = block ∨ other ∈ earlier ++ later := by
  simp only [List.mem_append, List.mem_cons]
  tauto

theorem Ordered.replace {queue : RtpAudioQueue} (ordered : Ordered queue)
    {earlier later : List FecBlock} {block changed : FecBlock}
    (blocks : queue.blocks = earlier ++ block :: later) (kept : Kept block changed)
    (given_up : changed.allowDiscontinuity = true →
      changed.fecHeader.baseSequenceNumber = queue.oldestRtpBaseSequenceNumber) :
    Ordered { queue with blocks := earlier ++ changed :: later } := by
  have here : block ∈ queue.blocks := blocks ▸ mem_middle.mpr (Or.inl rfl)
  have others : ∀ other ∈ earlier ++ later, other ∈ queue.blocks := by
    intro other member
    exact blocks ▸ mem_middle.mpr (Or.inr member)
  have of_others : ∀ {property : FecBlock → Prop}, (∀ other ∈ queue.blocks, property other) →
      property changed → ∀ other ∈ earlier ++ changed :: later, property other := by
    intro property all this other member
    rcases mem_middle.mp member with rfl | elsewhere
    · exact this
    · exact all other (others other elsewhere)
  refine ⟨ordered.aligned, ordered.near, of_others ordered.bases ?_, ?_,
    of_others ordered.progress ?_, ?_, of_others ordered.numbered ?_,
    of_others ordered.given_up given_up⟩
  · rw [kept.base]
    exact ordered.bases block here
  · have sorted := ordered.sorted
    rw [blocks] at sorted
    rw [List.pairwise_append, List.pairwise_cons] at sorted ⊢
    simp only [List.mem_cons, forall_eq_or_imp, kept.base] at sorted ⊢
    exact sorted
  · rw [kept.base, kept.index]
    exact ordered.progress block here
  · intro absent
    refine ordered.waiting fun other member => ?_
    rw [blocks] at member
    rcases mem_middle.mp member with rfl | elsewhere
    · rw [← kept.base]
      exact absent changed (mem_middle.mpr (Or.inl rfl))
    · exact absent other (mem_middle.mpr (Or.inr elsewhere))
  · exact kept.numbered (ordered.numbered block here)

theorem locate_found {base : UInt16} {earlier blocks before after : List FecBlock}
    {block : FecBlock} (found : locate base earlier blocks = (before, some block, after)) :
    earlier ++ blocks = before ++ block :: after ∧
      block.fecHeader.baseSequenceNumber = base := by
  induction blocks generalizing earlier with
  | nil => cases found
  | cons existing rest ih =>
      rw [locate] at found
      split_ifs at found with same less
      · cases found
        exact ⟨rfl, same⟩
      · cases found
      · have later := ih found
        rwa [List.append_assoc, List.singleton_append] at later

/-- A new block goes between the blocks before it and those after it. -/
theorem locate_none {queue : RtpAudioQueue} (ordered : Ordered queue) {base : UInt16}
    (near : offset queue.oldestRtpBaseSequenceNumber base < 32768)
    {earlier blocks before after : List FecBlock} (all : queue.blocks = earlier ++ blocks)
    (low : ∀ block ∈ earlier, offset queue.oldestRtpBaseSequenceNumber
      block.fecHeader.baseSequenceNumber < offset queue.oldestRtpBaseSequenceNumber base)
    (found : locate base earlier blocks = (before, none, after)) :
    queue.blocks = before ++ after ∧
      (∀ block ∈ before, offset queue.oldestRtpBaseSequenceNumber
        block.fecHeader.baseSequenceNumber < offset queue.oldestRtpBaseSequenceNumber base) ∧
      ∀ block ∈ after, offset queue.oldestRtpBaseSequenceNumber base <
        offset queue.oldestRtpBaseSequenceNumber block.fecHeader.baseSequenceNumber := by
  induction blocks generalizing earlier with
  | nil =>
      cases found
      exact ⟨all, low, fun block none => absurd none List.not_mem_nil⟩
  | cons existing rest ih =>
      have existing_near := (ordered.bases existing (by simp [all])).2
      rw [locate] at found
      split_ifs at found with same less
      · cases found
      · cases found
        refine ⟨all, low, ?_⟩
        have first := (isBefore16_iff_lt near existing_near).mp less
        have sorted := ordered.sorted
        rw [all, List.pairwise_append, List.pairwise_cons] at sorted
        intro block member
        rcases List.mem_cons.mp member with rfl | later
        · exact first
        · exact Nat.lt_trans first (sorted.2.1.1 block later)
      · refine ih (by simpa using all) ?_ found
        intro block member
        rcases List.mem_append.mp member with before | here
        · exact low block before
        · rw [List.mem_singleton.mp here]
          have differs : offset queue.oldestRtpBaseSequenceNumber base ≠
              offset queue.oldestRtpBaseSequenceNumber existing.fecHeader.baseSequenceNumber := by
            intro distance
            exact same (offset_inj distance).symm
          have not_less := mt (isBefore16_iff_lt near existing_near).mpr less
          omega

/-- A new block, nothing of it received. -/
theorem Ordered.insert {queue : RtpAudioQueue} (ordered : Ordered queue) {base : UInt16}
    (aligned : base.toNat % 4 = 0)
    (near : offset queue.oldestRtpBaseSequenceNumber base < 32768) {before after : List FecBlock}
    (found : locate base [] queue.blocks = (before, none, after)) {block : FecBlock}
    (block_base : block.fecHeader.baseSequenceNumber = base)
    (index : block.nextDataPacketIndex = 0) (missing : ∀ i, block.marks i = true)
    (waiting : block.allowDiscontinuity = false) :
    Ordered { queue with blocks := before ++ block :: after } := by
  obtain ⟨all, low, high⟩ := locate_none ordered near rfl (by simp) found
  have others : ∀ other ∈ before ++ after, other ∈ queue.blocks := fun other member => all ▸ member
  have of_others : ∀ {property : FecBlock → Prop}, (∀ other ∈ queue.blocks, property other) →
      property block → ∀ other ∈ before ++ block :: after, property other := by
    intro property every this other member
    rcases mem_middle.mp member with rfl | elsewhere
    · exact this
    · exact every other (others other elsewhere)
  have apart : ∀ other ∈ queue.blocks, other.fecHeader.baseSequenceNumber ≠ base := by
    intro other member same
    rw [all] at member
    rcases List.mem_append.mp member with early | late
    · exact absurd (low other early) (by rw [same]; exact Nat.lt_irrefl _)
    · exact absurd (high other late) (by rw [same]; exact Nat.lt_irrefl _)
  refine ⟨ordered.aligned, ordered.near, of_others ordered.bases ?_, ?_,
    of_others ordered.progress ?_, ?_, of_others ordered.numbered ?_, of_others ordered.given_up ?_⟩
  · rw [block_base]
    exact ⟨aligned, near⟩
  · have sorted := ordered.sorted
    rw [all, List.pairwise_append] at sorted
    rw [List.pairwise_append, List.pairwise_cons]
    refine ⟨sorted.1, ⟨fun other late => ?_, sorted.2.1⟩, fun a early b member => ?_⟩
    · rw [block_base]
      exact high other late
    · rcases List.mem_cons.mp member with rfl | late
      · rw [block_base]
        exact low a early
      · exact sorted.2.2 a early b late
  · rw [index, block_base]
    split_ifs with oldest
    · have not_begun := ordered.waiting fun other member => oldest ▸ apart other member
      rw [not_begun, offset_self]
    · rfl
  · intro absent
    exact ordered.waiting fun other member =>
      absent other (mem_middle.mpr (Or.inr (all ▸ member)))
  · intro i _ present
    rw [missing i] at present
    cases present
  · intro discontinuity
    rw [waiting] at discontinuity
    cases discontinuity

end Blocks

section Steps

variable {queue : RtpAudioQueue} {delivered : List Delivery}

/-- The oldest block is the first. -/
theorem Ordered.others_later (ordered : Ordered queue) {head : FecBlock} {rest : List FecBlock}
    (blocks : queue.blocks = head :: rest) : ∀ block ∈ rest,
      offset queue.oldestRtpBaseSequenceNumber head.fecHeader.baseSequenceNumber + 4 ≤
        offset queue.oldestRtpBaseSequenceNumber block.fecHeader.baseSequenceNumber := by
  intro block member
  have sorted := ordered.sorted
  rw [blocks, List.pairwise_cons] at sorted
  have less := sorted.1 block member
  have head_aligned := aligned_offset ordered.aligned
    (ordered.bases head (blocks ▸ List.mem_cons_self)).1
  have block_aligned := aligned_offset ordered.aligned
    (ordered.bases block (blocks ▸ List.mem_cons_of_mem _ member)).1
  omega

theorem Ordered.not_oldest (ordered : Ordered queue) {head : FecBlock} {rest : List FecBlock}
    (blocks : queue.blocks = head :: rest) {block : FecBlock} (member : block ∈ rest) :
    block.fecHeader.baseSequenceNumber ≠ queue.oldestRtpBaseSequenceNumber := by
  intro same
  have later := ordered.others_later blocks block member
  rw [same, offset_self] at later
  omega

/-- While nothing of the oldest block is there, the first block is later. -/
theorem Ordered.next_of_not_oldest (ordered : Ordered queue) {head : FecBlock}
    {rest : List FecBlock} (blocks : queue.blocks = head :: rest)
    (later : head.fecHeader.baseSequenceNumber ≠ queue.oldestRtpBaseSequenceNumber) :
    queue.nextRtpSequenceNumber = queue.oldestRtpBaseSequenceNumber := by
  refine ordered.waiting fun block member => ?_
  rw [blocks] at member
  rcases List.mem_cons.mp member with rfl | other
  · exact later
  · exact ordered.not_oldest blocks other

theorem Ordered.oldest_of_ready (ordered : Ordered queue) {head : FecBlock}
    {rest : List FecBlock} (blocks : queue.blocks = head :: rest)
    (ready : queueHasPacketReady queue = true) :
    head.fecHeader.baseSequenceNumber = queue.oldestRtpBaseSequenceNumber := by
  have member : head ∈ queue.blocks := blocks ▸ List.mem_cons_self
  unfold queueHasPacketReady at ready
  rw [blocks] at ready
  rcases of_decide_eq_true ready with ⟨-, number⟩ | discontinuity
  · by_contra later
    have index := ordered.progress head member
    rw [if_neg later] at index
    rw [index, Nat.add_zero, ordered.next_of_not_oldest blocks later] at number
    exact later (UInt16.toNat_inj.mp number)
  · exact ordered.given_up head member discontinuity

/-- Passing a packet of the oldest block keeps the order. -/
theorem Ordered.pass (ordered : Ordered queue) {head : FecBlock} {rest : List FecBlock}
    (blocks : queue.blocks = head :: rest)
    (oldest : head.fecHeader.baseSequenceNumber = queue.oldestRtpBaseSequenceNumber) :
    Ordered (passPacket queue) := by
  have member : head ∈ queue.blocks := blocks ▸ List.mem_cons_self
  have rest_member : ∀ block ∈ rest, block ∈ queue.blocks := fun block inside =>
    blocks ▸ List.mem_cons_of_mem _ inside
  have index := ordered.progress head member
  rw [if_pos oldest] at index
  have near := ordered.near
  have next_offset := @offset_add_one queue.oldestRtpBaseSequenceNumber
    queue.nextRtpSequenceNumber (by omega)
  have rest_index : ∀ block ∈ rest, block.nextDataPacketIndex = 0 := fun block inside =>
    (ordered.progress block (rest_member block inside)).trans
      (if_neg (ordered.not_oldest blocks inside))
  have sorted := ordered.sorted
  rw [blocks, List.pairwise_cons] at sorted
  unfold passPacket
  rw [blocks]
  dsimp only
  split_ifs with finished
  · -- the block is finished, and the one four numbers later is the oldest
    have far : ∀ block ∈ rest, 4 ≤ offset queue.oldestRtpBaseSequenceNumber
        block.fecHeader.baseSequenceNumber := by
      intro block inside
      have later := ordered.others_later blocks block inside
      omega
    have four : offset queue.oldestRtpBaseSequenceNumber
        (queue.oldestRtpBaseSequenceNumber + 4) = 4 := by
      have step := @offset_add_four queue.oldestRtpBaseSequenceNumber
        queue.oldestRtpBaseSequenceNumber (by rw [offset_self]; decide)
      rw [step, offset_self]
    have shift : ∀ block ∈ rest, offset (queue.oldestRtpBaseSequenceNumber + 4)
        block.fecHeader.baseSequenceNumber = offset queue.oldestRtpBaseSequenceNumber
          block.fecHeader.baseSequenceNumber - 4 := by
      intro block inside
      have shifted := @offset_shift queue.oldestRtpBaseSequenceNumber
        (queue.oldestRtpBaseSequenceNumber + 4) block.fecHeader.baseSequenceNumber
        (four ▸ far block inside)
      rw [shifted, four]
    have reached : queue.nextRtpSequenceNumber + 1 = queue.oldestRtpBaseSequenceNumber + 4 := by
      apply @offset_inj queue.oldestRtpBaseSequenceNumber
      rw [next_offset, four, ← index]
      exact finished
    unfold freeFecBlockHead
    dsimp only
    rw [oldest]
    constructor <;> dsimp only
    · rw [toNat_add_four]
      have aligned := ordered.aligned
      omega
    · rw [reached, offset_self]
      decide
    · intro block inside
      have bases := ordered.bases block (rest_member block inside)
      exact ⟨bases.1, by rw [shift block inside]; omega⟩
    · refine sorted.2.imp_of_mem fun a_member b_member less => ?_
      rw [shift _ a_member, shift _ b_member]
      have := far _ a_member
      omega
    · intro block inside
      rw [rest_index block inside, reached, offset_self, ite_self]
    · exact fun _ => reached
    · exact fun block inside => ordered.numbered block (rest_member block inside)
    · intro block inside discontinuity
      exact absurd (ordered.given_up block (rest_member block inside) discontinuity)
        (ordered.not_oldest blocks inside)
  · have below : head.nextDataPacketIndex + 1 ≠ 4 := finished
    refine ⟨ordered.aligned, ?_, ?_, ?_, ?_, ?_, ?_, ?_⟩
    · rw [next_offset]
      omega
    · rw [List.forall_mem_cons]
      exact ⟨ordered.bases head member, fun block inside =>
        ordered.bases block (rest_member block inside)⟩
    · exact List.pairwise_cons.mpr sorted
    · rw [List.forall_mem_cons]
      refine ⟨?_, fun block inside => ?_⟩
      · rw [if_pos oldest, next_offset, index]
      · rw [if_neg (ordered.not_oldest blocks inside), rest_index block inside]
    · intro absent
      have here := absent _ List.mem_cons_self
      exact absurd oldest here
    · rw [List.forall_mem_cons]
      exact ⟨ordered.numbered head member, fun block inside =>
        ordered.numbered block (rest_member block inside)⟩
    · rw [List.forall_mem_cons]
      exact ⟨fun _ => oldest, fun block inside =>
        ordered.given_up block (rest_member block inside)⟩

theorem passPacket_next (queue : RtpAudioQueue) {head : FecBlock} {rest : List FecBlock}
    (blocks : queue.blocks = head :: rest) :
    (passPacket queue).nextRtpSequenceNumber = queue.nextRtpSequenceNumber + 1 := by
  unfold passPacket
  rw [blocks]
  dsimp only
  split_ifs <;> rfl

theorem passPacket_synchronizing (queue : RtpAudioQueue)
    (synchronizing : (passPacket queue).synchronizing = true) :
    queue.synchronizing = true ∧ ((passPacket queue).blocks = [] → queue.blocks = []) := by
  unfold passPacket at *
  cases blocks : queue.blocks with
  | nil =>
      rw [blocks] at synchronizing
      exact ⟨synchronizing, fun _ => rfl⟩
  | cons head rest =>
      rw [blocks] at synchronizing
      dsimp only at synchronizing ⊢
      split_ifs at synchronizing ⊢ with finished
      · cases synchronizing
      · exact ⟨synchronizing, fun empty => absurd empty (by simp)⟩

/-- The next packet, or its empty entry, goes to the decoder. -/
theorem InOrder.deliver (inOrder : InOrder ⟨queue, delivered⟩) {head : FecBlock}
    {rest : List FecBlock} (blocks : queue.blocks = head :: rest)
    (oldest : head.fecHeader.baseSequenceNumber = queue.oldestRtpBaseSequenceNumber)
    {entry : Entry} (number : ∀ packet, entry = some packet →
      packet.rtp.sequenceNumber = queue.nextRtpSequenceNumber) :
    InOrder ⟨passPacket queue, delivered ++ [⟨queue.nextRtpSequenceNumber, entry⟩]⟩ where
  ordered := inOrder.ordered.pass blocks oldest
  chain := by
    rw [List.isChain_append]
    refine ⟨inOrder.chain, List.isChain_singleton _, ?_⟩
    intro last is_last first is_first
    cases Option.mem_some_iff.mp is_first
    rcases inOrder.last last is_last with next | ⟨follows, -⟩
    · exact Or.inl next
    · exact follows
  numbers := by
    intro delivery member packet is_packet
    rcases List.mem_append.mp member with before | now
    · exact inOrder.numbers delivery before packet is_packet
    · cases List.mem_singleton.mp now
      exact number packet is_packet
  last := by
    intro delivery is_last
    rw [List.getLast?_append, List.getLast?_singleton, Option.some_or] at is_last
    cases Option.mem_some_iff.mp is_last
    exact Or.inl (passPacket_next queue blocks)
  unsynchronized := by
    intro synchronizing empty
    have before := (passPacket_synchronizing queue synchronizing).2 empty
    rw [blocks] at before
    cases before

/-- A change that leaves the places in the list and the numbers alone. -/
theorem InOrder.update (inOrder : InOrder ⟨queue, delivered⟩) {other : RtpAudioQueue}
    (ordered : Ordered other)
    (next : other.nextRtpSequenceNumber = queue.nextRtpSequenceNumber)
    (oldest : other.oldestRtpBaseSequenceNumber = queue.oldestRtpBaseSequenceNumber)
    (synchronizing : other.synchronizing = queue.synchronizing)
    (bases : ∀ block ∈ queue.blocks, ∃ changed ∈ other.blocks,
      changed.fecHeader.baseSequenceNumber = block.fecHeader.baseSequenceNumber) :
    InOrder ⟨other, delivered⟩ where
  ordered := ordered
  chain := inOrder.chain
  numbers := inOrder.numbers
  last := by
    intro delivery is_last
    dsimp only
    rw [next, oldest]
    refine (inOrder.last delivery is_last).imp id ?_
    rintro ⟨follows, head, member, at_oldest⟩
    obtain ⟨changed, inside, same⟩ := bases head member
    exact ⟨follows, changed, inside, same.trans at_oldest⟩
  unsynchronized := by
    intro still empty
    refine inOrder.unsynchronized (synchronizing ▸ still) ?_
    refine List.eq_nil_iff_forall_not_mem.mpr fun block member => ?_
    obtain ⟨changed, inside, -⟩ := bases block member
    dsimp only at empty
    rw [empty] at inside
    exact List.not_mem_nil inside

/-- The blocks that are later than a number nothing of which has come are not affected by moving
on to the first of them. -/
theorem Ordered.resync (ordered : Ordered queue) {head : FecBlock} {rest : List FecBlock}
    (blocks : queue.blocks = head :: rest)
    (later : head.fecHeader.baseSequenceNumber ≠ queue.oldestRtpBaseSequenceNumber) :
    Ordered { queue with
      nextRtpSequenceNumber := head.fecHeader.baseSequenceNumber
      oldestRtpBaseSequenceNumber := head.fecHeader.baseSequenceNumber } := by
  have member : head ∈ queue.blocks := blocks ▸ List.mem_cons_self
  have least : ∀ block ∈ queue.blocks,
      offset queue.oldestRtpBaseSequenceNumber head.fecHeader.baseSequenceNumber ≤
        offset queue.oldestRtpBaseSequenceNumber block.fecHeader.baseSequenceNumber := by
    intro block inside
    rw [blocks] at inside
    rcases List.mem_cons.mp inside with rfl | other
    · exact Nat.le_refl _
    · have := ordered.others_later blocks block other
      omega
  have none_oldest : ∀ block ∈ queue.blocks, block.fecHeader.baseSequenceNumber ≠
      queue.oldestRtpBaseSequenceNumber := by
    intro block inside
    rw [blocks] at inside
    rcases List.mem_cons.mp inside with rfl | other
    · exact later
    · exact ordered.not_oldest blocks other
  refine ⟨(ordered.bases head member).1, ?_, ?_, ?_, ?_, fun _ => rfl, ordered.numbered, ?_⟩
  · dsimp only
    rw [offset_self]
    decide
  · intro block inside
    have bases := ordered.bases block inside
    refine ⟨bases.1, ?_⟩
    dsimp only
    rw [offset_shift (least block inside)]
    omega
  · refine ordered.sorted.imp_of_mem fun a_member b_member less => ?_
    dsimp only
    rw [offset_shift (least _ a_member), offset_shift (least _ b_member)]
    have := least _ a_member
    omega
  · intro block inside
    dsimp only
    rw [offset_self, ite_self, ordered.progress block inside, if_neg (none_oldest block inside)]
  · intro block inside discontinuity
    exact absurd (ordered.given_up block inside discontinuity) (none_oldest block inside)

theorem handleMissing_cons (duration : UInt32) (now : UInt64) {head : FecBlock}
    {rest : List FecBlock} (blocks : queue.blocks = head :: rest) :
    handleMissingPackets duration now queue =
      if isBefore16 queue.nextRtpSequenceNumber head.fecHeader.baseSequenceNumber then
        { queue with
          nextRtpSequenceNumber := head.fecHeader.baseSequenceNumber
          oldestRtpBaseSequenceNumber := head.fecHeader.baseSequenceNumber }
      else if rest.isEmpty then queue
      else if queue.receivedOosData = false ∨
          now - head.queueTimeMs > (duration * 4).toUInt64 + RTPQ_OOS_WAIT_TIME_MS then
        { queue with blocks := { head with allowDiscontinuity := true } :: rest }
      else queue := by
  unfold handleMissingPackets
  rw [blocks]

/-- A block lost as a whole is passed over. -/
theorem Ordered.follows_resync (ordered : Ordered queue) {head : FecBlock} {rest : List FecBlock}
    (blocks : queue.blocks = head :: rest)
    (later : head.fecHeader.baseSequenceNumber ≠ queue.oldestRtpBaseSequenceNumber)
    {last : UInt16} (next : queue.nextRtpSequenceNumber = last + 1) :
    Follows last head.fecHeader.baseSequenceNumber := by
  have member : head ∈ queue.blocks := blocks ▸ List.mem_cons_self
  have head_near := (ordered.bases head member).2
  have head_aligned := (ordered.bases head member).1
  have aligned := ordered.aligned
  have value := congrArg UInt16.toNat next
  have sum : (last + 1).toNat = (last.toNat + 1) % 65536 := toNat_add_small last (by decide)
  rw [ordered.next_of_not_oldest blocks later] at value
  refine Or.inr ⟨by omega, head_aligned, ?_⟩
  rw [isBefore16_iff_offset]
  have bounds := And.intro last.toNat_lt (And.intro
    head.fecHeader.baseSequenceNumber.toNat_lt queue.oldestRtpBaseSequenceNumber.toNat_lt)
  rcases offset_cases queue.oldestRtpBaseSequenceNumber head.fecHeader.baseSequenceNumber with
    ⟨_, h₁⟩ | ⟨_, h₁⟩ <;>
    rcases offset_cases head.fecHeader.baseSequenceNumber last with ⟨_, h₂⟩ | ⟨_, h₂⟩ <;> omega

theorem InOrder.handleMissing (inOrder : InOrder ⟨queue, delivered⟩) (duration : UInt32)
    (now : UInt64) : InOrder ⟨handleMissingPackets duration now queue, delivered⟩ := by
  have ordered : Ordered queue := inOrder.ordered
  by_cases blocks : queue.blocks = []
  · have unchanged : handleMissingPackets duration now queue = queue := by
      unfold handleMissingPackets
      rw [blocks]
    rw [unchanged]
    exact inOrder
  obtain ⟨head, rest, blocks⟩ := List.exists_cons_of_ne_nil blocks
  have member : head ∈ queue.blocks := blocks ▸ List.mem_cons_self
  have head_near := (ordered.bases head member).2
  have next_near : offset queue.oldestRtpBaseSequenceNumber queue.nextRtpSequenceNumber <
      32768 := Nat.lt_trans ordered.near (by decide)
  rw [handleMissing_cons duration now blocks]
  split_ifs with behind alone given_up
  · have ahead := (isBefore16_iff_lt next_near head_near).mp behind
    have later : head.fecHeader.baseSequenceNumber ≠ queue.oldestRtpBaseSequenceNumber := by
      intro same
      rw [same, offset_self] at ahead
      exact Nat.not_lt_zero _ ahead
    refine ⟨ordered.resync blocks later, inOrder.chain, inOrder.numbers, ?_,
      inOrder.unsynchronized⟩
    intro delivery is_last
    refine Or.inr ⟨?_, head, member, rfl⟩
    rcases inOrder.last delivery is_last with next | ⟨-, other, inside, same⟩
    · exact ordered.follows_resync blocks later next
    · dsimp only at inside same
      rw [blocks] at inside
      rcases List.mem_cons.mp inside with rfl | elsewhere
      · exact absurd same later
      · exact absurd same (ordered.not_oldest blocks elsewhere)
  · exact inOrder
  · have oldest : head.fecHeader.baseSequenceNumber = queue.oldestRtpBaseSequenceNumber := by
      by_contra later
      refine behind ((isBefore16_iff_lt next_near head_near).mpr ?_)
      rw [ordered.next_of_not_oldest blocks later, offset_self]
      exact Nat.pos_of_ne_zero fun zero => later (offset_eq_zero zero)
    refine inOrder.update (@Ordered.replace queue ordered [] rest head _ blocks
      ⟨rfl, rfl, fun numbered => numbered⟩ fun _ => oldest) rfl rfl rfl ?_
    intro block inside
    rw [blocks] at inside
    rcases List.mem_cons.mp inside with rfl | other
    · exact ⟨_, List.mem_cons_self, rfl⟩
    · exact ⟨block, List.mem_cons_of_mem _ other, rfl⟩
  · exact inOrder

end Steps

section Adding

variable {queue : RtpAudioQueue} {delivered : List Delivery} {duration : UInt32}
  {packet : RtpPacket} {now : UInt64}

theorem noteOrder_same (queue : RtpAudioQueue) (number : UInt16) :
    (noteOrder queue number).blocks = queue.blocks ∧
      (noteOrder queue number).nextRtpSequenceNumber = queue.nextRtpSequenceNumber ∧
      (noteOrder queue number).oldestRtpBaseSequenceNumber =
        queue.oldestRtpBaseSequenceNumber ∧
      (noteOrder queue number).synchronizing = queue.synchronizing := by
  unfold noteOrder
  split_ifs <;> exact ⟨rfl, rfl, rfl, rfl⟩

theorem packetBlock_same (duration : UInt32) (queue : RtpAudioQueue) (packet : RtpPacket) :
    (packetBlock duration queue packet).1.blocks = queue.blocks ∧
      (packetBlock duration queue packet).1.nextRtpSequenceNumber =
        queue.nextRtpSequenceNumber ∧
      (packetBlock duration queue packet).1.oldestRtpBaseSequenceNumber =
        queue.oldestRtpBaseSequenceNumber ∧
      (packetBlock duration queue packet).1.synchronizing = queue.synchronizing := by
  unfold packetBlock
  split_ifs
  · exact noteOrder_same queue _
  · cases readFecHeader packet.payload with
    | none => exact ⟨rfl, rfl, rfl, rfl⟩
    | some shard =>
        dsimp only
        split_ifs <;> exact ⟨rfl, rfl, rfl, rfl⟩
  · exact ⟨rfl, rfl, rfl, rfl⟩

theorem packetBlock_base {fecHeader : AudioFecHeader} {blockSize : ℕ}
    (wanted : (packetBlock duration queue packet).2 = some (fecHeader, blockSize)) :
    fecHeader.baseSequenceNumber.toNat % 4 = 0 ∧
      (packet.rtp.packetType = RTP_PAYLOAD_TYPE_AUDIO →
        fecHeader.baseSequenceNumber = packet.rtp.sequenceNumber / 4 * 4) := by
  unfold packetBlock at wanted
  split_ifs at wanted with audio fec
  · cases wanted
    dsimp only
    refine ⟨?_, fun _ => rfl⟩
    rw [base_toNat]
    omega
  · cases shard : readFecHeader packet.payload with
    | none =>
        rw [shard] at wanted
        cases wanted
    | some fields =>
        rw [shard] at wanted
        dsimp only at wanted
        split_ifs at wanted with index unaligned
        cases wanted
        exact ⟨aligned_mod (not_not.mp unaligned), fun type => absurd type audio⟩

/-- Synchronizing again is only in order while no block is waiting. -/
def Synchronizable (queue : RtpAudioQueue) : Prop :=
  queue.synchronizing = true → queue.oldestRtpBaseSequenceNumber = 0 → queue.blocks = []

instance (queue : RtpAudioQueue) : Decidable (Synchronizable queue) :=
  inferInstanceAs (Decidable (_ → _ → queue.blocks = []))

theorem InOrder.getFecBlock (inOrder : InOrder ⟨queue, delivered⟩)
    (synchronizable : Synchronizable queue) (slab : Option Slab) :
    InOrder ⟨(getFecBlockForRtpPacket duration queue packet now slab).1, delivered⟩ ∧
      ∀ earlier block later,
        (getFecBlockForRtpPacket duration queue packet now slab).2 =
            some (earlier, block, later) →
          (getFecBlockForRtpPacket duration queue packet now slab).1.blocks =
              earlier ++ block :: later ∧
            (packet.rtp.packetType = RTP_PAYLOAD_TYPE_AUDIO →
              block.fecHeader.baseSequenceNumber = packet.rtp.sequenceNumber / 4 * 4) := by
  obtain ⟨blocks, next, oldest, synchronizing⟩ := packetBlock_same duration queue packet
  have bases : ∀ fecHeader blockSize,
      (packetBlock duration queue packet).2 = some (fecHeader, blockSize) →
        fecHeader.baseSequenceNumber.toNat % 4 = 0 ∧
          (packet.rtp.packetType = RTP_PAYLOAD_TYPE_AUDIO →
            fecHeader.baseSequenceNumber = packet.rtp.sequenceNumber / 4 * 4) :=
    fun _ _ wanted => packetBlock_base wanted
  unfold getFecBlockForRtpPacket
  generalize packetBlock duration queue packet = result at blocks next oldest synchronizing bases ⊢
  obtain ⟨noted, wanted⟩ := result
  dsimp only at blocks next oldest synchronizing bases
  have noted_order : InOrder ⟨noted, delivered⟩ :=
    inOrder.update (inOrder.ordered.congr blocks next oldest) next oldest synchronizing
      fun block member => ⟨block, blocks ▸ member, rfl⟩
  cases wanted with
  | none => exact ⟨noted_order, fun _ _ _ none => absurd none (by simp)⟩
  | some fields =>
      obtain ⟨fecHeader, blockSize⟩ := fields
      obtain ⟨aligned, audio_base⟩ := bases fecHeader blockSize rfl
      dsimp only
      split_ifs with resync early
      · have empty : noted.blocks = [] := by
          rw [blocks]
          exact synchronizable (synchronizing ▸ resync.1) (oldest ▸ resync.2)
        have nothing : delivered = [] := noted_order.unsynchronized resync.1 empty
        refine ⟨?_, fun _ _ _ none => absurd none (by simp)⟩
        subst nothing
        refine ⟨⟨?_, ?_, ?_, ?_, ?_, fun _ => rfl, ?_, ?_⟩, List.isChain_nil, by simp, by simp,
          fun _ _ => rfl⟩ <;> dsimp only
        · rw [toNat_add_four]
          omega
        · rw [offset_self]
          decide
        all_goals rw [empty]; simp
      · exact ⟨noted_order, fun _ _ _ none => absurd none (by simp)⟩
      · have near : offset noted.oldestRtpBaseSequenceNumber fecHeader.baseSequenceNumber <
            32768 := by
          have far := mt (isBefore16_iff_offset fecHeader.baseSequenceNumber
            noted.oldestRtpBaseSequenceNumber).mpr early
          omega
        cases search : locate fecHeader.baseSequenceNumber [] noted.blocks with
        | mk before found =>
            obtain ⟨existing, after⟩ := found
            cases existing with
            | some block =>
                obtain ⟨all, same⟩ := locate_found search
                dsimp only
                split_ifs
                · exact ⟨⟨noted_order.ordered.congr rfl rfl rfl, noted_order.chain,
                    noted_order.numbers, noted_order.last, noted_order.unsynchronized⟩,
                    fun _ _ _ none => absurd none (by simp)⟩
                · exact ⟨noted_order, fun _ _ _ none => absurd none (by simp)⟩
                · refine ⟨noted_order, fun earlier other later is_found => ?_⟩
                  cases is_found
                  exact ⟨all, fun audio => same.trans (audio_base audio)⟩
            | none =>
                dsimp only
                cases slab with
                | none => exact ⟨noted_order, fun _ _ _ none => absurd none (by simp)⟩
                | some slab =>
                    have inserted := @Ordered.insert noted noted_order.ordered _ aligned near _ _
                      search (newBlock fecHeader blockSize now slab) rfl rfl (fun _ => rfl) rfl
                    obtain ⟨all, -⟩ := locate_none noted_order.ordered near rfl (by simp) search
                    refine ⟨noted_order.update inserted rfl rfl rfl fun block member =>
                      ⟨block, mem_middle.mpr (Or.inr (all ▸ member)), rfl⟩, ?_⟩
                    intro earlier other later is_found
                    cases is_found
                    exact ⟨rfl, audio_base⟩

theorem copyData_kept {block : FecBlock} {pos : ℕ}
    (place : block.fecHeader.baseSequenceNumber + UInt16.ofNat pos = packet.rtp.sequenceNumber) :
    Kept block (copyData block pos packet) where
  base := rfl
  index := rfl
  numbered := by
    intro numbered i below present
    change Function.update block.marks pos false i = false at present
    change (Function.update block.dataPackets pos packet.rtp i).sequenceNumber = _
    by_cases here : i = pos
    · rw [here, Function.update_self]
      exact place.symm
    · rw [Function.update_of_ne here] at present ⊢
      exact numbered i below present

theorem copyFec_kept (block : FecBlock) (index : ℕ) (data : List UInt8) :
    Kept block (copyFec block index data) where
  base := rfl
  index := rfl
  numbered := by
    intro numbered i below present
    refine numbered i below ?_
    change Function.update block.marks (4 + index) false i = false at present
    rwa [Function.update_of_ne (by omega)] at present

theorem completeFecBlock_kept (rs : ReedSolomon) (duration : UInt32) (block : FecBlock) :
    Kept block (completeFecBlock rs duration block).2 ∧
      (completeFecBlock rs duration block).2.allowDiscontinuity = block.allowDiscontinuity := by
  unfold completeFecBlock
  dsimp only
  split_ifs
  · exact ⟨⟨rfl, rfl, id⟩, rfl⟩
  · exact ⟨⟨rfl, rfl, id⟩, rfl⟩
  · exact ⟨⟨rfl, rfl, id⟩, rfl⟩
  · refine ⟨⟨rfl, rfl, fun numbered i below _ => ?_⟩, rfl⟩
    dsimp only
    split_ifs with recovered
    · rfl
    · refine numbered i below ?_
      cases mark : block.marks i with
      | false => rfl
      | true => exact absurd ⟨below, mark⟩ recovered

theorem finishAdd_blocks (rs : ReedSolomon) {earlier later : List FecBlock} {block : FecBlock} :
    ∃ changed, Kept block changed ∧ changed.allowDiscontinuity = block.allowDiscontinuity ∧
      ((finishAdd rs duration now queue earlier block later).1 =
          { queue with blocks := earlier ++ changed :: later } ∨
        (finishAdd rs duration now queue earlier block later).1 =
          handleMissingPackets duration now { queue with blocks := earlier ++ changed :: later }) := by
  obtain ⟨kept, same⟩ := completeFecBlock_kept rs duration block
  refine ⟨if (completeFecBlock rs duration block).1 then
    { (completeFecBlock rs duration block).2 with fullyReassembled := true }
    else (completeFecBlock rs duration block).2, ?_, ?_, ?_⟩
  · split_ifs
    · exact ⟨kept.base, kept.index, kept.numbered⟩
    · exact kept
  · split_ifs
    · exact same
    · exact same
  · unfold finishAdd
    dsimp only
    split_ifs
    all_goals first | exact Or.inl rfl | exact Or.inr rfl

theorem InOrder.finish (inOrder : InOrder ⟨queue, delivered⟩) (rs : ReedSolomon)
    {earlier later : List FecBlock} {block copied : FecBlock}
    (blocks : queue.blocks = earlier ++ block :: later) (kept : Kept block copied)
    (same : copied.allowDiscontinuity = block.allowDiscontinuity) :
    InOrder ⟨(finishAdd rs duration now queue earlier copied later).1, delivered⟩ := by
  obtain ⟨changed, kept_again, same_again, result⟩ :=
    @finishAdd_blocks queue duration now rs earlier later copied
  have member : block ∈ queue.blocks := blocks ▸ mem_middle.mpr (Or.inl rfl)
  have whole : Kept block changed :=
    ⟨kept_again.base.trans kept.base, kept_again.index.trans kept.index,
      fun numbered => kept_again.numbered (kept.numbered numbered)⟩
  have replaced : InOrder ⟨{ queue with blocks := earlier ++ changed :: later }, delivered⟩ := by
    refine inOrder.update (inOrder.ordered.replace blocks whole ?_) rfl rfl rfl ?_
    · intro discontinuity
      rw [whole.base]
      exact inOrder.ordered.given_up block member ((same_again.trans same).symm.trans discontinuity)
    · intro other inside
      rw [blocks] at inside
      rcases mem_middle.mp inside with rfl | elsewhere
      · exact ⟨changed, mem_middle.mpr (Or.inl rfl), whole.base⟩
      · exact ⟨other, mem_middle.mpr (Or.inr elsewhere), rfl⟩
  rcases result with result | result
  · rw [result]
    exact replaced
  · rw [result]
    exact replaced.handleMissing duration now

/-- The next number belongs to the oldest block. -/
theorem Ordered.base_of_next (ordered : Ordered queue) :
    queue.nextRtpSequenceNumber / 4 * 4 = queue.oldestRtpBaseSequenceNumber := by
  apply UInt16.toNat_inj.mp
  rw [base_toNat]
  have aligned := ordered.aligned
  have near := ordered.near
  have bounds := And.intro queue.nextRtpSequenceNumber.toNat_lt
    queue.oldestRtpBaseSequenceNumber.toNat_lt
  rcases offset_cases queue.oldestRtpBaseSequenceNumber queue.nextRtpSequenceNumber with
    ⟨_, h⟩ | ⟨_, h⟩ <;> omega

/-- A packet handled at once is the next of the oldest block. -/
theorem InOrder.handleNow (inOrder : InOrder ⟨queue, delivered⟩)
    {earlier later : List FecBlock} {block copied : FecBlock}
    (blocks : queue.blocks = earlier ++ block :: later) (kept : Kept block copied)
    (same : copied.allowDiscontinuity = block.allowDiscontinuity)
    (oldest : block.fecHeader.baseSequenceNumber = queue.oldestRtpBaseSequenceNumber)
    (next : packet.rtp.sequenceNumber = queue.nextRtpSequenceNumber) :
    let advanced := { copied with nextDataPacketIndex := copied.nextDataPacketIndex + 1 }
    let passed := { queue with
      nextRtpSequenceNumber := packet.rtp.sequenceNumber + 1
      blocks := earlier ++ advanced :: later }
    InOrder ⟨if passed.nextRtpSequenceNumber = block.fecHeader.baseSequenceNumber + 4 then
      freeFecBlockHead passed else passed,
      delivered ++ [⟨packet.rtp.sequenceNumber, some packet⟩]⟩ := by
  intro advanced passed
  have member : block ∈ queue.blocks := blocks ▸ mem_middle.mpr (Or.inl rfl)
  have ordered : Ordered queue := inOrder.ordered
  have first : earlier = [] := by
    refine List.eq_nil_iff_forall_not_mem.mpr fun other inside => ?_
    have sorted := ordered.sorted
    rw [blocks, List.pairwise_append] at sorted
    have less := sorted.2.2 other inside block List.mem_cons_self
    rw [oldest, offset_self] at less
    exact Nat.not_lt_zero _ less
  subst first
  have copied_order : InOrder ⟨{ queue with blocks := copied :: later }, delivered⟩ := by
    refine inOrder.update (@Ordered.replace queue ordered [] later block copied blocks kept ?_)
      rfl rfl rfl ?_
    · exact fun _ => kept.base.trans oldest
    · intro other inside
      rw [blocks, List.nil_append] at inside
      rcases List.mem_cons.mp inside with rfl | elsewhere
      · exact ⟨copied, List.mem_cons_self, kept.base⟩
      · exact ⟨other, List.mem_cons_of_mem _ elsewhere, rfl⟩
  have delivered_order : InOrder ⟨passPacket { queue with blocks := copied :: later },
      delivered ++ [⟨queue.nextRtpSequenceNumber, some packet⟩]⟩ := by
    refine copied_order.deliver rfl (kept.base.trans oldest) fun other is_packet => ?_
    cases is_packet
    exact next
  have index : copied.nextDataPacketIndex =
      offset queue.oldestRtpBaseSequenceNumber queue.nextRtpSequenceNumber := by
    rw [kept.index, ordered.progress block member, if_pos oldest]
  have near := ordered.near
  have finished : packet.rtp.sequenceNumber + 1 = block.fecHeader.baseSequenceNumber + 4 ↔
      copied.nextDataPacketIndex + 1 = RTPA_DATA_SHARDS := by
    have one := @offset_add_one queue.oldestRtpBaseSequenceNumber
      queue.nextRtpSequenceNumber (by omega)
    have four := @offset_add_four queue.oldestRtpBaseSequenceNumber
      queue.oldestRtpBaseSequenceNumber (by rw [offset_self]; decide)
    rw [offset_self] at four
    rw [next, oldest, index]
    constructor
    · intro reached
      rw [reached, four] at one
      exact one.symm
    · intro reached
      exact @offset_inj queue.oldestRtpBaseSequenceNumber _ _ (by rw [one, four]; exact reached)
  have same_state : passPacket { queue with blocks := copied :: later } =
      if passed.nextRtpSequenceNumber = block.fecHeader.baseSequenceNumber + 4 then
        freeFecBlockHead passed else passed := by
    unfold passPacket
    dsimp only [passed, advanced]
    exact if_congr finished.symm (by rw [next, List.nil_append]) (by rw [next, List.nil_append])
  rw [← same_state, next]
  exact delivered_order

/-- Nothing that waits in a block is handled at once. -/
theorem finishAdd_status (rs : ReedSolomon) {earlier later : List FecBlock} {block : FecBlock} :
    (finishAdd rs duration now queue earlier block later).2 ≠ .RTPQ_RET_HANDLE_NOW := by
  unfold finishAdd
  dsimp only
  split_ifs <;> exact fun handled => Status.noConfusion handled

theorem finishAdd_delivered {rs : ReedSolomon} {earlier later : List FecBlock} {block : FecBlock}
    {extended : List Delivery}
    (finished : InOrder ⟨(finishAdd rs duration now queue earlier block later).1, delivered⟩) :
    InOrder (match finishAdd rs duration now queue earlier block later with
      | (queue, .RTPQ_RET_HANDLE_NOW) => ⟨queue, extended⟩
      | (queue, _) => ⟨queue, delivered⟩) := by
  have waits := @finishAdd_status queue duration now rs earlier later block
  generalize finishAdd rs duration now queue earlier block later = result at finished waits ⊢
  obtain ⟨queue, status⟩ := result
  cases status with
  | RTPQ_RET_HANDLE_NOW => exact absurd rfl waits
  | rejected => exact finished
  | RTPQ_RET_PACKET_READY => exact finished

theorem InOrder.add (inOrder : InOrder ⟨queue, delivered⟩)
    (compatible : queue.incompatibleServer = false) (synchronizable : Synchronizable queue)
    (rs : ReedSolomon) (slab : Option Slab) :
    InOrder (step rs duration ⟨queue, delivered⟩ (.add packet now slab)) := by
  obtain ⟨found_order, found_block⟩ :=
    @InOrder.getFecBlock queue delivered duration packet now inOrder synchronizable slab
  unfold step RtpaAddPacket
  dsimp only
  rw [compatible, if_neg Bool.false_ne_true]
  generalize getFecBlockForRtpPacket duration queue packet now slab = result at *
  obtain ⟨found, wanted⟩ := result
  dsimp only at found_order found_block
  cases wanted with
  | none => exact found_order
  | some place =>
      obtain ⟨earlier, block, later⟩ := place
      obtain ⟨blocks, audio_base⟩ := found_block earlier block later rfl
      dsimp only
      have kept : Kept block (copyData block
          (packet.rtp.sequenceNumber - block.fecHeader.baseSequenceNumber).toNat packet) :=
        copyData_kept (add_sub_number _ _)
      split_ifs with audio missing next finished
      · -- the block that the next packet completes
        have oldest : block.fecHeader.baseSequenceNumber = found.oldestRtpBaseSequenceNumber := by
          rw [audio_base audio, next]
          exact found_order.ordered.base_of_next
        have now_order := found_order.handleNow blocks kept rfl oldest next
        dsimp only at now_order
        rwa [if_pos finished] at now_order
      · have oldest : block.fecHeader.baseSequenceNumber = found.oldestRtpBaseSequenceNumber := by
          rw [audio_base audio, next]
          exact found_order.ordered.base_of_next
        have now_order := found_order.handleNow blocks kept rfl oldest next
        dsimp only at now_order
        rwa [if_neg finished] at now_order
      · have finish_order := @InOrder.finish found delivered duration now found_order rs _ _ _ _
          blocks kept rfl
        exact finishAdd_delivered finish_order
      · exact found_order
      · cases shard : readFecHeader packet.payload with
        | none => exact found_order
        | some fields =>
            obtain ⟨index, header, data⟩ := fields
            dsimp only
            split_ifs
            · have finish_order := @InOrder.finish found delivered duration now found_order rs _ _
                _ _ blocks (copyFec_kept block index data) rfl
              exact finishAdd_delivered finish_order
            · exact found_order

end Adding

section Getting

variable {queue : RtpAudioQueue} {delivered : List Delivery}

/-- A packet that is ready is there, and is the next. -/
theorem InOrder.take (inOrder : InOrder ⟨queue, delivered⟩) {head : FecBlock}
    {rest : List FecBlock} (blocks : queue.blocks = head :: rest)
    (present : head.allowDiscontinuity = true →
      head.marks head.nextDataPacketIndex = false)
    (ready : queueHasPacketReady queue = true) :
    head.nextDataPacketIndex < 4 ∧ head.marks head.nextDataPacketIndex = false ∧
      head.fecHeader.baseSequenceNumber + UInt16.ofNat head.nextDataPacketIndex =
        queue.nextRtpSequenceNumber := by
  have ordered : Ordered queue := inOrder.ordered
  have member : head ∈ queue.blocks := blocks ▸ List.mem_cons_self
  have oldest := ordered.oldest_of_ready blocks ready
  have index := ordered.progress head member
  rw [if_pos oldest] at index
  refine ⟨index ▸ ordered.near, ?_, ?_⟩
  · unfold queueHasPacketReady at ready
    rw [blocks] at ready
    rcases of_decide_eq_true ready with ⟨here, -⟩ | discontinuity
    · exact here
    · exact present discontinuity
  · rw [index, oldest]
    exact add_sub_number _ _

theorem InOrder.takeReady (inOrder : InOrder ⟨queue, delivered⟩) {head : FecBlock}
    {rest : List FecBlock} (blocks : queue.blocks = head :: rest)
    (present : head.allowDiscontinuity = true →
      head.marks head.nextDataPacketIndex = false) (allocated : Bool) :
    InOrder (match AudioQueue.takeReady queue allocated with
      | (other, some entry) => ⟨other, delivered ++ [⟨queue.nextRtpSequenceNumber, entry⟩]⟩
      | (other, none) => ⟨other, delivered⟩) := by
  unfold AudioQueue.takeReady
  rw [blocks]
  dsimp only
  split_ifs with ready
  · refine inOrder.deliver blocks (inOrder.ordered.oldest_of_ready blocks ready) ?_
    intro packet is_packet
    cases is_packet
    obtain ⟨below, mark, number⟩ := inOrder.take blocks present ready
    have member : head ∈ queue.blocks := blocks ▸ List.mem_cons_self
    exact (inOrder.ordered.numbered head member _ below mark).trans number
  · exact inOrder
  · exact inOrder

theorem InOrder.get (inOrder : InOrder ⟨queue, delivered⟩) (rs : ReedSolomon)
    (duration : UInt32) (allocated : Bool) :
    InOrder (step rs duration ⟨queue, delivered⟩ (.get allocated)) := by
  have ordered : Ordered queue := inOrder.ordered
  unfold step RtpaGetQueuedPacket
  dsimp only
  by_cases blocks : queue.blocks = []
  · rw [blocks]
    exact inOrder
  obtain ⟨head, rest, blocks⟩ := List.exists_cons_of_ne_nil blocks
  have member : head ∈ queue.blocks := blocks ▸ List.mem_cons_self
  rw [blocks]
  dsimp only
  split_ifs with discontinuity missing room finished
  · have oldest := ordered.given_up head member discontinuity
    exact inOrder.deliver blocks oldest fun packet none => absurd none (by simp)
  · exact inOrder
  · -- a block is dropped from the list as soon as its last packet is passed
    have index := ordered.progress head member
    rw [if_pos (ordered.given_up head member discontinuity), finished] at index
    exact absurd ordered.near (index ▸ Nat.lt_irrefl 4)
  · exact inOrder.takeReady blocks (fun _ => Bool.not_eq_true _ ▸ missing) allocated
  · exact inOrder.takeReady blocks (fun given_up => absurd given_up discontinuity) allocated

end Getting

section Runs

variable (rs : ReedSolomon) (duration : UInt32)

theorem freeFecBlockHead_incompatible (queue : RtpAudioQueue) :
    (freeFecBlockHead queue).incompatibleServer = queue.incompatibleServer := by
  unfold freeFecBlockHead
  cases queue.blocks <;> rfl

theorem passPacket_incompatible (queue : RtpAudioQueue) :
    (passPacket queue).incompatibleServer = queue.incompatibleServer := by
  unfold passPacket
  cases queue.blocks with
  | nil => rfl
  | cons head rest =>
      dsimp only
      split_ifs
      · exact freeFecBlockHead_incompatible _
      · rfl

theorem takeReady_incompatible (queue : RtpAudioQueue) (allocated : Bool) :
    (takeReady queue allocated).1.incompatibleServer = queue.incompatibleServer := by
  unfold takeReady
  cases queue.blocks with
  | nil => rfl
  | cons head rest =>
      dsimp only
      split_ifs
      · exact passPacket_incompatible queue
      · rfl
      · rfl

theorem getQueued_incompatible (queue : RtpAudioQueue) (allocated : Bool) :
    (RtpaGetQueuedPacket queue allocated).1.incompatibleServer = queue.incompatibleServer := by
  unfold RtpaGetQueuedPacket
  cases queue.blocks with
  | nil => rfl
  | cons head rest =>
      dsimp only
      split_ifs
      · exact passPacket_incompatible queue
      · rfl
      · exact (takeReady_incompatible _ allocated).trans (freeFecBlockHead_incompatible queue)
      · exact takeReady_incompatible queue allocated
      · exact takeReady_incompatible queue allocated

/-- A server that was found incompatible stays so. -/
theorem step_incompatible {state : State} (event : Event)
    (incompatible : state.queue.incompatibleServer = true) :
    (step rs duration state event).queue.incompatibleServer = true := by
  cases event with
  | add packet now slab =>
      unfold step RtpaAddPacket
      dsimp only
      rw [if_pos incompatible]
      split_ifs <;> exact incompatible
  | get allocated =>
      have same := getQueued_incompatible state.queue allocated
      unfold step
      dsimp only
      generalize RtpaGetQueuedPacket state.queue allocated = result at same ⊢
      obtain ⟨queue, entry⟩ := result
      cases entry <;> exact same.trans incompatible

theorem initial_in_order (compatible : Bool) :
    InOrder ⟨RtpaInitializeQueue compatible, []⟩ where
  ordered := by
    refine ⟨rfl, ?_, ?_, List.Pairwise.nil, ?_, fun _ => rfl, ?_, ?_⟩
    · exact (offset_self 0).trans_lt (by decide)
    all_goals exact fun block none => absurd none List.not_mem_nil
  chain := List.isChain_nil
  numbers := fun delivery none => absurd none List.not_mem_nil
  last := fun delivery none => absurd none (by simp)
  unsynchronized := fun _ _ => rfl

theorem InOrder.step {state : State} (inOrder : InOrder state)
    (compatible : state.queue.incompatibleServer = false)
    (synchronizable : Synchronizable state.queue) (event : Event) :
    InOrder (AudioQueue.step rs duration state event) := by
  cases event with
  | add packet now slab => exact InOrder.add inOrder compatible synchronizable rs slab
  | get allocated => exact InOrder.get inOrder rs duration allocated

theorem run_append (events : List Event) (event : Event) (state : State) :
    run rs duration (events ++ [event]) state =
      step rs duration (run rs duration events state) event := by
  rw [run, List.foldl_append]
  rfl

theorem run_in_order {events : List Event}
    (synchronizable : ∀ earlier, earlier <+: events →
      Synchronizable (run rs duration earlier ⟨RtpaInitializeQueue true, []⟩).queue)
    (compatible : (run rs duration events ⟨RtpaInitializeQueue true, []⟩).queue.incompatibleServer =
      false) :
    InOrder (run rs duration events ⟨RtpaInitializeQueue true, []⟩) := by
  induction events using List.reverseRecOn with
  | nil => exact initial_in_order true
  | append_singleton events event ih =>
      rw [run_append] at compatible ⊢
      have compatible_before :
          (run rs duration events ⟨RtpaInitializeQueue true, []⟩).queue.incompatibleServer =
            false := by
        by_contra incompatible
        rw [step_incompatible rs duration event (Bool.not_eq_false _ ▸ incompatible)] at compatible
        cases compatible
      refine InOrder.step rs duration (ih ?_ compatible_before) compatible_before ?_ event
      · exact fun earlier inside =>
          synchronizable earlier (inside.trans (List.prefix_append events [event]))
      · exact synchronizable events (List.prefix_append events [event])

/-- Whatever arrives, the decoder is given consecutive numbers, or goes on with a later block
after the end of one; and each packet under its own number. -/
theorem delivered_in_order (events : List Event)
    (synchronizable : ∀ earlier, earlier <+: events →
      Synchronizable (run rs duration earlier ⟨RtpaInitializeQueue true, []⟩).queue)
    (compatible : (run rs duration events ⟨RtpaInitializeQueue true, []⟩).queue.incompatibleServer =
      false) :
    (run rs duration events ⟨RtpaInitializeQueue true, []⟩).delivered.IsChain
        (fun a b => Follows a.number b.number) ∧
      ∀ delivery ∈ (run rs duration events ⟨RtpaInitializeQueue true, []⟩).delivered,
        ∀ packet, delivery.entry = some packet →
          packet.rtp.sequenceNumber = delivery.number :=
  ⟨(run_in_order rs duration synchronizable compatible).chain,
    (run_in_order rs duration synchronizable compatible).numbers⟩

/-- A packet of five milliseconds. -/
def audioPacket (number : UInt16) : RtpPacket :=
  ⟨⟨0x80, RTP_PAYLOAD_TYPE_AUDIO, number, number.toUInt32 * 5, 7⟩, [number.toUInt8, 1, 2]⟩

def clearSlab : Slab := ⟨fun _ => ⟨0, 0, 0, 0, 0⟩, fun _ _ => 0⟩

/-- Packets 4 and 7 are lost, and 9 comes before 8. -/
def lossyEvents : List Event :=
  [.add (audioPacket 0) 0 none, .add (audioPacket 6) 5 (some clearSlab),
    .add (audioPacket 5) 6 none, .add (audioPacket 9) 20 (some clearSlab), .get true, .get true,
    .get true, .get true, .add (audioPacket 8) 21 none, .get true]

theorem delivered_in_order_lossy :
    let state := run (queueCodec.get queueCodec_isSome) 5 lossyEvents
      ⟨RtpaInitializeQueue true, []⟩
    (state.delivered.map fun delivery => (delivery.number, delivery.entry.isSome)) =
        [(4, false), (5, true), (6, true), (7, false), (8, true), (9, true)] ∧
      state.delivered.IsChain (fun a b => Follows a.number b.number) :=
  ⟨by decide, (delivered_in_order (queueCodec.get queueCodec_isSome) 5 lossyEvents
    (fun earlier inside => (by decide : ∀ earlier ∈ lossyEvents.inits, Synchronizable
      (run (queueCodec.get queueCodec_isSome) 5 earlier ⟨RtpaInitializeQueue true, []⟩).queue)
      earlier ((List.mem_inits earlier lossyEvents).mpr inside)) (by decide)).1⟩

end Runs

end MoonlightWii.Limelight.AudioOrder
