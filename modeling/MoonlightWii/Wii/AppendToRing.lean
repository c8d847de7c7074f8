import MoonlightWii.Wii.AudioStream

/-!
# Appending a chunk to the ring (`audio.c`)

`append_to_ring` as one step: it tops up the carry, writes whole blocks into the ring and
keeps what is left in the carry.  What the ring and the carry hold is the old contents
followed by the chunk, however the stream is cut into chunks.
-/

set_option autoImplicit false

namespace MoonlightWii.Wii.AppendToRing

open Foundation.Blocks
open Foundation.ByteMemory
open Foundation.CircularBuffer
open Foundation.GuardedRun
open MoonlightWii.Wii.AudioRing
open MoonlightWii.Wii.AudioStream

/-! ## The function -/

/-- One block copied into the slot `bufferFill`, and published. -/
def storeBlock (audio : Audio) (data : List UInt8) : Audio :=
  publish { audio with ring := storeInSlot audio 0 data }

def commitCarry (audio : Audio) : Audio :=
  { storeBlock audio (readBytes audio.carry 0 bufferSize) with carryFill := 0 }

/-- A point in `append_to_ring`: `src` and `total` are what is left of the chunk. -/
structure Appending where
  audio : Audio
  src : List UInt8
  total : Nat

/-- `src` counts `short`s: `src += bytes / sizeof(short)`. -/
def advanceSrc (src : List UInt8) (bytes : Nat) : List UInt8 := src.drop (bytes / 2 * 2)

def topUp (state : Appending) : Appending :=
  if 0 < state.audio.carryFill then
    let space := bufferSize - state.audio.carryFill
    let n := if state.total < space then state.total else space
    let filled : Audio :=
      { state.audio with
        carry := writeBytes state.audio.carry state.audio.carryFill (state.src.take n)
        carryFill := state.audio.carryFill + n }
    { audio := if filled.carryFill = bufferSize then commitCarry filled else filled
      src := advanceSrc state.src n
      total := state.total - n }
  else state

def bulkLoop (state : Appending) : Appending :=
  if bufferSize ≤ state.total ∧ (bufferSize : Int) ≤ getSpace state.audio then
    bulkLoop
      { audio := storeBlock state.audio (state.src.take bufferSize)
        src := advanceSrc state.src bufferSize
        total := state.total - bufferSize }
  else state
termination_by state.total
decreasing_by
  simp only [bufferSize] at *
  omega

def keepRest (state : Appending) : Audio :=
  if 0 < state.total ∧ state.total < bufferSize then
    { state.audio with
      carry := writeBytes state.audio.carry 0 (state.src.take state.total)
      carryFill := state.total }
  else state.audio

def appendToRing (audio : Audio) (src : List UInt8) (total : Nat) : Audio :=
  keepRest (bulkLoop (topUp ⟨audio, src, total⟩))

/-! ## What the ring and the carry hold -/

/-- The ring holds `count` blocks from `bufferPlay` on. -/
structure Placed (audio : Audio) (count : Nat) : Prop where
  play : audio.bufferPlay < bufferCount
  fill : audio.bufferFill = (audio.bufferPlay + count) % bufferCount
  counted : audio.buffered = count * bufferSize

/-- The state between two chunks. -/
structure Sound (audio : Audio) (count : Nat) : Prop extends Placed audio count where
  partly : audio.carryFill < bufferSize
  aligned : audio.carryFill % 4 = 0

def pendingBlocks (audio : Audio) (count : Nat) : List (List UInt8) :=
  window bufferCount (slotContent audio.ring) audio.bufferPlay count

def carryBytes (audio : Audio) : List UInt8 := readBytes audio.carry 0 audio.carryFill

def held (audio : Audio) (count : Nat) : List UInt8 :=
  (pendingBlocks audio count).flatten ++ carryBytes audio

/-- From `audio` to `after`, `added` blocks have been written behind the `count` pending ones
and nothing else of the ring has changed. -/
structure Grown (audio after : Audio) (count added : Nat) : Prop where
  play : after.bufferPlay = audio.bufferPlay
  older : ∀ slot, (∀ index, index < added →
      slot ≠ (audio.bufferPlay + (count + index)) % bufferCount) →
    slotContent after.ring slot = slotContent audio.ring slot

theorem grown_refl (audio : Audio) (count : Nat) : Grown audio audio count 0 :=
  ⟨rfl, fun _ _ => rfl⟩

theorem grown_trans {audio between after : Audio} {count first second : Nat}
    (one : Grown audio between count first) (other : Grown between after (count + first) second) :
    Grown audio after count (first + second) := by
  refine ⟨other.play.trans one.play, ?_⟩
  intro slot outside
  have kept := other.older slot fun index inside => by
    have apart := outside (first + index) (by omega)
    rwa [one.play, Nat.add_assoc]
  exact kept.trans (one.older slot fun index inside => outside index (by omega))

theorem pendingBlocks_full (audio : Audio) (count : Nat) :
    ∀ block ∈ pendingBlocks audio count, block.length = bufferSize := by
  intro block member
  obtain ⟨index, -, rfl⟩ := List.mem_map.mp member
  exact readBytes_length _ _ _

section Storing

variable {audio : Audio} {count : Nat} {data : List UInt8}

theorem slotContent_stored (full : data.length = bufferSize) (slot : Nat) :
    slotContent (storeInSlot audio 0 data) slot =
      if slot = audio.bufferFill then data else slotContent audio.ring slot := by
  by_cases written : slot = audio.bufferFill
  · rw [if_pos written, written, slotContent, storeInSlot, Nat.add_zero, ← full]
    exact readBytes_writeBytes _ _ data
  · rw [if_neg written]
    exact slotContent_write_other audio.ring slot audio.bufferFill 0 data written (by omega)

/-- A block written into the first free slot joins the pending ones. -/
theorem storeBlock_spec (placed : Placed audio count) (room : count < bufferCount)
    (full : data.length = bufferSize) :
    Placed (storeBlock audio data) (count + 1) ∧ Grown audio (storeBlock audio data) count 1 ∧
      pendingBlocks (storeBlock audio data) (count + 1) = pendingBlocks audio count ++ [data] := by
  have content : ∀ slot, slotContent (storeBlock audio data).ring slot =
      if slot = audio.bufferFill then data else slotContent audio.ring slot :=
    slotContent_stored full
  refine ⟨⟨placed.play, ?_, ?_⟩, ⟨rfl, ?_⟩, ?_⟩
  · have fill := placed.fill
    simp only [storeBlock, publish, bufferCount] at fill ⊢
    omega
  · have counted := placed.counted
    simp only [storeBlock, publish, bufferSize] at counted ⊢
    omega
  · intro slot outside
    have apart := outside 0 Nat.one_pos
    rw [Nat.add_zero, ← placed.fill] at apart
    rw [content, if_neg apart]
  · have play : (storeBlock audio data).bufferPlay = audio.bufferPlay := rfl
    rw [pendingBlocks, window_extend, play, ← placed.fill, content, if_pos rfl]
    refine congrArg (· ++ [data]) (window_congr _ _ _ _ _ fun index live => ?_)
    have apart := slot_ne bufferCount audio.bufferPlay index count live (by omega)
    rw [← placed.fill] at apart
    rw [content, if_neg apart]

end Storing

/-! ## One chunk -/

/-- A point in the append after which `added` blocks have been written: nothing of the old
contents and the chunk is lost, and a carry with bytes means that the chunk is used up. -/
structure Stage (audio : Audio) (count : Nat) (chunk : List UInt8) (state : Appending)
    (added : Nat) : Prop where
  sound : Sound state.audio (count + added)
  grown : Grown audio state.audio count added
  kept : held state.audio (count + added) ++ state.src = held audio count ++ chunk
  left : state.src.length = state.total
  aligned : state.total % 4 = 0
  used : 0 < state.audio.carryFill → state.total = 0
  conserved : bufferSize * added + state.audio.carryFill + state.total =
    audio.carryFill + chunk.length

/-- The blocks that a chunk completes. -/
def completed (audio : Audio) (length : Nat) : Nat := (audio.carryFill + length) / bufferSize

theorem getSpace_placed {audio : Audio} {count : Nat} (placed : Placed audio count) :
    getSpace audio = bufferSize * (30 - count : Int) := by
  have counted := placed.counted
  simp only [getSpace, bufferSize, bufferCount] at counted ⊢
  omega

theorem advanceSrc_aligned (src : List UInt8) {bytes : Nat} (aligned : bytes % 4 = 0) :
    advanceSrc src bytes = src.drop bytes := by
  have whole : bytes / 2 * 2 = bytes := by omega
  rw [advanceSrc, whole]

section Chunk

variable {audio : Audio} {count : Nat} {chunk : List UInt8}

/-- The carry after the bytes that top it up. -/
theorem carry_filled (audio : Audio) (data : List UInt8) :
    readBytes (writeBytes audio.carry audio.carryFill data) 0 (audio.carryFill + data.length) =
      carryBytes audio ++ data := by
  have extended := readBytes_writeBytes_extend audio.carry 0 audio.carryFill data
  rwa [Nat.zero_add] at extended

/-- The carry with the next bytes of the chunk, where it becomes one block of the ring. -/
theorem commitCarry_stage (sound : Sound audio count) {n : Nat} (within : n ≤ chunk.length)
    (aligned : chunk.length % 4 = 0) (whole : n % 4 = 0) (full : audio.carryFill + n = bufferSize)
    (room : count < bufferCount) :
    Stage audio count chunk
      ⟨commitCarry { audio with
          carry := writeBytes audio.carry audio.carryFill (chunk.take n)
          carryFill := audio.carryFill + n }, advanceSrc chunk n, chunk.length - n⟩ 1 := by
  have length : (chunk.take n).length = n := by rw [List.length_take]; omega
  have filled := carry_filled audio (chunk.take n)
  rw [length, full] at filled
  have block : (carryBytes audio ++ chunk.take n).length = bufferSize := by
    rw [List.length_append, carryBytes, readBytes_length, length, full]
  obtain ⟨placed, grown, pending⟩ := storeBlock_spec sound.toPlaced room block
  have after : held (commitCarry { audio with
      carry := writeBytes audio.carry audio.carryFill (chunk.take n)
      carryFill := audio.carryFill + n }) (count + 1) = held audio count ++ chunk.take n := by
    have same : pendingBlocks (commitCarry { audio with
        carry := writeBytes audio.carry audio.carryFill (chunk.take n)
        carryFill := audio.carryFill + n }) (count + 1) =
          pendingBlocks audio count ++ [carryBytes audio ++ chunk.take n] := by
      rw [← pending, commitCarry, filled]
      rfl
    rw [held, same, List.flatten_append, List.flatten_singleton, held]
    exact (List.append_nil _).trans (List.append_assoc _ _ _).symm
  refine ⟨⟨?_, ?_, ?_⟩, ?_, ?_, ?_, ?_, ?_, ?_⟩
  · rw [commitCarry, filled]
    exact ⟨placed.play, placed.fill, placed.counted⟩
  · exact Nat.two_pow_pos 12
  · rfl
  · rw [commitCarry, filled]
    exact ⟨grown.play, grown.older⟩
  · rw [after, advanceSrc_aligned chunk whole, List.append_assoc, List.take_append_drop]
  · rw [advanceSrc_aligned chunk whole, List.length_drop]
  · simp only
    omega
  · exact fun absent => absurd absent (Nat.lt_irrefl 0)
  · simp only [commitCarry, bufferSize] at full ⊢
    omega

/-- The chunk has gone into the carry. -/
theorem carried_stage (sound : Sound audio count) (aligned : chunk.length % 4 = 0)
    (short : audio.carryFill + chunk.length < bufferSize) :
    Stage audio count chunk
      ⟨{ audio with
          carry := writeBytes audio.carry audio.carryFill (chunk.take chunk.length)
          carryFill := audio.carryFill + chunk.length },
        advanceSrc chunk chunk.length, chunk.length - chunk.length⟩ 0 := by
  have carryAligned := sound.aligned
  have filled := carry_filled audio chunk
  refine ⟨⟨⟨sound.play, sound.fill, sound.counted⟩, short, ?_⟩, ⟨rfl, fun _ _ => rfl⟩, ?_, ?_,
    ?_, ?_, ?_⟩
  · simp only
    omega
  · rw [advanceSrc_aligned chunk aligned, List.take_length, List.drop_length, List.append_nil]
    simp only [held, carryBytes, Nat.add_zero]
    rw [filled, carryBytes, List.append_assoc]
    rfl
  · rw [advanceSrc_aligned chunk aligned, List.length_drop]
  · simp only
    omega
  · exact fun _ => Nat.sub_self _
  · simp only
    omega

theorem topUp_stage (sound : Sound audio count) (aligned : chunk.length % 4 = 0)
    (space : count + completed audio chunk.length ≤ 30) :
    ∃ added, Stage audio count chunk (topUp ⟨audio, chunk, chunk.length⟩) added := by
  have partly := sound.partly
  have carryAligned := sound.aligned
  simp only [completed, bufferSize] at partly space
  unfold topUp
  by_cases carried : 0 < audio.carryFill
  · simp only [if_pos carried]
    by_cases short : chunk.length < bufferSize - audio.carryFill
    · have part : audio.carryFill + chunk.length < bufferSize := by omega
      rw [if_pos short, if_neg (Nat.ne_of_lt part)]
      exact ⟨0, carried_stage sound aligned part⟩
    · have full : audio.carryFill + (bufferSize - audio.carryFill) = bufferSize := by
        simp only [bufferSize]
        omega
      rw [if_neg short, if_pos full]
      simp only [bufferSize] at short
      refine ⟨1, commitCarry_stage sound ?_ aligned ?_ full ?_⟩
      · simp only [bufferSize]
        omega
      · simp only [bufferSize]
        omega
      · simp only [bufferCount]
        omega
  · simp only [if_neg carried]
    exact ⟨0, sound, grown_refl audio count, rfl, rfl, aligned, fun some => absurd some carried,
      by simp⟩

/-- Before the chunk is used up the carry is empty. -/
theorem Stage.carry_empty {state : Appending} {added : Nat}
    (stage : Stage audio count chunk state added) (remains : 0 < state.total) :
    state.audio.carryFill = 0 := by
  by_contra carried
  have none := stage.used (by omega)
  omega

/-- One round of the loop. -/
theorem storeBlock_stage {state : Appending} {added : Nat}
    (stage : Stage audio count chunk state added) (long : bufferSize ≤ state.total)
    (room : count + added < bufferCount) :
    Stage audio count chunk
      { audio := storeBlock state.audio (state.src.take bufferSize)
        src := advanceSrc state.src bufferSize
        total := state.total - bufferSize } (added + 1) := by
  have conserved := stage.conserved
  have empty := stage.carry_empty (lt_of_lt_of_le (Nat.two_pow_pos 12) long)
  have full : (state.src.take bufferSize).length = bufferSize := by
    rw [List.length_take, stage.left, min_eq_left long]
  obtain ⟨placed, grown, pending⟩ := storeBlock_spec stage.sound.toPlaced room full
  have before : carryBytes state.audio = [] := by
    rw [carryBytes, empty]
    rfl
  have after : carryBytes (storeBlock state.audio (state.src.take bufferSize)) = [] := before
  simp only [bufferSize] at long conserved
  refine ⟨⟨placed, stage.sound.partly, stage.sound.aligned⟩, grown_trans stage.grown grown, ?_, ?_,
    ?_, ?_, ?_⟩
  · rw [← stage.kept, advanceSrc_aligned state.src rfl, held, held, ← Nat.add_assoc, pending,
      after, before, List.flatten_append, List.flatten_singleton, List.append_nil,
      List.append_nil, List.append_assoc, List.take_append_drop]
  · rw [advanceSrc_aligned state.src rfl, List.length_drop, stage.left]
  · have aligned := stage.aligned
    simp only [bufferSize]
    omega
  · intro carried
    exact absurd carried (Nat.not_lt.mpr (Nat.le_of_eq empty))
  · change bufferSize * (added + 1) + state.audio.carryFill + (state.total - bufferSize) = _
    simp only [bufferSize]
    omega

/-- With the space that the claim on the ring asks for, the loop only ends with less than a
block left. -/
theorem bulkLoop_stage (state : Appending) {added : Nat}
    (stage : Stage audio count chunk state added)
    (space : count + completed audio chunk.length ≤ 30) :
    ∃ more, Stage audio count chunk (bulkLoop state) more ∧
      (bulkLoop state).total < bufferSize := by
  simp only [completed, bufferSize] at space
  induction state using bulkLoop.induct generalizing added with
  | case1 state goes ih =>
      have conserved := stage.conserved
      have long := goes.1
      have room : count + added < bufferCount := by
        simp only [bufferSize, bufferCount] at conserved long ⊢
        omega
      rw [bulkLoop, if_pos goes]
      exact ih (storeBlock_stage stage long room)
  | case2 state ends =>
      have conserved := stage.conserved
      rw [bulkLoop, if_neg ends]
      refine ⟨added, stage, ?_⟩
      by_contra more
      have long : bufferSize ≤ state.total := not_lt.mp more
      have empty := stage.carry_empty (lt_of_lt_of_le (Nat.two_pow_pos 12) long)
      refine ends ⟨long, ?_⟩
      rw [getSpace_placed stage.sound.toPlaced]
      simp only [bufferSize] at conserved long ⊢
      omega

/-- What is left joins an empty carry. -/
theorem keepRest_stage (state : Appending) {added : Nat}
    (stage : Stage audio count chunk state added) (short : state.total < bufferSize) :
    Sound (keepRest state) (count + added) ∧ Grown audio (keepRest state) count added ∧
      held (keepRest state) (count + added) = held audio count ++ chunk ∧
      bufferSize * added + (keepRest state).carryFill = audio.carryFill + chunk.length := by
  have conserved := stage.conserved
  unfold keepRest
  by_cases some_left : 0 < state.total
  · rw [if_pos ⟨some_left, short⟩]
    have empty : state.audio.carryFill = 0 := by
      by_contra carried
      exact absurd (stage.used (by omega)) (by omega)
    have whole : state.src.take state.total = state.src :=
      List.take_of_length_le (le_of_eq stage.left)
    have stored : readBytes (writeBytes state.audio.carry 0 state.src) 0 state.total =
        state.src := by
      rw [← stage.left]
      exact readBytes_writeBytes state.audio.carry 0 state.src
    have before : carryBytes state.audio = [] := by rw [carryBytes, empty]; rfl
    refine ⟨⟨⟨stage.sound.play, stage.sound.fill, stage.sound.counted⟩, short, stage.aligned⟩,
      ⟨stage.grown.play, stage.grown.older⟩, ?_, ?_⟩
    · rw [← stage.kept, whole, held, held, before, List.append_nil]
      exact congrArg ((pendingBlocks state.audio (count + added)).flatten ++ ·) stored
    · simp only
      omega
  · rw [if_neg fun both => some_left both.1]
    have none : state.src = [] := by
      apply List.eq_nil_of_length_eq_zero
      rw [stage.left]
      omega
    have kept := stage.kept
    rw [none, List.append_nil] at kept
    exact ⟨stage.sound, stage.grown, kept, by omega⟩

theorem appendToRing_stage (sound : Sound audio count) (aligned : chunk.length % 4 = 0)
    (space : count + completed audio chunk.length ≤ 30) :
    Sound (appendToRing audio chunk chunk.length) (count + completed audio chunk.length) ∧
      Grown audio (appendToRing audio chunk chunk.length) count (completed audio chunk.length) ∧
      held (appendToRing audio chunk chunk.length) (count + completed audio chunk.length) =
        held audio count ++ chunk ∧
      bufferSize * completed audio chunk.length +
        (appendToRing audio chunk chunk.length).carryFill = audio.carryFill + chunk.length := by
  obtain ⟨first, topped⟩ := topUp_stage sound aligned space
  obtain ⟨added, bulk, short⟩ := bulkLoop_stage _ topped space
  have ends := keepRest_stage _ bulk short
  have count_eq : added = completed audio chunk.length := by
    have conserved := ends.2.2.2
    have partly := ends.1.partly
    simp only [completed, bufferSize] at conserved partly ⊢
    omega
  rw [← count_eq]
  exact ends

end Chunk

/-! ## The machine without interrupts -/

/-- The decoder thread comes from one state to the other with its own steps only. -/
def Quiet (audio after : Audio) : Prop :=
  ∃ events : List Event, (∀ event ∈ events, event ≠ .dma) ∧ run step audio events = some after

theorem quiet_refl (audio : Audio) : Quiet audio audio := ⟨[], by simp, rfl⟩

theorem quiet_step {audio next after : Audio} {event : Event} (quiet : event ≠ .dma)
    (stepped : step audio event = some next) (rest : Quiet next after) : Quiet audio after := by
  obtain ⟨events, clean, ran⟩ := rest
  refine ⟨event :: events, ?_, ?_⟩
  · intro other member
    rcases List.mem_cons.mp member with same | later
    · rw [same]
      exact quiet
    · exact clean other later
  · rw [run, stepped]
    exact ran

theorem advance_quiet : Event.advance ≠ .dma := by
  intro same
  cases same

theorem copy_quiet (count : Nat) : Event.copy count ≠ .dma := by
  intro same
  cases same

/-- The machine in front of the loop of `append_to_ring`. -/
def atLoop (state : Appending) : Audio :=
  { state.audio with thread := .loopTest state.src state.total }

theorem commitCarry_quiet (audio : Audio) (src : List UInt8) (total : Nat) :
    Quiet { audio with thread := .commitCarry src total }
      { commitCarry audio with thread := .loopTest src total } := by
  have copied : step { audio with thread := .copyCarry 0 src total } (.copy bufferSize) =
      some { audio with
        ring := storeInSlot audio 0 (readBytes audio.carry 0 bufferSize)
        thread := .copyCarry bufferSize src total } := by
    simp only [step, copyBytes, Nat.zero_add, Nat.le_refl, if_true]
    rfl
  have published : step { audio with
        ring := storeInSlot audio 0 (readBytes audio.carry 0 bufferSize)
        thread := .copyCarry bufferSize src total } .advance =
      some { commitCarry audio with thread := .loopTest src total } := by
    simp only [step, advanceThread, if_true]
    rfl
  exact quiet_step advance_quiet rfl (quiet_step (copy_quiet bufferSize) copied
    (quiet_step advance_quiet published (quiet_refl _)))

theorem storeBlock_quiet (audio : Audio) (src : List UInt8) (total : Nat) :
    Quiet { audio with thread := .copyBlock 0 src total }
      { storeBlock audio (src.take bufferSize) with
        thread := .loopTest (src.drop bufferSize) (total - bufferSize) } := by
  have copied : step { audio with thread := .copyBlock 0 src total } (.copy bufferSize) =
      some { audio with
        ring := storeInSlot audio 0 (src.take bufferSize)
        thread := .copyBlock bufferSize src total } := by
    simp only [step, copyBytes, Nat.zero_add, Nat.le_refl, if_true, List.drop_zero]
    rfl
  have published : step { audio with
        ring := storeInSlot audio 0 (src.take bufferSize)
        thread := .copyBlock bufferSize src total } .advance =
      some { storeBlock audio (src.take bufferSize) with
        thread := .loopTest (src.drop bufferSize) (total - bufferSize) } := by
    simp only [step, advanceThread, if_true]
    rfl
  exact quiet_step (copy_quiet bufferSize) copied
    (quiet_step advance_quiet published (quiet_refl _))

theorem quiet_trans {first second third : Audio} (one : Quiet first second)
    (other : Quiet second third) : Quiet first third := by
  obtain ⟨events, clean, ran⟩ := one
  induction events generalizing first with
  | nil =>
      cases Option.some.inj ran
      exact other
  | cons event events ih =>
      obtain ⟨next, stepped, rest⟩ := run_cons ran
      exact quiet_step (clean event List.mem_cons_self) stepped
        (ih (fun later member => clean later (List.mem_cons_of_mem event member)) rest)

theorem topUp_quiet (audio : Audio) (src : List UInt8) (aligned : src.length % 4 = 0)
    (carryAligned : audio.carryFill % 4 = 0) :
    Quiet { audio with thread := .append src src.length }
      (atLoop (topUp ⟨audio, src, src.length⟩)) := by
  by_cases carried : 0 < audio.carryFill
  · have taken : (if src.length < bufferSize - audio.carryFill then src.length
        else bufferSize - audio.carryFill) = min src.length (bufferSize - audio.carryFill) := by
      split <;> omega
    have whole : min src.length (bufferSize - audio.carryFill) % 4 = 0 := by
      simp only [bufferSize]
      omega
    simp only [topUp, if_pos carried, taken, advanceSrc_aligned src whole]
    by_cases full : audio.carryFill + min src.length (bufferSize - audio.carryFill) = bufferSize
    · simp only [if_pos full]
      refine quiet_step advance_quiet (congrArg some (if_pos carried)) ?_
      simp only [if_pos full]
      exact commitCarry_quiet { audio with
        carry := writeBytes audio.carry audio.carryFill
          (src.take (min src.length (bufferSize - audio.carryFill)))
        carryFill := audio.carryFill + min src.length (bufferSize - audio.carryFill) } _ _
    · simp only [if_neg full]
      refine quiet_step advance_quiet (congrArg some (if_pos carried)) ?_
      simp only [if_neg full]
      exact quiet_refl _
  · simp only [topUp, if_neg carried]
    exact quiet_step advance_quiet (congrArg some (if_neg carried)) (quiet_refl _)

theorem bulkLoop_quiet (state : Appending) : Quiet (atLoop state) (atLoop (bulkLoop state)) := by
  induction state using bulkLoop.induct with
  | case1 state goes ih =>
      rw [bulkLoop, if_pos goes]
      refine quiet_step advance_quiet (congrArg some (if_pos goes)) ?_
      exact quiet_trans (storeBlock_quiet state.audio state.src state.total) ih
  | case2 state ends =>
      rw [bulkLoop, if_neg ends]
      exact quiet_refl _

/-- Run without interrupts, the steps of the decoder thread are one call. -/
theorem appendToRing_quiet {audio : Audio} {count : Nat} (sound : Sound audio count)
    {src : List UInt8} (aligned : src.length % 4 = 0)
    (space : count + completed audio src.length ≤ 30) :
    Quiet { audio with thread := .append src src.length }
      { appendToRing audio src src.length with thread := .startTest } := by
  obtain ⟨first, topped⟩ := topUp_stage sound aligned space
  obtain ⟨added, bulk, short⟩ := bulkLoop_stage _ topped space
  refine quiet_trans (topUp_quiet audio src aligned sound.aligned)
    (quiet_trans (bulkLoop_quiet _) ?_)
  have left := bulk.left
  unfold appendToRing
  generalize bulkLoop (topUp ⟨audio, src, src.length⟩) = state at left short ⊢
  have ended : ¬ (bufferSize ≤ state.total ∧ (bufferSize : Int) ≤ getSpace state.audio) :=
    fun more => absurd more.1 (not_le.mpr short)
  have whole : state.src.take state.total = state.src := List.take_of_length_le (le_of_eq left)
  refine quiet_step advance_quiet (congrArg some (if_neg ended)) ?_
  by_cases some_left : 0 < state.total ∧ state.total < bufferSize
  · simp only [if_pos some_left, keepRest, whole]
    exact quiet_refl _
  · simp only [if_neg some_left, keepRest]
    exact quiet_refl _

/-! ## A stream in chunks -/

def appendAll (audio : Audio) (pieces : List (List UInt8)) : Audio :=
  pieces.foldl (fun audio piece => appendToRing audio piece piece.length) audio

theorem appendAll_stage {audio : Audio} {count : Nat} {pieces : List (List UInt8)}
    (sound : Sound audio count) (aligned : ∀ piece ∈ pieces, piece.length % 4 = 0)
    (space : count + completed audio pieces.flatten.length ≤ 30) :
    Sound (appendAll audio pieces) (count + completed audio pieces.flatten.length) ∧
      Grown audio (appendAll audio pieces) count (completed audio pieces.flatten.length) ∧
      held (appendAll audio pieces) (count + completed audio pieces.flatten.length) =
        held audio count ++ pieces.flatten := by
  induction pieces generalizing audio count with
  | nil =>
      have none : completed audio ([] : List (List UInt8)).flatten.length = 0 :=
        Nat.div_eq_of_lt sound.partly
      rw [none]
      exact ⟨sound, grown_refl audio count, (List.append_nil _).symm⟩
  | cons piece pieces ih =>
      have whole := aligned piece List.mem_cons_self
      have length : (piece :: pieces).flatten.length = piece.length + pieces.flatten.length := by
        rw [List.flatten_cons, List.length_append]
      simp only [completed, length, bufferSize] at space
      obtain ⟨one, grown, kept, conserved⟩ :=
        appendToRing_stage sound whole (by simp only [completed, bufferSize]; omega)
      -- the blocks of the first chunk and those of the rest
      have blocks : completed audio (piece :: pieces).flatten.length =
          completed audio piece.length + completed (appendToRing audio piece piece.length)
            pieces.flatten.length := by
        simp only [completed, length, bufferSize] at conserved ⊢
        omega
      have rest := ih one (fun other member => aligned other (List.mem_cons_of_mem piece member))
        (by simp only [completed, bufferSize] at conserved ⊢; omega)
      rw [blocks, ← Nat.add_assoc, List.flatten_cons, ← List.append_assoc, ← kept]
      exact ⟨rest.1, grown_trans grown rest.2.1, rest.2.2⟩

/-- The same pending blocks at the same place, the same ring and the same carry. -/
structure SameBuffers (first second : Audio) : Prop where
  bufferFill : first.bufferFill = second.bufferFill
  bufferPlay : first.bufferPlay = second.bufferPlay
  buffered : first.buffered = second.buffered
  carryFill : first.carryFill = second.carryFill
  carry : carryBytes first = carryBytes second
  ring : ∀ slot, slot < bufferCount → slotContent first.ring slot = slotContent second.ring slot

/-- The contents determine the buffers. -/
theorem sameBuffers_of_held {audio first second : Audio} {count added : Nat}
    (firstSound : Sound first (count + added)) (secondSound : Sound second (count + added))
    (firstGrown : Grown audio first count added) (secondGrown : Grown audio second count added)
    (same : held first (count + added) = held second (count + added)) :
    SameBuffers first second := by
  have carryShort (other : Audio) (sound : Sound other (count + added)) :
      (carryBytes other).length < bufferSize := by
    rw [carryBytes, readBytes_length]
    exact sound.partly
  obtain ⟨pending, carry⟩ := packed_unique (pendingBlocks_full first _)
    (pendingBlocks_full second _) (carryShort first firstSound) (carryShort second secondSound) same
  have play : first.bufferPlay = second.bufferPlay :=
    firstGrown.play.trans secondGrown.play.symm
  have lengths := congrArg List.length carry
  rw [carryBytes, carryBytes, readBytes_length, readBytes_length] at lengths
  refine ⟨?_, play, firstSound.counted.trans secondSound.counted.symm, lengths, carry, ?_⟩
  · rw [firstSound.fill, secondSound.fill, play]
  · intro slot inside
    rw [pendingBlocks, pendingBlocks, ← play] at pending
    by_cases live : ∃ index < count + added, slot = (first.bufferPlay + index) % bufferCount
    · obtain ⟨index, below, rfl⟩ := live
      exact window_slot pending below
    · have outside : ∀ index, index < added →
          slot ≠ (audio.bufferPlay + (count + index)) % bufferCount := by
        intro index below here
        refine live ⟨count + index, by omega, ?_⟩
        rw [firstGrown.play, here]
      rw [firstGrown.older slot outside, secondGrown.older slot outside]

/-- With space for the blocks that a chunk completes, the pending blocks and the carry hold
what they held before and then the chunk; cut into pieces it leaves the same. -/
theorem appendToRing_packs (audio : Audio) (count : Nat) (sound : Sound audio count)
    (chunk : List UInt8) (aligned : chunk.length % 4 = 0)
    (space : (bufferSize : Int) * completed audio chunk.length ≤ getSpace audio) :
    (Sound (appendToRing audio chunk chunk.length) (count + completed audio chunk.length) ∧
      held (appendToRing audio chunk chunk.length) (count + completed audio chunk.length) =
        held audio count ++ chunk) ∧
    ∀ pieces : List (List UInt8), (∀ piece ∈ pieces, piece.length % 4 = 0) →
      pieces.flatten = chunk →
      SameBuffers (appendAll audio pieces) (appendToRing audio chunk chunk.length) := by
  have room : count + completed audio chunk.length ≤ 30 := by
    rw [getSpace_placed sound.toPlaced] at space
    have block : (bufferSize : Int) = 4096 := rfl
    rw [block] at space
    omega
  obtain ⟨after, grown, kept, -⟩ := appendToRing_stage sound aligned room
  refine ⟨⟨after, kept⟩, ?_⟩
  rintro pieces whole rfl
  obtain ⟨splitAfter, splitGrown, splitKept⟩ := appendAll_stage sound whole room
  exact sameBuffers_of_held splitAfter after splitGrown grown (splitKept.trans kept.symm)

def twoFrames : List UInt8 := [1, 2, 3, 4, 5, 6, 7, 8]

theorem arStart_sound (carry ring : Nat → UInt8) : Sound (arStart carry ring) 0 where
  play := (by decide : 0 < bufferCount)
  fill := rfl
  counted := rfl
  partly := (by decide : 0 < bufferSize)
  aligned := rfl

theorem appendToRing_two_frames :
    SameBuffers
      (appendAll (arStart blankMemory blankMemory) [[1, 2, 3, 4], [], [5, 6, 7, 8]])
      (appendToRing (arStart blankMemory blankMemory) twoFrames twoFrames.length) :=
  (appendToRing_packs (arStart blankMemory blankMemory) 0 (arStart_sound _ _) twoFrames rfl
    (by decide)).2 [[1, 2, 3, 4], [], [5, 6, 7, 8]] (by decide) rfl

end MoonlightWii.Wii.AppendToRing
