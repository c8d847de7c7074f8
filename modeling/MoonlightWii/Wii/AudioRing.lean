import MoonlightWii.Foundation.ByteMemory
import MoonlightWii.Foundation.CircularBuffer
import MoonlightWii.Foundation.GuardedRun

/-!
# The audio DMA ring (`audio.c`)

The audio decoder thread runs `ar_decode_and_play_sample`; the DMA interrupt
`dma_callback` can fall between any two of its steps and in the middle of each
`memcpy` into the ring, but not inside the `IRQ_Disable` section that publishes
a block.  The DMA is stopped until `AUDIO_StartDMA`, so the start of playback is
one step.  `buffered` is the C `int`; ring and carry are the allocated memory.
-/

set_option autoImplicit false

namespace MoonlightWii.Wii.AudioRing

open Foundation.ByteMemory
open Foundation.CircularBuffer
open Foundation.GuardedRun

def bufferSize : Nat := 4096

def bufferCount : Nat := 32

def maxFrames : Nat := 5760

/-! ## Decoded chunks -/

def clampSample (sample : Int) : Int :=
  if 32767 < sample then 32767 else if sample < -32768 then -32768 else sample

/-- One frame of `downmix`, and its `memcpy` case for two channels. -/
def downmixFrame (channels : Nat) (samples : List Int) : Int × Int :=
  let left := samples.getD 0 0
  let right := samples.getD 1 0
  if channels ≤ 2 then
    (left, right)
  else
    let extra := ((samples.take channels).drop 2).foldl (fun sum sample => sum + sample) 0
    let fold := extra.tdiv (channels - 2 : Nat)
    (clampSample (left + fold), clampSample (right + fold))

/-- A `short` in memory, most significant byte first. -/
def sampleBytes (sample : Int) : List UInt8 :=
  [UInt8.ofInt (sample / 256), UInt8.ofInt sample]

def downmix (channels : Nat) (frames : List (List Int)) : List UInt8 :=
  frames.flatMap fun samples =>
    sampleBytes (downmixFrame channels samples).1 ++
      sampleBytes (downmixFrame channels samples).2

/-- The arguments of `append_to_ring`: whole stereo frames of two 16-bit samples. -/
structure Chunk where
  pcm : List UInt8
  total : Nat
  length_eq : pcm.length = total
  aligned : total % 4 = 0
  bound : total ≤ maxFrames * 4

theorem downmix_length (channels : Nat) (frames : List (List Int)) :
    (downmix channels frames).length = frames.length * 4 := by
  induction frames with
  | nil => rfl
  | cons samples rest ih =>
      have head : downmix channels (samples :: rest) =
          sampleBytes (downmixFrame channels samples).1 ++
            sampleBytes (downmixFrame channels samples).2 ++ downmix channels rest := rfl
      rw [head, List.length_append, List.length_append, ih, List.length_cons]
      simp only [sampleBytes, List.length_cons, List.length_nil]
      omega

/-- The chunk that `ar_decode_and_play_sample` appends for decoded frames. -/
def decodedChunk (channels : Nat) (frames : List (List Int))
    (bound : frames.length ≤ maxFrames) : Chunk where
  pcm := downmix channels frames
  total := frames.length * 4
  length_eq := downmix_length channels frames
  aligned := by omega
  bound := Nat.mul_le_mul_right 4 bound

/-! ## The machine -/

/-- Where the decoder thread is; `src` and `total` are what is left of the chunk,
`done` counts the bytes a running `memcpy` into the ring has stored. -/
inductive DecoderThread where
  | idle
  | append (src : List UInt8) (total : Nat)
  | commitCarry (src : List UInt8) (total : Nat)
  | copyCarry (done : Nat) (src : List UInt8) (total : Nat)
  | loopTest (src : List UInt8) (total : Nat)
  | copyBlock (done : Nat) (src : List UInt8) (total : Nat)
  | startTest

/-- One call of `AUDIO_InitDMA`.  `number` is a ghost: the position of the block
among all committed blocks. -/
inductive Submission where
  | silence
  | block (slot number : Nat) (content : List UInt8)

structure Audio where
  carry : Nat → UInt8
  carryFill : Nat
  ring : Nat → UInt8
  bufferFill : Nat
  bufferPlay : Nat
  buffered : Int
  playing : Bool
  thread : DecoderThread
  submissions : List Submission
  /-- Ghost: the PCM handed to `append_to_ring` so far. -/
  decoded : List UInt8
  /-- Ghost: the blocks committed so far. -/
  committed : List (List UInt8)
  /-- Ghost: the blocks `dma_callback` has taken out of the ring. -/
  taken : Nat

inductive Event where
  | decode (chunk : Chunk)
  /-- The decoder thread takes its next step outside a `memcpy` into the ring. -/
  | advance
  /-- A running `memcpy` into the ring stores `count` more bytes. -/
  | copy (count : Nat)
  | dma

def getSpace (audio : Audio) : Int :=
  bufferSize * (bufferCount - 2 : Nat) - audio.buffered

def slotContent (ring : Nat → UInt8) (slot : Nat) : List UInt8 :=
  readBytes ring (slot * bufferSize) bufferSize

def submitBlock (audio : Audio) : Submission :=
  .block audio.bufferPlay audio.taken (slotContent audio.ring audio.bufferPlay)

def dmaCallback (audio : Audio) : Audio :=
  if audio.playing && 0 < audio.buffered then
    { audio with
      submissions := audio.submissions ++ [submitBlock audio]
      bufferPlay := (audio.bufferPlay + 1) % bufferCount
      buffered := audio.buffered - bufferSize
      taken := audio.taken + 1 }
  else
    { audio with submissions := audio.submissions ++ [.silence] }

/-- The `IRQ_Disable` section after a block has been written. -/
def publish (audio : Audio) : Audio :=
  { audio with
    bufferFill := (audio.bufferFill + 1) % bufferCount
    buffered := audio.buffered + bufferSize
    committed := audio.committed ++ [slotContent audio.ring audio.bufferFill] }

/-- The first part of `append_to_ring`: top up a carry that is not empty. -/
def appendEntry (audio : Audio) (src : List UInt8) (total : Nat) : Audio :=
  if 0 < audio.carryFill then
    let n := min total (bufferSize - audio.carryFill)
    let carryFill := audio.carryFill + n
    { audio with
      carry := writeBytes audio.carry audio.carryFill (src.take n)
      carryFill := carryFill
      thread :=
        if carryFill = bufferSize then .commitCarry (src.drop n) (total - n)
        else .loopTest (src.drop n) (total - n) }
  else
    { audio with thread := .loopTest src total }

/-- The loop condition, and the leftover copy when the loop ends. -/
def loopStep (audio : Audio) (src : List UInt8) (total : Nat) : Audio :=
  if bufferSize ≤ total ∧ (bufferSize : Int) ≤ getSpace audio then
    { audio with thread := .copyBlock 0 src total }
  else if 0 < total ∧ total < bufferSize then
    { audio with
      carry := writeBytes audio.carry 0 src
      carryFill := total
      thread := .startTest }
  else
    { audio with thread := .startTest }

/-- `if (!playing && buffered > 0)` after the append. -/
def startPlayback (audio : Audio) : Audio :=
  if !audio.playing && 0 < audio.buffered then
    { audio with
      playing := true
      submissions := audio.submissions ++ [submitBlock audio]
      thread := .idle }
  else
    { audio with thread := .idle }

def advanceThread (audio : Audio) : Option Audio :=
  match audio.thread with
  | .idle => none
  | .append src total => some (appendEntry audio src total)
  | .commitCarry src total => some { audio with thread := .copyCarry 0 src total }
  | .copyCarry done src total =>
      if done = bufferSize then
        some { publish audio with carryFill := 0, thread := .loopTest src total }
      else none
  | .loopTest src total => some (loopStep audio src total)
  | .copyBlock done src total =>
      if done = bufferSize then
        some { publish audio with
          thread := .loopTest (src.drop bufferSize) (total - bufferSize) }
      else none
  | .startTest => some (startPlayback audio)

def storeInSlot (audio : Audio) (done : Nat) (data : List UInt8) : Nat → UInt8 :=
  writeBytes audio.ring (audio.bufferFill * bufferSize + done) data

def copyBytes (audio : Audio) (count : Nat) : Option Audio :=
  match audio.thread with
  | .copyCarry done src total =>
      if done + count ≤ bufferSize then
        some { audio with
          ring := storeInSlot audio done (readBytes audio.carry done count)
          thread := .copyCarry (done + count) src total }
      else none
  | .copyBlock done src total =>
      if done + count ≤ bufferSize then
        some { audio with
          ring := storeInSlot audio done ((src.drop done).take count)
          thread := .copyBlock (done + count) src total }
      else none
  | _ => none

def step (audio : Audio) : Event → Option Audio
  | .decode chunk =>
      match audio.thread with
      | .idle =>
          some { audio with
            decoded := audio.decoded ++ chunk.pcm
            thread := .append chunk.pcm chunk.total }
      | _ => none
  | .advance => advanceThread audio
  | .copy count => copyBytes audio count
  | .dma => some (dmaCallback audio)

def arStart (carry ring : Nat → UInt8) : Audio where
  carry := carry
  carryFill := 0
  ring := ring
  bufferFill := 0
  bufferPlay := 0
  buffered := 0
  playing := false
  thread := .idle
  submissions := []
  decoded := []
  committed := []
  taken := 0

/-! ## What the ring promises -/

def Submission.slot? : Submission → Option Nat
  | .silence => none
  | .block slot _ _ => some slot

/-- The ring slots handed to the DSP, newest first. -/
def handedSlots (submissions : List Submission) : List Nat :=
  (submissions.filterMap Submission.slot?).reverse

def pendingSlots (audio : Audio) : List Nat :=
  (List.range (audio.buffered / bufferSize).toNat).map fun index =>
    (audio.bufferPlay + index) % bufferCount

def writtenSlot (audio : Audio) : Option Nat :=
  match audio.thread with
  | .copyCarry _ _ _ => some audio.bufferFill
  | .copyBlock _ _ _ => some audio.bufferFill
  | _ => none

def AfterAppend (thread : DecoderThread) : Prop :=
  thread = .startTest ∨ thread = .idle

structure RingSafe (audio : Audio) : Prop where
  nonneg : 0 ≤ audio.buffered
  bounded : audio.buffered ≤ bufferSize * (bufferCount - 2 : Nat)
  multiple : audio.buffered % bufferSize = 0
  fill : (audio.bufferFill : Int) =
    (audio.bufferPlay + audio.buffered / bufferSize) % bufferCount
  carried : AfterAppend audio.thread → audio.carryFill < bufferSize
  untouched : ∀ slot, writtenSlot audio = some slot →
    slot ∉ pendingSlots audio ∧ slot ∉ (handedSlots audio.submissions).take 2

@[simp] theorem handedSlots_silence (submissions : List Submission) :
    handedSlots (submissions ++ [.silence]) = handedSlots submissions := by
  simp [handedSlots, Submission.slot?]

@[simp] theorem handedSlots_block (submissions : List Submission) (slot number : Nat)
    (content : List UInt8) :
    handedSlots (submissions ++ [.block slot number content]) =
      slot :: handedSlots submissions := by
  simp [handedSlots, Submission.slot?]

/-! ## The invariant of the indices -/

/-- What the decoder thread knows at each of its points, with `count` blocks in
the ring: it writes into the ring only while a slot is free. -/
def ThreadBounds (carryFill count : Nat) : DecoderThread → Prop
  | .idle => carryFill < bufferSize
  | .append _ _ => carryFill < bufferSize
  | .commitCarry _ _ => carryFill = bufferSize
  | .copyCarry done _ _ => carryFill = bufferSize ∧ done ≤ bufferSize ∧ count + 2 < bufferCount
  | .loopTest _ _ => carryFill < bufferSize
  | .copyBlock done _ _ => carryFill < bufferSize ∧ done ≤ bufferSize ∧ count + 2 < bufferCount
  | .startTest => carryFill < bufferSize

/-- The slots handed out, newest first, end just behind `bufferPlay`; only the
block that started playback is handed out before it is taken. -/
def HandedBehind (bufferPlay count : Nat) : List Nat → Prop
  | [] => True
  | [only] => only = bufferPlay ∧ 0 < count
  | newest :: previous :: _ =>
      newest = (bufferPlay + 31) % bufferCount ∧
        (previous = (bufferPlay + 31) % bufferCount ∨
          previous = (bufferPlay + 30) % bufferCount)

structure Disciplined (audio : Audio) (count : Nat) : Prop where
  counted : audio.buffered = count * bufferSize
  room : count + 2 ≤ bufferCount
  play : audio.bufferPlay < bufferCount
  fill : audio.bufferFill = (audio.bufferPlay + count) % bufferCount
  bounds : ThreadBounds audio.carryFill count audio.thread
  handed : HandedBehind audio.bufferPlay count (handedSlots audio.submissions)
  silent : audio.playing = false → handedSlots audio.submissions = []
  sounding : audio.playing = true → handedSlots audio.submissions ≠ []

theorem arStart_disciplined (carry ring : Nat → UInt8) :
    Disciplined (arStart carry ring) 0 where
  counted := rfl
  room := by decide
  play := (by decide : 0 < bufferCount)
  fill := rfl
  bounds := by simp [arStart, ThreadBounds, bufferSize]
  handed := trivial
  silent := fun _ => rfl
  sounding := by intro playing; cases playing

theorem bytes_positive_iff (count : Nat) :
    (0 : Int) < (count : Int) * bufferSize ↔ 0 < count := by
  simp only [bufferSize]
  omega

theorem threadBounds_fewer {carryFill count fewer : Nat} {thread : DecoderThread}
    (bounds : ThreadBounds carryFill count thread) (less : fewer ≤ count) :
    ThreadBounds carryFill fewer thread := by
  cases thread with
  | idle => exact bounds
  | append src total => exact bounds
  | commitCarry src total => exact bounds
  | copyCarry done src total =>
      obtain ⟨full, within, room⟩ := bounds
      exact ⟨full, within, by omega⟩
  | loopTest src total => exact bounds
  | copyBlock done src total =>
      obtain ⟨short, within, room⟩ := bounds
      exact ⟨short, within, by omega⟩
  | startTest => exact bounds

/-- The slot that is taken is handed out next. -/
theorem handedBehind_taken {bufferPlay count : Nat} {slots : List Nat} (after : Nat)
    (play : bufferPlay < bufferCount) (handed : HandedBehind bufferPlay count slots)
    (sounding : slots ≠ []) :
    HandedBehind ((bufferPlay + 1) % bufferCount) after (bufferPlay :: slots) := by
  simp only [bufferCount] at play ⊢
  cases slots with
  | nil => exact absurd rfl sounding
  | cons newest older =>
      cases older with
      | nil =>
          simp only [HandedBehind, bufferCount] at handed ⊢
          omega
      | cons previous oldest =>
          simp only [HandedBehind, bufferCount] at handed ⊢
          omega

/-- A callback that takes a block moves both `bufferPlay` and the newest handed
slot by one; the writing thread only gains room. -/
theorem dmaCallback_disciplined (audio : Audio) (count : Nat)
    (disciplined : Disciplined audio count) :
    ∃ after, Disciplined (dmaCallback audio) after ∧ after ≤ count := by
  unfold dmaCallback
  by_cases taking : (audio.playing && decide (0 < audio.buffered)) = true
  · rw [if_pos taking]
    simp only [Bool.and_eq_true, decide_eq_true_eq] at taking
    obtain ⟨playing, some_buffered⟩ := taking
    rw [disciplined.counted, bytes_positive_iff] at some_buffered
    obtain ⟨after, rfl⟩ : ∃ after, count = after + 1 := ⟨count - 1, by omega⟩
    refine ⟨after, ⟨?_, ?_, ?_, ?_, ?_, ?_, ?_, ?_⟩, by omega⟩
    · have counted := disciplined.counted
      simp only [bufferSize] at counted ⊢
      omega
    · have room := disciplined.room
      omega
    · exact Nat.mod_lt _ (by decide)
    · have fill := disciplined.fill
      simp only [bufferCount] at fill ⊢
      omega
    · exact threadBounds_fewer disciplined.bounds (Nat.le_succ after)
    · simp only [submitBlock, handedSlots_block]
      exact handedBehind_taken after disciplined.play disciplined.handed
        (disciplined.sounding playing)
    · intro off
      rw [playing] at off
      cases off
    · intro _
      simp [submitBlock]
  · rw [if_neg taking]
    refine ⟨count, ?_, Nat.le_refl _⟩
    exact
      { counted := disciplined.counted
        room := disciplined.room
        play := disciplined.play
        fill := disciplined.fill
        bounds := disciplined.bounds
        handed := by simpa using disciplined.handed
        silent := by simpa using disciplined.silent
        sounding := by simpa using disciplined.sounding }

/-- Steps that leave the ring counters and the submissions alone only have to
re-establish what the decoder thread knows. -/
theorem disciplined_of_same_ring (audio next : Audio) (count : Nat)
    (disciplined : Disciplined audio count)
    (fill : next.bufferFill = audio.bufferFill) (play : next.bufferPlay = audio.bufferPlay)
    (buffered : next.buffered = audio.buffered) (playing : next.playing = audio.playing)
    (submissions : next.submissions = audio.submissions)
    (bounds : ThreadBounds next.carryFill count next.thread) : Disciplined next count where
  counted := by rw [buffered]; exact disciplined.counted
  room := disciplined.room
  play := by rw [play]; exact disciplined.play
  fill := by rw [fill, play]; exact disciplined.fill
  bounds := bounds
  handed := by rw [play, submissions]; exact disciplined.handed
  silent := by rw [playing, submissions]; exact disciplined.silent
  sounding := by rw [playing, submissions]; exact disciplined.sounding

theorem publish_disciplined (audio next : Audio) (count : Nat)
    (disciplined : Disciplined audio count) (free : count + 2 < bufferCount)
    (fill : next.bufferFill = (publish audio).bufferFill)
    (play : next.bufferPlay = audio.bufferPlay)
    (buffered : next.buffered = (publish audio).buffered)
    (playing : next.playing = audio.playing)
    (submissions : next.submissions = audio.submissions)
    (bounds : ThreadBounds next.carryFill (count + 1) next.thread) :
    Disciplined next (count + 1) where
  counted := by
    have counted := disciplined.counted
    rw [buffered]
    simp only [publish, bufferSize] at counted ⊢
    omega
  room := by omega
  play := by rw [play]; exact disciplined.play
  fill := by
    have before := disciplined.fill
    rw [fill, play]
    simp only [publish, bufferCount] at before ⊢
    omega
  bounds := bounds
  handed := by
    rw [play, submissions]
    have handed := disciplined.handed
    cases slots : handedSlots audio.submissions with
    | nil => trivial
    | cons newest older =>
        rw [slots] at handed
        cases older with
        | nil => exact ⟨handed.1, Nat.succ_pos count⟩
        | cons previous oldest => exact handed
  silent := by rw [playing, submissions]; exact disciplined.silent
  sounding := by rw [playing, submissions]; exact disciplined.sounding

theorem startPlayback_disciplined (audio : Audio) (count : Nat)
    (disciplined : Disciplined audio count) (thread : audio.thread = .startTest) :
    Disciplined (startPlayback audio) count := by
  have bounds := disciplined.bounds
  rw [thread] at bounds
  unfold startPlayback
  by_cases starts : (!audio.playing && decide (0 < audio.buffered)) = true
  · rw [if_pos starts]
    simp only [Bool.and_eq_true, Bool.not_eq_true', decide_eq_true_eq] at starts
    obtain ⟨off, some_buffered⟩ := starts
    rw [disciplined.counted, bytes_positive_iff] at some_buffered
    exact
      { counted := disciplined.counted
        room := disciplined.room
        play := disciplined.play
        fill := disciplined.fill
        bounds := bounds
        handed := by
          simp only [submitBlock, handedSlots_block, disciplined.silent off]
          exact ⟨rfl, some_buffered⟩
        silent := by intro on; cases on
        sounding := by intro _; simp [submitBlock] }
  · rw [if_neg starts]
    exact disciplined_of_same_ring audio _ count disciplined rfl rfl rfl rfl rfl bounds

theorem appendEntry_disciplined (audio : Audio) (count : Nat) (src : List UInt8) (total : Nat)
    (disciplined : Disciplined audio count) (thread : audio.thread = .append src total) :
    Disciplined (appendEntry audio src total) count := by
  have bounds := disciplined.bounds
  rw [thread] at bounds
  simp only [ThreadBounds] at bounds
  unfold appendEntry
  by_cases carried : 0 < audio.carryFill
  · rw [if_pos carried]
    refine disciplined_of_same_ring audio _ count disciplined rfl rfl rfl rfl rfl ?_
    simp only
    by_cases full : audio.carryFill + min total (bufferSize - audio.carryFill) = bufferSize
    · rw [if_pos full]
      exact full
    · rw [if_neg full]
      simp only [ThreadBounds]
      omega
  · rw [if_neg carried]
    exact disciplined_of_same_ring audio _ count disciplined rfl rfl rfl rfl rfl bounds

theorem loopStep_disciplined (audio : Audio) (count : Nat) (src : List UInt8) (total : Nat)
    (disciplined : Disciplined audio count) (thread : audio.thread = .loopTest src total) :
    Disciplined (loopStep audio src total) count := by
  have bounds := disciplined.bounds
  rw [thread] at bounds
  simp only [ThreadBounds] at bounds
  unfold loopStep
  by_cases commits : bufferSize ≤ total ∧ (bufferSize : Int) ≤ getSpace audio
  · rw [if_pos commits]
    refine disciplined_of_same_ring audio _ count disciplined rfl rfl rfl rfl rfl ?_
    have space := commits.2
    have room := disciplined.room
    rw [getSpace, disciplined.counted] at space
    simp only [ThreadBounds]
    simp only [bufferSize, bufferCount] at space room bounds ⊢
    omega
  · rw [if_neg commits]
    by_cases leftover : 0 < total ∧ total < bufferSize
    · rw [if_pos leftover]
      exact disciplined_of_same_ring audio _ count disciplined rfl rfl rfl rfl rfl leftover.2
    · rw [if_neg leftover]
      exact disciplined_of_same_ring audio _ count disciplined rfl rfl rfl rfl rfl bounds

def SpaceForCarry (audio : Audio) (event : Event) : Prop :=
  match audio.thread, event with
  | .commitCarry _ _, .advance => (bufferSize : Int) ≤ getSpace audio
  | _, _ => True

/-- What a step of the decoder thread has made of `audio`. -/
inductive Advanced (audio : Audio) : Audio → Prop where
  | append (src : List UInt8) (total : Nat) (thread : audio.thread = .append src total) :
      Advanced audio (appendEntry audio src total)
  | commitCarry (src : List UInt8) (total : Nat) (thread : audio.thread = .commitCarry src total) :
      Advanced audio { audio with thread := .copyCarry 0 src total }
  | publishCarry (src : List UInt8) (total : Nat)
      (thread : audio.thread = .copyCarry bufferSize src total) :
      Advanced audio { publish audio with carryFill := 0, thread := .loopTest src total }
  | loop (src : List UInt8) (total : Nat) (thread : audio.thread = .loopTest src total) :
      Advanced audio (loopStep audio src total)
  | publishBlock (src : List UInt8) (total : Nat)
      (thread : audio.thread = .copyBlock bufferSize src total) :
      Advanced audio { publish audio with
        thread := .loopTest (src.drop bufferSize) (total - bufferSize) }
  | start (thread : audio.thread = .startTest) : Advanced audio (startPlayback audio)

theorem advanceThread_advanced {audio next : Audio} (stepped : advanceThread audio = some next) :
    Advanced audio next := by
  unfold advanceThread at stepped
  cases thread : audio.thread with
  | idle => simp [thread] at stepped
  | append src total =>
      simp only [thread] at stepped
      cases stepped
      exact .append src total thread
  | commitCarry src total =>
      simp only [thread] at stepped
      cases stepped
      exact .commitCarry src total thread
  | copyCarry done src total =>
      simp only [thread] at stepped
      by_cases finished : done = bufferSize
      · subst finished
        rw [if_pos rfl] at stepped
        cases stepped
        exact .publishCarry src total thread
      · rw [if_neg finished] at stepped
        cases stepped
  | loopTest src total =>
      simp only [thread] at stepped
      cases stepped
      exact .loop src total thread
  | copyBlock done src total =>
      simp only [thread] at stepped
      by_cases finished : done = bufferSize
      · subst finished
        rw [if_pos rfl] at stepped
        cases stepped
        exact .publishBlock src total thread
      · rw [if_neg finished] at stepped
        cases stepped
  | startTest =>
      simp only [thread] at stepped
      cases stepped
      exact .start thread

/-- What `count` bytes of a running `memcpy` into the ring have made of `audio`. -/
inductive Copied (audio : Audio) (count : Nat) : Audio → Prop where
  | carry (done : Nat) (src : List UInt8) (total : Nat)
      (thread : audio.thread = .copyCarry done src total) (fits : done + count ≤ bufferSize) :
      Copied audio count { audio with
        ring := storeInSlot audio done (readBytes audio.carry done count)
        thread := .copyCarry (done + count) src total }
  | block (done : Nat) (src : List UInt8) (total : Nat)
      (thread : audio.thread = .copyBlock done src total) (fits : done + count ≤ bufferSize) :
      Copied audio count { audio with
        ring := storeInSlot audio done ((src.drop done).take count)
        thread := .copyBlock (done + count) src total }

theorem copyBytes_copied {audio next : Audio} {count : Nat}
    (stepped : copyBytes audio count = some next) : Copied audio count next := by
  unfold copyBytes at stepped
  cases thread : audio.thread with
  | copyCarry done src total =>
      simp only [thread] at stepped
      split at stepped
      · rename_i fits
        cases stepped
        exact .carry done src total thread fits
      · cases stepped
  | copyBlock done src total =>
      simp only [thread] at stepped
      split at stepped
      · rename_i fits
        cases stepped
        exact .block done src total thread fits
      · cases stepped
  | idle => simp [thread] at stepped
  | append src total => simp [thread] at stepped
  | commitCarry src total => simp [thread] at stepped
  | loopTest src total => simp [thread] at stepped
  | startTest => simp [thread] at stepped

theorem advanceThread_disciplined (audio next : Audio) (count : Nat)
    (disciplined : Disciplined audio count) (space : SpaceForCarry audio .advance)
    (stepped : advanceThread audio = some next) : ∃ after, Disciplined next after := by
  have bounds := disciplined.bounds
  cases advanceThread_advanced stepped with
  | append src total thread =>
      exact ⟨count, appendEntry_disciplined audio count src total disciplined thread⟩
  | commitCarry src total thread =>
      refine ⟨count, ?_⟩
      refine disciplined_of_same_ring audio _ count disciplined rfl rfl rfl rfl rfl ?_
      simp only [SpaceForCarry, thread, getSpace, disciplined.counted] at space
      rw [thread] at bounds
      simp only [ThreadBounds, bufferSize, bufferCount] at space bounds ⊢
      omega
  | publishCarry src total thread =>
      rw [thread] at bounds
      refine ⟨count + 1, ?_⟩
      refine publish_disciplined audio _ count disciplined bounds.2.2 rfl rfl rfl rfl rfl ?_
      simp [ThreadBounds, bufferSize]
  | loop src total thread =>
      exact ⟨count, loopStep_disciplined audio count src total disciplined thread⟩
  | publishBlock src total thread =>
      rw [thread] at bounds
      exact ⟨count + 1,
        publish_disciplined audio _ count disciplined bounds.2.2 rfl rfl rfl rfl rfl bounds.1⟩
  | start thread =>
      exact ⟨count, startPlayback_disciplined audio count disciplined thread⟩

theorem copyBytes_disciplined (audio next : Audio) (count copied : Nat)
    (disciplined : Disciplined audio count)
    (stepped : copyBytes audio copied = some next) : Disciplined next count := by
  have bounds := disciplined.bounds
  cases copyBytes_copied stepped with
  | carry done src total thread fits =>
      rw [thread] at bounds
      exact disciplined_of_same_ring audio _ count disciplined rfl rfl rfl rfl rfl
        ⟨bounds.1, fits, bounds.2.2⟩
  | block done src total thread fits =>
      rw [thread] at bounds
      exact disciplined_of_same_ring audio _ count disciplined rfl rfl rfl rfl rfl
        ⟨bounds.1, fits, bounds.2.2⟩

def IndexInvariant (audio : Audio) : Prop :=
  ∃ count, Disciplined audio count

theorem step_indexInvariant (audio : Audio) (event : Event) (next : Audio)
    (invariant : IndexInvariant audio) (space : SpaceForCarry audio event)
    (stepped : step audio event = some next) : IndexInvariant next := by
  obtain ⟨count, disciplined⟩ := invariant
  cases event with
  | decode chunk =>
      simp only [step] at stepped
      have bounds := disciplined.bounds
      split at stepped
      · rename_i thread
        cases Option.some.inj stepped
        rw [thread] at bounds
        exact ⟨count,
          disciplined_of_same_ring audio _ count disciplined rfl rfl rfl rfl rfl bounds⟩
      · cases stepped
  | advance => exact advanceThread_disciplined audio next count disciplined space stepped
  | copy copied => exact ⟨count, copyBytes_disciplined audio next count copied disciplined stepped⟩
  | dma =>
      cases Option.some.inj stepped
      obtain ⟨after, kept, _⟩ := dmaCallback_disciplined audio count disciplined
      exact ⟨after, kept⟩

/-! ## The ring never overflows while `commit_carry` finds room -/

theorem Disciplined.blocks {audio : Audio} {count : Nat} (disciplined : Disciplined audio count) :
    (audio.buffered / bufferSize).toNat = count := by
  rw [disciplined.counted]
  simp only [bufferSize]
  omega

theorem Disciplined.untouched {audio : Audio} {count : Nat}
    (disciplined : Disciplined audio count) (free : count + 2 < bufferCount) :
    audio.bufferFill ∉ pendingSlots audio ∧
      audio.bufferFill ∉ (handedSlots audio.submissions).take 2 := by
  have play := disciplined.play
  have handed := disciplined.handed
  rw [disciplined.fill]
  constructor
  · rw [pendingSlots, disciplined.blocks, List.mem_map]
    rintro ⟨index, member, same⟩
    have bound := List.mem_range.mp member
    exact slot_ne bufferCount audio.bufferPlay index count bound (by omega) same
  · cases slots : handedSlots audio.submissions with
    | nil => simp
    | cons newest older =>
        rw [slots] at handed
        cases older with
        | nil =>
            simp only [HandedBehind] at handed
            simp only [List.take_succ_cons, List.take_nil, List.mem_singleton]
            simp only [bufferCount] at play free ⊢
            omega
        | cons previous oldest =>
            simp only [HandedBehind] at handed
            simp only [List.take_succ_cons, List.take_zero, List.mem_cons, List.not_mem_nil,
              or_false]
            simp only [bufferCount] at play free handed ⊢
            omega

theorem Disciplined.ringSafe {audio : Audio} {count : Nat}
    (disciplined : Disciplined audio count) : RingSafe audio where
  nonneg := by
    have counted := disciplined.counted
    simp only [bufferSize] at counted
    omega
  bounded := by
    have counted := disciplined.counted
    have room := disciplined.room
    simp only [bufferSize, bufferCount] at counted room ⊢
    omega
  multiple := by
    have counted := disciplined.counted
    simp only [bufferSize] at counted ⊢
    omega
  fill := by
    have counted := disciplined.counted
    have fill := disciplined.fill
    simp only [bufferSize, bufferCount] at counted fill ⊢
    omega
  carried := by
    intro after
    have bounds := disciplined.bounds
    rcases after with thread | thread
    · rw [thread] at bounds; exact bounds
    · rw [thread] at bounds; exact bounds
  untouched := by
    intro slot written
    have bounds := disciplined.bounds
    cases thread : audio.thread with
    | copyCarry done src total =>
        simp only [writtenSlot, thread, Option.some.injEq] at written
        subst slot
        rw [thread] at bounds
        exact disciplined.untouched bounds.2.2
    | copyBlock done src total =>
        simp only [writtenSlot, thread, Option.some.injEq] at written
        subst slot
        rw [thread] at bounds
        exact disciplined.untouched bounds.2.2
    | idle => simp [writtenSlot, thread] at written
    | append src total => simp [writtenSlot, thread] at written
    | commitCarry src total => simp [writtenSlot, thread] at written
    | loopTest src total => simp [writtenSlot, thread] at written
    | startTest => simp [writtenSlot, thread] at written

/-- In every run after `ar_start` in which `commit_carry` is only reached with
`get_space() >= BUFFER_SIZE`, the ring is safe in every state. -/
theorem ring_safe_of_carry_space (carry ring : Nat → UInt8) (events : List Event)
    (final : Audio) (space : Along step SpaceForCarry (arStart carry ring) events)
    (reached : run step (arStart carry ring) events = some final) : RingSafe final := by
  have invariant : IndexInvariant final :=
    run_invariant IndexInvariant step_indexInvariant
      ⟨0, arStart_disciplined carry ring⟩ space reached
  obtain ⟨count, disciplined⟩ := invariant
  exact disciplined.ringSafe

def silentChunk (frames : Nat) (bound : frames ≤ maxFrames) : Chunk where
  pcm := List.replicate (frames * 4) 0
  total := frames * 4
  length_eq := List.length_replicate
  aligned := by omega
  bound := Nat.mul_le_mul_right 4 bound

def wholeBlock : List Event :=
  [.advance, .copy 4096, .advance]

def halfBlock : List Event :=
  [.decode (silentChunk 512 (by decide)), .advance, .advance, .advance]

/-- 512 frames that fill the carry up and commit it. -/
def secondHalfBlock : List Event :=
  [.decode (silentChunk 512 (by decide)), .advance] ++ wholeBlock ++ [.advance, .advance]

/-- 5120 frames: five blocks through the bulk loop. -/
def fiveBlocks : List Event :=
  [.decode (silentChunk 5120 (by decide)), .advance] ++
    (List.replicate 5 wholeBlock).flatten ++ [.advance, .advance]

instance spaceForCarryDecidable (audio : Audio) (event : Event) :
    Decidable (SpaceForCarry audio event) := by
  unfold SpaceForCarry
  split <;> infer_instance

def blankMemory : Nat → UInt8 := fun _ => 0

def playedRun : List Event :=
  fiveBlocks ++ halfBlock ++ [.dma] ++ secondHalfBlock ++ [.dma, .dma]

theorem ring_safe_in_played_run :
    ∃ final, run step (arStart blankMemory blankMemory) playedRun = some final ∧
      RingSafe final := by
  have reached : (run step (arStart blankMemory blankMemory) playedRun).isSome := by
    decide
  refine ⟨_, (Option.some_get reached).symm, ?_⟩
  exact ring_safe_of_carry_space _ _ playedRun _ (by decide)
    (Option.some_get reached).symm

def stalledRun : List Event :=
  (List.replicate 6 fiveBlocks).flatten ++ halfBlock ++ secondHalfBlock

/-- `commit_carry` does not ask for space: a full ring takes a thirty-first block. -/
theorem carry_overflows_ring :
    ¬ ∀ (carry ring : Nat → UInt8) (events : List Event) (final : Audio),
      run step (arStart carry ring) events = some final → RingSafe final := by
  intro always
  have filled : (run step (arStart blankMemory blankMemory) stalledRun).map Audio.buffered =
      some (31 * 4096) := by
    decide
  obtain ⟨final, reached, buffered⟩ := Option.map_eq_some_iff.mp filled
  have bounded := (always _ _ stalledRun final reached).bounded
  rw [buffered] at bounded
  revert bounded
  decide

end MoonlightWii.Wii.AudioRing
