import MoonlightWii.Foundation.Blocks
import MoonlightWii.Wii.AudioRing

/-!
# The sound that reaches the DSP

The decoded stereo PCM is one byte stream.  Carry and ring cut it into blocks
without loss as long as every commit finds room, and `dma_callback` hands the
committed blocks over in order.  The start of playback hands the first block over
as well, but leaves `bufferPlay` and `buffered` to the first interrupt.
-/

set_option autoImplicit false

namespace MoonlightWii.Wii.AudioStream

open Foundation.Blocks
open Foundation.ByteMemory
open Foundation.CircularBuffer
open Foundation.GuardedRun
open MoonlightWii.Wii.AudioRing

/-! ## Submissions in stream order -/

def Submission.numbered? : Submission → Option (List UInt8 × Nat)
  | .silence => none
  | .block _ number content => some (content, number)

/-- The blocks passed to `AUDIO_InitDMA`, each with its position in the stream. -/
def submittedBlocks (submissions : List Submission) : List (List UInt8 × Nat) :=
  submissions.filterMap Submission.numbered?

@[simp] theorem submittedBlocks_silence (submissions : List Submission) :
    submittedBlocks (submissions ++ [.silence]) = submittedBlocks submissions := by
  simp [submittedBlocks, Submission.numbered?]

@[simp] theorem submittedBlocks_block (submissions : List Submission) (slot number : Nat)
    (content : List UInt8) :
    submittedBlocks (submissions ++ [.block slot number content]) =
      submittedBlocks submissions ++ [(content, number)] := by
  simp [submittedBlocks, Submission.numbered?]

/-- The submitted blocks are the first blocks of the decoded stream, each once. -/
def InOrder (audio : Audio) : Prop :=
  submittedBlocks audio.submissions <+: (blocks bufferSize audio.decoded).zipIdx

def SpaceForCommit (audio : Audio) (event : Event) : Prop :=
  match audio.thread, event with
  | .commitCarry _ _, .advance => (bufferSize : Int) ≤ getSpace audio
  | .loopTest _ total, .advance => bufferSize ≤ total → (bufferSize : Int) ≤ getSpace audio
  | _, _ => True

theorem SpaceForCommit.carry {audio : Audio} {event : Event}
    (space : SpaceForCommit audio event) : SpaceForCarry audio event := by
  unfold SpaceForCommit at space
  unfold SpaceForCarry
  split
  · rename_i thread
    rw [thread] at space
    exact space
  · trivial

/-! ## The invariant of the data -/

def remaining : DecoderThread → List UInt8
  | .idle => []
  | .append src _ => src
  | .commitCarry src _ => src
  | .copyCarry _ src _ => src
  | .loopTest src _ => src
  | .copyBlock _ src _ => src
  | .startTest => []

def liveBlocks (audio : Audio) : Nat := audio.committed.length - audio.taken

/-- What a running `memcpy` has stored in the slot `bufferFill` so far. -/
def slotPrefix (audio : Audio) (done : Nat) : List UInt8 :=
  readBytes audio.ring (audio.bufferFill * bufferSize) done

def ThreadData (audio : Audio) : Prop :=
  match audio.thread with
  | .idle => True
  | .append src total => src.length = total
  | .commitCarry src total => src.length = total
  | .copyCarry done src total =>
      src.length = total ∧ slotPrefix audio done = readBytes audio.carry 0 done
  | .loopTest src total => src.length = total ∧ (0 < audio.carryFill → total = 0)
  | .copyBlock done src total =>
      src.length = total ∧ audio.carryFill = 0 ∧ bufferSize ≤ total ∧
        slotPrefix audio done = src.take done
  | .startTest => True

structure Streaming (audio : Audio) : Prop where
  counted : audio.buffered = liveBlocks audio * bufferSize
  behind : audio.taken ≤ audio.committed.length
  full : ∀ block, block ∈ audio.committed → block.length = bufferSize
  live : window bufferCount (slotContent audio.ring) audio.bufferPlay (liveBlocks audio) =
    audio.committed.drop audio.taken
  stream : audio.committed.flatten ++ readBytes audio.carry 0 audio.carryFill ++
    remaining audio.thread = audio.decoded
  thread : ThreadData audio
  submitted : submittedBlocks audio.submissions =
    (if audio.playing then audio.committed.zipIdx.take 1 else []) ++
      audio.committed.zipIdx.take audio.taken
  started : audio.playing = true → 0 < audio.committed.length
  stopped : audio.playing = false → audio.taken = 0

theorem arStart_streaming (carry ring : Nat → UInt8) : Streaming (arStart carry ring) where
  counted := by simp [arStart, liveBlocks]
  behind := Nat.le_refl 0
  full := by intro block member; cases member
  live := by simp [arStart, liveBlocks]
  stream := rfl
  thread := trivial
  submitted := rfl
  started := by intro playing; cases playing
  stopped := fun _ => rfl

theorem disciplined_live (audio : Audio) (indices : IndexInvariant audio)
    (streaming : Streaming audio) : Disciplined audio (liveBlocks audio) := by
  obtain ⟨count, disciplined⟩ := indices
  have same : count = liveBlocks audio := by
    have counted := disciplined.counted
    rw [streaming.counted] at counted
    simp only [bufferSize] at counted
    omega
  exact same ▸ disciplined

theorem slotContent_write_other (ring : Nat → UInt8) (slot written done : Nat)
    (data : List UInt8) (other : slot ≠ written) (fits : done + data.length ≤ bufferSize) :
    slotContent (writeBytes ring (written * bufferSize + done) data) slot =
      slotContent ring slot := by
  unfold slotContent
  simp only [bufferSize] at fits ⊢
  rcases Nat.lt_or_gt_of_ne other with before | after
  · exact readBytes_writeBytes_before _ _ _ _ _ (by omega)
  · exact readBytes_writeBytes_after _ _ _ _ _ (by omega)

theorem live_storeInSlot (audio : Audio) (done : Nat) (data : List UInt8)
    (disciplined : Disciplined audio (liveBlocks audio)) (streaming : Streaming audio)
    (free : liveBlocks audio + 2 < bufferCount) (fits : done + data.length ≤ bufferSize) :
    window bufferCount (slotContent (storeInSlot audio done data)) audio.bufferPlay
      (liveBlocks audio) = audio.committed.drop audio.taken := by
  rw [← streaming.live]
  apply window_congr
  intro index less
  apply slotContent_write_other _ _ _ _ _ _ fits
  rw [disciplined.fill]
  exact slot_ne bufferCount audio.bufferPlay index _ less (by omega)

theorem publish_streaming (audio next : Audio) (block : List UInt8)
    (disciplined : Disciplined audio (liveBlocks audio)) (streaming : Streaming audio)
    (written : slotContent audio.ring audio.bufferFill = block)
    (ring : next.ring = audio.ring) (play : next.bufferPlay = audio.bufferPlay)
    (buffered : next.buffered = audio.buffered + bufferSize)
    (playing : next.playing = audio.playing) (taken : next.taken = audio.taken)
    (submissions : next.submissions = audio.submissions)
    (committed : next.committed = audio.committed ++ [block])
    (stream : audio.committed.flatten ++ block ++ readBytes next.carry 0 next.carryFill ++
      remaining next.thread = next.decoded)
    (thread : ThreadData next) : Streaming next := by
  have behind := streaming.behind
  have more : liveBlocks next = liveBlocks audio + 1 := by
    simp only [liveBlocks, committed, taken, List.length_append, List.length_singleton]
    omega
  exact
    { counted := by
        have counted := streaming.counted
        rw [more, buffered, counted]
        simp only [bufferSize]
        omega
      behind := by
        simp only [committed, taken, List.length_append]
        omega
      full := by
        intro other member
        rw [committed, List.mem_append, List.mem_singleton] at member
        rcases member with old | rfl
        · exact streaming.full other old
        · rw [← written]
          exact readBytes_length _ _ _
      live := by
        rw [more, ring, play, committed, taken, window_extend, streaming.live,
          ← disciplined.fill, written, List.drop_append_of_le_length behind]
      stream := by
        rw [committed, List.flatten_append, List.flatten_singleton]
        exact stream
      thread := thread
      submitted := by
        have old (count : Nat) (bound : count ≤ audio.committed.length) :
            (audio.committed ++ [block]).zipIdx.take count =
              audio.committed.zipIdx.take count := by
          rw [List.zipIdx_append, List.take_append_of_le_length]
          rw [List.length_zipIdx]
          exact bound
        rw [submissions, playing, committed, taken, streaming.submitted, old _ behind]
        cases on : audio.playing with
        | false => rfl
        | true => rw [old 1 (streaming.started on)]
      started := by
        intro _
        rw [committed, List.length_append, List.length_singleton]
        exact Nat.succ_pos _
      stopped := by
        rw [playing, taken]
        exact streaming.stopped }

/-- Steps of the decoder thread that neither publish nor submit only have to
account for the bytes they move. -/
theorem streaming_of_same_blocks (audio next : Audio) (streaming : Streaming audio)
    (play : next.bufferPlay = audio.bufferPlay) (buffered : next.buffered = audio.buffered)
    (playing : next.playing = audio.playing) (taken : next.taken = audio.taken)
    (submissions : next.submissions = audio.submissions)
    (committed : next.committed = audio.committed)
    (live : window bufferCount (slotContent next.ring) audio.bufferPlay (liveBlocks audio) =
      audio.committed.drop audio.taken)
    (stream : audio.committed.flatten ++ readBytes next.carry 0 next.carryFill ++
      remaining next.thread = next.decoded)
    (thread : ThreadData next) : Streaming next := by
  have same : liveBlocks next = liveBlocks audio := by
    rw [liveBlocks, committed, taken, liveBlocks]
  exact
    { counted := by rw [same, buffered]; exact streaming.counted
      behind := by rw [taken, committed]; exact streaming.behind
      full := by rw [committed]; exact streaming.full
      live := by rw [same, play, committed, taken]; exact live
      stream := by rw [committed]; exact stream
      thread := thread
      submitted := by
        rw [submissions, playing, committed, taken]
        exact streaming.submitted
      started := by rw [playing, committed]; exact streaming.started
      stopped := by rw [playing, taken]; exact streaming.stopped }

theorem appendEntry_streaming (audio : Audio) (src : List UInt8) (total : Nat)
    (disciplined : Disciplined audio (liveBlocks audio)) (streaming : Streaming audio)
    (thread : audio.thread = .append src total) :
    Streaming (appendEntry audio src total) := by
  have bounds := disciplined.bounds
  have stream := streaming.stream
  have data := streaming.thread
  simp only [thread, ThreadBounds] at bounds
  simp only [thread, remaining] at stream
  simp only [ThreadData, thread] at data
  unfold appendEntry
  by_cases carried : 0 < audio.carryFill
  · rw [if_pos carried]
    have moved : (src.take (min total (bufferSize - audio.carryFill))).length =
        min total (bufferSize - audio.carryFill) := by
      rw [List.length_take, data]
      omega
    have left : (src.drop (min total (bufferSize - audio.carryFill))).length =
        total - min total (bufferSize - audio.carryFill) := by
      rw [List.length_drop, data]
    have toppedUp := readBytes_writeBytes_extend audio.carry 0 audio.carryFill
      (src.take (min total (bufferSize - audio.carryFill)))
    rw [moved, Nat.zero_add] at toppedUp
    refine streaming_of_same_blocks audio _ streaming rfl rfl rfl rfl rfl rfl streaming.live ?_ ?_
    · simp only
      rw [toppedUp, ← stream, List.append_assoc, List.append_assoc, List.append_assoc]
      congr 2
      split <;> exact List.take_append_drop _ src
    · by_cases full : audio.carryFill + min total (bufferSize - audio.carryFill) = bufferSize
      · simp only [ThreadData, if_pos full]
        exact left
      · simp only [ThreadData, if_neg full]
        refine ⟨left, fun _ => ?_⟩
        omega
  · rw [if_neg carried]
    refine streaming_of_same_blocks audio _ streaming rfl rfl rfl rfl rfl rfl streaming.live ?_ ?_
    · exact stream
    · exact ⟨data, fun some_carried => absurd some_carried carried⟩

theorem loopStep_streaming (audio : Audio) (src : List UInt8) (total : Nat)
    (streaming : Streaming audio) (thread : audio.thread = .loopTest src total)
    (space : SpaceForCommit audio .advance) : Streaming (loopStep audio src total) := by
  have stream := streaming.stream
  have data := streaming.thread
  simp only [thread, remaining] at stream
  simp only [ThreadData, thread] at data
  simp only [SpaceForCommit, thread] at space
  unfold loopStep
  by_cases commits : bufferSize ≤ total ∧ (bufferSize : Int) ≤ getSpace audio
  · rw [if_pos commits]
    refine streaming_of_same_blocks audio _ streaming rfl rfl rfl rfl rfl rfl streaming.live ?_ ?_
    · exact stream
    · have empty : audio.carryFill = 0 := by
        have total_pos : 0 < total := by
          have block := commits.1
          simp only [bufferSize] at block
          omega
        have carried := data.2
        omega
      exact ⟨data.1, empty, commits.1, rfl⟩
  · rw [if_neg commits]
    by_cases leftover : 0 < total ∧ total < bufferSize
    · rw [if_pos leftover]
      have empty : audio.carryFill = 0 := by
        have carried := data.2
        omega
      refine streaming_of_same_blocks audio _ streaming rfl rfl rfl rfl rfl rfl
        streaming.live ?_ trivial
      have packed := readBytes_writeBytes audio.carry 0 src
      rw [data.1] at packed
      simp only [remaining, List.append_nil]
      rw [packed, ← stream, empty, readBytes_zero, List.append_nil]
    · rw [if_neg leftover]
      refine streaming_of_same_blocks audio _ streaming rfl rfl rfl rfl rfl rfl
        streaming.live ?_ trivial
      have spent : src = [] := by
        apply List.eq_nil_of_length_eq_zero
        by_contra some_left
        have block : bufferSize ≤ total := by omega
        exact commits ⟨block, space block⟩
      rw [spent] at stream
      exact stream

theorem submitBlock_next (audio : Audio) (streaming : Streaming audio)
    (play : audio.bufferPlay < bufferCount) (some_live : 0 < liveBlocks audio) :
    audio.committed.drop audio.taken =
      slotContent audio.ring audio.bufferPlay :: audio.committed.drop (audio.taken + 1) ∧
    window bufferCount (slotContent audio.ring) (audio.bufferPlay + 1) (liveBlocks audio - 1) =
      audio.committed.drop (audio.taken + 1) := by
  have live := streaming.live
  obtain ⟨rest, count⟩ : ∃ rest, liveBlocks audio = rest + 1 := ⟨liveBlocks audio - 1, by omega⟩
  rw [count, window_pop, Nat.mod_eq_of_lt play] at live
  have tail : audio.committed.drop (audio.taken + 1) =
      window bufferCount (slotContent audio.ring) (audio.bufferPlay + 1) rest := by
    rw [← List.drop_drop, ← live]
    rfl
  rw [count, Nat.add_sub_cancel, tail]
  exact ⟨live.symm, rfl⟩

theorem zipIdx_take_succ (audio : Audio) (streaming : Streaming audio)
    (play : audio.bufferPlay < bufferCount) (some_live : 0 < liveBlocks audio) :
    audio.committed.zipIdx.take (audio.taken + 1) = audio.committed.zipIdx.take audio.taken ++
      [(slotContent audio.ring audio.bufferPlay, audio.taken)] := by
  have next := (submitBlock_next audio streaming play some_live).1
  have here : audio.committed[audio.taken]? =
      some (slotContent audio.ring audio.bufferPlay) := by
    have first : (audio.committed.drop audio.taken)[0]? = audio.committed[audio.taken + 0]? :=
      List.getElem?_drop
    rw [next] at first
    simpa using first.symm
  rw [List.take_add_one, List.getElem?_zipIdx, here]
  simp

theorem startPlayback_streaming (audio : Audio)
    (disciplined : Disciplined audio (liveBlocks audio)) (streaming : Streaming audio)
    (thread : audio.thread = .startTest) : Streaming (startPlayback audio) := by
  have stream := streaming.stream
  simp only [thread, remaining] at stream
  unfold startPlayback
  by_cases starts : (!audio.playing && decide (0 < audio.buffered)) = true
  · rw [if_pos starts]
    simp only [Bool.and_eq_true, Bool.not_eq_true', decide_eq_true_eq] at starts
    obtain ⟨off, some_buffered⟩ := starts
    rw [streaming.counted, bytes_positive_iff] at some_buffered
    have none_taken := streaming.stopped off
    have first := zipIdx_take_succ audio streaming disciplined.play some_buffered
    rw [none_taken] at first
    have submitted := streaming.submitted
    simp only [off, none_taken, List.take_zero, List.append_nil] at submitted
    exact
      { counted := streaming.counted
        behind := streaming.behind
        full := streaming.full
        live := streaming.live
        stream := stream
        thread := trivial
        submitted := by
          simp only [submitBlock, submittedBlocks_block, submitted, none_taken, if_true]
          simpa using first.symm
        started := by
          intro _
          simp only [liveBlocks] at some_buffered
          exact Nat.lt_of_lt_of_le some_buffered (Nat.sub_le _ _)
        stopped := by intro on; cases on }
  · rw [if_neg starts]
    exact streaming_of_same_blocks audio _ streaming rfl rfl rfl rfl rfl rfl streaming.live
      stream trivial

theorem dmaCallback_streaming (audio : Audio)
    (disciplined : Disciplined audio (liveBlocks audio)) (streaming : Streaming audio) :
    Streaming (dmaCallback audio) := by
  unfold dmaCallback
  by_cases taking : (audio.playing && decide (0 < audio.buffered)) = true
  · rw [if_pos taking]
    simp only [Bool.and_eq_true, decide_eq_true_eq] at taking
    obtain ⟨playing, some_buffered⟩ := taking
    rw [streaming.counted, bytes_positive_iff] at some_buffered
    have next := submitBlock_next audio streaming disciplined.play some_buffered
    have counted := streaming.counted
    simp only [liveBlocks] at some_buffered counted
    exact
      { counted := by
          simp only [liveBlocks, bufferSize] at counted ⊢
          omega
        behind := by
          simp only
          omega
        full := streaming.full
        live := by
          have fewer : audio.committed.length - (audio.taken + 1) = liveBlocks audio - 1 := by
            simp only [liveBlocks]
            omega
          simp only [liveBlocks, fewer]
          rw [← next.2]
          apply window_first_congr
          simp
        stream := streaming.stream
        thread := streaming.thread
        submitted := by
          have more := zipIdx_take_succ audio streaming disciplined.play some_buffered
          simp only [submitBlock, submittedBlocks_block, streaming.submitted, more,
            List.append_assoc]
        started := streaming.started
        stopped := by
          intro off
          rw [playing] at off
          cases off }
  · rw [if_neg taking]
    exact
      { counted := streaming.counted
        behind := streaming.behind
        full := streaming.full
        live := streaming.live
        stream := streaming.stream
        thread := streaming.thread
        submitted := by
          rw [submittedBlocks_silence]
          exact streaming.submitted
        started := streaming.started
        stopped := streaming.stopped }

theorem advanceThread_streaming (audio next : Audio)
    (disciplined : Disciplined audio (liveBlocks audio)) (streaming : Streaming audio)
    (space : SpaceForCommit audio .advance) (stepped : advanceThread audio = some next) :
    Streaming next := by
  have bounds := disciplined.bounds
  have stream := streaming.stream
  have data := streaming.thread
  cases advanceThread_advanced stepped with
  | append src total thread =>
      exact appendEntry_streaming audio src total disciplined streaming thread
  | commitCarry src total thread =>
      simp only [thread, remaining] at stream
      simp only [ThreadData, thread] at data
      exact streaming_of_same_blocks audio _ streaming rfl rfl rfl rfl rfl rfl streaming.live
        stream ⟨data, rfl⟩
  | publishCarry src total thread =>
      simp only [thread, ThreadBounds] at bounds
      simp only [thread, remaining] at stream
      simp only [ThreadData, thread, slotPrefix] at data
      refine publish_streaming audio _ _ disciplined streaming rfl rfl rfl rfl rfl rfl rfl rfl
        ?_ ⟨data.1, ?_⟩
      · simp only [publish, slotContent, remaining, readBytes_zero, List.append_nil]
        rw [data.2, ← stream, bounds.1]
      · intro some_carried
        cases some_carried
  | loop src total thread => exact loopStep_streaming audio src total streaming thread space
  | publishBlock src total thread =>
      simp only [thread, remaining] at stream
      simp only [ThreadData, thread, slotPrefix] at data
      obtain ⟨length, empty, block, copied⟩ := data
      refine publish_streaming audio _ _ disciplined streaming rfl rfl rfl rfl rfl rfl rfl rfl
        ?_ ⟨?_, ?_⟩
      · simp only [publish, slotContent, remaining, empty, readBytes_zero, List.append_nil]
        rw [copied, ← stream, empty, readBytes_zero, List.append_nil, List.append_assoc,
          List.take_append_drop]
      · rw [List.length_drop, length]
      · intro some_carried
        simp only [publish, empty] at some_carried
        exact absurd some_carried (Nat.lt_irrefl 0)
  | start thread => exact startPlayback_streaming audio disciplined streaming thread

theorem copyBytes_streaming (audio next : Audio) (count : Nat)
    (disciplined : Disciplined audio (liveBlocks audio)) (streaming : Streaming audio)
    (stepped : copyBytes audio count = some next) : Streaming next := by
  have bounds := disciplined.bounds
  have stream := streaming.stream
  have data := streaming.thread
  cases copyBytes_copied stepped with
  | carry done src total thread fits =>
      simp only [thread, ThreadBounds] at bounds
      simp only [thread, remaining] at stream
      simp only [ThreadData, thread, slotPrefix] at data
      have moved : (readBytes audio.carry done count).length = count := readBytes_length _ _ _
      refine streaming_of_same_blocks audio _ streaming rfl rfl rfl rfl rfl rfl
        (live_storeInSlot audio done _ disciplined streaming bounds.2.2 (by rw [moved]; exact fits))
        stream ⟨data.1, ?_⟩
      have extended := readBytes_writeBytes_extend audio.ring (audio.bufferFill * bufferSize)
        done (readBytes audio.carry done count)
      rw [moved, data.2] at extended
      rw [readBytes_add, Nat.zero_add]
      exact extended
  | block done src total thread fits =>
      simp only [thread, ThreadBounds] at bounds
      simp only [thread, remaining] at stream
      simp only [ThreadData, thread, slotPrefix] at data
      obtain ⟨length, empty, block, copied⟩ := data
      have moved : ((src.drop done).take count).length = count := by
        rw [List.length_take, List.length_drop, length]
        omega
      refine streaming_of_same_blocks audio _ streaming rfl rfl rfl rfl rfl rfl
        (live_storeInSlot audio done _ disciplined streaming bounds.2.2 (by rw [moved]; exact fits))
        stream ⟨length, empty, block, ?_⟩
      have extended := readBytes_writeBytes_extend audio.ring (audio.bufferFill * bufferSize)
        done ((src.drop done).take count)
      rw [moved, copied] at extended
      rw [List.take_add]
      exact extended

def StreamInvariant (audio : Audio) : Prop :=
  IndexInvariant audio ∧ Streaming audio

theorem step_streamInvariant (audio : Audio) (event : Event) (next : Audio)
    (invariant : StreamInvariant audio) (space : SpaceForCommit audio event)
    (stepped : step audio event = some next) : StreamInvariant next := by
  obtain ⟨indices, streaming⟩ := invariant
  refine ⟨step_indexInvariant audio event next indices space.carry stepped, ?_⟩
  have disciplined := disciplined_live audio indices streaming
  cases event with
  | decode chunk =>
      simp only [step] at stepped
      split at stepped
      · rename_i thread
        cases Option.some.inj stepped
        have stream := streaming.stream
        simp only [thread, remaining, List.append_nil] at stream
        refine streaming_of_same_blocks audio _ streaming rfl rfl rfl rfl rfl rfl
          streaming.live ?_ chunk.length_eq
        rw [← stream]
        rfl
      · cases stepped
  | advance => exact advanceThread_streaming audio next disciplined streaming space stepped
  | copy count => exact copyBytes_streaming audio next count disciplined streaming stepped
  | dma =>
      cases Option.some.inj stepped
      exact dmaCallback_streaming audio disciplined streaming

theorem reached_streaming (carry ring : Nat → UInt8) (events : List Event) (final : Audio)
    (space : Along step SpaceForCommit (arStart carry ring) events)
    (reached : run step (arStart carry ring) events = some final) : Streaming final := by
  have invariant : StreamInvariant final :=
    run_invariant StreamInvariant step_streamInvariant
      ⟨⟨0, arStart_disciplined carry ring⟩, arStart_streaming carry ring⟩ space reached
  exact invariant.2

/-! ## The order of the submitted blocks -/

theorem committed_follows (audio : Audio) (streaming : Streaming audio) :
    audio.committed <+: blocks bufferSize audio.decoded := by
  have cut := prefix_blocks bufferSize (by decide) audio.committed
    (readBytes audio.carry 0 audio.carryFill ++ remaining audio.thread) streaming.full
  rw [← List.append_assoc, streaming.stream] at cut
  exact cut

theorem zipIdx_prefix {α : Type} {packed stream : List α} (follows : packed <+: stream) :
    packed.zipIdx <+: stream.zipIdx := by
  obtain ⟨rest, rfl⟩ := follows
  rw [List.zipIdx_append]
  exact List.prefix_append _ _

theorem numbers_of_prefix {α : Type} {numbered : List (α × Nat)} {stream : List α}
    (follows : numbered <+: stream.zipIdx) :
    numbered.map Prod.snd = List.range numbered.length := by
  have bound := follows.length_le
  rw [List.length_zipIdx] at bound
  have cut := congrArg (List.map Prod.snd) (List.prefix_iff_eq_take.mp follows)
  rw [List.map_take, List.zipIdx_map_snd, ← List.range_eq_range', List.take_range,
    Nat.min_eq_left bound] at cut
  exact cut

/-- The order is right exactly until a callback takes a block: the first one
hands the block that started playback over once more. -/
theorem inOrder_iff_none_taken (audio : Audio) (streaming : Streaming audio) :
    InOrder audio ↔ audio.taken = 0 := by
  have follows := zipIdx_prefix (committed_follows audio streaming)
  rw [InOrder, streaming.submitted]
  constructor
  · intro inOrder
    by_contra some_taken
    have on : audio.playing = true := by
      by_contra off
      exact some_taken (streaming.stopped (Bool.not_eq_true _ ▸ off))
    rw [on, if_pos rfl] at inOrder
    obtain ⟨first, later, cut⟩ : ∃ first later, audio.committed = first :: later :=
      List.exists_cons_of_length_pos (streaming.started on)
    obtain ⟨more, count⟩ : ∃ more, audio.taken = more + 1 := ⟨audio.taken - 1, by omega⟩
    rw [cut, count, List.zipIdx_cons] at inOrder
    -- The second submission is block 0 again; in order it would be block 1.
    have numbers := numbers_of_prefix inOrder
    have second := congrArg (fun list => list[1]?) numbers
    simp at second
  · intro none_taken
    rw [none_taken, List.take_zero, List.append_nil]
    cases audio.playing with
    | false => exact List.nil_prefix
    | true => exact (List.take_prefix 1 _).trans follows

def NoBlockTaken (audio : Audio) (event : Event) : Prop :=
  match event with
  | .dma => ¬ (audio.playing = true ∧ 0 < audio.buffered)
  | _ => True

theorem advanceThread_taken (audio next : Audio) (stepped : advanceThread audio = some next) :
    next.taken = audio.taken := by
  cases advanceThread_advanced stepped with
  | append src total thread =>
      unfold appendEntry
      split <;> rfl
  | commitCarry src total thread => rfl
  | publishCarry src total thread => rfl
  | loop src total thread =>
      unfold loopStep
      split
      · rfl
      · split <;> rfl
  | publishBlock src total thread => rfl
  | start thread =>
      unfold startPlayback
      split <;> rfl

theorem copyBytes_taken (audio next : Audio) (count : Nat)
    (stepped : copyBytes audio count = some next) : next.taken = audio.taken := by
  cases copyBytes_copied stepped with
  | carry done src total thread fits => rfl
  | block done src total thread fits => rfl

/-- Every step but an interrupt that finds a block keeps `taken`; that interrupt
raises it. -/
theorem step_taken (audio next : Audio) (event : Event)
    (stepped : step audio event = some next) :
    (NoBlockTaken audio event → next.taken = audio.taken) ∧
      (¬ NoBlockTaken audio event → audio.taken < next.taken) := by
  cases event with
  | decode chunk =>
      simp only [step] at stepped
      split at stepped
      · cases Option.some.inj stepped
        exact ⟨fun _ => rfl, fun taking => absurd trivial taking⟩
      · cases stepped
  | advance =>
      exact ⟨fun _ => advanceThread_taken audio next stepped,
        fun taking => absurd trivial taking⟩
  | copy count =>
      exact ⟨fun _ => copyBytes_taken audio next count stepped,
        fun taking => absurd trivial taking⟩
  | dma =>
      cases Option.some.inj stepped
      simp only [NoBlockTaken, dmaCallback, Bool.and_eq_true, decide_eq_true_eq]
      constructor
      · intro idle
        rw [if_neg idle]
      · intro taking
        rw [if_pos (Classical.not_not.mp taking)]
        exact Nat.lt_succ_self audio.taken

/-- In every run with room at each commit, the submitted blocks are the decoded
stream in order, each block once, exactly when no `dma_callback` arrives while
playback is on and `buffered > 0`. -/
theorem in_order_iff_no_block_taken (carry ring : Nat → UInt8) (events : List Event)
    (final : Audio) (space : Along step SpaceForCommit (arStart carry ring) events)
    (reached : run step (arStart carry ring) events = some final) :
    InOrder final ↔ Along step NoBlockTaken (arStart carry ring) events := by
  have streaming := reached_streaming carry ring events final space reached
  have counting := along_iff_counter Audio.taken
    (fun state event next met stepped => (step_taken state next event stepped).1 met)
    (fun state event next unmet stepped => (step_taken state next event stepped).2 unmet) reached
  exact (inOrder_iff_none_taken final streaming).trans counting.2.symm

instance spaceForCommitDecidable (audio : Audio) (event : Event) :
    Decidable (SpaceForCommit audio event) := by
  obtain ⟨_, _, _, _, _, _, _, thread, _⟩ := audio
  unfold SpaceForCommit
  cases thread <;> cases event <;> dsimp only <;> infer_instance

instance noBlockTakenDecidable (audio : Audio) (event : Event) :
    Decidable (NoBlockTaken audio event) := by
  unfold NoBlockTaken
  split <;> infer_instance

theorem in_order_when_playback_starts :
    ∃ final, run step (arStart blankMemory blankMemory) fiveBlocks = some final ∧
      InOrder final := by
  have reached : (run step (arStart blankMemory blankMemory) fiveBlocks).isSome := by
    decide
  refine ⟨_, (Option.some_get reached).symm, ?_⟩
  exact (in_order_iff_no_block_taken _ _ fiveBlocks _ (by decide)
    (Option.some_get reached).symm).mpr (by decide)

/-- The first interrupt after the start of playback submits the first block again. -/
theorem first_block_submitted_twice :
    ¬ ∀ (carry ring : Nat → UInt8) (events : List Event) (final : Audio),
      Along step SpaceForCommit (arStart carry ring) events →
        run step (arStart carry ring) events = some final → InOrder final := by
  intro always
  have repeated : (run step (arStart blankMemory blankMemory) (fiveBlocks ++ [.dma])).map
      (fun audio => (submittedBlocks audio.submissions).map Prod.snd) = some [0, 0] := by
    decide
  obtain ⟨final, reached, numbers⟩ := Option.map_eq_some_iff.mp repeated
  have inOrder := numbers_of_prefix (always _ _ _ final (by decide) reached)
  have count : (submittedBlocks final.submissions).length = 2 := by
    simpa using congrArg List.length numbers
  rw [numbers, count] at inOrder
  revert inOrder
  decide

end MoonlightWii.Wii.AudioStream
