import MoonlightWii.Wii.AppendToRing

/-!
# Starting and stopping the audio DMA (`audio.c`)

`ar_decode_and_play_sample` starts the DMA when it finds blocks in the ring and `playing`
clear, which `ar_stop` leaves so for every later decode as well.  The callbacks are taken as
whole steps, in any order, between `ar_init` and `ar_cleanup`; the decoder is not `NULL`
there.
-/

set_option autoImplicit false

namespace MoonlightWii.Wii.AudioRenderer

open Foundation.ByteMemory
open Foundation.GuardedRun
open MoonlightWii.Wii.AudioRing
open MoonlightWii.Wii.AppendToRing

/-! ## The callbacks -/

/-- The frames that `opus_multistream_decode` returns; an error is an empty list. -/
structure Decoded where
  frames : List (List Int)
  bound : frames.length ≤ maxFrames

def Decoded.chunk (channels : Nat) (decoded : Decoded) : Chunk :=
  decodedChunk channels decoded.frames decoded.bound

structure Renderer where
  audio : Audio
  /-- `dma_callback` is the registered callback. -/
  registered : Bool
  /-- The DMA has been started and not stopped. -/
  running : Bool
  /-- Ghost: `ar_stop` has been called, and `ar_start` not since. -/
  stopped : Bool

def resetIndices (audio : Audio) : Audio :=
  { audio with
    bufferFill := 0
    bufferPlay := 0
    buffered := 0
    carryFill := 0
    playing := false }

/-- The end of `ar_init`: a cleared ring, and the callback registered. -/
def arInit (carry : Nat → UInt8) : Renderer where
  audio := AudioRing.arStart carry blankMemory
  registered := true
  running := false
  stopped := false

/-- `ar_start` does not look at the DMA. -/
def arStart (renderer : Renderer) : Renderer :=
  { renderer with
    audio := resetIndices renderer.audio
    registered := true
    stopped := false }

def arStop (renderer : Renderer) : Renderer where
  audio := { renderer.audio with playing := false, buffered := 0, carryFill := 0 }
  registered := false
  running := false
  stopped := true

/-- `if (!playing && buffered > 0)` -/
def startsDma (audio : Audio) : Bool := !audio.playing && decide (0 < audio.buffered)

def arDecodeAndPlaySample (channels : Nat) (renderer : Renderer) (decoded : Decoded) :
    Renderer :=
  if decoded.frames.length = 0 then renderer
  else
    let chunk := decoded.chunk channels
    let appended := appendToRing renderer.audio chunk.pcm chunk.total
    { renderer with
      audio := startPlayback appended
      running := renderer.running || startsDma appended }

inductive Event where
  | start
  | stop
  | decodeAndPlaySample (decoded : Decoded)
  | dmaCallback

def step (channels : Nat) (renderer : Renderer) : Event → Option Renderer
  | .start => some (arStart renderer)
  | .stop => some (arStop renderer)
  | .decodeAndPlaySample decoded => some (arDecodeAndPlaySample channels renderer decoded)
  | .dmaCallback => some { renderer with audio := dmaCallback renderer.audio }

/-! ## What the callbacks should keep -/

structure Attended (renderer : Renderer) : Prop where
  /-- While the DMA runs, its interrupt hands over the next block. -/
  served : renderer.running = true →
    renderer.registered = true ∧ renderer.audio.playing = true
  /-- No DMA is started after `ar_stop`. -/
  quiet : renderer.stopped = true → renderer.running = false

/-- `ar_start` only with the DMA stopped, and after `ar_stop` never a block's worth of
samples. -/
def Permitted (renderer : Renderer) : Event → Prop
  | .start => renderer.running = false
  | .stop => True
  | .decodeAndPlaySample decoded =>
      renderer.stopped = true →
        renderer.audio.carryFill + 4 * decoded.frames.length < bufferSize
  | .dmaCallback => True

/-! ## Counting an append -/

/-- The bytes of the ring, the carry and the rest of the chunk, at any position of the
ring. -/
structure Counted (state : Appending) (sum : Nat) : Prop where
  conserved : state.audio.buffered + state.audio.carryFill + state.total = sum
  nonneg : 0 ≤ state.audio.buffered
  multiple : state.audio.buffered % bufferSize = 0
  partly : state.audio.carryFill < bufferSize

theorem topUp_counted {state : Appending} {sum : Nat} (counted : Counted state sum) :
    Counted (topUp state) sum ∧
      (0 < (topUp state).audio.carryFill → (topUp state).total = 0) := by
  obtain ⟨conserved, nonneg, multiple, partly⟩ := counted
  unfold topUp
  by_cases carried : 0 < state.audio.carryFill
  · simp only [if_pos carried]
    generalize taken : (if state.total < bufferSize - state.audio.carryFill then state.total
      else bufferSize - state.audio.carryFill) = n
    have bounds : n ≤ state.total ∧ state.audio.carryFill + n ≤ bufferSize ∧
        (state.audio.carryFill + n = bufferSize ∨ n = state.total) := by
      split at taken <;> omega
    obtain ⟨within, fits, ends⟩ := bounds
    by_cases full : state.audio.carryFill + n = bufferSize
    · simp only [if_pos full]
      refine ⟨⟨?_, ?_, ?_, ?_⟩, fun some => absurd some (Nat.lt_irrefl 0)⟩
      · simp only [commitCarry, storeBlock, publish]
        omega
      · simp only [commitCarry, storeBlock, publish]
        omega
      · simp only [commitCarry, storeBlock, publish, bufferSize] at multiple ⊢
        omega
      · exact Nat.two_pow_pos 12
    · simp only [if_neg full]
      refine ⟨⟨?_, nonneg, multiple, ?_⟩, fun _ => ?_⟩
      · change state.audio.buffered + ((state.audio.carryFill + n : Nat) : Int) +
          ((state.total - n : Nat) : Int) = sum
        omega
      · change state.audio.carryFill + n < bufferSize
        omega
      · omega
  · simp only [if_neg carried]
    exact ⟨⟨conserved, nonneg, multiple, partly⟩, fun some => absurd some carried⟩

/-- With space for everything, the loop leaves less than a block. -/
theorem bulkLoop_counted (state : Appending) {sum : Nat} (counted : Counted state sum)
    (used : 0 < state.audio.carryFill → state.total = 0) (room : sum ≤ 30 * bufferSize) :
    Counted (bulkLoop state) sum ∧
      (0 < (bulkLoop state).audio.carryFill → (bulkLoop state).total = 0) ∧
      (bulkLoop state).total < bufferSize := by
  induction state using bulkLoop.induct with
  | case1 state goes ih =>
      obtain ⟨conserved, nonneg, multiple, partly⟩ := counted
      have long := goes.1
      rw [bulkLoop, if_pos goes]
      refine ih ⟨?_, ?_, ?_, partly⟩ ?_
      · simp only [storeBlock, publish]
        omega
      · simp only [storeBlock, publish]
        omega
      · simp only [storeBlock, publish, bufferSize] at multiple ⊢
        omega
      · intro carried
        have none := used carried
        simp only [bufferSize] at long
        omega
  | case2 state ends =>
      have conserved := counted.conserved
      rw [bulkLoop, if_neg ends]
      refine ⟨counted, used, ?_⟩
      by_contra long
      refine ends ⟨not_lt.mp long, ?_⟩
      simp only [getSpace, bufferSize, bufferCount] at room long ⊢
      omega

/-- With space, an append leaves whole blocks in the ring and less than one in the carry. -/
theorem appendToRing_counted {audio : Audio} {sum total : Nat} {src : List UInt8}
    (counted : Counted ⟨audio, src, total⟩ sum) (room : sum ≤ 30 * bufferSize) :
    Counted ⟨appendToRing audio src total, [], 0⟩ sum := by
  obtain ⟨topped, used⟩ := topUp_counted counted
  obtain ⟨looped, usedUp, short⟩ := bulkLoop_counted _ topped used room
  obtain ⟨conserved, nonneg, multiple, partly⟩ := looped
  unfold appendToRing keepRest
  by_cases left : 0 < (bulkLoop (topUp ⟨audio, src, total⟩)).total ∧
      (bulkLoop (topUp ⟨audio, src, total⟩)).total < bufferSize
  · simp only [if_pos left]
    have empty : (bulkLoop (topUp ⟨audio, src, total⟩)).audio.carryFill = 0 := by
      by_contra carried
      have none := usedUp (by omega)
      omega
    refine ⟨?_, nonneg, multiple, left.2⟩
    simp only
    omega
  · simp only [if_neg left]
    refine ⟨?_, nonneg, multiple, partly⟩
    simp only
    omega

theorem topUp_playing (state : Appending) :
    (topUp state).audio.playing = state.audio.playing := by
  unfold topUp
  by_cases carried : 0 < state.audio.carryFill
  · simp only [if_pos carried]
    generalize (if state.total < bufferSize - state.audio.carryFill then state.total
      else bufferSize - state.audio.carryFill) = n
    by_cases full : state.audio.carryFill + n = bufferSize
    · rw [if_pos full]
      rfl
    · rw [if_neg full]
  · rw [if_neg carried]

theorem bulkLoop_playing (state : Appending) :
    (bulkLoop state).audio.playing = state.audio.playing := by
  induction state using bulkLoop.induct with
  | case1 state goes ih =>
      rw [bulkLoop, if_pos goes]
      exact ih
  | case2 state ends => rw [bulkLoop, if_neg ends]

theorem appendToRing_playing (audio : Audio) (src : List UInt8) (total : Nat) :
    (appendToRing audio src total).playing = audio.playing := by
  have before : (bulkLoop (topUp ⟨audio, src, total⟩)).audio.playing = audio.playing :=
    (bulkLoop_playing _).trans (topUp_playing _)
  unfold appendToRing keepRest
  split
  · exact before
  · exact before

/-! ## The invariant -/

/-- After `ar_stop` nothing plays and there is less than a block; otherwise the callback is
registered, and `playing` tells whether the DMA runs. -/
structure Tended (renderer : Renderer) : Prop where
  known : renderer.audio.playing = renderer.running
  active : renderer.stopped = false → renderer.registered = true
  silent : renderer.stopped = true → renderer.running = false
  empty : renderer.stopped = true → renderer.audio.buffered = 0
  partly : renderer.stopped = true → renderer.audio.carryFill < bufferSize

theorem attended_of_tended {renderer : Renderer} (tended : Tended renderer) :
    Attended renderer := by
  refine ⟨fun running => ⟨?_, tended.known.trans running⟩, tended.silent⟩
  cases stopped : renderer.stopped with
  | false => exact tended.active stopped
  | true => exact absurd (tended.silent stopped) (by rw [running]; decide)

theorem arInit_tended (carry : Nat → UInt8) : Tended (arInit carry) where
  known := rfl
  active := fun _ => rfl
  silent := fun _ => rfl
  empty := fun _ => rfl
  partly := fun _ => Nat.two_pow_pos 12

theorem arStart_tended {renderer : Renderer} (idle : renderer.running = false) :
    Tended (arStart renderer) where
  known := idle.symm
  active := fun _ => rfl
  silent := fun _ => idle
  empty := fun _ => rfl
  partly := fun _ => Nat.two_pow_pos 12

theorem arStop_tended (renderer : Renderer) : Tended (arStop renderer) where
  known := rfl
  active := fun started => absurd started.symm Bool.false_ne_true
  silent := fun _ => rfl
  empty := fun _ => rfl
  partly := fun _ => Nat.two_pow_pos 12

theorem dmaCallback_tended {renderer : Renderer} (tended : Tended renderer) :
    Tended { renderer with audio := dmaCallback renderer.audio } := by
  have playing : (dmaCallback renderer.audio).playing = renderer.audio.playing := by
    unfold dmaCallback
    split <;> rfl
  have carry : (dmaCallback renderer.audio).carryFill = renderer.audio.carryFill := by
    unfold dmaCallback
    split <;> rfl
  refine ⟨playing.trans tended.known, tended.active, tended.silent, ?_, ?_⟩
  · intro stopped
    have still : renderer.audio.playing = false := tended.known.trans (tended.silent stopped)
    change (dmaCallback renderer.audio).buffered = 0
    rw [dmaCallback, still]
    exact tended.empty stopped
  · intro stopped
    exact lt_of_eq_of_lt carry (tended.partly stopped)

theorem startPlayback_playing (audio : Audio) :
    (startPlayback audio).playing = (audio.playing || startsDma audio) := by
  unfold startPlayback startsDma
  cases audio.playing <;> by_cases some : 0 < audio.buffered <;> simp [some]

theorem startPlayback_carryFill (audio : Audio) :
    (startPlayback audio).carryFill = audio.carryFill := by
  unfold startPlayback
  split <;> rfl

theorem startPlayback_buffered (audio : Audio) :
    (startPlayback audio).buffered = audio.buffered := by
  unfold startPlayback
  split <;> rfl

section Decoding

variable {renderer : Renderer} (channels : Nat) (decoded : Decoded)

/-- After `ar_stop` the ring gets blocks exactly from a block's worth of samples on. -/
theorem stopped_append (tended : Tended renderer) (stopped : renderer.stopped = true) :
    Counted ⟨appendToRing renderer.audio (decoded.chunk channels).pcm
        (decoded.chunk channels).total, [], 0⟩
      (renderer.audio.carryFill + 4 * decoded.frames.length) := by
  have partly := tended.partly stopped
  have bound := decoded.bound
  refine appendToRing_counted ⟨?_, ?_, ?_, partly⟩ ?_
  · simp only [tended.empty stopped, Decoded.chunk, decodedChunk]
    omega
  · exact Int.le_of_eq (tended.empty stopped).symm
  · rw [tended.empty stopped]
    rfl
  · simp only [bufferSize, maxFrames] at partly bound ⊢
    omega

theorem stopped_startsDma (tended : Tended renderer) (stopped : renderer.stopped = true) :
    startsDma (appendToRing renderer.audio (decoded.chunk channels).pcm
        (decoded.chunk channels).total) = true ↔
      bufferSize ≤ renderer.audio.carryFill + 4 * decoded.frames.length := by
  have still : renderer.audio.playing = false := tended.known.trans (tended.silent stopped)
  obtain ⟨conserved, nonneg, multiple, partly⟩ := stopped_append channels decoded tended stopped
  rw [startsDma, appendToRing_playing, still, Bool.not_false, Bool.true_and, decide_eq_true_iff]
  simp only [bufferSize] at *
  omega

theorem decode_tended (tended : Tended renderer)
    (permitted : Permitted renderer (.decodeAndPlaySample decoded)) :
    Tended (arDecodeAndPlaySample channels renderer decoded) := by
  unfold arDecodeAndPlaySample
  by_cases none : decoded.frames.length = 0
  · rw [if_pos none]
    exact tended
  · rw [if_neg none]
    refine ⟨?_, tended.active, ?_, ?_, ?_⟩
    · change (startPlayback _).playing = _
      rw [startPlayback_playing, appendToRing_playing, tended.known]
    · intro stopped
      have little := permitted stopped
      have starts := stopped_startsDma channels decoded tended stopped
      change (renderer.running || startsDma _) = false
      rw [tended.silent stopped, Bool.false_or, Bool.eq_false_iff]
      exact fun started => absurd (starts.mp started) (not_le.mpr little)
    · intro stopped
      have little := permitted stopped
      obtain ⟨conserved, nonneg, multiple, partly⟩ :=
        stopped_append channels decoded tended stopped
      change (startPlayback _).buffered = 0
      rw [startPlayback_buffered]
      simp only [bufferSize] at *
      omega
    · intro stopped
      change (startPlayback _).carryFill < bufferSize
      rw [startPlayback_carryFill]
      exact (stopped_append channels decoded tended stopped).partly

/-- As long as it is less than a block, what comes after `ar_stop` gathers in the carry. -/
theorem late_carryFill (tended : Tended renderer) (stopped : renderer.stopped = true)
    (little : renderer.audio.carryFill + 4 * decoded.frames.length < bufferSize) :
    (arDecodeAndPlaySample channels renderer decoded).audio.carryFill =
      renderer.audio.carryFill + 4 * decoded.frames.length := by
  unfold arDecodeAndPlaySample
  by_cases none : decoded.frames.length = 0
  · rw [if_pos none, none]
    rfl
  · rw [if_neg none]
    obtain ⟨conserved, nonneg, multiple, partly⟩ := stopped_append channels decoded tended stopped
    change (startPlayback _).carryFill = _
    rw [startPlayback_carryFill]
    simp only [bufferSize] at *
    omega

theorem decode_stopped :
    (arDecodeAndPlaySample channels renderer decoded).stopped = renderer.stopped := by
  unfold arDecodeAndPlaySample
  split <;> rfl

end Decoding

theorem step_tended {channels : Nat} {renderer next : Renderer} {event : Event}
    (tended : Tended renderer) (permitted : Permitted renderer event)
    (stepped : step channels renderer event = some next) : Tended next := by
  cases event with
  | start =>
      cases Option.some.inj stepped
      exact arStart_tended permitted
  | stop =>
      cases Option.some.inj stepped
      exact arStop_tended renderer
  | decodeAndPlaySample decoded =>
      cases Option.some.inj stepped
      exact decode_tended channels decoded tended permitted
  | dmaCallback =>
      cases Option.some.inj stepped
      exact dmaCallback_tended tended

/-- A start with the DMA running leaves `playing` clear, and a block after `ar_stop` starts
the DMA again. -/
theorem step_unattended {channels : Nat} {renderer next : Renderer} {event : Event}
    (tended : Tended renderer) (unmet : ¬ Permitted renderer event)
    (stepped : step channels renderer event = some next) : ¬ Attended next := by
  intro attended
  cases event with
  | start =>
      cases Option.some.inj stepped
      have running : renderer.running = true := eq_true_of_ne_false unmet
      exact absurd (attended.served running).2 (show ¬ false = true by decide)
  | stop => exact unmet trivial
  | decodeAndPlaySample decoded =>
      obtain ⟨stopped, enough⟩ := Classical.not_imp.mp unmet
      have full := not_lt.mp enough
      have partly := tended.partly stopped
      have some_frames : decoded.frames.length ≠ 0 := by
        intro none
        rw [none] at full
        omega
      rw [step, arDecodeAndPlaySample, if_neg some_frames] at stepped
      cases Option.some.inj stepped
      have started := (stopped_startsDma channels decoded tended stopped).mpr full
      have still : (renderer.running || startsDma (appendToRing renderer.audio
          (decoded.chunk channels).pcm (decoded.chunk channels).total)) = false :=
        attended.quiet stopped
      rw [started, Bool.or_true] at still
      exact absurd still (show ¬ true = false by decide)
  | dmaCallback => exact unmet trivial

/-! ## Runs -/

theorem run_total (channels : Nat) (renderer : Renderer) (events : List Event) :
    ∃ final, run (step channels) renderer events = some final := by
  induction events generalizing renderer with
  | nil => exact ⟨renderer, rfl⟩
  | cons event events ih => cases event <;> exact ih _

/-- In whatever order the callbacks come, the DMA is attended to in every state exactly when
it is never started over while it runs, and never gets a block after `ar_stop`. -/
theorem attended_iff (channels : Nat) (carry : Nat → UInt8) (events : List Event) :
    Throughout (step channels) Attended (arInit carry) events ↔
      Along (step channels) Permitted (arInit carry) events := by
  obtain ⟨final, ran⟩ := run_total channels (arInit carry) events
  exact throughout_iff_along Tended (fun _ => attended_of_tended)
    (fun _ _ _ => step_tended) (fun _ _ _ => step_unattended) (arInit_tended carry) ran

/-- A packet of 10 ms. -/
def packet : Decoded where
  frames := List.replicate 480 [0, 0]
  bound := by
    rw [List.length_replicate]
    decide

/-- Three packets that the decoder thread still has when `ar_stop` is called start the DMA
again. -/
theorem late_packets_start_dma :
    ¬ Throughout (step 2) Attended (arInit blankMemory)
      [.start, .stop, .decodeAndPlaySample packet, .decodeAndPlaySample packet,
        .decodeAndPlaySample packet] := by
  intro attended
  have length : packet.frames.length = 480 := List.length_replicate
  have block : bufferSize = 4096 := rfl
  have restarted := throughout_last attended rfl
  generalize ended : arStop (arStart (arInit blankMemory)) = quiet at restarted
  have stopped : quiet.stopped = true := by rw [← ended]; rfl
  have empty : quiet.audio.carryFill = 0 := by rw [← ended]; rfl
  have tended : Tended quiet := by rw [← ended]; exact arStop_tended _
  -- the first packet and the second stay in the carry
  have one := late_carryFill 2 packet tended stopped (by omega)
  have oneTended := decode_tended 2 packet tended fun _ => by omega
  have oneStopped := (decode_stopped 2 packet).trans stopped
  have two := late_carryFill 2 packet oneTended oneStopped (by omega)
  have twoTended := decode_tended 2 packet oneTended fun _ => by omega
  have twoStopped := (decode_stopped 2 packet).trans oneStopped
  have unmet : ¬ Permitted (arDecodeAndPlaySample 2 (arDecodeAndPlaySample 2 quiet packet) packet)
      (.decodeAndPlaySample packet) := by
    intro permitted
    have little := permitted twoStopped
    omega
  exact @step_unattended 2 _ _ _ twoTended unmet rfl restarted

end MoonlightWii.Wii.AudioRenderer
