import MoonlightWii.Foundation.GuardedRun
import MoonlightWii.Wii.Decoder

/-!
# Decoder thread and main thread around the frame queue

The decoder thread copies a picture into `frames[currentTexture]` one byte at a
time and then calls `add_frame`; the main thread takes a frame with `get_frame`
and reads its planes while it uploads them.  Any event of one thread can fall
between any two events of the other.  The queue stores pointers; each message
also carries, as a ghost, the picture its buffer held when it was enqueued.
-/

set_option autoImplicit false

namespace MoonlightWii.Wii.FramePipeline

open Foundation.GuardedRun
open MoonlightWii.Wii.FrameQueue
open MoonlightWii.Wii.Decoder

structure QueuedFrame where
  buffer : Fin numBuffers
  enqueued : Picture

inductive DecoderThread where
  | idle
  | copying (pending : List Store)

structure Fetch where
  plane : Plane
  offset : Nat
  value : UInt8

inductive MainThread where
  | idle
  | uploading (frame : QueuedFrame) (fetched : List Fetch)

structure Pipeline where
  frames : Fin numBuffers → Picture
  queue : LiveQueue QueuedFrame
  currentTexture : Fin numBuffers
  nextFrame : UInt32
  decoder : DecoderThread
  main : MainThread
  /-- Ghost: some store hit a buffer that was queued or being uploaded. -/
  rewritten : Bool

inductive Event where
  | submit (unit : DecodeUnit) (reply : DecodeReply)
  | storeByte
  | enqueue
  | dequeue
  | fetch (plane : Plane) (offset : Nat)
  | drawn

def uploaded : MainThread → List QueuedFrame
  | .idle => []
  | .uploading frame _ => [frame]

/-- Frames handed over by the decoder and not yet completely uploaded, oldest
first. -/
def outstanding (state : Pipeline) : List QueuedFrame :=
  uploaded state.main ++ state.queue.messages

def step (fb : FrameLayout) (state : Pipeline) : Event → Option Pipeline
  | .submit unit reply =>
      match state.decoder with
      | .copying _ => none
      | .idle =>
          match (submitDecodeUnit (fun _ => reply) unit).picture with
          | none => some state
          | some frame => some { state with decoder := .copying (copyStores fb frame) }
  | .storeByte =>
      match state.decoder with
      | .copying (cell :: rest) =>
          some { state with
            frames := Function.update state.frames state.currentTexture
              (store (state.frames state.currentTexture) cell)
            decoder := .copying rest
            rewritten := state.rewritten ||
              (outstanding state).any fun frame => frame.buffer = state.currentTexture }
      | _ => none
  | .enqueue =>
      match state.decoder with
      | .copying [] =>
          some { state with
            nextFrame := state.nextFrame + 1
            queue := state.queue.add
              ⟨state.currentTexture, state.frames state.currentTexture⟩
            currentTexture := advanceTexture state.currentTexture
            decoder := .idle }
      | _ => none
  | .dequeue =>
      match state.main with
      | .uploading _ _ => none
      | .idle =>
          match state.queue.get with
          | (none, _) => some state
          | (some frame, rest) =>
              some { state with queue := rest, main := .uploading frame [] }
  | .fetch plane offset =>
      match state.main with
      | .idle => none
      | .uploading frame fetched =>
          some { state with
            main := .uploading frame
              (fetched ++ [⟨plane, offset, state.frames frame.buffer plane offset⟩]) }
  | .drawn =>
      match state.main with
      | .idle => none
      | .uploading _ _ => some { state with main := .idle }

/-- After `wii_stream_init` and a successful `wii_decoder_setup`; the fresh plane
memory holds anything. -/
def start (memory : Fin numBuffers → Picture) (slots : Nat → QueuedFrame) : Pipeline where
  frames := memory
  queue := LiveQueue.reset slots
  currentTexture := ⟨0, numBuffers_pos⟩
  nextFrame := 0
  decoder := .idle
  main := .idle
  rewritten := false

/-- No outstanding buffer was rewritten, and every byte uploaded so far is the
byte its buffer held when it was enqueued. -/
def Intact (state : Pipeline) : Prop :=
  state.rewritten = false ∧
    ∀ frame fetched, state.main = .uploading frame fetched →
      ∀ byte ∈ fetched, byte.value = frame.enqueued byte.plane byte.offset

/-! ## The buffers never outrun the queue while at most one frame is in flight -/

def inFlight (state : Pipeline) : Nat :=
  (elementsIn state.queue.toQueue).toNat + (uploaded state.main).length

/-- The decoder stores a byte or enqueues a frame only while fewer than
`NUM_BUFFERS` frames are queued or being uploaded. -/
def RoomToDecode (state : Pipeline) : Event → Prop
  | .storeByte => inFlight state < numBuffers
  | .enqueue => inFlight state < numBuffers
  | _ => True

theorem inFlight_eq (state : Pipeline) : inFlight state = (outstanding state).length := by
  simp only [inFlight, outstanding, List.length_append, LiveQueue.messages, contents_length]
  omega

/-- With two buffers the outstanding frames are, oldest first, a tail of
`[currentTexture, the other one]`. -/
def InRotation (currentTexture : Fin numBuffers) (buffers : List (Fin numBuffers)) : Prop :=
  buffers = [] ∨ buffers = [advanceTexture currentTexture] ∨
    buffers = [currentTexture, advanceTexture currentTexture]

structure Rotating (state : Pipeline) : Prop where
  rotation : InRotation state.currentTexture ((outstanding state).map QueuedFrame.buffer)
  held : ∀ frame ∈ outstanding state, state.frames frame.buffer = frame.enqueued
  clean : state.rewritten = false
  fetches : ∀ frame fetched, state.main = .uploading frame fetched →
    ∀ byte ∈ fetched, byte.value = frame.enqueued byte.plane byte.offset

theorem InRotation.tail {currentTexture : Fin numBuffers} {first : Fin numBuffers}
    {rest : List (Fin numBuffers)} (rotation : InRotation currentTexture (first :: rest)) :
    InRotation currentTexture rest := by
  rcases rotation with empty | one | two
  · cases empty
  · cases one
    exact Or.inl rfl
  · cases two
    exact Or.inr (Or.inl rfl)

theorem InRotation.push {currentTexture : Fin numBuffers} {buffers : List (Fin numBuffers)}
    (rotation : InRotation currentTexture buffers) (room : buffers.length < numBuffers) :
    InRotation (advanceTexture currentTexture) (buffers ++ [currentTexture]) := by
  rcases rotation with rfl | rfl | rfl
  · exact Or.inr (Or.inl (by rw [advanceTexture_twice]; rfl))
  · exact Or.inr (Or.inr (by rw [advanceTexture_twice]; rfl))
  · exact (Nat.lt_irrefl 2 room).elim

theorem InRotation.free {currentTexture : Fin numBuffers} {buffers : List (Fin numBuffers)}
    (rotation : InRotation currentTexture buffers) (room : buffers.length < numBuffers) :
    ∀ buffer ∈ buffers, buffer ≠ currentTexture := by
  intro buffer member
  rcases rotation with rfl | rfl | rfl
  · cases member
  · rw [List.mem_singleton.mp member]
    exact advanceTexture_ne currentTexture
  · exact (Nat.lt_irrefl 2 room).elim

theorem start_rotating (memory : Fin numBuffers → Picture) (slots : Nat → QueuedFrame) :
    Rotating (start memory slots) where
  rotation := Or.inl (by simp [start, outstanding, uploaded])
  held := by simp [start, outstanding, uploaded]
  clean := rfl
  fetches := by intro frame fetched uploading; cases uploading

theorem storeByte_rotating (fb : FrameLayout) (state next : Pipeline)
    (rotating : Rotating state) (room : inFlight state < numBuffers)
    (stepped : step fb state .storeByte = some next) : Rotating next := by
  have free : ∀ frame ∈ outstanding state, frame.buffer ≠ state.currentTexture := by
    intro frame member
    apply rotating.rotation.free
    · rw [List.length_map, ← inFlight_eq]
      exact room
    · exact List.mem_map_of_mem member
  simp only [step] at stepped
  cases thread : state.decoder with
  | idle => simp [thread] at stepped
  | copying pending =>
      cases pending with
      | nil => simp [thread] at stepped
      | cons cell rest =>
          simp only [thread, Option.some.injEq] at stepped
          subst next
          refine ⟨rotating.rotation, ?_, ?_, rotating.fetches⟩
          · intro frame member
            have elsewhere := free frame member
            rw [← rotating.held frame member]
            exact Function.update_of_ne elsewhere _ _
          · have none_hit : (outstanding state).any
                (fun frame => frame.buffer = state.currentTexture) = false := by
              simpa using free
            simp [rotating.clean, none_hit]

theorem enqueue_rotating (fb : FrameLayout) (state next : Pipeline)
    (rotating : Rotating state) (room : inFlight state < numBuffers)
    (stepped : step fb state .enqueue = some next) : Rotating next := by
  simp only [step] at stepped
  cases thread : state.decoder with
  | idle => simp [thread] at stepped
  | copying pending =>
      cases pending with
      | cons cell rest => simp [thread] at stepped
      | nil =>
          simp only [thread, Option.some.injEq] at stepped
          subst next
          have space : state.queue.messages.length ≠ maxQueueMessages := by
            rw [inFlight_eq, outstanding, List.length_append] at room
            simp only [numBuffers] at room
            simp only [maxQueueMessages]
            omega
          have added : ∀ frame, outstanding
              { state with
                nextFrame := state.nextFrame + 1
                queue := state.queue.add frame
                currentTexture := advanceTexture state.currentTexture
                decoder := .idle } = outstanding state ++ [frame] := by
            intro frame
            simp only [outstanding]
            rw [LiveQueue.add_spec, if_neg space, List.append_assoc]
          refine ⟨?_, ?_, rotating.clean, rotating.fetches⟩
          · rw [added, List.map_append]
            apply rotating.rotation.push
            rw [List.length_map, ← inFlight_eq]
            exact room
          · rw [added]
            intro frame member
            rcases List.mem_append.mp member with old | new
            · exact rotating.held frame old
            · rw [List.mem_singleton.mp new]

theorem dequeue_rotating (fb : FrameLayout) (state next : Pipeline)
    (rotating : Rotating state) (stepped : step fb state .dequeue = some next) :
    Rotating next := by
  simp only [step] at stepped
  cases thread : state.main with
  | uploading frame fetched => simp [thread] at stepped
  | idle =>
      obtain ⟨returned, remaining⟩ := state.queue.get_spec
      cases taken : state.queue.get with
      | mk popped rest =>
          rw [taken] at returned remaining
          simp only at returned remaining
          cases popped with
          | none =>
              simp only [thread, taken, Option.some.injEq] at stepped
              subst next
              exact rotating
          | some frame =>
              simp only [thread, taken, Option.some.injEq] at stepped
              subst next
              have same : [frame] ++ rest.messages = outstanding state := by
                rw [outstanding, thread, remaining]
                exact List.cons_head?_tail returned.symm
              refine ⟨?_, ?_, rotating.clean, ?_⟩
              · simp only [outstanding, uploaded, same]
                exact rotating.rotation
              · simp only [outstanding, uploaded, same]
                exact rotating.held
              · intro other fetched uploading byte member
                cases uploading
                cases member

theorem fetch_rotating (fb : FrameLayout) (state next : Pipeline) (plane : Plane)
    (offset : Nat) (rotating : Rotating state)
    (stepped : step fb state (.fetch plane offset) = some next) : Rotating next := by
  simp only [step] at stepped
  cases thread : state.main with
  | idle => simp [thread] at stepped
  | uploading frame fetched =>
      simp only [thread, Option.some.injEq] at stepped
      subst next
      have same : ∀ bytes, outstanding { state with main := .uploading frame bytes } =
          outstanding state := by
        intro bytes
        simp only [outstanding, uploaded, thread]
      refine ⟨?_, ?_, rotating.clean, ?_⟩
      · rw [same]
        exact rotating.rotation
      · rw [same]
        exact rotating.held
      · intro other bytes uploading byte member
        cases uploading
        rcases List.mem_append.mp member with old | new
        · exact rotating.fetches frame fetched thread byte old
        · rw [List.mem_singleton.mp new]
          have held := rotating.held frame (by simp [outstanding, uploaded, thread])
          rw [held]

theorem drawn_rotating (fb : FrameLayout) (state next : Pipeline)
    (rotating : Rotating state) (stepped : step fb state .drawn = some next) :
    Rotating next := by
  simp only [step] at stepped
  cases thread : state.main with
  | idle => simp [thread] at stepped
  | uploading frame fetched =>
      simp only [thread, Option.some.injEq] at stepped
      subst next
      have split : outstanding state = frame :: outstanding { state with main := .idle } := by
        simp [outstanding, uploaded, thread]
      refine ⟨?_, ?_, rotating.clean, ?_⟩
      · have rotation := rotating.rotation
        rw [split, List.map_cons] at rotation
        exact rotation.tail
      · intro other member
        apply rotating.held other
        rw [split]
        exact List.mem_cons_of_mem _ member
      · intro other bytes uploading
        cases uploading

theorem submit_rotating (fb : FrameLayout) (state next : Pipeline) (unit : DecodeUnit)
    (reply : DecodeReply) (rotating : Rotating state)
    (stepped : step fb state (.submit unit reply) = some next) : Rotating next := by
  simp only [step] at stepped
  cases thread : state.decoder with
  | copying pending => simp [thread] at stepped
  | idle =>
      cases decoded : (submitDecodeUnit (fun _ => reply) unit).picture with
      | none =>
          simp only [thread, decoded, Option.some.injEq] at stepped
          subst next
          exact rotating
      | some frame =>
          simp only [thread, decoded, Option.some.injEq] at stepped
          subst next
          exact ⟨rotating.rotation, rotating.held, rotating.clean, rotating.fetches⟩

theorem step_rotating (fb : FrameLayout) (state : Pipeline) (event : Event) (next : Pipeline)
    (rotating : Rotating state) (room : RoomToDecode state event)
    (stepped : step fb state event = some next) : Rotating next := by
  cases event with
  | submit unit reply => exact submit_rotating fb state next unit reply rotating stepped
  | storeByte => exact storeByte_rotating fb state next rotating room stepped
  | enqueue => exact enqueue_rotating fb state next rotating room stepped
  | dequeue => exact dequeue_rotating fb state next rotating stepped
  | fetch plane offset => exact fetch_rotating fb state next plane offset rotating stepped
  | drawn => exact drawn_rotating fb state next rotating stepped

/-- In every run whose decoder steps find at most one frame in flight, no frame
buffer is rewritten before its upload ends and every upload is the picture that
was enqueued. -/
theorem pipeline_intact_of_room (fb : FrameLayout) (memory : Fin numBuffers → Picture)
    (slots : Nat → QueuedFrame) (events : List Event) (final : Pipeline)
    (room : Along (step fb) RoomToDecode (start memory slots) events)
    (reached : run (step fb) (start memory slots) events = some final) : Intact final := by
  have rotating : Rotating final :=
    run_invariant Rotating (step_rotating fb) (start_rotating memory slots) room reached
  exact ⟨rotating.clean, rotating.fetches⟩

def flatPicture (value : UInt8) : AVFrame where
  width := 2
  height := 2
  linesize := fun _ => 2
  data := fun _ _ => value

/-- One unit that decodes to `flatPicture value`, with its first `stores` stores. -/
def decodeFlat (value : UInt8) (stores : Nat) : List Event :=
  .submit ⟨3, [[1, 2], [3]]⟩ (.picture (flatPicture value)) ::
    List.replicate stores .storeByte

def blank : Pipeline := start (fun _ _ _ => 0) fun _ => ⟨⟨0, numBuffers_pos⟩, fun _ _ => 0⟩

instance roomToDecodeDecidable (state : Pipeline) (event : Event) :
    Decidable (RoomToDecode state event) := by
  cases event <;> unfold RoomToDecode <;> infer_instance

def lockstep : List Event :=
  decodeFlat 1 32 ++ [.enqueue, .dequeue] ++ decodeFlat 2 32 ++
    [.enqueue, .fetch .y 9, .drawn, .dequeue] ++ decodeFlat 3 32 ++ [.fetch .y 9]

theorem pipeline_intact_lockstep :
    ∃ final, run (step (wiiAllocFrames 2 2)) blank lockstep = some final ∧ Intact final := by
  have reached : (run (step (wiiAllocFrames 2 2)) blank lockstep).isSome := by
    decide
  refine ⟨_, (Option.some_get reached).symm, ?_⟩
  exact pipeline_intact_of_room _ _ _ lockstep _ (by decide)
    (Option.some_get reached).symm

def overrun : List Event :=
  decodeFlat 1 32 ++ [.enqueue] ++ decodeFlat 2 32 ++ [.enqueue] ++
    decodeFlat 3 1 ++ [.dequeue, .fetch .y 0]

/-- Two queued frames already let the decoder come back to the first buffer: the
third picture's first store lands in the frame that is uploaded next. -/
theorem pipeline_overwrites_queued_frame :
    ¬ ∀ (fb : FrameLayout) (memory : Fin numBuffers → Picture) (slots : Nat → QueuedFrame)
      (events : List Event) (final : Pipeline),
      run (step fb) (start memory slots) events = some final → Intact final := by
  intro always
  have hit : (run (step (wiiAllocFrames 2 2)) blank overrun).map Pipeline.rewritten =
      some true := by
    decide
  obtain ⟨final, reached, rewritten⟩ := Option.map_eq_some_iff.mp hit
  have intact := always _ _ _ overrun final reached
  rw [intact.1] at rewritten
  cases rewritten

end MoonlightWii.Wii.FramePipeline
