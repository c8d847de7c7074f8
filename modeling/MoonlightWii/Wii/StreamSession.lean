import MoonlightWii.Foundation.GuardedRun
import MoonlightWii.Wii.FrameQueue
import MoonlightWii.Wii.YuvTexture

/-!
# Menus and stream sessions (`decode.c`, `wii.c`, `gx_video.c`)

The machine runs from the start of the program over any number of menu screens
and stream sessions.  `LiStartConnection` calls `wii_decoder_setup`, the decoder
thread submits units until `LiStopConnection` calls `wii_decoder_cleanup`, and
the main thread draws while it is streaming.  A session number stands beside
each queued frame; every call of `gx_video_draw_yuv` is recorded.
-/

set_option autoImplicit false

namespace MoonlightWii.Wii.StreamSession

open Foundation.GuardedRun
open MoonlightWii.Wii.Decoder
open MoonlightWii.Wii.FrameQueue
open MoonlightWii.Wii.YuvTexture

/-! ## State -/

structure Size where
  width : Nat
  height : Nat
  deriving DecidableEq

/-- A `frame_t`; `planes` is the size its planes were allocated for, `none` where
the pointers are `NULL`. -/
structure FrameBuffer where
  layout : FrameLayout
  planes : Option Size

structure Queued where
  buffer : Fin numBuffers
  session : Nat

inductive Phase where
  | menu
  /-- `wii_decoder_setup` has succeeded and `LiStartConnection` has not returned. -/
  | starting
  | streaming
  deriving DecidableEq

/-- One call of `gx_video_draw_yuv`: the configuration that it finds, the strides
that it is given and the sizes that its planes were allocated for. -/
structure DrawCall where
  video : YuvState
  ystride : Nat
  uvstride : Nat
  luma : Option Size
  chroma : Option Size

/-- A frame taken from the queue by `wii_stream_draw`. -/
structure Upload where
  drawn : Nat
  enqueued : Nat
  deriving DecidableEq

structure State where
  video : YuvState
  frames : Fin numBuffers → FrameBuffer
  queue : LiveQueue Queued
  currentTexture : Fin numBuffers
  phase : Phase
  session : Nat
  neutralUv : Option Size
  draws : List DrawCall
  uploads : List Upload

/-! ## `wii_decoder_setup` and `wii_decoder_cleanup` -/

/-- How far `wii_decoder_setup` gets. -/
inductive SetupOutcome where
  /-- No H264, no decoder, no memory for its context, or it does not open. -/
  | noDecoder
  | noFrame (buffer : Fin numBuffers)
  | noDecodeBuffer
  | ready
  deriving DecidableEq

/-- `wii_alloc_frames`, where the memory for the buffer `failing` is missing. -/
def allocFrames (frames : Fin numBuffers → FrameBuffer) (size : Size)
    (failing : Option (Fin numBuffers)) : Fin numBuffers → FrameBuffer := fun i =>
  let layout := wiiAllocFrames size.width size.height
  match failing with
  | none => ⟨layout, some size⟩
  | some buffer =>
      if i < buffer then ⟨layout, some size⟩
      else if i = buffer then ⟨layout, none⟩
      else frames i

def freeFrames (frames : Fin numBuffers → FrameBuffer) : Fin numBuffers → FrameBuffer :=
  fun i => { frames i with planes := none }

def wiiDecoderCleanup (state : State) : State :=
  { state with frames := freeFrames state.frames }

def wiiDecoderSetup (state : State) (size : Size) (outcome : SetupOutcome) : State :=
  match outcome with
  | .noDecoder => state
  | .noFrame buffer =>
      { state with
        video := gxVideoConfigYuv state.video size.width size.height
        frames := allocFrames state.frames size (some buffer) }
  | .noDecodeBuffer =>
      wiiDecoderCleanup
        { state with
          video := gxVideoConfigYuv state.video size.width size.height
          frames := allocFrames state.frames size none }
  | .ready =>
      { state with
        video := gxVideoConfigYuv state.video size.width size.height
        frames := allocFrames state.frames size none
        currentTexture := ⟨0, numBuffers_pos⟩ }

/-! ## Drawing -/

def gxVideoDrawYuv (state : State) (ystride uvstride : Nat) (luma chroma : Option Size) : State :=
  { state with
    video := updateRowPitch state.video ystride uvstride
    draws := state.draws ++ [⟨state.video, ystride, uvstride, luma, chroma⟩] }

def wiiStreamDraw (state : State) : State :=
  match state.queue.get with
  | (none, queue) => { state with queue := queue }
  | (some queued, queue) =>
      let frame := state.frames queued.buffer
      gxVideoDrawYuv
        { state with
          queue := queue
          uploads := state.uploads ++ [⟨state.session, queued.session⟩] }
        frame.layout.ystride frame.layout.uvstride frame.planes frame.planes

def chromaBytes (size : Size) : Nat := (size.width + 1) / 2 * ((size.height + 1) / 2)

/-- `neutral_uv`: it is allocated again where it is too small. -/
def growNeutralUv (neutralUv : Option Size) (size : Size) : Option Size :=
  if (neutralUv.map chromaBytes).getD 0 < chromaBytes size then some size else neutralUv

/-- `gx_video_draw_gray` of a picture that was allocated for its own size. -/
def gxVideoDrawGray (state : State) (size : Size) (grayStride : Nat) : State :=
  let neutralUv := growNeutralUv state.neutralUv size
  gxVideoDrawYuv
    { state with
      neutralUv := neutralUv
      video := gxVideoConfigYuv state.video size.width size.height }
    grayStride ((size.width + 1) / 2) (some size) neutralUv

/-- The preferred mode of the console; a mode has lines. -/
structure VideoMode where
  efbHeight : Nat
  hasLines : 0 < efbHeight

/-- The size of `font_buffer`: `vmode->fbWidth` is 640 when `Font_Init` reads it. -/
def fontSize (vmode : VideoMode) : Size := ⟨640, vmode.efbHeight⟩

/-- `Font_Draw`; `font_pitch` is `font_width`. -/
def fontDraw (vmode : VideoMode) (state : State) : State :=
  gxVideoDrawGray state (fontSize vmode) (fontSize vmode).width

/-! ## Runs -/

inductive Event where
  | menuScreen
  | start (size : Size) (outcome : SetupOutcome)
  | submit (avcodecDecodeVideo2 : List UInt8 → DecodeReply) (decodeUnit : DecodeUnit)
  /-- `LiStartConnection` returns 0. -/
  | connected
  | draw
  /-- `LiStopConnection`, or a failure of `LiStartConnection` after the setup. -/
  | stop

def enqueue (state : State) : State :=
  { state with
    queue := state.queue.add ⟨state.currentTexture, state.session⟩
    currentTexture := advanceTexture state.currentTexture }

def step (vmode : VideoMode) (state : State) : Event → Option State
  | .menuScreen => if state.phase = .menu then some (fontDraw vmode state) else none
  | .start size outcome =>
      if state.phase = .menu then
        some { wiiDecoderSetup { state with session := state.session + 1 } size outcome with
          phase := if outcome = .ready then .starting else .menu }
      else none
  | .submit avcodecDecodeVideo2 decodeUnit =>
      if state.phase = .menu then none
      else
        match (submitDecodeUnit avcodecDecodeVideo2 decodeUnit).picture with
        | none => some state
        | some _ => some (enqueue state)
  | .connected =>
      if state.phase = .starting then some { state with phase := .streaming } else none
  | .draw => if state.phase = .streaming then some (wiiStreamDraw state) else none
  | .stop =>
      if state.phase = .menu then none
      else some { wiiDecoderCleanup state with phase := .menu }

/-- After `wii_stream_init`. -/
def programStart : State where
  video := unconfigured
  frames := fun _ => ⟨⟨0, 0, 0, 0⟩, none⟩
  queue := .reset fun _ => ⟨⟨0, numBuffers_pos⟩, 0⟩
  currentTexture := ⟨0, numBuffers_pos⟩
  phase := .menu
  session := 0
  neutralUv := none
  draws := []
  uploads := []

/-! ## The configuration at every draw -/

/-- The configured widths are the strides of the planes, and the configured size
is the one that they were allocated for. -/
structure DrawCall.Matches (call : DrawCall) : Prop where
  luma : call.video.size.yWidth = call.ystride
  chroma : call.video.size.uvWidth = call.uvstride
  lumaSize : call.luma = some ⟨call.video.yuvCfgW, call.video.yuvCfgH⟩
  chromaSize : call.chroma = some ⟨call.video.yuvCfgW, call.video.yuvCfgH⟩

structure Size.InRange (size : Size) : Prop where
  width : 2 ≤ size.width ∧ size.width ≤ 8192
  height : 2 ≤ size.height ∧ size.height ≤ 8192

theorem Size.inRange_iff (size : Size) :
    size.InRange ↔
      (2 ≤ size.width ∧ size.width ≤ 8192) ∧ (2 ≤ size.height ∧ size.height ≤ 8192) :=
  ⟨fun inRange => ⟨inRange.width, inRange.height⟩, fun both => ⟨both.1, both.2⟩⟩

/-- Streams have a size from 2x2 to 8192x8192. -/
def StreamSizes (_ : State) : Event → Prop
  | .start size _ => size.InRange
  | _ => True

/-- Both frame buffers are allocated for the configured size. -/
structure Allocated (video : YuvState) (frames : Fin numBuffers → FrameBuffer) (size : Size) :
    Prop where
  inRange : size.InRange
  width : video.yuvCfgW = size.width
  height : video.yuvCfgH = size.height
  frames : ∀ i, frames i = ⟨wiiAllocFrames size.width size.height, some size⟩

structure Consistent (vmode : VideoMode) (state : State) : Prop where
  configured : Configured state.video
  allocated : state.phase ≠ .menu → ∃ size, Allocated state.video state.frames size
  neutral : state.neutralUv = none ∨ state.neutralUv = some (fontSize vmode)
  drawn : ∀ call ∈ state.draws, call.Matches

theorem gxVideoConfigYuv_configured {video : YuvState} (configured : Configured video)
    (width height : Nat) : Configured (gxVideoConfigYuv video width height) :=
  step_configured video (.config width height) _ configured rfl

theorem updateRowPitch_configured {video : YuvState} (configured : Configured video)
    (ystride uvstride : Nat) : Configured (updateRowPitch video ystride uvstride) :=
  step_configured video (.draw ystride uvstride) _ configured rfl

/-- The strides of `wii_alloc_frames` are the widths of `gx_video_config_yuv`. -/
theorem geometry_strides {size : Size} (inRange : size.InRange) :
    (geometry size.width size.height).yWidth = (wiiAllocFrames size.width size.height).ystride ∧
      (geometry size.width size.height).uvWidth =
        (wiiAllocFrames size.width size.height).uvstride := by
  have width := inRange.width.2
  simp only [geometry, wiiAllocFrames, alignUp8]
  exact ⟨u16_of_lt (by omega), u16_of_lt (by omega)⟩

/-- A draw keeps the invariant when it finds the configuration of its planes. -/
theorem gxVideoDrawYuv_consistent {vmode : VideoMode} {state : State} {size : Size}
    (consistent : Consistent vmode state) (ystride uvstride : Nat)
    (width : state.video.yuvCfgW = size.width) (height : state.video.yuvCfgH = size.height)
    (luma : (geometry size.width size.height).yWidth = ystride)
    (chroma : (geometry size.width size.height).uvWidth = uvstride) :
    Consistent vmode (gxVideoDrawYuv state ystride uvstride (some size) (some size)) where
  configured := updateRowPitch_configured consistent.configured ystride uvstride
  allocated := by
    intro active
    obtain ⟨size, allocated⟩ := consistent.allocated active
    exact ⟨size, allocated.inRange, by simp [gxVideoDrawYuv, allocated.width],
      by simp [gxVideoDrawYuv, allocated.height], allocated.frames⟩
  neutral := consistent.neutral
  drawn := by
    intro call member
    simp only [gxVideoDrawYuv, List.mem_append, List.mem_singleton] at member
    have configured := consistent.configured
    rw [Configured, width, height] at configured
    rcases member with earlier | rfl
    · exact consistent.drawn call earlier
    · exact ⟨by rw [configured, luma], by rw [configured, chroma], by rw [width, height],
        by rw [width, height]⟩

theorem wiiStreamDraw_consistent {vmode : VideoMode} {state : State}
    (consistent : Consistent vmode state) (active : state.phase ≠ .menu) :
    Consistent vmode (wiiStreamDraw state) := by
  unfold wiiStreamDraw
  cases taken : state.queue.get with
  | mk message queue =>
      cases message with
      | none => exact ⟨consistent.configured, consistent.allocated, consistent.neutral,
          consistent.drawn⟩
      | some queued =>
          obtain ⟨size, allocated⟩ := consistent.allocated active
          have strides := geometry_strides allocated.inRange
          simp only [allocated.frames]
          refine gxVideoDrawYuv_consistent ?_ _ _ allocated.width allocated.height
            strides.1 strides.2
          exact ⟨consistent.configured, consistent.allocated, consistent.neutral,
            consistent.drawn⟩

theorem growNeutralUv_font {vmode : VideoMode} {neutralUv : Option Size}
    (known : neutralUv = none ∨ neutralUv = some (fontSize vmode)) :
    growNeutralUv neutralUv (fontSize vmode) = some (fontSize vmode) := by
  have positive : 0 < chromaBytes (fontSize vmode) := by
    have lines := vmode.hasLines
    simp only [chromaBytes, fontSize]
    omega
  rcases known with rfl | rfl
  · simp [growNeutralUv, positive]
  · simp [growNeutralUv]

theorem fontDraw_consistent {vmode : VideoMode} {state : State}
    (consistent : Consistent vmode state) (menu : state.phase = .menu) :
    Consistent vmode (fontDraw vmode state) := by
  unfold fontDraw gxVideoDrawGray
  have neutral := growNeutralUv_font consistent.neutral
  simp only [neutral]
  refine gxVideoDrawYuv_consistent ?_ _ _ (gxVideoConfigYuv_width _ _ _)
    (gxVideoConfigYuv_height _ _ _) ?_ ?_
  · exact ⟨gxVideoConfigYuv_configured consistent.configured _ _,
      fun active => absurd menu active, .inr rfl, consistent.drawn⟩
  · simp [geometry, fontSize, alignUp8, u16]
  · simp [geometry, fontSize, alignUp8, u16]

theorem wiiDecoderSetup_consistent {vmode : VideoMode} {state : State} (size : Size)
    (outcome : SetupOutcome) (consistent : Consistent vmode state) (menu : state.phase = .menu) :
    Consistent vmode (wiiDecoderSetup state size outcome) := by
  have configured := gxVideoConfigYuv_configured consistent.configured size.width size.height
  cases outcome with
  | noDecoder => exact consistent
  | noFrame buffer =>
      exact ⟨configured, fun active => absurd menu active, consistent.neutral, consistent.drawn⟩
  | noDecodeBuffer =>
      exact ⟨configured, fun active => absurd menu active, consistent.neutral, consistent.drawn⟩
  | ready =>
      exact ⟨configured, fun active => absurd menu active, consistent.neutral, consistent.drawn⟩

theorem wiiDecoderSetup_ready (state : State) {size : Size} (inRange : size.InRange) :
    Allocated (wiiDecoderSetup state size .ready).video (wiiDecoderSetup state size .ready).frames
      size :=
  ⟨inRange, gxVideoConfigYuv_width _ _ _, gxVideoConfigYuv_height _ _ _, fun _ => rfl⟩

theorem step_consistent (vmode : VideoMode) (state : State) (event : Event) (next : State)
    (consistent : Consistent vmode state) (sizes : StreamSizes state event)
    (stepped : step vmode state event = some next) : Consistent vmode next := by
  obtain ⟨configured, allocated, neutral, drawn⟩ := id consistent
  cases event with
  | menuScreen =>
      simp only [step, Option.ite_none_right_eq_some, Option.some.injEq] at stepped
      obtain ⟨menu, rfl⟩ := stepped
      exact fontDraw_consistent consistent menu
  | start size outcome =>
      simp only [step, Option.ite_none_right_eq_some, Option.some.injEq] at stepped
      obtain ⟨menu, rfl⟩ := stepped
      have begun : Consistent vmode
          (wiiDecoderSetup { state with session := state.session + 1 } size outcome) :=
        wiiDecoderSetup_consistent size outcome ⟨configured, allocated, neutral, drawn⟩ menu
      refine ⟨begun.configured, fun active => ?_, begun.neutral, begun.drawn⟩
      by_cases ready : outcome = .ready
      · subst ready
        exact ⟨size, wiiDecoderSetup_ready _ sizes⟩
      · exact absurd (if_neg ready) active
  | submit avcodecDecodeVideo2 decodeUnit =>
      simp only [step] at stepped
      split at stepped
      · cases stepped
      split at stepped
      · cases stepped
        exact consistent
      · cases stepped
        exact ⟨configured, allocated, neutral, drawn⟩
  | connected =>
      simp only [step, Option.ite_none_right_eq_some, Option.some.injEq] at stepped
      obtain ⟨starting, rfl⟩ := stepped
      exact ⟨configured, fun _ => allocated (by rw [starting]; decide), neutral, drawn⟩
  | draw =>
      simp only [step, Option.ite_none_right_eq_some, Option.some.injEq] at stepped
      obtain ⟨streaming, rfl⟩ := stepped
      exact wiiStreamDraw_consistent consistent (by rw [streaming]; decide)
  | stop =>
      simp only [step] at stepped
      split at stepped
      · cases stepped
      · cases stepped
        exact ⟨configured, fun active => absurd rfl active, neutral, drawn⟩

theorem programStart_consistent (vmode : VideoMode) : Consistent vmode programStart where
  configured := unconfigured_configured
  allocated := fun active => absurd rfl active
  neutral := .inl rfl
  drawn := fun _ member => absurd member List.not_mem_nil

/-- Over any menus, stream starts and ends, `gx_video_draw_yuv` finds the
configuration of the planes that it is given. -/
theorem draws_match_planes (vmode : VideoMode) (events : List Event) (state : State)
    (sizes : Along (step vmode) StreamSizes programStart events)
    (reached : run (step vmode) programStart events = some state) :
    ∀ call ∈ state.draws, call.Matches :=
  (run_invariant (Consistent vmode) (step_consistent vmode) (programStart_consistent vmode)
    sizes reached).drawn

def ntsc : VideoMode := ⟨480, by decide⟩

def onePicture : Event :=
  .submit (fun _ => .picture ⟨0, 0, fun _ => 0, fun _ _ => 0⟩) ⟨0, []⟩

/-- A stream at 1280x720, a failed start at 640x480, and a stream at 854x480 whose
picture is drawn before the next menu. -/
def changingSizes : List Event :=
  [.menuScreen, .start ⟨1280, 720⟩ .ready, .connected, onePicture, .draw, .stop, .menuScreen,
    .start ⟨640, 480⟩ (.noFrame ⟨0, numBuffers_pos⟩), .menuScreen, .start ⟨854, 480⟩ .ready,
    onePicture, .connected, .draw, .stop, .menuScreen]

theorem changing_sizes_draws_match :
    ∃ state, run (step ntsc) programStart changingSizes = some state ∧
      state.draws.length = 6 ∧ ∀ call ∈ state.draws, call.Matches := by
  have sizes : Along (step ntsc) StreamSizes programStart changingSizes := by
    refine along_of_forall _ _ ?_
    simp [changingSizes, onePicture, StreamSizes, Size.inRange_iff]
  have drawn : (run (step ntsc) programStart changingSizes).map (fun state => state.draws.length) =
      some 6 := by
    decide
  obtain ⟨state, reached, count⟩ := Option.map_eq_some_iff.mp drawn
  exact ⟨state, reached, count, draws_match_planes ntsc changingSizes state sizes reached⟩

/-! ## The session of every uploaded frame -/

/-- No frame is queued whenever `wii_decoder_setup` succeeds. -/
def QueueEmptyAtSetup (state : State) : Event → Prop
  | .start _ .ready => state.queue.messages = []
  | _ => True

instance queueEmptyDecidable (state : State) :
    (event : Event) → Decidable (QueueEmptyAtSetup state event)
  | .start _ .ready => inferInstanceAs (Decidable (state.queue.messages = []))
  | .start _ .noDecoder => isTrue trivial
  | .start _ (.noFrame _) => isTrue trivial
  | .start _ .noDecodeBuffer => isTrue trivial
  | .menuScreen => isTrue trivial
  | .submit _ _ => isTrue trivial
  | .connected => isTrue trivial
  | .draw => isTrue trivial
  | .stop => isTrue trivial

structure Fresh (state : State) : Prop where
  queued : state.phase ≠ .menu → ∀ queued ∈ state.queue.messages, queued.session = state.session
  uploaded : ∀ upload ∈ state.uploads, upload.enqueued = upload.drawn

theorem enqueue_fresh {state : State} (fresh : Fresh state) : Fresh (enqueue state) where
  queued := by
    intro active queued member
    have added := state.queue.add_spec ⟨state.currentTexture, state.session⟩
    simp only [enqueue] at member ⊢
    rw [added] at member
    split at member
    · exact fresh.queued active queued member
    · simp only [List.mem_append, List.mem_singleton] at member
      rcases member with earlier | rfl
      · exact fresh.queued active queued earlier
      · rfl
  uploaded := fresh.uploaded

theorem wiiStreamDraw_fresh {state : State} (fresh : Fresh state) (active : state.phase ≠ .menu) :
    Fresh (wiiStreamDraw state) := by
  have spec := state.queue.get_spec
  unfold wiiStreamDraw
  cases taken : state.queue.get with
  | mk message queue =>
      rw [taken] at spec
      obtain ⟨returned, remaining⟩ := spec
      have later (queued : Queued) (member : queued ∈ queue.messages) :
          queued.session = state.session := by
        rw [remaining] at member
        exact fresh.queued active queued (List.mem_of_mem_tail member)
      cases message with
      | none => exact ⟨fun _ => later, fresh.uploaded⟩
      | some queued =>
          refine ⟨fun _ => later, fun upload member => ?_⟩
          simp only [gxVideoDrawYuv, List.mem_append, List.mem_singleton] at member
          rcases member with earlier | rfl
          · exact fresh.uploaded upload earlier
          · exact fresh.queued active queued (List.mem_of_mem_head? returned.symm)

@[simp] theorem wiiDecoderSetup_queue (state : State) (size : Size) (outcome : SetupOutcome) :
    (wiiDecoderSetup state size outcome).queue = state.queue := by
  cases outcome <;> rfl

@[simp] theorem wiiDecoderSetup_uploads (state : State) (size : Size) (outcome : SetupOutcome) :
    (wiiDecoderSetup state size outcome).uploads = state.uploads := by
  cases outcome <;> rfl

theorem step_fresh (vmode : VideoMode) (state : State) (event : Event) (next : State)
    (fresh : Fresh state) (empty : QueueEmptyAtSetup state event)
    (stepped : step vmode state event = some next) : Fresh next := by
  cases event with
  | menuScreen =>
      simp only [step, Option.ite_none_right_eq_some, Option.some.injEq] at stepped
      obtain ⟨menu, rfl⟩ := stepped
      exact ⟨fun active => absurd menu active, fresh.uploaded⟩
  | start size outcome =>
      simp only [step, Option.ite_none_right_eq_some, Option.some.injEq] at stepped
      obtain ⟨menu, rfl⟩ := stepped
      refine ⟨fun active => ?_, ?_⟩
      · by_cases ready : outcome = .ready
        · subst ready
          have none_ : state.queue.messages = [] := empty
          simp [none_]
        · exact absurd (if_neg ready) active
      · simp only [wiiDecoderSetup_uploads]
        exact fresh.uploaded
  | submit avcodecDecodeVideo2 decodeUnit =>
      simp only [step] at stepped
      split at stepped
      · cases stepped
      split at stepped
      · cases stepped
        exact fresh
      · cases stepped
        exact enqueue_fresh fresh
  | connected =>
      simp only [step, Option.ite_none_right_eq_some, Option.some.injEq] at stepped
      obtain ⟨starting, rfl⟩ := stepped
      exact ⟨fun _ => fresh.queued (by rw [starting]; decide), fresh.uploaded⟩
  | draw =>
      simp only [step, Option.ite_none_right_eq_some, Option.some.injEq] at stepped
      obtain ⟨streaming, rfl⟩ := stepped
      exact wiiStreamDraw_fresh fresh (by rw [streaming]; decide)
  | stop =>
      simp only [step] at stepped
      split at stepped
      · cases stepped
      · cases stepped
        exact ⟨fun active => absurd rfl active, fresh.uploaded⟩

/-- When the queue is empty at every setup, each uploaded frame belongs to the
session that uploads it. -/
theorem uploads_of_current_session (vmode : VideoMode) (events : List Event) (state : State)
    (empty : Along (step vmode) QueueEmptyAtSetup programStart events)
    (reached : run (step vmode) programStart events = some state) :
    ∀ upload ∈ state.uploads, upload.enqueued = upload.drawn := by
  have start : Fresh programStart :=
    ⟨fun active => absurd rfl active, fun _ member => absurd member List.not_mem_nil⟩
  exact (run_invariant Fresh (step_fresh vmode) start empty reached).uploaded

theorem drained_session_uploads :
    ∃ state, run (step ntsc) programStart changingSizes = some state ∧
      state.uploads = [⟨1, 1⟩, ⟨3, 3⟩] ∧
      ∀ upload ∈ state.uploads, upload.enqueued = upload.drawn := by
  have uploaded : (run (step ntsc) programStart changingSizes).map (fun state => state.uploads) =
      some [⟨1, 1⟩, ⟨3, 3⟩] := by
    decide
  obtain ⟨state, reached, uploads⟩ := Option.map_eq_some_iff.mp uploaded
  exact ⟨state, reached, uploads, uploads_of_current_session ntsc changingSizes state
    (by decide) reached⟩

/-- The stream stops with a picture in the queue, and the next one draws it. -/
theorem next_session_uploads_old_frame :
    ¬ ∀ (vmode : VideoMode) (events : List Event) (state : State),
      run (step vmode) programStart events = some state →
        ∀ upload ∈ state.uploads, upload.enqueued = upload.drawn := by
  intro always
  have uploaded : (run (step ntsc) programStart
      [.start ⟨1280, 720⟩ .ready, .connected, onePicture, .stop,
        .start ⟨1280, 720⟩ .ready, .connected, .draw]).map (fun state => state.uploads) =
      some [⟨2, 1⟩] := by
    decide
  obtain ⟨state, reached, uploads⟩ := Option.map_eq_some_iff.mp uploaded
  have same := always ntsc _ state reached ⟨2, 1⟩ (by rw [uploads]; exact List.mem_singleton_self _)
  cases same

end MoonlightWii.Wii.StreamSession
