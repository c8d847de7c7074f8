import Mathlib.Logic.Function.Basic
import MoonlightWii.Foundation.GuardedRun

/-!
# Presenting frames (`gx_video.c`)

The draw thread renders frame after frame into `xfb[whichfb]`, the GPU reports
each finished frame through `draw_done_cb`, and `vblank_cb` hands the buffer to
the video interface and toggles `whichfb`.  The GPU takes its commands in order:
the copy of a frame is complete before its draw-done interrupt.  The thread
returns from `GX_WaitDrawDone` when that interrupt has run, and from
`VIDEO_WaitVSync` after one retrace.
-/

set_option autoImplicit false

namespace MoonlightWii.Wii.Flip

open Foundation.GuardedRun

def delayrenderLimit : Nat := 4

inductive DrawThread where
  | idle
  | waitDrawDone
  /-- The textures are filled, `if (flip_pending)` comes next. -/
  | filled
  | waitVSync
  | present
  deriving DecidableEq

inductive Gpu where
  | idle
  | copying (buffer : Fin 2) (frame : Nat)
  /-- The copy is complete, its draw-done interrupt has not run. -/
  | finished
  deriving DecidableEq

/-- One call of `VIDEO_SetNextFramebuffer`: the frame that is complete in the
buffer, and whether a copy into it is in flight. -/
structure Shown where
  frame : Option Nat
  copyInFlight : Bool
  deriving DecidableEq

structure Display where
  syncInterlace : Nat
  delayrenderFrames : Nat
  flipPending : Bool
  whichfb : Fin 2
  gxPresented : Bool
  /-- The frame that is completely in each buffer. -/
  xfb : Fin 2 → Option Nat
  gpu : Gpu
  thread : DrawThread
  /-- Ghost: how many frames have been presented. -/
  presented : Nat
  /-- Ghost: the buffers handed to the video interface, oldest first. -/
  shown : List Shown

inductive Event where
  | draw
  | proceed
  | copyDone
  | drawDone
  /-- A retrace, with the value of `VIDEO_GetNextField`. -/
  | retrace (field : Bool)

def doFlip (syncInterlace : Nat) (field : Bool) : Bool :=
  if syncInterlace = 1 then !field else if syncInterlace = 2 then field else true

def shownNow (display : Display) : Shown where
  frame := display.xfb display.whichfb
  copyInFlight :=
    match display.gpu with
    | .copying buffer _ => buffer = display.whichfb
    | _ => false

def vblankCb (display : Display) (field : Bool) : Display :=
  if display.delayrenderFrames < delayrenderLimit then
    { display with delayrenderFrames := display.delayrenderFrames + 1 }
  else if !display.flipPending || !doFlip display.syncInterlace field then
    display
  else
    { display with
      shown := display.shown ++ [shownNow display]
      whichfb := display.whichfb + 1
      flipPending := false }

def afterRetrace : DrawThread → DrawThread
  | .waitVSync => .present
  | thread => thread

/-- `gx_video_present`: from the command on, the buffer is being overwritten. -/
def gxVideoPresent (display : Display) : Display :=
  { display with
    xfb := Function.update display.xfb display.whichfb none
    gpu := .copying display.whichfb display.presented
    gxPresented := true
    presented := display.presented + 1
    thread := .idle }

def drawThreadStep (display : Display) : Option Display :=
  match display.thread with
  | .idle => none
  | .waitDrawDone =>
      if display.gpu = .idle then some { display with thread := .filled } else none
  | .filled =>
      some { display with thread := if display.flipPending then .waitVSync else .present }
  | .waitVSync => none
  | .present => some (gxVideoPresent display)

def step (display : Display) : Event → Option Display
  | .draw =>
      match display.thread with
      | .idle =>
          some { display with
            thread := if display.gxPresented then .waitDrawDone else .filled }
      | _ => none
  | .proceed => drawThreadStep display
  | .copyDone =>
      match display.gpu with
      | .copying buffer frame =>
          some { display with
            xfb := Function.update display.xfb buffer (some frame)
            gpu := .finished }
      | _ => none
  | .drawDone =>
      match display.gpu with
      | .finished => some { display with gpu := .idle, flipPending := true }
      | _ => none
  | .retrace field =>
      some { vblankCb display field with thread := afterRetrace display.thread }

def gxVideoInit2 (syncInterlace : Nat) : Display where
  syncInterlace := syncInterlace
  delayrenderFrames := 0
  flipPending := false
  whichfb := 0
  gxPresented := false
  xfb := fun _ => none
  gpu := .idle
  thread := .idle
  presented := 0
  shown := []

/-! ## What is shown -/

/-- Every buffer handed over holds a complete frame, without a copy in flight,
and the frame numbers increase. -/
def ShownInOrder (display : Display) : Prop :=
  ∃ frames : List Nat,
    display.shown = frames.map (fun frame => ⟨some frame, false⟩) ∧ frames.Pairwise (· < ·)

/-- The first frame number that has not been shown, given what is under way. -/
def unshownFrom (display : Display) : Nat :=
  if display.gpu = .idle ∧ display.flipPending = false then display.presented
  else display.presented - 1

/-- The frame under way is in `xfb[whichfb]`, and no flip waits while the GPU works. -/
def GpuPaced (display : Display) : Prop :=
  match display.gpu with
  | .idle => display.flipPending = true →
      0 < display.presented ∧ display.xfb display.whichfb = some (display.presented - 1)
  | .copying buffer frame => display.flipPending = false ∧ buffer = display.whichfb ∧
      display.presented = frame + 1
  | .finished => display.flipPending = false ∧ 0 < display.presented ∧
      display.xfb display.whichfb = some (display.presented - 1)

def ThreadPaced (display : Display) : Prop :=
  match display.thread with
  | .idle => display.gxPresented = false → display.gpu = .idle
  | .waitDrawDone => True
  | .filled => display.gpu = .idle
  | .waitVSync => display.gpu = .idle
  | .present => display.gpu = .idle

structure Paced (display : Display) : Prop where
  gpu : GpuPaced display
  thread : ThreadPaced display
  order : ∃ frames : List Nat,
    display.shown = frames.map (fun frame => ⟨some frame, false⟩) ∧
      frames.Pairwise (· < ·) ∧ ∀ frame, frame ∈ frames → frame < unshownFrom display

theorem gxVideoInit2_paced (syncInterlace : Nat) : Paced (gxVideoInit2 syncInterlace) where
  gpu := by intro pending; cases pending
  thread := fun _ => rfl
  order := ⟨[], rfl, List.Pairwise.nil, by intro frame member; cases member⟩

theorem Paced.shownInOrder {display : Display} (paced : Paced display) : ShownInOrder display := by
  obtain ⟨frames, shown, increasing, _⟩ := paced.order
  exact ⟨frames, shown, increasing⟩

theorem pairwise_append_last (frames : List Nat) (last : Nat)
    (increasing : frames.Pairwise (· < ·)) (below : ∀ frame, frame ∈ frames → frame < last) :
    (frames ++ [last]).Pairwise (· < ·) := by
  rw [List.pairwise_append]
  refine ⟨increasing, List.pairwise_singleton _ _, ?_⟩
  intro frame member other same
  rw [List.mem_singleton.mp same]
  exact below frame member

def PresentAfterFlip (display : Display) (event : Event) : Prop :=
  match display.thread, event with
  | .present, .proceed => display.flipPending = false
  | _, _ => True

theorem vblankCb_paced (display : Display) (field : Bool) (paced : Paced display) :
    GpuPaced (vblankCb display field) ∧ (vblankCb display field).gpu = display.gpu ∧
      ∃ frames : List Nat,
        (vblankCb display field).shown = frames.map (fun frame => ⟨some frame, false⟩) ∧
          frames.Pairwise (· < ·) ∧
          ∀ frame, frame ∈ frames → frame < unshownFrom (vblankCb display field) := by
  unfold vblankCb
  by_cases delayed : display.delayrenderFrames < delayrenderLimit
  · rw [if_pos delayed]
    exact ⟨paced.gpu, rfl, paced.order⟩
  · rw [if_neg delayed]
    by_cases skipped : (!display.flipPending || !doFlip display.syncInterlace field) = true
    · rw [if_pos skipped]
      exact ⟨paced.gpu, rfl, paced.order⟩
    · rw [if_neg skipped]
      have pending : display.flipPending = true := by
        cases off : display.flipPending with
        | true => rfl
        | false => simp [off] at skipped
      have gpu := paced.gpu
      unfold GpuPaced at gpu
      cases working : display.gpu with
      | copying buffer frame =>
          rw [working] at gpu
          rw [gpu.1] at pending
          cases pending
      | finished =>
          rw [working] at gpu
          rw [gpu.1] at pending
          cases pending
      | idle =>
          rw [working] at gpu
          obtain ⟨some_presented, content⟩ := gpu pending
          obtain ⟨frames, shown, increasing, below⟩ := paced.order
          have last : unshownFrom display = display.presented - 1 := by
            simp [unshownFrom, working, pending]
          rw [last] at below
          refine ⟨?_, rfl, frames ++ [display.presented - 1], ?_, ?_, ?_⟩
          · simp [GpuPaced]
          · simp [shown, shownNow, working, content]
          · exact pairwise_append_last frames _ increasing below
          · intro frame member
            simp only [unshownFrom, and_self, if_true]
            rcases List.mem_append.mp member with old | new
            · have bound := below frame old
              omega
            · rw [List.mem_singleton.mp new]
              omega

theorem afterRetrace_paced (display next : Display) (thread : ThreadPaced display)
    (gpu : next.gpu = display.gpu) (presented : next.gxPresented = display.gxPresented)
    (moved : next.thread = afterRetrace display.thread) : ThreadPaced next := by
  unfold ThreadPaced at thread ⊢
  rw [moved, gpu, presented]
  cases pc : display.thread <;> rw [pc] at thread <;> exact thread

@[simp] theorem vblankCb_gxPresented (display : Display) (field : Bool) :
    (vblankCb display field).gxPresented = display.gxPresented := by
  unfold vblankCb
  split
  · rfl
  · split <;> rfl

theorem draw_paced (display next : Display) (paced : Paced display)
    (stepped : step display .draw = some next) : Paced next := by
  obtain ⟨gpu, thread, order⟩ := paced
  simp only [step] at stepped
  cases pc : display.thread with
  | idle =>
      simp only [pc, Option.some.injEq] at stepped
      subst next
      refine ⟨gpu, ?_, order⟩
      simp only [ThreadPaced, pc] at thread
      cases on : display.gxPresented with
      | true => trivial
      | false => exact thread on
  | waitDrawDone => simp [pc] at stepped
  | filled => simp [pc] at stepped
  | waitVSync => simp [pc] at stepped
  | present => simp [pc] at stepped

theorem proceed_paced (display next : Display) (paced : Paced display)
    (clear : PresentAfterFlip display .proceed) (stepped : step display .proceed = some next) :
    Paced next := by
  obtain ⟨gpu, thread, order⟩ := paced
  simp only [step, drawThreadStep] at stepped
  cases pc : display.thread with
  | idle => simp [pc] at stepped
  | waitVSync => simp [pc] at stepped
  | waitDrawDone =>
      simp only [pc] at stepped
      by_cases done : display.gpu = .idle
      · rw [if_pos done] at stepped
        cases Option.some.inj stepped
        exact ⟨gpu, done, order⟩
      · rw [if_neg done] at stepped
        cases stepped
  | filled =>
      simp only [pc, Option.some.injEq] at stepped
      subst next
      refine ⟨gpu, ?_, order⟩
      simp only [ThreadPaced, pc] at thread
      cases display.flipPending <;> exact thread
  | present =>
      simp only [pc, Option.some.injEq] at stepped
      subst next
      simp only [PresentAfterFlip, pc] at clear
      simp only [ThreadPaced, pc] at thread
      refine ⟨⟨clear, rfl, rfl⟩, ?_, ?_⟩
      · intro never
        cases never
      · obtain ⟨frames, shown, increasing, below⟩ := order
        refine ⟨frames, shown, increasing, ?_⟩
        intro frame member
        have bound := below frame member
        simp [unshownFrom, thread, clear] at bound
        simpa [unshownFrom, gxVideoPresent] using bound

theorem copyDone_paced (display next : Display) (paced : Paced display)
    (stepped : step display .copyDone = some next) : Paced next := by
  obtain ⟨gpu, thread, order⟩ := paced
  simp only [step] at stepped
  cases working : display.gpu with
  | idle => simp [working] at stepped
  | finished => simp [working] at stepped
  | copying buffer frame =>
      simp only [working, Option.some.injEq] at stepped
      subst next
      simp only [GpuPaced, working] at gpu
      obtain ⟨off, same, presented⟩ := gpu
      subst same
      refine ⟨⟨off, ?_, ?_⟩, ?_, ?_⟩
      · simp only
        omega
      · simp [presented]
      · simp only [ThreadPaced, working] at thread ⊢
        cases pc : display.thread <;> rw [pc] at thread <;> simp_all
      · simpa [unshownFrom, working] using order

theorem drawDone_paced (display next : Display) (paced : Paced display)
    (stepped : step display .drawDone = some next) : Paced next := by
  obtain ⟨gpu, thread, order⟩ := paced
  simp only [step] at stepped
  cases working : display.gpu with
  | idle => simp [working] at stepped
  | copying buffer frame => simp [working] at stepped
  | finished =>
      simp only [working, Option.some.injEq] at stepped
      subst next
      simp only [GpuPaced, working] at gpu
      refine ⟨fun _ => gpu.2, ?_, ?_⟩
      · unfold ThreadPaced
        cases display.thread <;> simp
      · simpa [unshownFrom, working] using order

theorem retrace_paced (display : Display) (field : Bool) (next : Display) (paced : Paced display)
    (stepped : step display (.retrace field) = some next) : Paced next := by
  simp only [step, Option.some.injEq] at stepped
  subst next
  obtain ⟨gpu, same, shown⟩ := vblankCb_paced display field paced
  refine ⟨gpu, ?_, shown⟩
  exact afterRetrace_paced display _ paced.thread same (vblankCb_gxPresented display field) rfl

theorem step_paced (display : Display) (event : Event) (next : Display) (paced : Paced display)
    (clear : PresentAfterFlip display event) (stepped : step display event = some next) :
    Paced next := by
  cases event with
  | draw => exact draw_paced display next paced stepped
  | proceed => exact proceed_paced display next paced clear stepped
  | copyDone => exact copyDone_paced display next paced stepped
  | drawDone => exact drawDone_paced display next paced stepped
  | retrace field => exact retrace_paced display field next paced stepped

/-- In every run in which each frame is presented only when no flip is pending,
every buffer handed over is complete and the frame numbers increase. -/
theorem shown_in_order_of_present_after_flip (syncInterlace : Nat) (events : List Event)
    (final : Display)
    (clear : Along step PresentAfterFlip (gxVideoInit2 syncInterlace) events)
    (reached : run step (gxVideoInit2 syncInterlace) events = some final) :
    ShownInOrder final := by
  have paced : Paced final :=
    run_invariant Paced step_paced (gxVideoInit2_paced syncInterlace) clear reached
  exact paced.shownInOrder

instance presentAfterFlipDecidable (display : Display) (event : Event) :
    Decidable (PresentAfterFlip display event) := by
  unfold PresentAfterFlip
  split <;> infer_instance

/-- Four retraces with the screen black, then one frame is drawn. -/
def firstFrame : List Event :=
  List.replicate 4 (.retrace false) ++ [.draw, .proceed, .proceed, .copyDone, .drawDone]

/-- The second draw waits for the retrace that shows the first frame. -/
def secondFrame : List Event :=
  [.draw, .proceed, .proceed, .retrace false, .proceed, .copyDone, .drawDone, .retrace true,
    .retrace false]

theorem shown_in_order_two_frames :
    ∃ final, run step (gxVideoInit2 1) (firstFrame ++ secondFrame) = some final ∧
      final.shown = [⟨some 0, false⟩, ⟨some 1, false⟩] ∧ ShownInOrder final := by
  refine ⟨_, rfl, rfl, ?_⟩
  exact shown_in_order_of_present_after_flip 1 (firstFrame ++ secondFrame) _
    (by decide) rfl

/-- Interlaced: the second draw waits through a retrace of the other field, copies
into the buffer that is still to be shown, and the next retrace shows it. -/
theorem shows_buffer_being_copied :
    ¬ ∀ (syncInterlace : Nat) (events : List Event) (final : Display),
      syncInterlace = 0 ∨ syncInterlace = 1 →
        run step (gxVideoInit2 syncInterlace) events = some final → ShownInOrder final := by
  intro always
  let events : List Event := firstFrame ++
    [.draw, .proceed, .proceed, .retrace true, .proceed, .retrace false]
  obtain ⟨frames, shown, _⟩ := always 1 events _ (.inr rfl) rfl
  have first := congrArg (fun list => list[0]?) shown
  cases frames with
  | nil => cases first
  | cons frame rest => cases first

end MoonlightWii.Wii.Flip
