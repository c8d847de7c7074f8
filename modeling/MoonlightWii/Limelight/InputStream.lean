import Mathlib.Algebra.Group.Prod
import Mathlib.Algebra.BigOperators.Group.List.Basic
import Mathlib.Algebra.Order.Ring.Int
import Mathlib.Data.List.Induction

/-!
# The input stream

`InputStream.c` of the streaming library.  The client's threads queue packets, and a thread of
its own sends them.  Mouse motion is gathered while it waits, and controller packets are batched.
Delays and encryption are left out; the gathered motion is taken not to overflow.
-/

set_option autoImplicit false

namespace MoonlightWii.Limelight.InputStream

def MAX_QUEUED_INPUT_PACKETS : ℕ := 150
def LI_WHEEL_DELTA : ℤ := 120
def SPECIAL_FLAG : UInt32 := 0x0400
def MISC_FLAG : UInt32 := 0x200000

def LBQ_INTERRUPTED : ℤ := 1
def LBQ_BOUND_EXCEEDED : ℤ := 2

/-- What the stream depends on in the version of the server. -/
structure Settings where
  generation : ℤ
  sunshine : Bool
  haptics : Bool
  needsBatchedScroll : Bool

/-- The fields of `NV_MULTI_CONTROLLER_PACKET` that are not the same in all packets. -/
structure MultiController where
  controllerNumber : ℤ
  activeGamepadMask : UInt16
  buttonFlags : UInt16
  buttonFlags2 : UInt16
  leftTrigger : UInt8
  rightTrigger : UInt8
  leftStickX : ℤ
  leftStickY : ℤ
  rightStickX : ℤ
  rightStickY : ℤ
  deriving DecidableEq

/-- A packet in the queue.  The motion of the mouse is not in it. -/
inductive Packet
  | mouseMoveRel
  | mouseMoveAbs
  | mouseButton (action button : UInt8)
  | multiController (packet : MultiController)
  | controller (packet : MultiController)
  | scroll (scrollAmount : ℤ)
  | unicode (text : List UInt8)
  | haptics
  deriving DecidableEq

/-- What is passed to `sendInputPacket`. -/
inductive Sent
  | moved (deltaX deltaY : ℤ)
  | position (x y width height : ℤ)
  | codePoint (text : List UInt8)
  | packet (packet : Packet)
  deriving DecidableEq

/-- Where the sending thread is: in `LbqWaitForQueueElement`, in one of its loops with a packet,
or not running. -/
inductive Thread
  | waiting
  | batching (packet : MultiController)
  | moving
  | splitting (text : List UInt8)
  | stopped
  deriving DecidableEq

/-- The static variables, and what was sent. -/
structure Stream where
  initialized : Bool
  draining : Bool
  packetQueue : List Packet
  deltaX : ℤ
  deltaY : ℤ
  relativeDirty : Bool
  x : ℤ
  y : ℤ
  width : ℤ
  height : ℤ
  absoluteDirty : Bool
  batchedScrollDelta : ℤ
  thread : Thread
  sent : List Sent

/-- `initializeInputStream`. -/
def initializeInputStream : Stream where
  initialized := false
  draining := false
  packetQueue := []
  deltaX := 0
  deltaY := 0
  relativeDirty := false
  x := 0
  y := 0
  width := 0
  height := 0
  absoluteDirty := false
  batchedScrollDelta := 0
  thread := .stopped
  sent := []

/-- `LbqOfferQueueItem` on the queue of packets. -/
def offer (stream : Stream) (packet : Packet) : ℤ × Stream :=
  if stream.draining then (LBQ_INTERRUPTED, stream)
  else if stream.packetQueue.length = MAX_QUEUED_INPUT_PACKETS then (LBQ_BOUND_EXCEEDED, stream)
  else (0, { stream with packetQueue := stream.packetQueue ++ [packet] })

/-- The functions that queue one packet with nothing else to do. -/
def queuePacket (stream : Stream) (allocated : Bool) (packet : Packet) : ℤ × Stream :=
  if stream.initialized = false then (-2, stream)
  else if allocated = false then (-1, stream)
  else offer stream packet

section Calls

/-- `LiSendMouseMoveEvent`. -/
def LiSendMouseMoveEvent (stream : Stream) (allocated : Bool) (deltaX deltaY : ℤ) : ℤ × Stream :=
  if stream.initialized = false then (-2, stream)
  else if deltaX = 0 ∧ deltaY = 0 then (0, stream)
  else
    let stream := { stream with
      deltaX := stream.deltaX + deltaX
      deltaY := stream.deltaY + deltaY }
    if stream.relativeDirty then (0, stream)
    else if allocated = false then (-1, stream)
    else
      let offered := offer stream .mouseMoveRel
      if offered.1 = 0 then (0, { offered.2 with relativeDirty := true }) else offered

/-- `LiSendMousePositionEvent`. -/
def LiSendMousePositionEvent (stream : Stream) (allocated : Bool) (x y width height : ℤ) :
    ℤ × Stream :=
  if stream.initialized = false then (-2, stream)
  else
    let stream := { stream with x := x, y := y, width := width, height := height }
    if stream.absoluteDirty then (0, stream)
    else if allocated = false then (-1, stream)
    else
      let offered := offer stream .mouseMoveAbs
      if offered.1 = 0 then (0, { offered.2 with absoluteDirty := true }) else offered

/-- `LiSendMouseButtonEvent`. -/
def LiSendMouseButtonEvent (settings : Settings) (stream : Stream) (allocated : Bool)
    (action button : UInt8) : ℤ × Stream :=
  queuePacket stream allocated
    (.mouseButton (if 5 ≤ settings.generation then action + 1 else action) button)

/-- `LiSendUtf8TextEvent`. -/
def LiSendUtf8TextEvent (stream : Stream) (allocated : Bool) (text : List UInt8) : ℤ × Stream :=
  queuePacket stream allocated (.unicode text)

/-- The button flags that `sendControllerEventInternal` goes on with. -/
def usableFlags (settings : Settings) (buttonFlags : UInt32) : UInt32 :=
  let buttonFlags := if 0x80000000 ≤ buttonFlags then buttonFlags &&& 0xFFFF else buttonFlags
  if settings.sunshine = false ∧ buttonFlags &&& MISC_FLAG ≠ 0 then buttonFlags ||| SPECIAL_FLAG
  else buttonFlags

/-- `sendControllerEventInternal`; the packet has what the caller gave. -/
def sendControllerEventInternal (settings : Settings) (stream : Stream) (allocated : Bool)
    (buttonFlags : UInt32) (packet : MultiController) : ℤ × Stream :=
  let flags := usableFlags settings buttonFlags
  let packet := { packet with
    controllerNumber := packet.controllerNumber.tmod (if settings.sunshine then 16 else 4)
    activeGamepadMask :=
      if settings.sunshine then packet.activeGamepadMask else packet.activeGamepadMask &&& 0xF
    buttonFlags := flags.toUInt16
    buttonFlags2 := if settings.sunshine then (flags >>> 16).toUInt16 else 0 }
  queuePacket stream allocated
    (if settings.generation = 3 then .controller packet else .multiController packet)

/-- The loop of `LiSendHighResScrollEvent`, with a bound on its passes; `allocated` says which of
its allocations succeed. -/
def scrollSteps : ℕ → Stream → (ℕ → Bool) → ℤ × Stream
  | 0, stream, _ => (0, stream)
  | passes + 1, stream, allocated =>
    if stream.batchedScrollDelta.natAbs < LI_WHEEL_DELTA.natAbs then (0, stream)
    else
      let scrollAmount := if 0 < stream.batchedScrollDelta then LI_WHEEL_DELTA else -LI_WHEEL_DELTA
      if allocated 0 = false then (-1, stream)
      else
        let offered := offer stream (.scroll scrollAmount)
        if offered.1 ≠ 0 then offered
        else scrollSteps passes { offered.2 with
          batchedScrollDelta := offered.2.batchedScrollDelta - scrollAmount }
          fun step => allocated (step + 1)

/-- `LiSendHighResScrollEvent`. -/
def LiSendHighResScrollEvent (settings : Settings) (stream : Stream) (allocated : ℕ → Bool)
    (scrollAmount : ℤ) : ℤ × Stream :=
  if stream.initialized = false then (-2, stream)
  else if scrollAmount = 0 then (0, stream)
  else if settings.needsBatchedScroll = false then
    queuePacket stream (allocated 0) (.scroll scrollAmount)
  else
    let delta := stream.batchedScrollDelta
    let turned := (delta < 0 ∧ 0 < scrollAmount) ∨ (0 < delta ∧ scrollAmount < 0)
    let delta := (if turned then 0 else delta) + scrollAmount
    scrollSteps (delta.natAbs + 1) { stream with batchedScrollDelta := delta } allocated

/-- `startInputStream`, when the thread can be created. -/
def startInputStream (settings : Settings) (stream : Stream) (allocated : Bool) : Stream :=
  let stream := { stream with
    thread := .waiting
    initialized := true }
  if settings.haptics then (queuePacket stream allocated .haptics).2 else stream

/-- `stopInputStream`, up to where it waits for the thread. -/
def stopInputStream (stream : Stream) : Stream :=
  { stream with
    initialized := false
    draining := true }

end Calls

section Sending

/-- Passes something to `sendInputPacket`, whose failure ends the thread. -/
def send (stream : Stream) (sends : Bool) (sent : Sent) (next : Thread) : Stream :=
  { stream with
    thread := if sends then next else .stopped
    sent := stream.sent ++ [sent] }

/-- What goes into one packet of a motion, and what is left. -/
def chunk (delta : ℤ) : ℤ × ℤ :=
  if delta < -32768 then (-32768, delta + 32768)
  else if 32767 < delta then (32767, delta - 32767)
  else (delta, 0)

/-- Whether a controller packet can be batched with the one after it. -/
def batchable (packet next : MultiController) : Bool :=
  next.buttonFlags = packet.buttonFlags ∧ next.buttonFlags2 = packet.buttonFlags2 ∧
    next.controllerNumber = packet.controllerNumber ∧
    next.activeGamepadMask = packet.activeGamepadMask

/-- The packet with the triggers and sticks of the next. -/
def batch (packet next : MultiController) : MultiController :=
  { packet with
    leftTrigger := next.leftTrigger
    rightTrigger := next.rightTrigger
    leftStickX := next.leftStickX
    leftStickY := next.leftStickY
    rightStickX := next.rightStickX
    rightStickY := next.rightStickY }

/-- The length of a code point by its first byte. -/
def codePointLength (firstByte : UInt8) : Option ℕ :=
  if firstByte &&& 0x80 = 0 then some 1
  else if firstByte &&& 0xE0 = 0xC0 then some 2
  else if firstByte &&& 0xF0 = 0xE0 then some 3
  else if firstByte &&& 0xF8 = 0xF0 then some 4
  else none

/-- A step of `inputSendThreadProc`, from a call that may wait to the next. -/
def sendStep (stream : Stream) (sends : Bool) : Stream :=
  match stream.thread with
  | .waiting =>
    match stream.packetQueue with
    | [] => if stream.draining then { stream with thread := .stopped } else stream
    | packet :: rest =>
      let stream := { stream with packetQueue := rest }
      match packet with
      | .mouseMoveRel => { stream with thread := .moving }
      | .multiController packet => { stream with thread := .batching packet }
      | .unicode text => { stream with thread := .splitting text }
      | .mouseMoveAbs => send { stream with absoluteDirty := false } sends
          (.position stream.x stream.y (stream.width - 1) (stream.height - 1)) .waiting
      | packet => send stream sends (.packet packet) .waiting
  | .batching packet =>
    match stream.packetQueue with
    | .multiController next :: rest =>
      if batchable packet next then
        { stream with packetQueue := rest, thread := .batching (batch packet next) }
      else send stream sends (.packet (.multiController packet)) .waiting
    | _ => send stream sends (.packet (.multiController packet)) .waiting
  | .moving =>
    if stream.deltaX = 0 ∧ stream.deltaY = 0 then
      { stream with relativeDirty := false, thread := .waiting }
    else send { stream with deltaX := (chunk stream.deltaX).2, deltaY := (chunk stream.deltaY).2 }
      sends (.moved (chunk stream.deltaX).1 (chunk stream.deltaY).1) .moving
  | .splitting text =>
    match text.head?.bind codePointLength with
    | none => { stream with thread := .waiting }
    | some length => send stream sends (.codePoint (text.take length))
        (.splitting (text.drop length))
  | .stopped => stream

end Sending

end MoonlightWii.Limelight.InputStream
