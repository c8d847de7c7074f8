import MoonlightWii.Limelight.VideoQueue

/-!
# The video depacketizer

`VideoDepacketizer.c` of the streaming library.  The packets of a frame are gathered into a chain
of buffers, and a finished frame waits in a queue for the decoder.  After a loss, frames are
dropped until one comes that can be decoded without those before it.  Allocations are taken to
succeed, and assertions have no effect, as in the build for the console.
-/

set_option autoImplicit false

namespace MoonlightWii.Limelight.VideoDepacketizer

open RtpNumbers VideoPacket
open VideoQueue (Entry Output)

def CONSECUTIVE_DROP_LIMIT : ℕ := 120

inductive VideoFormat
  | h264
  | h265
  | av1
  deriving DecidableEq

/-- The negotiated format, and `AppVersionQuad` of the server. -/
structure Settings where
  videoFormat : VideoFormat
  appVersion : ℤ × ℤ × ℤ × ℤ

/-- `APP_VERSION_AT_LEAST`. -/
def Settings.atLeast (settings : Settings) (a b c : ℤ) : Bool :=
  let version := settings.appVersion
  version.1 > a ∨ (version.1 = a ∧ version.2.1 > b) ∨
    (version.1 = a ∧ version.2.1 = b ∧ version.2.2.1 ≥ c)

/-- `IS_SUNSHINE`. -/
def Settings.isSunshine (settings : Settings) : Bool := settings.appVersion.2.2.2 < 0

section Nals

inductive BufferType
  | picdata
  | sps
  | pps
  | vps
  deriving DecidableEq

def H264_NAL_TYPE (x : UInt8) : UInt8 := x &&& 0x1F
def HEVC_NAL_TYPE (x : UInt8) : UInt8 := (x &&& 0x7E) >>> 1

/-- The length of the start sequence at the beginning of the data, when a byte follows it. -/
def getAnnexBStartSequence : List UInt8 → Option ℕ
  | a :: b :: c :: d :: rest =>
    if a = 0 ∧ b = 0 then
      if c = 0 then if rest ≠ [] ∧ d = 1 then some 4 else none
      else if c = 1 then some 3
      else none
    else none
  | _ => none

variable (format : VideoFormat)

/-- Whether the data begins with a unit whose type is among the wanted ones. -/
def startsNal (h264 h265 : UInt8 → Bool) (data : List UInt8) : Bool :=
  match getAnnexBStartSequence data with
  | none => false
  | some length =>
    match format with
    | .h264 => h264 (H264_NAL_TYPE (data.getD length 0))
    | .h265 => h265 (HEVC_NAL_TYPE (data.getD length 0))
    | .av1 => false

def isSeqReferenceFrameStart : List UInt8 → Bool :=
  startsNal format (· = 5) fun type => 16 ≤ type ∧ type ≤ 21

def isAccessUnitDelimiter : List UInt8 → Bool := startsNal format (· = 9) (· = 35)
def isSeiNal : List UInt8 → Bool := startsNal format (· = 6) (· = 39)
def isPictureParameterSetNal : List UInt8 → Bool := startsNal format (· = 8) (· = 34)
def isIdrFrameStart : List UInt8 → Bool := startsNal format (· = 7) (· = 32)

/-- `getBufferFlags`. -/
def getBufferFlags (data : List UInt8) : BufferType :=
  if startsNal format (· = 7) (· = 33) data then .sps
  else if startsNal format (· = 8) (· = 34) data then .pps
  else if startsNal format (fun _ => false) (· = 32) data then .vps
  else .picdata

/-- The data up to the next start sequence, and from there on. -/
def seekNal : List UInt8 → List UInt8 × List UInt8
  | [] => ([], [])
  | byte :: rest =>
    if (getAnnexBStartSequence (byte :: rest)).isSome then ([], byte :: rest)
    else
      let found := seekNal rest
      (byte :: found.1, found.2)

/-- `skipToNextNalOrEnd`, and what was skipped. -/
def skipToNextNalOrEnd (data : List UInt8) : List UInt8 × List UInt8 :=
  let length := (getAnnexBStartSequence data).getD 0
  let found := seekNal (data.drop length)
  (data.take length ++ found.1, found.2)

/-- `skipToNextNal`. -/
def skipToNextNal (data : List UInt8) : List UInt8 := (skipToNextNalOrEnd data).2

/-- The loops that skip units of some types, with a bound on their passes. -/
def skipNals (unwanted : List UInt8 → Bool) : ℕ → List UInt8 → List UInt8
  | 0, data => data
  | passes + 1, data => if unwanted data then skipNals unwanted passes (skipToNextNal data) else data

/-- The fragments that `processAvcHevcRtpPayloadSlow` makes of the first packet of a key frame,
and which of them hold a picture. -/
def splitNals : ℕ → List UInt8 → List (Bool × List UInt8)
  | 0, _ => []
  | passes + 1, data =>
    if data = [] then []
    else
      let data := if (getAnnexBStartSequence data).isSome then data else skipToNextNal data
      let data := skipNals (fun data => isAccessUnitDelimiter format data || isSeiNal format data)
        data.length data
      if isSeqReferenceFrameStart format data then [(true, data)]
      else
        let nal := skipToNextNalOrEnd data
        (false, nal.1) :: splitNals passes nal.2

end Nals

inductive FrameType
  | pframe
  | idr
  deriving DecidableEq

structure Fragment where
  bufferType : BufferType
  data : List UInt8

/-- `DECODE_UNIT`. -/
structure DecodeUnit where
  frameNumber : UInt32
  frameType : FrameType
  frameHostProcessingLatency : UInt16
  receiveTimeMs : UInt64
  presentationTimeMs : UInt32
  fullLength : ℕ
  bufferList : List Fragment

/-- What the depacketizer tells the control stream. -/
inductive Message
  | requestIdrFrame
  | detectedFrameLoss (startFrame endFrame : UInt32)
  | receivedCompleteFrame (frameNumber : UInt32)
  | keyFrameReceived

/-- The static variables of the module. -/
structure Depacketizer where
  nalChain : List Fragment
  nalChainDataLength : ℕ
  nextFrameNumber : UInt32
  startFrameNumber : UInt32
  waitingForNextSuccessfulFrame : Bool
  waitingForIdrFrame : Bool
  waitingForRefInvalFrame : Bool
  lastPacketInStream : UInt32
  decodingFrame : Bool
  frameType : FrameType
  lastPacketPayloadLength : UInt16
  strictIdrFrameWait : Bool
  syntheticPtsBase : UInt64
  frameHostProcessingLatency : UInt16
  firstPacketReceiveTime : UInt64
  firstPacketPresentationTime : UInt32
  dropStatePending : Bool
  idrFrameProcessed : Bool
  consecutiveFrameDrops : ℕ
  decodeUnitQueue : List DecodeUnit
  messages : List Message

/-- `initializeVideoDepacketizer`, which leaves some of the variables as an earlier stream had
them. -/
def initializeVideoDepacketizer (earlier : Depacketizer)
    (isReferenceFrameInvalidationEnabled : Bool) : Depacketizer :=
  { earlier with
    nextFrameNumber := 1
    startFrameNumber := 0
    waitingForNextSuccessfulFrame := false
    waitingForIdrFrame := true
    waitingForRefInvalFrame := false
    lastPacketInStream := 0xFFFFFFFF
    decodingFrame := false
    lastPacketPayloadLength := 0
    strictIdrFrameWait := !isReferenceFrameInvalidationEnabled
    syntheticPtsBase := 0
    frameHostProcessingLatency := 0
    firstPacketReceiveTime := 0
    firstPacketPresentationTime := 0
    dropStatePending := false
    idrFrameProcessed := false
    decodeUnitQueue := []
    messages := [] }

def Depacketizer.tell (state : Depacketizer) (message : Message) : Depacketizer :=
  { state with messages := state.messages ++ [message] }

/-- `dropFrameState`. -/
def dropFrameState (state : Depacketizer) : Depacketizer :=
  let state := { state with dropStatePending := false }
  let state :=
    if state.strictIdrFrameWait ∨ state.idrFrameProcessed = false ∨ state.waitingForIdrFrame then
      { state with waitingForIdrFrame := true }
    else { state with waitingForRefInvalFrame := true }
  let state := { state with consecutiveFrameDrops := state.consecutiveFrameDrops + 1 }
  let state :=
    if state.consecutiveFrameDrops = CONSECUTIVE_DROP_LIMIT then
      { state with consecutiveFrameDrops := 0, waitingForIdrFrame := true }.tell .requestIdrFrame
    else state
  { state with nalChain := [], nalChainDataLength := 0 }

/-- `requestDecoderRefresh`. -/
def requestDecoderRefresh (state : Depacketizer) : Depacketizer :=
  { state with
    waitingForIdrFrame := true
    decodeUnitQueue := []
    dropStatePending := true }.tell .requestIdrFrame

/-- `LbqOfferQueueItem` finds the queue of decode units at its bound. -/
def boundExceeded (state : Depacketizer) : Bool := state.decodeUnitQueue.length = 15

/-- The decode unit that `reassembleFrame` makes of the chain. -/
def decodeUnit (state : Depacketizer) (frameNumber : UInt32) : DecodeUnit where
  frameNumber := frameNumber
  frameType := state.frameType
  frameHostProcessingLatency := state.frameHostProcessingLatency
  receiveTimeMs := state.firstPacketReceiveTime
  presentationTimeMs := state.firstPacketPresentationTime
  fullLength := state.nalChainDataLength
  bufferList := state.nalChain

/-- `reassembleFrame`. -/
def reassembleFrame (state : Depacketizer) (frameNumber : UInt32) : Depacketizer :=
  if state.nalChain = [] then state
  else
    let unit := decodeUnit state frameNumber
    let state := if unit.frameType = .idr then state.tell .keyFrameReceived else state
    if boundExceeded state then
      let state := dropFrameState { state with waitingForIdrFrame := true }
      { state with decodeUnitQueue := [] }.tell .requestIdrFrame
    else
      let state := { state with
        nalChain := []
        nalChainDataLength := 0
        decodeUnitQueue := state.decodeUnitQueue ++ [unit] }
      let state := state.tell (.receivedCompleteFrame frameNumber)
      { state with
        consecutiveFrameDrops := 0
        startFrameNumber := state.nextFrameNumber }

/-- `queueFragment`. -/
def queueFragment (settings : Settings) (state : Depacketizer) (data : List UInt8) : Depacketizer :=
  { state with
    nalChain := state.nalChain ++ [⟨getBufferFlags settings.videoFormat data, data⟩]
    nalChainDataLength := state.nalChainDataLength + data.length }

/-- What `processAvcHevcRtpPayloadSlow` does with a fragment. -/
def queueNal (settings : Settings) (state : Depacketizer) (nal : Bool × List UInt8) :
    Depacketizer :=
  let state := if nal.1 then
      { state with
        waitingForIdrFrame := false
        waitingForRefInvalFrame := false
        waitingForNextSuccessfulFrame := false
        frameType := .idr }
    else state
  queueFragment settings state nal.2

/-- `processAvcHevcRtpPayloadSlow`. -/
def processAvcHevcRtpPayloadSlow (settings : Settings) (state : Depacketizer)
    (payload : List UInt8) : Depacketizer :=
  (splitNals settings.videoFormat payload.length payload).foldl (queueNal settings) state

/-- `isFirstPacket`. -/
def isFirstPacket (flags fecBlockNumber : UInt8) : Bool :=
  let flags := flags &&& ~~~FLAG_CONTAINS_PIC_DATA
  (flags = FLAG_SOF ||| FLAG_EOF ∨ flags = FLAG_SOF) ∧ fecBlockNumber = 0

def firstPacket (entry : Entry) : Bool :=
  isFirstPacket (flags entry.packet) (fecCurrentBlockNumber entry.packet)

def lastPacket (entry : Entry) : Bool :=
  flags entry.packet &&& FLAG_EOF ≠ 0 ∧
    fecCurrentBlockNumber entry.packet = fecLastBlockNumber entry.packet

/-- The index of a packet in the stream, in 24 bits. -/
def streamIndex (entry : Entry) : UInt32 := (streamPacketIndex entry.packet >>> 8) &&& 0xFFFFFF

/-- The bytes after the `NV_VIDEO_PACKET`. -/
def payload (entry : Entry) : List UInt8 :=
  (List.range (entry.length - (dataOffset entry.packet + 16))).map fun i =>
    entry.packet (dataOffset entry.packet + 16 + i)

/-- The frame was found to be corrupt. -/
def abandonFrame (state : Depacketizer) (frameIndex : UInt32) : Depacketizer :=
  let state := dropFrameState { state with
    decodingFrame := false
    nextFrameNumber := frameIndex + 1 }
  if state.waitingForIdrFrame then state.tell .requestIdrFrame
  else state.tell (.detectedFrameLoss state.startFrameNumber frameIndex)

/-- The first packet of a frame. -/
def beginFrame (state : Depacketizer) (frameIndex : UInt32) (receiveTimeMs : UInt64)
    (presentationTimeMs : UInt32) : Depacketizer :=
  let state :=
    if isBefore32 state.nextFrameNumber frameIndex then
      dropFrameState { state with
        nextFrameNumber := frameIndex
        waitingForNextSuccessfulFrame := true }
    else state
  let syntheticPtsBase := if state.syntheticPtsBase = 0 then receiveTimeMs else state.syntheticPtsBase
  { state with
    decodingFrame := true
    frameType := .pframe
    firstPacketReceiveTime := receiveTimeMs
    syntheticPtsBase := syntheticPtsBase
    firstPacketPresentationTime :=
      if presentationTimeMs = 0 ∧ 0 < frameIndex then (receiveTimeMs - syntheticPtsBase).toUInt32
      else presentationTimeMs }

/-- What the frame type in the header of a frame says about a wait. -/
def readFrameType (settings : Settings) (state : Depacketizer) (frameIndex : UInt32)
    (payload : List UInt8) : Depacketizer :=
  let received (state : Depacketizer) := { state with
    waitingForRefInvalFrame := false
    waitingForNextSuccessfulFrame := false }
  if settings.atLeast 7 1 350 ∧ 4 ≤ payload.length then
    let type := payload.getD 3 0
    let state :=
      if type = 2 ∧ settings.videoFormat = .av1 then
        { state with
          waitingForIdrFrame := false
          waitingForNextSuccessfulFrame := false
          frameType := .idr }
      else state
    if (type = 2 ∨ type = 4 ∨ type = 5) ∧ state.waitingForRefInvalFrame then received state
    else state
  else if state.waitingForRefInvalFrame then
    received (state.tell (.detectedFrameLoss state.startFrameNumber (frameIndex - 1)))
  else state

/-- `BbGet16` of a little-endian buffer. -/
def le16 (data : List UInt8) (offset : ℕ) : UInt16 :=
  be16 (data.getD (offset + 1) 0) (data.getD offset 0)

def readHostLatency (settings : Settings) (state : Depacketizer) (payload : List UInt8) :
    Depacketizer :=
  if settings.isSunshine ∧ 3 ≤ payload.length then
    { state with frameHostProcessingLatency := le16 payload 1 }
  else state

def readLastLength (settings : Settings) (state : Depacketizer) (payload : List UInt8) :
    Depacketizer :=
  if settings.videoFormat = .av1 ∧ 6 ≤ payload.length then
    { state with lastPacketPayloadLength := le16 payload 4 }
  else state

/-- The length of the header of a frame, in the versions of the server. -/
def frameHeaderSize (settings : Settings) (payload : List UInt8) : ℕ :=
  let either (long : ℕ) := if payload.getD 0 0 = 1 then 8 else long
  if settings.atLeast 7 1 450 then either 44
  else if settings.atLeast 7 1 446 then either 41
  else if settings.atLeast 7 1 415 then either 24
  else if settings.atLeast 7 1 350 then 8
  else if settings.atLeast 7 1 320 then 12
  else if settings.atLeast 5 0 0 then 8
  else 0

/-- The payload of the first packet of a frame, without the header and the units that decoders
need not see. -/
def frameData (settings : Settings) (payload : List UInt8) : List UInt8 :=
  let data := if frameHeaderSize settings payload ≤ payload.length then
      payload.drop (frameHeaderSize settings payload)
    else payload
  if settings.videoFormat = .av1 then data
  else
    let data := if (getAnnexBStartSequence data).isSome then data else skipToNextNal data
    let data := if isAccessUnitDelimiter settings.videoFormat data then skipToNextNal data else data
    skipNals (isSeiNal settings.videoFormat) data.length data

/-- The header of a frame, which its first packet begins with. -/
def readFrameHeader (settings : Settings) (state : Depacketizer) (frameIndex : UInt32)
    (payload : List UInt8) : Depacketizer :=
  readLastLength settings (readHostLatency settings
    (readFrameType settings state frameIndex payload) payload) payload

/-- The payload of the last packet of a frame, without the padding; nothing for a wrong length. -/
def truncatedData (state : Depacketizer) (headerSize : ℕ) (data : List UInt8) :
    Option (List UInt8) :=
  let length := state.lastPacketPayloadLength.toNat
  if headerSize < length ∧ length - headerSize ≤ data.length then
    some (data.take (length - headerSize))
  else none

/-- The last packet of a frame. -/
def endFrame (state : Depacketizer) (frameIndex : UInt32) : Depacketizer :=
  let state := { state with
    decodingFrame := false
    nextFrameNumber := frameIndex + 1 }
  if state.waitingForIdrFrame ∨ state.waitingForRefInvalFrame then
    let state :=
      if state.waitingForIdrFrame then
        if state.waitingForNextSuccessfulFrame then state.tell .requestIdrFrame else state
      else state.tell (.detectedFrameLoss state.startFrameNumber frameIndex)
    dropFrameState { state with waitingForNextSuccessfulFrame := false }
  else if state.dropStatePending then
    if state.nalChain ≠ [] ∧ state.frameType = .idr then
      reassembleFrame { state with dropStatePending := false } frameIndex
    else dropFrameState state
  else reassembleFrame state frameIndex

/-- Queues the payload of a packet; nothing when the frame has to be abandoned. -/
def queuePayload (settings : Settings) (state : Depacketizer) (entry : Entry) :
    Option Depacketizer :=
  let headed := firstPacket entry ∧ payload entry ≠ []
  let headerSize := if headed then frameHeaderSize settings (payload entry) else 0
  let data := if headed then frameData settings (payload entry) else payload entry
  if settings.videoFormat = .av1 then
    if lastPacket entry then
      (truncatedData state headerSize data).map (queueFragment settings state)
    else some (queueFragment settings state data)
  else if firstPacket entry ∧ isIdrFrameStart settings.videoFormat data then
    some (processAvcHevcRtpPayloadSlow settings state data)
  else
    some (queueFragment settings state
      (if firstPacket entry ∧ isPictureParameterSetNal settings.videoFormat data then
        skipToNextNal data
      else data))

/-- A packet that is in sequence. -/
def acceptPayload (settings : Settings) (state : Depacketizer) (entry : Entry) : Depacketizer :=
  let frameIndex := frameIndex entry.packet
  let state := if firstPacket entry then
      beginFrame state frameIndex entry.receiveTimeMs entry.presentationTimeMs
    else state
  let state := { state with lastPacketInStream := streamIndex entry }
  let state := if firstPacket entry ∧ payload entry ≠ [] then
      readFrameHeader settings state frameIndex (payload entry)
    else state
  match queuePayload settings state entry with
  | none => abandonFrame state frameIndex
  | some state => if lastPacket entry then endFrame state frameIndex else state

/-- `processRtpPayload`. -/
def processRtpPayload (settings : Settings) (state : Depacketizer) (entry : Entry) :
    Depacketizer :=
  let frameIndex := frameIndex entry.packet
  let expected := (state.lastPacketInStream + 1) &&& 0xFFFFFF
  if isBefore32 frameIndex state.nextFrameNumber then state
  else if isBefore24 (streamIndex entry) expected ∨
      (flags entry.packet &&& FLAG_SOF = 0 ∧ streamIndex entry ≠ expected) then
    abandonFrame state frameIndex
  else acceptPayload settings state entry

/-- `notifyFrameLost`. -/
def notifyFrameLost (state : Depacketizer) (frameNumber : UInt32) : Depacketizer :=
  let state := dropFrameState state
  if state.waitingForIdrFrame then state
  else { state with nextFrameNumber := frameNumber + 1 }.tell
    (.detectedFrameLoss state.startFrameNumber frameNumber)

/-- What the queue of packets calls. -/
def receive (settings : Settings) (state : Depacketizer) : Output → Depacketizer
  | .queueRtpPacket entry => processRtpPayload settings state entry
  | .notifyFrameLost frameNumber _ => notifyFrameLost state frameNumber
  | .connectionSawFrame _ => state

/-- The result of a decoder. -/
inductive DrStatus
  | ok
  | needIdr
  deriving DecidableEq

/-- `LiCompleteVideoFrame`. -/
def LiCompleteVideoFrame (state : Depacketizer) (unit : DecodeUnit) : DrStatus → Depacketizer
  | .needIdr => requestDecoderRefresh state
  | .ok => if unit.frameType = .idr then { state with idrFrameProcessed := true } else state

end MoonlightWii.Limelight.VideoDepacketizer
