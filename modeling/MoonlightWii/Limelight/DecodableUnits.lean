import MoonlightWii.Limelight.VideoDepacketizer
import MoonlightWii.Limelight.VideoFrames

/-!
# What the decoder is given

The thread that receives packets and the one that decodes take turns in any order.  Whatever is
lost on the network, the decoder gets a key frame or the frame after the one it decoded last, and
each frame is made of the packets of one frame of the video queue.
-/

set_option autoImplicit false

namespace MoonlightWii.Limelight.DecodableUnits

open RtpNumbers VideoPacket VideoDepacketizer
open VideoQueue (Entry Output Arrival RtpVideoQueue)
open VideoFrames (submitted)

section Decoder

inductive Decoding
  | submitted (unit : DecodeUnit)
  | completed (unit : DecodeUnit) (status : DrStatus)

/-- The frame that a decoder can decode next, besides a key frame. -/
def advance (reference : Option UInt32) : Decoding → Option UInt32
  | .submitted unit => some (unit.frameNumber + 1)
  | .completed _ .ok => reference
  | .completed _ .needIdr => none

def reference (history : List Decoding) : Option UInt32 := history.foldl advance none

def Decodable (reference : Option UInt32) (unit : DecodeUnit) : Prop :=
  unit.frameType = .idr ∨ reference = some unit.frameNumber

/-- Units that are decodable one after the other. -/
def AllDecodable : Option UInt32 → List DecodeUnit → Prop
  | _, [] => True
  | reference, unit :: rest =>
    Decodable reference unit ∧ AllDecodable (some (unit.frameNumber + 1)) rest

/-- The reference after all of them. -/
def afterAll : Option UInt32 → List DecodeUnit → Option UInt32
  | reference, [] => reference
  | _, unit :: rest => afterAll (some (unit.frameNumber + 1)) rest

theorem AllDecodable.append {last : DecodeUnit} {units : List DecodeUnit}
    {reference : Option UInt32} (all : AllDecodable reference units)
    (decodable : Decodable (afterAll reference units) last) :
    AllDecodable reference (units ++ [last]) := by
  induction units generalizing reference with
  | nil => exact ⟨decodable, trivial⟩
  | cons unit units ih => exact ⟨all.1, ih all.2 decodable⟩

theorem afterAll_append (reference : Option UInt32) (units : List DecodeUnit) (last : DecodeUnit) :
    afterAll reference (units ++ [last]) = some (last.frameNumber + 1) := by
  induction units generalizing reference with
  | nil => rfl
  | cons unit units ih => exact ih _

end Decoder

section Threads

structure Playback where
  depacketizer : Depacketizer
  current : Option DecodeUnit
  history : List Decoding

/-- A step of the thread that receives, or of `VideoDecoderThreadProc`. -/
inductive Event
  | receive (output : Output)
  | waitForNextVideoFrame
  | completeVideoFrame (status : DrStatus)

def Event.received : Event → Option Output
  | .receive output => some output
  | _ => none

/-- The decoder's thread waits while there is no unit for it. -/
def step (settings : Settings) (playback : Playback) : Event → Playback
  | .receive output =>
    { playback with depacketizer := receive settings playback.depacketizer output }
  | .waitForNextVideoFrame =>
    match playback.current, playback.depacketizer.decodeUnitQueue with
    | none, unit :: rest =>
      { depacketizer := { playback.depacketizer with decodeUnitQueue := rest }
        current := some unit
        history := playback.history ++ [.submitted unit] }
    | _, _ => playback
  | .completeVideoFrame status =>
    match playback.current with
    | none => playback
    | some unit =>
      { depacketizer := LiCompleteVideoFrame playback.depacketizer unit status
        current := none
        history := playback.history ++ [.completed unit status] }

/-- A stream on a console, whose decoder has no use for invalidated reference frames. -/
def start (earlier : Depacketizer) : Playback where
  depacketizer := initializeVideoDepacketizer earlier false
  current := none
  history := []

def run (settings : Settings) (earlier : Depacketizer) (events : List Event) : Playback :=
  events.foldl (step settings) (start earlier)

end Threads

section Packets

/-- The buffers for the first packet of a frame. -/
def firstFragments (settings : Settings) (payload : List UInt8) : List (List UInt8) :=
  let data := if payload = [] then [] else frameData settings payload
  if isIdrFrameStart settings.videoFormat data then
    (splitNals settings.videoFormat data.length data).map Prod.snd
  else if isPictureParameterSetNal settings.videoFormat data then [skipToNextNal data]
  else [data]

/-- The buffers for the packets of a frame. -/
def fragments (settings : Settings) : List Entry → List (List UInt8)
  | [] => []
  | first :: rest => firstFragments settings (payload first) ++ rest.map payload

theorem fragments_append {settings : Settings} {seen : List Entry} (some_seen : seen ≠ [])
    (entry : Entry) : fragments settings (seen ++ [entry]) =
      fragments settings seen ++ [payload entry] := by
  obtain ⟨first, rest, rfl⟩ := List.exists_cons_of_ne_nil some_seen
  rw [List.cons_append, fragments, fragments, List.map_append, ← List.append_assoc]
  rfl

variable {settings : Settings} {state : Depacketizer}

theorem dropFrameState_strict (strict : state.strictIdrFrameWait = true) :
    ∃ drops messages, dropFrameState state = { state with
      dropStatePending := false
      waitingForIdrFrame := true
      consecutiveFrameDrops := drops
      nalChain := []
      nalChainDataLength := 0
      messages := messages } := by
  unfold dropFrameState
  dsimp only
  rw [if_pos (Or.inl strict)]
  split_ifs
  · exact ⟨_, _, rfl⟩
  · exact ⟨_, _, rfl⟩

theorem abandonFrame_strict (strict : state.strictIdrFrameWait = true) (frameIndex : UInt32) :
    ∃ drops messages, abandonFrame state frameIndex = { state with
      decodingFrame := false
      nextFrameNumber := frameIndex + 1
      dropStatePending := false
      waitingForIdrFrame := true
      consecutiveFrameDrops := drops
      nalChain := []
      nalChainDataLength := 0
      messages := messages } := by
  obtain ⟨drops, messages, dropped⟩ := @dropFrameState_strict
    { state with decodingFrame := false, nextFrameNumber := frameIndex + 1 } strict
  unfold abandonFrame
  dsimp only
  rw [dropped]
  exact ⟨drops, _, rfl⟩

theorem isBefore32_cases {x y : UInt32} (not_before : isBefore32 x y = false)
    (not_after : isBefore32 y x = false) : x = y := by
  unfold isBefore32 at not_before not_after
  rw [decide_eq_false_iff_not, UInt32.not_lt, UInt32.le_iff_toNat_le, UInt32.toNat_sub]
    at not_before not_after
  have hx := x.toNat_lt
  have hy := y.toNat_lt
  change _ ≤ 2147483647 at not_before not_after
  apply UInt32.toNat_inj.mp
  omega

theorem isBefore32_succ (x : UInt32) : isBefore32 x (x + 1) = true := by
  have hx := x.toNat_lt
  unfold isBefore32
  rw [decide_eq_true_eq, UInt32.lt_iff_toNat_lt, UInt32.toNat_sub, UInt32.toNat_add]
  change 2147483647 < (4294967296 - (x.toNat + 1) % 4294967296 + x.toNat) % 4294967296
  omega

end Packets

section Frames

variable (settings : Settings) (frames : List Entry → Prop)

/-- A unit is made of all the packets of one frame. -/
def Made (unit : DecodeUnit) : Prop :=
  unit.fullLength = (unit.bufferList.map fun fragment => fragment.data.length).sum ∧
    ∃ entries, frames entries ∧ (∀ entry ∈ entries, frameIndex entry.packet = unit.frameNumber) ∧
      (settings.videoFormat ≠ .av1 →
        unit.bufferList.map Fragment.data = fragments settings entries)

/-- How far the decoder is, and whether it has decoded a key frame. -/
structure Progress where
  reference : Option UInt32
  processed : Bool

/-- The units that wait for the decoder are as they should be. -/
structure Sound (decoder : Progress) (state : Depacketizer) : Prop where
  strict : state.strictIdrFrameWait = true
  no_invalidation : state.waitingForRefInvalFrame = false
  decodable : AllDecodable decoder.reference state.decodeUnitQueue
  made : ∀ unit ∈ state.decodeUnitQueue, Made settings frames unit
  processed : state.idrFrameProcessed = decoder.processed

/-- Between frames, or while packets of a frame come that was abandoned. -/
structure Outside (decoder : Progress) (seen : List Entry) (state : Depacketizer) :
    Prop where
  sound : Sound settings frames decoder state
  decoding : state.decodingFrame = false
  empty : state.nalChain = []
  no_length : state.nalChainDataLength = 0
  next : state.waitingForIdrFrame = true ∨
    afterAll decoder.reference state.decodeUnitQueue = some state.nextFrameNumber
  stale : ∀ entry ∈ seen, isBefore32 (frameIndex entry.packet) state.nextFrameNumber = true

/-- While packets of a frame are gathered. -/
structure Within (decoder : Progress) (seen : List Entry) (frame : UInt32)
    (state : Depacketizer) : Prop where
  sound : Sound settings frames decoder state
  decoding : state.decodingFrame = true
  number : state.nextFrameNumber = frame
  same : ∀ entry ∈ seen, frameIndex entry.packet = frame
  next : state.waitingForIdrFrame = true ∨ state.frameType = .idr ∨
    afterAll decoder.reference state.decodeUnitQueue = some frame
  gathered : seen ≠ [] → state.nalChain ≠ []
  chain : settings.videoFormat ≠ .av1 →
    state.nalChain.map Fragment.data = fragments settings seen
  length : state.nalChainDataLength =
    (state.nalChain.map fun fragment => fragment.data.length).sum

variable {settings frames} {decoder : Progress} {seen : List Entry} {state : Depacketizer}

theorem Sound.abandon (sound : Sound settings frames decoder state) (frameIndex : UInt32)
    (stale : ∀ entry ∈ seen, VideoPacket.frameIndex entry.packet = frameIndex) :
    Outside settings frames decoder seen (abandonFrame state frameIndex) := by
  obtain ⟨drops, messages, abandoned⟩ := abandonFrame_strict sound.strict frameIndex
  rw [abandoned]
  refine ⟨⟨sound.strict, sound.no_invalidation, sound.decodable, sound.made, sound.processed⟩,
    rfl, rfl, rfl, Or.inl rfl, fun entry member => ?_⟩
  rw [stale entry member]
  exact isBefore32_succ frameIndex

theorem Outside.notifyFrameLost (outside : Outside settings frames decoder [] state)
    (frameNumber : UInt32) :
    Outside settings frames decoder [] (notifyFrameLost state frameNumber) := by
  obtain ⟨drops, messages, dropped⟩ := dropFrameState_strict outside.sound.strict
  unfold VideoDepacketizer.notifyFrameLost
  rw [dropped]
  exact ⟨⟨outside.sound.strict, outside.sound.no_invalidation, outside.sound.decodable,
    outside.sound.made, outside.sound.processed⟩, outside.decoding, rfl, rfl, Or.inl rfl,
    fun entry none => absurd none List.not_mem_nil⟩

theorem Outside.beginFrame (outside : Outside settings frames decoder [] state)
    {frameIndex : UInt32} (receiveTimeMs : UInt64) (presentationTimeMs : UInt32)
    (not_stale : isBefore32 frameIndex state.nextFrameNumber = false) :
    Within settings frames decoder [] frameIndex
      (beginFrame state frameIndex receiveTimeMs presentationTimeMs) := by
  have sound := outside.sound
  unfold VideoDepacketizer.beginFrame
  dsimp only
  by_cases ahead : isBefore32 state.nextFrameNumber frameIndex = true
  · obtain ⟨drops, messages, dropped⟩ := @dropFrameState_strict
      { state with nextFrameNumber := frameIndex, waitingForNextSuccessfulFrame := true }
      sound.strict
    rw [if_pos ahead, dropped]
    exact ⟨⟨sound.strict, sound.no_invalidation, sound.decodable, sound.made, sound.processed⟩,
      rfl, rfl, fun entry none => absurd none List.not_mem_nil, Or.inl rfl,
      fun some_seen => absurd rfl some_seen, fun _ => rfl, rfl⟩
  · have number := isBefore32_cases not_stale (Bool.eq_false_iff.mpr ahead)
    rw [if_neg ahead]
    refine ⟨⟨sound.strict, sound.no_invalidation, sound.decodable, sound.made, sound.processed⟩,
      rfl, number.symm, fun entry none => absurd none List.not_mem_nil, ?_,
      fun some_seen => absurd rfl some_seen, fun _ => ?_, ?_⟩
    · rw [number]
      exact outside.next.imp_right Or.inr
    · exact congrArg (List.map Fragment.data) outside.empty
    · change state.nalChainDataLength = (state.nalChain.map _).sum
      rw [outside.empty, outside.no_length]
      rfl

variable {frame : UInt32}

/-- What `readFrameHeader` may change. -/
theorem readFrameHeader_strict (no_invalidation : state.waitingForRefInvalFrame = false)
    (frameIndex : UInt32) (data : List UInt8) :
    ∃ waitingForIdrFrame waitingForNextSuccessfulFrame frameType latency length,
      readFrameHeader settings state frameIndex data = { state with
        waitingForIdrFrame := waitingForIdrFrame
        waitingForNextSuccessfulFrame := waitingForNextSuccessfulFrame
        frameType := frameType
        frameHostProcessingLatency := latency
        lastPacketPayloadLength := length } ∧
      (frameType = .idr ∨
        (waitingForIdrFrame = state.waitingForIdrFrame ∧ frameType = state.frameType)) := by
  have type_read : ∃ waitingForIdrFrame waitingForNextSuccessfulFrame frameType,
      readFrameType settings state frameIndex data = { state with
        waitingForIdrFrame := waitingForIdrFrame
        waitingForNextSuccessfulFrame := waitingForNextSuccessfulFrame
        frameType := frameType } ∧
      (frameType = .idr ∨
        (waitingForIdrFrame = state.waitingForIdrFrame ∧ frameType = state.frameType)) := by
    unfold readFrameType
    dsimp only
    by_cases recent : settings.atLeast 7 1 350 = true ∧ 4 ≤ data.length
    · rw [if_pos recent]
      by_cases key : data.getD 3 0 = 2 ∧ settings.videoFormat = .av1
      · rw [if_pos key, if_neg fun wait => absurd wait.2 (by simp [no_invalidation])]
        exact ⟨_, _, _, rfl, Or.inl rfl⟩
      · rw [if_neg key, if_neg fun wait => absurd wait.2 (by simp [no_invalidation])]
        exact ⟨_, _, _, rfl, Or.inr ⟨rfl, rfl⟩⟩
    · rw [if_neg recent, if_neg (by simp [no_invalidation])]
      exact ⟨_, _, _, rfl, Or.inr ⟨rfl, rfl⟩⟩
  obtain ⟨waiting, recovering, type, read, key_only⟩ := type_read
  unfold readFrameHeader readLastLength readHostLatency
  rw [read]
  split_ifs
  all_goals exact ⟨_, _, _, _, _, rfl, key_only⟩

theorem Within.header (within : Within settings frames decoder seen frame state)
    (data : List UInt8) :
    Within settings frames decoder seen frame (readFrameHeader settings state frame data) := by
  obtain ⟨waiting, recovering, type, latency, length, read, key_only⟩ :=
    @readFrameHeader_strict settings state within.sound.no_invalidation frame data
  rw [read]
  refine ⟨⟨within.sound.strict, within.sound.no_invalidation, within.sound.decodable,
    within.sound.made, within.sound.processed⟩, within.decoding, within.number, within.same, ?_,
    within.gathered, within.chain, within.length⟩
  rcases key_only with key | ⟨rfl, rfl⟩
  · exact Or.inr (Or.inl key)
  · exact within.next

def fragment (settings : Settings) (data : List UInt8) : Fragment :=
  ⟨getBufferFlags settings.videoFormat data, data⟩

/-- What queueing some fragments changes. -/
def Queued (settings : Settings) (pieces : List (List UInt8)) (before after : Depacketizer) :
    Prop :=
  ∃ waitingForIdrFrame waitingForNextSuccessfulFrame frameType length,
    after = { before with
      waitingForIdrFrame := waitingForIdrFrame
      waitingForNextSuccessfulFrame := waitingForNextSuccessfulFrame
      waitingForRefInvalFrame := false
      frameType := frameType
      nalChain := before.nalChain ++ pieces.map (fragment settings)
      nalChainDataLength := length } ∧
    (frameType = .idr ∨
      (waitingForIdrFrame = before.waitingForIdrFrame ∧ frameType = before.frameType)) ∧
    length = before.nalChainDataLength + (pieces.map List.length).sum

theorem queueFragment_queued (no_invalidation : state.waitingForRefInvalFrame = false)
    (data : List UInt8) : Queued settings [data] state (queueFragment settings state data) := by
  refine ⟨state.waitingForIdrFrame, state.waitingForNextSuccessfulFrame, state.frameType, _, ?_,
    Or.inr ⟨rfl, rfl⟩, rfl⟩
  rw [← no_invalidation]
  rfl

theorem queueNals_queued (no_invalidation : state.waitingForRefInvalFrame = false)
    (nals : List (Bool × List UInt8)) :
    Queued settings (nals.map Prod.snd) state (nals.foldl (queueNal settings) state) := by
  induction nals generalizing state with
  | nil =>
      refine ⟨state.waitingForIdrFrame, state.waitingForNextSuccessfulFrame, state.frameType, _, ?_,
        Or.inr ⟨rfl, rfl⟩, rfl⟩
      rw [List.map_nil, List.map_nil, List.append_nil, ← no_invalidation]
      rfl
  | cons nal nals ih =>
      obtain ⟨picture, data⟩ := nal
      have one : ∃ waitingForIdrFrame waitingForNextSuccessfulFrame frameType,
          queueNal settings state (picture, data) = { state with
            waitingForIdrFrame := waitingForIdrFrame
            waitingForNextSuccessfulFrame := waitingForNextSuccessfulFrame
            waitingForRefInvalFrame := false
            frameType := frameType
            nalChain := state.nalChain ++ [fragment settings data]
            nalChainDataLength := state.nalChainDataLength + data.length } ∧
          (frameType = .idr ∨
            (waitingForIdrFrame = state.waitingForIdrFrame ∧ frameType = state.frameType)) := by
        cases picture with
        | true => exact ⟨_, _, _, rfl, Or.inl rfl⟩
        | false =>
            refine ⟨state.waitingForIdrFrame, state.waitingForNextSuccessfulFrame,
              state.frameType, ?_, Or.inr ⟨rfl, rfl⟩⟩
            change queueFragment settings state data = _
            rw [← no_invalidation]
            rfl
      obtain ⟨waiting, recovering, type, queued, key_only⟩ := one
      rw [List.foldl_cons, queued]
      obtain ⟨later, waits, last, length, rest, key_later, sum⟩ := @ih { state with
        waitingForIdrFrame := waiting
        waitingForNextSuccessfulFrame := recovering
        waitingForRefInvalFrame := false
        frameType := type
        nalChain := state.nalChain ++ [fragment settings data]
        nalChainDataLength := state.nalChainDataLength + data.length } rfl
      refine ⟨later, waits, last, length, ?_, ?_, ?_⟩
      · rw [rest]
        simp only [List.map_cons, List.append_assoc, List.singleton_append]
      · rcases key_later with key | ⟨same_wait, same_type⟩
        · exact Or.inl key
        · rw [same_wait, same_type]
          exact key_only
      · rw [sum, List.map_cons, List.map_cons, List.sum_cons]
        dsimp only
        omega

theorem splitNals_ne_nil {data : List UInt8} (some_data : data ≠ []) :
    splitNals settings.videoFormat data.length data ≠ [] := by
  obtain ⟨byte, rest, rfl⟩ := List.exists_cons_of_ne_nil some_data
  rw [List.length_cons, splitNals, if_neg some_data]
  dsimp only
  split_ifs
  all_goals exact List.cons_ne_nil _ _

/-- Queueing what is in a packet. -/
theorem queuePayload_queued (no_invalidation : state.waitingForRefInvalFrame = false)
    {entry : Entry} {after : Depacketizer}
    (queued : queuePayload settings state entry = some after) :
    ∃ pieces, pieces ≠ [] ∧ Queued settings pieces state after ∧
      (settings.videoFormat ≠ .av1 → pieces = if firstPacket entry then
        firstFragments settings (payload entry) else [payload entry]) := by
  unfold queuePayload at queued
  dsimp only at queued
  by_cases av1 : settings.videoFormat = .av1
  · rw [if_pos av1] at queued
    by_cases last : lastPacket entry = true
    · rw [if_pos last] at queued
      obtain ⟨data, truncated, rfl⟩ := Option.map_eq_some_iff.mp queued
      exact ⟨[data], List.cons_ne_nil _ _, queueFragment_queued no_invalidation data,
        fun other => absurd av1 other⟩
    · rw [if_neg last] at queued
      rw [← Option.some.inj queued]
      exact ⟨_, List.cons_ne_nil _ _, queueFragment_queued no_invalidation _,
        fun other => absurd av1 other⟩
  · rw [if_neg av1] at queued
    by_cases first : firstPacket entry = true
    · have data_eq : (if firstPacket entry = true ∧ payload entry ≠ [] then
            frameData settings (payload entry) else payload entry) =
          if payload entry = [] then [] else frameData settings (payload entry) := by
        by_cases empty : payload entry = []
        · rw [if_neg fun headed => headed.2 empty, if_pos empty, empty]
        · rw [if_pos ⟨first, empty⟩, if_neg empty]
      rw [data_eq] at queued
      simp only [first, true_and, if_true] at queued ⊢
      unfold firstFragments
      dsimp only
      generalize (if payload entry = [] then [] else frameData settings (payload entry)) = data
        at queued ⊢
      by_cases key : isIdrFrameStart settings.videoFormat data = true
      · rw [if_pos key] at queued ⊢
        rw [← Option.some.inj queued]
        have some_data : data ≠ [] := by
          rintro rfl
          exact Bool.false_ne_true key
        refine ⟨_, ?_, queueNals_queued no_invalidation _, fun _ => rfl⟩
        exact fun none => splitNals_ne_nil some_data (List.map_eq_nil_iff.mp none)
      · rw [if_neg key] at queued ⊢
        rw [← Option.some.inj queued]
        refine ⟨_, List.cons_ne_nil _ _, queueFragment_queued no_invalidation _, fun _ => ?_⟩
        split_ifs
        · rfl
        · rfl
    · simp only [first, false_and, if_false, Bool.false_eq_true] at queued ⊢
      rw [← Option.some.inj queued]
      exact ⟨_, List.cons_ne_nil _ _, queueFragment_queued no_invalidation _, fun _ => rfl⟩

theorem Within.queue (within : Within settings frames decoder seen frame state) {entry : Entry}
    {after : Depacketizer} (queued : queuePayload settings state entry = some after)
    (number : frameIndex entry.packet = frame) (first : firstPacket entry = true ↔ seen = []) :
    Within settings frames decoder (seen ++ [entry]) frame after := by
  obtain ⟨pieces, some_pieces, ⟨waiting, recovering, type, length, rfl, key_only, sum⟩, content⟩ :=
    queuePayload_queued within.sound.no_invalidation queued
  refine ⟨⟨within.sound.strict, rfl, within.sound.decodable, within.sound.made,
    within.sound.processed⟩, within.decoding, within.number, fun other member => ?_, ?_,
    fun _ none => ?_, fun parsed => ?_, ?_⟩
  · rcases List.mem_append.mp member with before | now
    · exact within.same other before
    · rw [List.mem_singleton.mp now]
      exact number
  · rcases key_only with key | ⟨rfl, rfl⟩
    · exact Or.inr (Or.inl key)
    · exact within.next
  · exact some_pieces (List.map_eq_nil_iff.mp (List.append_eq_nil_iff.mp none).2)
  · have pieces_back : (pieces.map (fragment settings)).map Fragment.data = pieces := by
      rw [List.map_map]
      exact List.map_id pieces
    change (state.nalChain ++ pieces.map (fragment settings)).map Fragment.data = _
    rw [List.map_append, pieces_back, within.chain parsed, content parsed]
    by_cases empty : seen = []
    · rw [if_pos (first.mpr empty), empty]
      simp only [fragments, List.nil_append, List.map_nil, List.append_nil]
    · rw [if_neg fun marked => empty (first.mp marked), fragments_append empty]
  · change length = ((state.nalChain ++ pieces.map (fragment settings)).map _).sum
    rw [sum, within.length, List.map_append, List.sum_append, List.map_map]
    rfl

theorem dropped_outside (sound : Sound settings frames decoder state)
    (decoding : state.decodingFrame = false) :
    Outside settings frames decoder [] (dropFrameState state) := by
  obtain ⟨drops, messages, dropped⟩ := dropFrameState_strict sound.strict
  rw [dropped]
  exact ⟨⟨sound.strict, sound.no_invalidation, sound.decodable, sound.made, sound.processed⟩,
    decoding, rfl, rfl, Or.inl rfl, fun entry none => absurd none List.not_mem_nil⟩

/-- The frame that was gathered goes to the decoder's queue, or is dropped. -/
theorem reassembled_outside (sound : Sound settings frames decoder state)
    (decoding : state.decodingFrame = false) (some_chain : state.nalChain ≠ [])
    {frameNumber : UInt32} (number : state.nextFrameNumber = frameNumber + 1)
    (decodable : Decodable (afterAll decoder.reference state.decodeUnitQueue)
      (decodeUnit state frameNumber))
    (made : Made settings frames (decodeUnit state frameNumber)) :
    Outside settings frames decoder [] (reassembleFrame state frameNumber) := by
  unfold reassembleFrame
  dsimp only
  rw [if_neg some_chain]
  have told : ∃ messages, (if (decodeUnit state frameNumber).frameType = .idr then
      state.tell .keyFrameReceived else state) = { state with messages := messages } := by
    split_ifs
    · exact ⟨_, rfl⟩
    · exact ⟨state.messages, rfl⟩
  obtain ⟨messages, told⟩ := told
  rw [told]
  by_cases full : boundExceeded { state with messages := messages } = true
  · rw [if_pos full]
    obtain ⟨drops, others, dropped⟩ := @dropFrameState_strict
      { state with messages := messages, waitingForIdrFrame := true } sound.strict
    rw [dropped]
    exact ⟨⟨sound.strict, sound.no_invalidation, trivial,
      fun unit none => absurd none List.not_mem_nil, sound.processed⟩, decoding, rfl, rfl,
      Or.inl rfl, fun entry none => absurd none List.not_mem_nil⟩
  · rw [if_neg full]
    refine ⟨⟨sound.strict, sound.no_invalidation, sound.decodable.append decodable,
      fun unit member => ?_, sound.processed⟩, decoding, rfl, rfl, Or.inr ?_,
      fun entry none => absurd none List.not_mem_nil⟩
    · rcases List.mem_append.mp member with before | now
      · exact sound.made unit before
      · rw [List.mem_singleton.mp now]
        exact made
    · change afterAll decoder.reference (state.decodeUnitQueue ++ [decodeUnit state frameNumber]) =
        some state.nextFrameNumber
      rw [afterAll_append, number]
      rfl

theorem Within.finish (within : Within settings frames decoder seen frame state)
    (some_seen : seen ≠ []) (whole : frames seen) :
    Outside settings frames decoder [] (endFrame state frame) := by
  have sound := within.sound
  have made : Made settings frames (decodeUnit state frame) :=
    ⟨within.length, seen, whole, within.same, within.chain⟩
  unfold endFrame
  dsimp only
  by_cases waiting : state.waitingForIdrFrame = true
  · rw [if_pos (Or.inl waiting), if_pos waiting]
    split_ifs
    all_goals
      apply dropped_outside _ rfl
      exact ⟨sound.strict, sound.no_invalidation, sound.decodable, sound.made, sound.processed⟩
  · rw [if_neg (by simp [waiting, sound.no_invalidation])]
    have decodable : Decodable (afterAll decoder.reference state.decodeUnitQueue)
        (decodeUnit state frame) := within.next.resolve_left waiting
    have ended : Sound settings frames decoder { state with
        decodingFrame := false
        nextFrameNumber := frame + 1 } :=
      ⟨sound.strict, sound.no_invalidation, sound.decodable, sound.made, sound.processed⟩
    have kept : Sound settings frames decoder { state with
        decodingFrame := false
        nextFrameNumber := frame + 1
        dropStatePending := false } :=
      ⟨sound.strict, sound.no_invalidation, sound.decodable, sound.made, sound.processed⟩
    split_ifs
    · exact reassembled_outside kept rfl (within.gathered some_seen) rfl decodable made
    · exact dropped_outside ended rfl
    · exact reassembled_outside ended rfl (within.gathered some_seen) rfl decodable made

/-- Where the receiving thread is, after some packets of a frame. -/
def Placed (settings : Settings) (frames : List Entry → Prop) (decoder : Progress)
    (seen : List Entry) (state : Depacketizer) : Prop :=
  Outside settings frames decoder seen state ∨
    ∃ frame, seen ≠ [] ∧ Within settings frames decoder seen frame state

/-- Taking a packet of a frame that is being gathered. -/
theorem Within.accept (within : Within settings frames decoder seen frame state) {entry : Entry}
    (number : frameIndex entry.packet = frame) (first : firstPacket entry = true ↔ seen = [])
    (whole : lastPacket entry = true → frames (seen ++ [entry])) :
    Placed settings frames decoder (if lastPacket entry then [] else seen ++ [entry])
      (match queuePayload settings state entry with
      | none => abandonFrame state frame
      | some state => if lastPacket entry then endFrame state frame else state) := by
  cases queued : queuePayload settings state entry with
  | none =>
      refine Or.inl (within.sound.abandon frame fun other member => ?_)
      split_ifs at member
      · exact absurd member List.not_mem_nil
      · rcases List.mem_append.mp member with before | now
        · exact within.same other before
        · rw [List.mem_singleton.mp now]
          exact number
  | some after =>
      have gathered := within.queue queued number first
      have some_seen : seen ++ [entry] ≠ [] := by simp
      dsimp only
      by_cases last : lastPacket entry = true
      · rw [if_pos last, if_pos last]
        exact Or.inl (gathered.finish some_seen (whole last))
      · rw [if_neg last, if_neg last]
        exact Or.inr ⟨frame, some_seen, gathered⟩

theorem Within.sequence (within : Within settings frames decoder seen frame state)
    (lastPacketInStream : UInt32) : Within settings frames decoder seen frame
      { state with lastPacketInStream := lastPacketInStream } :=
  ⟨⟨within.sound.strict, within.sound.no_invalidation, within.sound.decodable, within.sound.made,
    within.sound.processed⟩, within.decoding, within.number, within.same, within.next,
    within.gathered, within.chain, within.length⟩

theorem Placed.sound (placed : Placed settings frames decoder seen state) :
    Sound settings frames decoder state := by
  rcases placed with outside | ⟨frame, some_seen, within⟩
  · exact outside.sound
  · exact within.sound

theorem Placed.stale (placed : Placed settings frames decoder seen state) {entry : Entry}
    (same : ∀ other ∈ seen, frameIndex other.packet = frameIndex entry.packet)
    (stale : isBefore32 (frameIndex entry.packet) state.nextFrameNumber = true) :
    Outside settings frames decoder (seen ++ [entry]) state := by
  rcases placed with outside | ⟨frame, some_seen, within⟩
  · refine ⟨outside.sound, outside.decoding, outside.empty, outside.no_length, outside.next,
      fun other member => ?_⟩
    rcases List.mem_append.mp member with before | now
    · exact outside.stale other before
    · rw [List.mem_singleton.mp now]
      exact stale
  · obtain ⟨other, rest, rfl⟩ := List.exists_cons_of_ne_nil some_seen
    have number := same other List.mem_cons_self
    rw [within.same other List.mem_cons_self] at number
    rw [← number, within.number] at stale
    unfold isBefore32 at stale
    rw [UInt32.sub_self] at stale
    exact absurd stale (by decide)

theorem Placed.acceptPayload (placed : Placed settings frames decoder seen state)
    {entry : Entry} (same : ∀ other ∈ seen, frameIndex other.packet = frameIndex entry.packet)
    (first : firstPacket entry = true ↔ seen = [])
    (whole : lastPacket entry = true → frames (seen ++ [entry]))
    (not_stale : isBefore32 (frameIndex entry.packet) state.nextFrameNumber = false) :
    Placed settings frames decoder (if lastPacket entry then [] else seen ++ [entry])
      (acceptPayload settings state entry) := by
  unfold VideoDepacketizer.acceptPayload
  dsimp only
  by_cases marked : firstPacket entry = true
  · have no_seen := first.mp marked
    subst no_seen
    have outside : Outside settings frames decoder [] state := by
      rcases placed with outside | ⟨frame, some_seen, within⟩
      · exact outside
      · exact absurd rfl some_seen
    have begun := (outside.beginFrame entry.receiveTimeMs entry.presentationTimeMs
      not_stale).sequence (streamIndex entry)
    rw [if_pos marked]
    by_cases headed : payload entry = []
    · have no_header : ¬ (firstPacket entry = true ∧ payload entry ≠ []) :=
        fun both => both.2 headed
      rw [if_neg no_header]
      exact begun.accept rfl first whole
    · have header : firstPacket entry = true ∧ payload entry ≠ [] := ⟨marked, headed⟩
      rw [if_pos header]
      exact (begun.header (payload entry)).accept rfl first whole
  · have no_header : ¬ (firstPacket entry = true ∧ payload entry ≠ []) :=
      fun both => marked both.1
    rw [if_neg marked, if_neg no_header]
    rcases placed with outside | ⟨frame, some_seen, within⟩
    · have some_seen : seen ≠ [] := fun none => marked (first.mpr none)
      obtain ⟨other, rest, rfl⟩ := List.exists_cons_of_ne_nil some_seen
      have stale := outside.stale other List.mem_cons_self
      rw [same other List.mem_cons_self, not_stale] at stale
      exact absurd stale Bool.false_ne_true
    · obtain ⟨other, rest, rfl⟩ := List.exists_cons_of_ne_nil some_seen
      have number := same other List.mem_cons_self
      rw [within.same other List.mem_cons_self] at number
      subst number
      exact (within.sequence (streamIndex entry)).accept rfl first whole

/-- What a packet of a frame does, if it is marked as first exactly when it is. -/
theorem Placed.packet (placed : Placed settings frames decoder seen state) {entry : Entry}
    (same : ∀ other ∈ seen, frameIndex other.packet = frameIndex entry.packet)
    (first : firstPacket entry = true ↔ seen = [])
    (whole : lastPacket entry = true → frames (seen ++ [entry])) :
    Placed settings frames decoder (if lastPacket entry then [] else seen ++ [entry])
      (processRtpPayload settings state entry) := by
  have left : ∀ {state : Depacketizer},
      Outside settings frames decoder (seen ++ [entry]) state →
      Placed settings frames decoder (if lastPacket entry then [] else seen ++ [entry]) state := by
    intro state outside
    refine Or.inl ⟨outside.sound, outside.decoding, outside.empty, outside.no_length, outside.next,
      fun other member => outside.stale other ?_⟩
    split_ifs at member
    · exact absurd member List.not_mem_nil
    · exact member
  unfold processRtpPayload
  dsimp only
  by_cases stale : isBefore32 (frameIndex entry.packet) state.nextFrameNumber = true
  · rw [if_pos stale]
    exact left (placed.stale same stale)
  · rw [if_neg stale]
    by_cases corrupt : isBefore24 (streamIndex entry)
        ((state.lastPacketInStream + 1) &&& 0xFFFFFF) = true ∨
        (flags entry.packet &&& FLAG_SOF = 0 ∧
          streamIndex entry ≠ (state.lastPacketInStream + 1) &&& 0xFFFFFF)
    · rw [if_pos corrupt]
      refine left (placed.sound.abandon _ fun other member => ?_)
      rcases List.mem_append.mp member with before | now
      · exact same other before
      · rw [List.mem_singleton.mp now]
    · rw [if_neg corrupt]
      exact placed.acceptPayload same first whole (Bool.eq_false_iff.mpr stale)

/-! ### The decoder's thread -/

theorem Placed.refresh (placed : Placed settings frames decoder seen state) :
    Placed settings frames ⟨none, decoder.processed⟩ seen (requestDecoderRefresh state) := by
  rcases placed with outside | ⟨frame, some_seen, within⟩
  · exact Or.inl ⟨⟨outside.sound.strict, outside.sound.no_invalidation, trivial,
      fun unit none => absurd none List.not_mem_nil, outside.sound.processed⟩, outside.decoding,
      outside.empty, outside.no_length, Or.inl rfl, outside.stale⟩
  · exact Or.inr ⟨frame, some_seen, ⟨within.sound.strict, within.sound.no_invalidation, trivial,
      fun unit none => absurd none List.not_mem_nil, within.sound.processed⟩, within.decoding,
      within.number, within.same, Or.inl rfl, within.gathered, within.chain, within.length⟩

theorem Placed.keyProcessed (placed : Placed settings frames decoder seen state) :
    Placed settings frames ⟨decoder.reference, true⟩ seen
      { state with idrFrameProcessed := true } := by
  rcases placed with outside | ⟨frame, some_seen, within⟩
  · exact Or.inl ⟨⟨outside.sound.strict, outside.sound.no_invalidation, outside.sound.decodable,
      outside.sound.made, rfl⟩, outside.decoding, outside.empty, outside.no_length, outside.next,
      outside.stale⟩
  · exact Or.inr ⟨frame, some_seen, ⟨within.sound.strict, within.sound.no_invalidation,
      within.sound.decodable, within.sound.made, rfl⟩, within.decoding, within.number,
      within.same, within.next, within.gathered, within.chain, within.length⟩

theorem Placed.dequeue (placed : Placed settings frames decoder seen state) {unit : DecodeUnit}
    {rest : List DecodeUnit} (queued : state.decodeUnitQueue = unit :: rest) :
    Placed settings frames ⟨some (unit.frameNumber + 1), decoder.processed⟩ seen
        { state with decodeUnitQueue := rest } ∧
      Decodable decoder.reference unit ∧ Made settings frames unit := by
  have decodable := placed.sound.decodable
  have made := placed.sound.made
  rw [queued] at decodable made
  have others : ∀ other ∈ rest, Made settings frames other :=
    fun other member => made other (List.mem_cons_of_mem _ member)
  refine ⟨?_, decodable.1, made unit List.mem_cons_self⟩
  rcases placed with outside | ⟨frame, some_seen, within⟩
  · have next := outside.next
    rw [queued] at next
    exact Or.inl ⟨⟨outside.sound.strict, outside.sound.no_invalidation, decodable.2, others,
      outside.sound.processed⟩, outside.decoding, outside.empty, outside.no_length, next,
      outside.stale⟩
  · have next := within.next
    rw [queued] at next
    exact Or.inr ⟨frame, some_seen, ⟨within.sound.strict, within.sound.no_invalidation,
      decodable.2, others, within.sound.processed⟩, within.decoding, within.number, within.same,
      next, within.gathered, within.chain, within.length⟩

end Frames

section Runs

/-- Whether the decoder has decoded a key frame. -/
def keyDecoded (history : List Decoding) : Bool :=
  history.any fun
    | .completed unit .ok => unit.frameType = .idr
    | _ => false

def progress (history : List Decoding) : Progress := ⟨reference history, keyDecoded history⟩

/-- What the queue of packets calls after some packets of a frame: the other packets of the frame,
and then whole frames. -/
def Framed (frames : List Entry → Prop) : List Entry → List Output → Prop
  | seen, [] => seen = []
  | seen, .queueRtpPacket entry :: rest =>
    (∀ other ∈ seen, frameIndex other.packet = frameIndex entry.packet) ∧
      (firstPacket entry = true ↔ seen = []) ∧
      (lastPacket entry = true → frames (seen ++ [entry])) ∧
      Framed frames (if lastPacket entry then [] else seen ++ [entry]) rest
  | seen, .notifyFrameLost _ _ :: rest => seen = [] ∧ Framed frames [] rest
  | seen, .connectionSawFrame _ :: rest => Framed frames seen rest

/-- A unit that the decoder may be given after what it did before. -/
structure Given (settings : Settings) (frames : List Entry → Prop) (before : List Decoding)
    (unit : DecodeUnit) : Prop where
  decodable : Decodable (reference before) unit
  processed : unit.frameType = .pframe → keyDecoded before = true
  made : Made settings frames unit

/-- All units were given rightly. -/
def AllGiven (settings : Settings) (frames : List Entry → Prop) (history : List Decoding) : Prop :=
  ∀ before unit after, history = before ++ .submitted unit :: after →
    Given settings frames before unit

structure Sync (settings : Settings) (frames : List Entry → Prop) (seen : List Entry)
    (playback : Playback) : Prop where
  placed : Placed settings frames (progress playback.history) seen playback.depacketizer
  given : AllGiven settings frames playback.history
  ready : playback.current = none → reference playback.history ≠ none →
    keyDecoded playback.history = true
  busy : ∀ unit, playback.current = some unit →
    unit.frameType = .idr ∨ keyDecoded playback.history = true

variable {settings : Settings} {frames : List Entry → Prop} {seen : List Entry}
  {playback : Playback}

theorem reference_append (history : List Decoding) (last : Decoding) :
    reference (history ++ [last]) = advance (reference history) last := List.foldl_append ..

theorem AllGiven.append {history : List Decoding} (given : AllGiven settings frames history)
    {last : Decoding}
    (now : ∀ unit, last = .submitted unit → Given settings frames history unit) :
    AllGiven settings frames (history ++ [last]) := by
  intro before unit after split
  rcases List.eq_nil_or_concat after with rfl | ⟨rest, final, rfl⟩
  · obtain ⟨rfl, same⟩ := List.append_inj' split rfl
    exact now unit (List.cons.inj same).1
  · rw [List.concat_eq_append, ← List.cons_append, ← List.append_assoc] at split
    exact given before unit rest (List.append_inj' split rfl).1

theorem Sync.receive (sync : Sync settings frames seen playback) {output : Output}
    {rest : List Output} (framed : Framed frames seen (output :: rest)) :
    ∃ seen', Framed frames seen' rest ∧
      Sync settings frames seen' (step settings playback (.receive output)) := by
  have with_placed : ∀ {seen' : List Entry}, Placed settings frames (progress playback.history)
        seen' (VideoDepacketizer.receive settings playback.depacketizer output) →
      Sync settings frames seen' (step settings playback (.receive output)) :=
    fun placed => ⟨placed, sync.given, sync.ready, sync.busy⟩
  cases output with
  | notifyFrameLost frameNumber speculative =>
      obtain ⟨rfl, framed⟩ := framed
      rcases sync.placed with outside | ⟨frame, some_seen, within⟩
      · exact ⟨[], framed, with_placed (Or.inl (outside.notifyFrameLost frameNumber))⟩
      · exact absurd rfl some_seen
  | connectionSawFrame frameNumber => exact ⟨seen, framed, with_placed sync.placed⟩
  | queueRtpPacket entry =>
      obtain ⟨same, first, whole, framed⟩ := framed
      exact ⟨_, framed, with_placed (sync.placed.packet same first whole)⟩

theorem Sync.waitForNextVideoFrame (sync : Sync settings frames seen playback) :
    Sync settings frames seen (step settings playback .waitForNextVideoFrame) := by
  obtain ⟨state, current, history⟩ := playback
  cases current with
  | some unit => exact sync
  | none =>
      unfold step
      dsimp only
      cases queued : state.decodeUnitQueue with
      | nil => exact sync
      | cons unit rest =>
          obtain ⟨placed, decodable, made⟩ := sync.placed.dequeue queued
          have kept : keyDecoded (history ++ [.submitted unit]) = keyDecoded history := by
            simp [keyDecoded]
          have processed : unit.frameType = .pframe → keyDecoded history = true := by
            intro pframe
            refine sync.ready rfl fun nothing => ?_
            rcases decodable with key | next
            · rw [pframe] at key
              cases key
            · rw [show (progress history).reference = reference history from rfl, nothing] at next
              cases next
          refine ⟨?_, sync.given.append ?_, fun idle => absurd idle (by simp), ?_⟩
          · unfold progress
            rw [reference_append, kept]
            exact placed
          · rintro _ ⟨⟩
            exact ⟨decodable, processed, made⟩
          · rintro _ ⟨⟩
            rw [kept]
            cases type : unit.frameType with
            | idr => exact Or.inl rfl
            | pframe => exact Or.inr (processed type)

theorem Sync.completeVideoFrame (sync : Sync settings frames seen playback) (status : DrStatus) :
    Sync settings frames seen (step settings playback (.completeVideoFrame status)) := by
  obtain ⟨state, current, history⟩ := playback
  cases current with
  | none => exact sync
  | some unit =>
      have given : AllGiven settings frames (history ++ [.completed unit status]) :=
        sync.given.append fun other differ => by cases differ
      unfold step LiCompleteVideoFrame
      dsimp only
      cases status with
      | needIdr =>
          have kept : keyDecoded (history ++ [.completed unit .needIdr]) = keyDecoded history := by
            simp [keyDecoded]
          refine ⟨?_, given, fun _ some_reference => ?_, fun other none => by cases none⟩
          · unfold progress
            rw [reference_append, kept]
            exact sync.placed.refresh
          · rw [reference_append] at some_reference
            exact absurd rfl some_reference
      | ok =>
          have busy := sync.busy unit rfl
          by_cases key : unit.frameType = .idr
          · have decoded : keyDecoded (history ++ [.completed unit .ok]) = true := by
              simp [keyDecoded, key]
            rw [if_pos key]
            refine ⟨?_, given, fun _ _ => decoded, fun other none => by cases none⟩
            unfold progress
            rw [reference_append, decoded]
            exact sync.placed.keyProcessed
          · have decoded := busy.resolve_left key
            have kept : keyDecoded (history ++ [.completed unit .ok]) = keyDecoded history := by
              simp [keyDecoded, key]
            rw [if_neg key]
            refine ⟨?_, given, fun _ _ => ?_, fun other none => by cases none⟩
            · unfold progress
              rw [reference_append, kept]
              exact sync.placed
            · rw [kept]
              exact decoded

theorem run_sync {outputs : List Output} (framed : Framed frames seen outputs)
    (sync : Sync settings frames seen playback) {events : List Event}
    (interleaved : events.filterMap Event.received <+: outputs) :
    ∃ seen', Sync settings frames seen' (events.foldl (step settings) playback) := by
  induction events generalizing playback seen outputs with
  | nil => exact ⟨seen, sync⟩
  | cons event events ih =>
      cases event with
      | waitForNextVideoFrame => exact ih framed sync.waitForNextVideoFrame interleaved
      | completeVideoFrame status => exact ih framed (sync.completeVideoFrame status) interleaved
      | receive output =>
          obtain ⟨rest, split⟩ := interleaved
          subst split
          obtain ⟨later, framed, sync⟩ := sync.receive framed
          exact ih framed sync (List.prefix_append _ _)

theorem start_sync {earlier : Depacketizer} (clean : earlier.nalChain = [])
    (no_length : earlier.nalChainDataLength = 0) :
    Sync settings frames [] (start earlier) where
  placed := Or.inl ⟨⟨rfl, rfl, trivial, fun unit none => absurd none List.not_mem_nil, rfl⟩, rfl,
    clean, no_length, Or.inl rfl, fun entry none => absurd none List.not_mem_nil⟩
  given before unit after split := absurd split (by simp [start])
  ready _ some_reference := absurd rfl some_reference
  busy unit none := by cases none

end Runs

section Queue

variable {frames : List Entry → Prop}

/-- What the queue calls for one packet: some notices, and then the packets of a frame. -/
def Shaped (outputs : List Output) : Prop :=
  ∃ notices, submitted notices = [] ∧
    outputs = notices ++ (submitted outputs).map Output.queueRtpPacket

theorem submitted_append (outputs others : List Output) :
    submitted (outputs ++ others) = submitted outputs ++ submitted others :=
  List.filterMap_append ..

theorem Shaped.of_append {notices : List Output} (silent : submitted notices = [])
    (entries : List Entry) : Shaped (notices ++ entries.map Output.queueRtpPacket) := by
  refine ⟨notices, silent, ?_⟩
  rw [submitted_append, silent, VideoFrames.submitted_map, List.nil_append]

theorem Shaped.of_silent {notices : List Output} (silent : submitted notices = []) :
    Shaped notices := by
  refine ⟨notices, silent, ?_⟩
  rw [silent, List.map_nil, List.append_nil]

theorem openBlock_silent (queue : RtpVideoQueue) (packet : Packet) (now : UInt64) :
    submitted (VideoQueue.openBlock queue packet now).2.2 = [] := by
  unfold VideoQueue.openBlock VideoQueue.skipFrame VideoQueue.reportLoss VideoQueue.beginBlock
  dsimp only
  split_ifs
  all_goals rfl

theorem reconstructFrame_silent (settings : VideoQueue.Settings) (queue : RtpVideoQueue)
    (allocated : Option (ℕ → Packet)) :
    submitted (VideoQueue.reconstructFrame settings queue allocated).2.2 = [] := by
  refine List.filterMap_eq_nil_iff.mpr fun output member => ?_
  rw [VideoFrames.reconstructFrame_outputs queue allocated output member]

theorem RtpvAddPacket_shaped (settings : VideoQueue.Settings) (queue : RtpVideoQueue)
    (packet : Packet) (length : ℕ) (now : UInt64) (allocated : Option (ℕ → Packet)) :
    Shaped (VideoQueue.RtpvAddPacket settings queue packet length now allocated).2 := by
  have taken : ∀ (queue : RtpVideoQueue) (packet : Packet),
      ∃ (notices : List Output) (entries : List Entry), submitted notices = [] ∧
        (VideoQueue.takePacket settings queue packet length allocated).2 =
          notices ++ entries.map Output.queueRtpPacket := by
    intro queue packet
    unfold VideoQueue.takePacket
    dsimp only
    split_ifs
    · exact ⟨[], [], rfl, rfl⟩
    cases VideoQueue.queuePacket queue packet length
        (!isBefore16 (sequenceNumber packet) queue.bufferFirstParitySequenceNumber) false with
    | none => exact ⟨[], [], rfl, rfl⟩
    | some queued =>
        dsimp only
        have silent := reconstructFrame_silent settings
          (VideoQueue.countPacket queued (sequenceNumber packet)) allocated
        generalize VideoQueue.reconstructFrame settings
          (VideoQueue.countPacket queued (sequenceNumber packet)) allocated = rebuilt at silent ⊢
        obtain ⟨complete, rebuilt, outputs⟩ := rebuilt
        cases complete with
        | false => exact ⟨outputs, [], silent, (List.append_nil _).symm⟩
        | true =>
            dsimp only
            unfold VideoQueue.finishBlock VideoQueue.submitCompletedFrame
            dsimp only
            split_ifs
            · exact ⟨outputs, [], silent, rfl⟩
            · exact ⟨outputs, _, silent, rfl⟩
  unfold VideoQueue.RtpvAddPacket
  dsimp only
  split_ifs
  all_goals try exact Shaped.of_silent rfl
  have silent := openBlock_silent queue (hostOrder queue.multiFecCapable packet) now
  generalize VideoQueue.openBlock queue (hostOrder queue.multiFecCapable packet) now = opened
    at silent ⊢
  obtain ⟨accepted, queue, outputs⟩ := opened
  cases accepted with
  | false => exact Shaped.of_silent silent
  | true =>
      obtain ⟨notices, entries, quiet, split⟩ := taken queue (hostOrder _ packet)
      dsimp only
      rw [split, ← List.append_assoc]
      apply Shaped.of_append
      rw [submitted_append, silent, quiet, List.nil_append]

/-- The first packet of a frame, and no other, is marked as first, and the last as last. -/
def Marked (entries : List Entry) : Prop :=
  ∀ before entry after, entries = before ++ entry :: after →
    (firstPacket entry = true ↔ before = []) ∧ (lastPacket entry = true ↔ after = [])

theorem framed_notices {notices rest : List Output} (silent : submitted notices = [])
    (framed : Framed frames [] rest) : Framed frames [] (notices ++ rest) := by
  induction notices with
  | nil => exact framed
  | cons notice notices ih =>
      cases notice with
      | queueRtpPacket entry => cases silent
      | notifyFrameLost frameNumber speculative => exact ⟨rfl, ih silent⟩
      | connectionSawFrame frameNumber => exact ih silent

theorem framed_entries {seen entries : List Entry} (some_entries : entries ≠ [])
    (marked : Marked (seen ++ entries)) (whole : frames (seen ++ entries))
    (same : ∀ entry ∈ seen ++ entries, ∀ other ∈ seen ++ entries,
      frameIndex other.packet = frameIndex entry.packet)
    {rest : List Output} (framed : Framed frames [] rest) :
    Framed frames seen (entries.map Output.queueRtpPacket ++ rest) := by
  induction entries generalizing seen with
  | nil => exact absurd rfl some_entries
  | cons entry entries ih =>
      obtain ⟨first, last⟩ := marked seen entry entries rfl
      refine ⟨fun other member => same entry (by simp) other (List.mem_append_left _ member),
        first, fun marked_last => ?_, ?_⟩
      · rw [last.mp marked_last] at whole
        exact whole
      · by_cases final : entries = []
        · rw [if_pos (last.mpr final), final]
          exact framed
        · rw [if_neg fun marked_last => final (last.mp marked_last)]
          have joined : seen ++ entry :: entries = (seen ++ [entry]) ++ entries := by simp
          rw [joined] at marked whole same
          exact ih final marked whole same

theorem framed_flatten {chunks : List (List Output)}
    (all : ∀ outputs ∈ chunks, Shaped outputs ∧ (submitted outputs = [] ∨
      (Marked (submitted outputs) ∧ frames (submitted outputs) ∧
        ∀ entry ∈ submitted outputs, ∀ other ∈ submitted outputs,
          frameIndex other.packet = frameIndex entry.packet))) :
    Framed frames [] chunks.flatten := by
  induction chunks with
  | nil => rfl
  | cons outputs chunks ih =>
      have rest := ih fun others member => all others (List.mem_cons_of_mem _ member)
      obtain ⟨⟨notices, silent, split⟩, content⟩ := all outputs List.mem_cons_self
      rw [List.flatten_cons, split, List.append_assoc]
      apply framed_notices silent
      by_cases nothing : submitted outputs = []
      · rw [nothing]
        exact rest
      · obtain ⟨marked, whole, same⟩ := content.resolve_left nothing
        exact framed_entries nothing marked whole same rest

theorem frameKeys_frame {frame : UInt32} {block : ℕ} {extents : List VideoFrames.Extent} :
    ∀ key ∈ VideoFrames.frameKeys frame block extents, key.1 = frame := by
  induction extents generalizing block with
  | nil => exact fun key none => absurd none List.not_mem_nil
  | cons extent extents ih =>
      intro key member
      rcases List.mem_append.mp member with here | later
      · obtain ⟨i, _, rfl⟩ := List.mem_map.mp here
        rfl
      · exact ih key later

variable (settings : VideoQueue.Settings) (multiFecCapable : Bool) (arrivals : List Arrival)

theorem run_shaped : ∀ outputs ∈ (VideoQueue.run settings multiFecCapable arrivals).2,
    Shaped outputs := by
  induction arrivals using List.reverseRecOn with
  | nil => exact fun outputs none => absurd none List.not_mem_nil
  | append_singleton arrivals arrival ih =>
      intro outputs member
      rw [VideoFrames.run_append] at member
      rcases List.mem_append.mp member with before | now
      · exact ih outputs before
      · rw [List.mem_singleton.mp now]
        exact RtpvAddPacket_shaped ..

/-- The frames that the queue of packets passes on. -/
def Frames (entries : List Entry) : Prop :=
  ∃ outputs ∈ (VideoQueue.run settings multiFecCapable arrivals).2,
    submitted outputs ≠ [] ∧ submitted outputs = entries

variable {settings multiFecCapable arrivals}

theorem run_framed
    (marked : ∀ outputs ∈ (VideoQueue.run settings multiFecCapable arrivals).2,
      Marked (submitted outputs)) :
    Framed (Frames settings multiFecCapable arrivals) []
      (VideoQueue.run settings multiFecCapable arrivals).2.flatten := by
  refine framed_flatten fun outputs member => ⟨run_shaped _ _ _ outputs member, ?_⟩
  rcases (VideoFrames.run_collected settings multiFecCapable arrivals).2.2 outputs member with
    silent | ⟨frame, extents, some_block, announced, layout⟩
  · exact Or.inl silent
  · by_cases nothing : submitted outputs = []
    · exact Or.inl nothing
    · have in_frame : ∀ entry ∈ submitted outputs, frameIndex entry.packet = frame := by
        intro entry inside
        have listed := @List.mem_map_of_mem _ _ _ _ VideoFrames.key inside
        rw [layout] at listed
        exact frameKeys_frame _ listed
      refine Or.inr ⟨marked outputs member, ⟨outputs, member, nothing, rfl⟩,
        fun entry inside other within => ?_⟩
      rw [in_frame entry inside, in_frame other within]

theorem playback_sync {stream : Settings} {earlier : Depacketizer}
    (clean : earlier.nalChain = []) (no_length : earlier.nalChainDataLength = 0)
    {events : List Event}
    (interleaved : events.filterMap Event.received <+:
      (VideoQueue.run settings multiFecCapable arrivals).2.flatten)
    (marked : ∀ outputs ∈ (VideoQueue.run settings multiFecCapable arrivals).2,
      Marked (submitted outputs)) :
    AllGiven stream (Frames settings multiFecCapable arrivals)
      (run stream earlier events).history := by
  obtain ⟨seen, sync⟩ := run_sync (run_framed marked) (start_sync clean no_length) interleaved
  exact sync.given

/-- A frame in one packet. -/
def framePacket (frame index : UInt8) (data : List UInt8) : Packet := fun byte =>
  ([0x80, 0, 0, 7 + index, 0, 0, 0, 9, 0, 0, 0, 0, 0, index, 0, 0, frame, 0, 0, 0, 7, 0, 0, 0,
    0, 0, 0x40, 0] ++ data).getD byte 0

/-- A key frame, the frame after it, and then a frame before which one was lost. -/
def lossyStream : List Arrival :=
  [⟨framePacket 1 0 [0, 0, 1, 0x67, 5, 0, 0, 1, 0x65, 9], 38, 3, none⟩,
    ⟨framePacket 2 1 [0, 0, 1, 0x41, 6], 33, 4, none⟩,
    ⟨framePacket 4 3 [0, 0, 1, 0x41, 7], 33, 5, none⟩]

def lossyOutputs : List (List Output) :=
  (VideoQueue.run VideoFrames.smallPackets false lossyStream).2

/-- The variables at the start of the program. -/
def unused : Depacketizer where
  nalChain := []
  nalChainDataLength := 0
  nextFrameNumber := 0
  startFrameNumber := 0
  waitingForNextSuccessfulFrame := false
  waitingForIdrFrame := false
  waitingForRefInvalFrame := false
  lastPacketInStream := 0
  decodingFrame := false
  frameType := .pframe
  lastPacketPayloadLength := 0
  strictIdrFrameWait := false
  syntheticPtsBase := 0
  frameHostProcessingLatency := 0
  firstPacketReceiveTime := 0
  firstPacketPresentationTime := 0
  dropStatePending := false
  idrFrameProcessed := false
  consecutiveFrameDrops := 0
  decodeUnitQueue := []
  messages := []

def oldServer : Settings := ⟨.h264, (3, 0, 0, 0)⟩

/-- Everything is received before the decoder begins. -/
def lossyEvents : List Event :=
  lossyOutputs.flatten.map Event.receive ++
    [.waitForNextVideoFrame, .completeVideoFrame .ok, .waitForNextVideoFrame,
      .completeVideoFrame .needIdr, .waitForNextVideoFrame]

theorem lossyEvents_received : lossyEvents.filterMap Event.received <+: lossyOutputs.flatten := by
  unfold lossyEvents
  rw [List.filterMap_append, List.filterMap_map]
  have back : Event.received ∘ Event.receive = some := rfl
  rw [back, List.filterMap_some]
  exact ⟨[], by simp [Event.received]⟩

theorem Marked.singleton {entry : Entry} (first : firstPacket entry = true)
    (last : lastPacket entry = true) : Marked [entry] := by
  intro before other after split
  rcases before with _ | ⟨head, rest⟩
  · obtain ⟨rfl, rfl⟩ := List.cons.inj split
    exact ⟨iff_of_true first rfl, iff_of_true last rfl⟩
  · exact absurd (congrArg List.length split) (by simp)

theorem lossyOutputs_marked : ∀ outputs ∈ lossyOutputs, Marked (submitted outputs) := by
  intro outputs member
  have all : (lossyOutputs.all fun outputs => (submitted outputs).length == 1 &&
      (submitted outputs).all fun entry => firstPacket entry && lastPacket entry) = true := by
    decide
  have here := List.all_eq_true.mp all outputs member
  obtain ⟨one, marks⟩ := Bool.and_eq_true_iff.mp here
  obtain ⟨entry, single⟩ := List.length_eq_one_iff.mp (beq_iff_eq.mp one)
  have mark := List.all_eq_true.mp marks entry (single ▸ List.mem_singleton_self entry)
  rw [single]
  exact Marked.singleton (Bool.and_eq_true_iff.mp mark).1 (Bool.and_eq_true_iff.mp mark).2

def frameNumbers (history : List Decoding) : List UInt32 :=
  history.filterMap fun
    | .submitted unit => some unit.frameNumber
    | .completed _ _ => none

end Queue

end MoonlightWii.Limelight.DecodableUnits
