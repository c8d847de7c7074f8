import MoonlightWii.Limelight.InputStream

/-!
# What the host learns of the input

The client's threads and the sending thread take turns in any order.  No motion of the mouse is
lost or sent twice, and the other packets are sent in the order in which they were queued, except
that a controller packet is left out when the next has the same buttons.
-/

set_option autoImplicit false

namespace MoonlightWii.Limelight.InputDelivery

open InputStream

inductive Event
  | startInputStream (allocated : Bool)
  | stopInputStream
  | mouseMove (allocated : Bool) (deltaX deltaY : ℤ)
  | mousePosition (allocated : Bool) (x y width height : ℤ)
  | mouseButton (allocated : Bool) (action button : UInt8)
  | utf8Text (allocated : Bool) (text : List UInt8)
  | multiController (allocated : Bool) (buttonFlags : UInt32) (packet : MultiController)
  | scroll (allocated : ℕ → Bool) (scrollAmount : ℤ)
  | sendStep (sends : Bool)

/-- The stream, the packets that were queued, the motion that was asked for, and whether a call for
it failed. -/
structure Session where
  stream : Stream
  queued : List Packet
  requested : ℤ × ℤ
  failed : Bool

/-- After a call that only queues packets. -/
def Session.call (session : Session) (after : Stream) : Session :=
  { session with
    stream := after
    queued := session.queued ++ after.packetQueue.drop session.stream.packetQueue.length }

def step (settings : Settings) (session : Session) : Event → Session
  | .startInputStream allocated =>
    if session.stream.initialized ∨ session.stream.draining then session
    else session.call (InputStream.startInputStream settings session.stream allocated)
  | .stopInputStream => { session with stream := InputStream.stopInputStream session.stream }
  | .mouseMove allocated deltaX deltaY =>
    let called := LiSendMouseMoveEvent session.stream allocated deltaX deltaY
    { session.call called.2 with
      requested := if called.1 = -2 then session.requested else session.requested + (deltaX, deltaY)
      failed := session.failed || called.1 = -1 || 0 < called.1 }
  | .mousePosition allocated x y width height =>
    session.call (LiSendMousePositionEvent session.stream allocated x y width height).2
  | .mouseButton allocated action button =>
    session.call (LiSendMouseButtonEvent settings session.stream allocated action button).2
  | .utf8Text allocated text => session.call (LiSendUtf8TextEvent session.stream allocated text).2
  | .multiController allocated buttonFlags packet => session.call
    (sendControllerEventInternal settings session.stream allocated buttonFlags packet).2
  | .scroll allocated scrollAmount => session.call
    (LiSendHighResScrollEvent settings session.stream allocated scrollAmount).2
  | .sendStep sends => { session with stream := InputStream.sendStep session.stream sends }

def run (settings : Settings) (events : List Event) : Session :=
  events.foldl (step settings) ⟨initializeInputStream, [], 0, false⟩

section Offers

variable {stream : Stream}

/-- Some packets were put at the end of the queue. -/
def Extended (before after : Stream) : Prop :=
  ∃ packets batchedScrollDelta, after = { before with
    packetQueue := before.packetQueue ++ packets
    batchedScrollDelta := batchedScrollDelta }

theorem Extended.refl (stream : Stream) : Extended stream stream := by
  refine ⟨[], stream.batchedScrollDelta, ?_⟩
  rw [List.append_nil]

theorem Extended.trans {first second third : Stream} (one : Extended first second)
    (other : Extended second third) : Extended first third := by
  obtain ⟨packets, delta, rfl⟩ := one
  obtain ⟨more, delta, rfl⟩ := other
  exact ⟨packets ++ more, delta, by rw [List.append_assoc]⟩

theorem offer_cases (stream : Stream) (packet : Packet) :
    offer stream packet = (0, { stream with packetQueue := stream.packetQueue ++ [packet] }) ∨
      (0 < (offer stream packet).1 ∧ (offer stream packet).2 = stream) := by
  unfold offer
  split_ifs
  · exact Or.inr ⟨(by decide : 0 < LBQ_INTERRUPTED), rfl⟩
  · exact Or.inr ⟨(by decide : 0 < LBQ_BOUND_EXCEEDED), rfl⟩
  · exact Or.inl rfl

theorem offer_extended (stream : Stream) (packet : Packet) :
    Extended stream (offer stream packet).2 := by
  unfold offer
  split_ifs
  · exact Extended.refl stream
  · exact Extended.refl stream
  · exact ⟨[packet], _, rfl⟩

theorem queuePacket_extended (stream : Stream) (allocated : Bool) (packet : Packet) :
    Extended stream (queuePacket stream allocated packet).2 := by
  unfold queuePacket
  split_ifs
  · exact Extended.refl stream
  · exact Extended.refl stream
  · exact offer_extended stream packet

theorem scrollSteps_extended (passes : ℕ) (stream : Stream) (allocated : ℕ → Bool) :
    Extended stream (scrollSteps passes stream allocated).2 := by
  induction passes generalizing stream allocated with
  | zero => exact Extended.refl stream
  | succ passes ih =>
      unfold scrollSteps
      dsimp only
      generalize (if 0 < stream.batchedScrollDelta then LI_WHEEL_DELTA else -LI_WHEEL_DELTA) = amount
      obtain ⟨packets, delta, offered⟩ := offer_extended stream (.scroll amount)
      split_ifs
      · exact Extended.refl stream
      · exact Extended.refl stream
      · exact offer_extended stream (.scroll amount)
      · refine Extended.trans ?_ (ih _ _)
        rw [offered]
        exact ⟨packets, _, rfl⟩

theorem LiSendHighResScrollEvent_extended (settings : Settings) (stream : Stream)
    (allocated : ℕ → Bool) (scrollAmount : ℤ) :
    Extended stream (LiSendHighResScrollEvent settings stream allocated scrollAmount).2 := by
  unfold LiSendHighResScrollEvent
  dsimp only
  by_cases ready : stream.initialized = false
  · rw [if_pos ready]
    exact Extended.refl stream
  rw [if_neg ready]
  by_cases nothing : scrollAmount = 0
  · rw [if_pos nothing]
    exact Extended.refl stream
  rw [if_neg nothing]
  by_cases single : settings.needsBatchedScroll = false
  · rw [if_pos single]
    exact queuePacket_extended stream _ _
  · rw [if_neg single]
    have gathered : ∀ delta, Extended stream { stream with batchedScrollDelta := delta } := by
      intro delta
      refine ⟨[], delta, ?_⟩
      rw [List.append_nil]
    exact (gathered _).trans (scrollSteps_extended _ _ allocated)

/-- The calls that only queue packets. -/
def Queues : Event → Bool
  | .mousePosition .. | .mouseMove .. | .startInputStream _ | .stopInputStream | .sendStep _ => false
  | _ => true

theorem step_extended (settings : Settings) (session : Session) {event : Event}
    (queues : Queues event = true) : ∃ after, Extended session.stream after ∧
      step settings session event = session.call after := by
  cases event with
  | mouseButton allocated action button => exact ⟨_, queuePacket_extended _ _ _, rfl⟩
  | utf8Text allocated text => exact ⟨_, queuePacket_extended _ _ _, rfl⟩
  | multiController allocated buttonFlags packet => exact ⟨_, queuePacket_extended _ _ _, rfl⟩
  | scroll allocated scrollAmount =>
      exact ⟨_, LiSendHighResScrollEvent_extended settings _ allocated scrollAmount, rfl⟩
  | startInputStream allocated => cases queues
  | stopInputStream => cases queues
  | mouseMove allocated deltaX deltaY => cases queues
  | mousePosition allocated x y width height => cases queues
  | sendStep sends => cases queues

end Offers

section Motion

def motion : Sent → ℤ × ℤ
  | .moved deltaX deltaY => (deltaX, deltaY)
  | _ => 0

/-- The motion that was sent. -/
def sentMotion (stream : Stream) : ℤ × ℤ := (stream.sent.map motion).sum

/-- A packet holds a motion in 16 bits. -/
def Fits : Sent → Prop
  | .moved deltaX deltaY =>
    -32768 ≤ deltaX ∧ deltaX ≤ 32767 ∧ -32768 ≤ deltaY ∧ deltaY ≤ 32767
  | _ => True

/-- What was asked for is sent or gathered, and what is gathered will be sent, unless a call for it
failed. -/
structure Conserved (session : Session) : Prop where
  total : sentMotion session.stream + (session.stream.deltaX, session.stream.deltaY) =
    session.requested
  fits : ∀ sent ∈ session.stream.sent, Fits sent
  pending : (session.stream.deltaX, session.stream.deltaY) ≠ 0 →
    session.stream.relativeDirty = true ∨ session.failed = true
  dirty : session.stream.relativeDirty = true → .mouseMoveRel ∈ session.stream.packetQueue ∨
    session.stream.thread = .moving ∨ session.stream.thread = .stopped
  fresh : session.stream.initialized = false → session.stream.draining = false →
    session.stream.relativeDirty = false

variable {session : Session} {settings : Settings}

theorem Conserved.extend (conserved : Conserved session) {after : Stream}
    (extended : Extended session.stream after) : Conserved (session.call after) := by
  obtain ⟨packets, delta, rfl⟩ := extended
  exact ⟨conserved.total, conserved.fits, conserved.pending,
    fun dirty => (conserved.dirty dirty).imp_left (List.mem_append_left _), conserved.fresh⟩

theorem chunk_sum (delta : ℤ) : (chunk delta).1 + (chunk delta).2 = delta := by
  unfold chunk
  split_ifs
  · omega
  · omega
  · omega

theorem chunk_fits (delta : ℤ) : -32768 ≤ (chunk delta).1 ∧ (chunk delta).1 ≤ 32767 := by
  unfold chunk
  split_ifs
  · omega
  · omega
  · omega

theorem sentMotion_send (stream : Stream) (sends : Bool) (sent : Sent) (next : Thread) :
    sentMotion (send stream sends sent next) = sentMotion stream + motion sent := by
  unfold sentMotion send
  rw [List.map_append, List.sum_append, List.map_singleton, List.sum_singleton]

/-- Sending something that is not a motion, with any other packets left in the queue. -/
theorem Conserved.send (conserved : Conserved session) {sent : Sent}
    (still : ∀ deltaX deltaY, sent ≠ .moved deltaX deltaY) {rest : List Packet}
    {absoluteDirty sends : Bool} {next : Thread}
    (kept : session.stream.relativeDirty = true → .mouseMoveRel ∈ rest) :
    Conserved { session with
      stream := (InputStream.send { session.stream with packetQueue := rest, absoluteDirty := absoluteDirty }
        sends sent next) } := by
  have nothing : motion sent = 0 ∧ Fits sent := by
    cases sent with
    | moved deltaX deltaY => exact absurd rfl (still deltaX deltaY)
    | position x y width height => exact ⟨rfl, trivial⟩
    | codePoint text => exact ⟨rfl, trivial⟩
    | packet packet => exact ⟨rfl, trivial⟩
  refine ⟨?_, fun other member => ?_, conserved.pending, fun dirty => Or.inl (kept dirty),
    conserved.fresh⟩
  · have total := conserved.total
    dsimp only
    rw [sentMotion_send, nothing.1, add_zero]
    exact total
  · rcases List.mem_append.mp member with before | now
    · exact conserved.fits other before
    · rw [List.mem_singleton.mp now]
      exact nothing.2

/-- The holder for the motion is among the packets after another one. -/
theorem Conserved.holder (conserved : Conserved session) {packet : Packet} {rest : List Packet}
    (queued : session.stream.packetQueue = packet :: rest) (other : packet ≠ .mouseMoveRel)
    (not_moving : session.stream.thread ≠ .moving)
    (running : session.stream.thread ≠ .stopped) :
    session.stream.relativeDirty = true → .mouseMoveRel ∈ rest := by
  intro dirty
  rcases conserved.dirty dirty with queue | moving | stopped
  · rw [queued] at queue
    exact (List.mem_cons.mp queue).resolve_left other.symm
  · exact absurd moving not_moving
  · exact absurd stopped running

/-- The thread goes on with another packet, or with another part of its packet. -/
theorem Conserved.go (conserved : Conserved session) {rest : List Packet} {next : Thread}
    (kept : session.stream.relativeDirty = true → .mouseMoveRel ∈ rest) :
    Conserved { session with stream := { session.stream with
      packetQueue := rest
      thread := next } } :=
  ⟨conserved.total, conserved.fits, conserved.pending, fun dirty => Or.inl (kept dirty),
    conserved.fresh⟩

theorem Conserved.move (conserved : Conserved session) (sends : Bool) :
    Conserved { session with
      stream := (InputStream.send { session.stream with
        deltaX := (chunk session.stream.deltaX).2
        deltaY := (chunk session.stream.deltaY).2 } sends
        (.moved (chunk session.stream.deltaX).1 (chunk session.stream.deltaY).1) .moving) } := by
  have total := conserved.total
  refine ⟨?_, fun other member => ?_, fun some_left => conserved.pending ?_, fun _ => Or.inr ?_,
    conserved.fresh⟩
  · have together :
        motion (.moved (chunk session.stream.deltaX).1 (chunk session.stream.deltaY).1) +
            ((chunk session.stream.deltaX).2, (chunk session.stream.deltaY).2) =
          (session.stream.deltaX, session.stream.deltaY) :=
      Prod.ext (chunk_sum _) (chunk_sum _)
    dsimp only
    rw [sentMotion_send, add_assoc]
    exact (congrArg _ together).trans total
  · rcases List.mem_append.mp member with before | now
    · exact conserved.fits other before
    · rw [List.mem_singleton.mp now]
      exact ⟨(chunk_fits _).1, (chunk_fits _).2, (chunk_fits _).1, (chunk_fits _).2⟩
  · rintro nothing
    obtain ⟨no_x, no_y⟩ := Prod.mk.inj nothing
    apply some_left
    dsimp only [InputStream.send]
    rw [no_x, no_y]
    rfl
  · cases sends with
    | false => exact Or.inr rfl
    | true => exact Or.inl rfl

theorem Conserved.sendStep (conserved : Conserved session) (sends : Bool) :
    Conserved (step settings session (.sendStep sends)) := by
  unfold step InputStream.sendStep
  dsimp only
  cases running : session.stream.thread with
  | stopped => exact conserved
  | waiting =>
      have not_moving : session.stream.thread ≠ .moving := by simp [running]
      have not_stopped : session.stream.thread ≠ .stopped := by simp [running]
      dsimp only
      cases queued : session.stream.packetQueue with
      | nil =>
          dsimp only
          split_ifs
          · exact ⟨conserved.total, conserved.fits, conserved.pending,
              fun _ => Or.inr (Or.inr rfl), conserved.fresh⟩
          · exact conserved
      | cons packet rest =>
          cases packet with
          | mouseMoveRel => exact ⟨conserved.total, conserved.fits, conserved.pending,
              fun _ => Or.inr (Or.inl rfl), conserved.fresh⟩
          | mouseMoveAbs =>
              exact conserved.send (by simp)
                (conserved.holder queued (by simp) not_moving not_stopped)
          | multiController packet =>
              exact conserved.go (conserved.holder queued (by simp) not_moving not_stopped)
          | unicode text =>
              exact conserved.go (conserved.holder queued (by simp) not_moving not_stopped)
          | mouseButton action button =>
              exact conserved.send (by simp)
                (conserved.holder queued (by simp) not_moving not_stopped)
          | controller packet =>
              exact conserved.send (by simp)
                (conserved.holder queued (by simp) not_moving not_stopped)
          | scroll amount =>
              exact conserved.send (by simp)
                (conserved.holder queued (by simp) not_moving not_stopped)
          | haptics =>
              exact conserved.send (by simp)
                (conserved.holder queued (by simp) not_moving not_stopped)
  | batching packet =>
      have here : session.stream.relativeDirty = true →
          .mouseMoveRel ∈ session.stream.packetQueue := fun dirty => by
        rcases conserved.dirty dirty with queue | moving | stopped
        · exact queue
        · cases running.symm.trans moving
        · cases running.symm.trans stopped
      dsimp only
      split
      · rename_i next rest queued
        split_ifs
        · exact conserved.go (conserved.holder queued (by simp) (by simp [running])
            (by simp [running]))
        · exact conserved.send (by simp) here
      · exact conserved.send (by simp) here
  | moving =>
      dsimp only
      split_ifs with nothing
      · refine ⟨conserved.total, conserved.fits, fun something => ?_, fun dirty => ?_,
          fun _ _ => rfl⟩
        · exact absurd (Prod.ext nothing.1 nothing.2) something
        · cases dirty
      · exact conserved.move sends
  | splitting text =>
      have here : session.stream.relativeDirty = true →
          .mouseMoveRel ∈ session.stream.packetQueue := fun dirty => by
        rcases conserved.dirty dirty with queue | moving | stopped
        · exact queue
        · cases running.symm.trans moving
        · cases running.symm.trans stopped
      dsimp only
      split
      · exact conserved.go here
      · exact conserved.send (by simp) here

theorem Conserved.mouseMove (conserved : Conserved session) (allocated : Bool)
    (deltaX deltaY : ℤ) :
    Conserved (step settings session (.mouseMove allocated deltaX deltaY)) := by
  have total := conserved.total
  unfold step LiSendMouseMoveEvent Session.call
  dsimp only
  by_cases closed : session.stream.initialized = false
  · rw [if_pos closed]
    exact ⟨total, conserved.fits, fun some_left => (conserved.pending some_left).imp_right
      fun failed => by simp [failed], conserved.dirty, conserved.fresh⟩
  rw [if_neg closed]
  by_cases nothing : deltaX = 0 ∧ deltaY = 0
  · rw [if_pos nothing]
    refine ⟨?_, conserved.fits, fun some_left => (conserved.pending some_left).imp_right
      fun failed => by simp [failed], conserved.dirty, conserved.fresh⟩
    rw [nothing.1, nothing.2]
    exact total.trans (add_zero session.requested).symm
  rw [if_neg nothing]
  have added : sentMotion session.stream +
      (session.stream.deltaX + deltaX, session.stream.deltaY + deltaY) =
        session.requested + (deltaX, deltaY) := by
    rw [← total, add_assoc]
    rfl
  have open_now : ∀ {P : Prop}, session.stream.initialized = false → P :=
    fun now => absurd now closed
  by_cases dirty : session.stream.relativeDirty = true
  · rw [if_pos dirty]
    exact ⟨added, conserved.fits, fun _ => Or.inl dirty, conserved.dirty, fun now => open_now now⟩
  rw [if_neg dirty]
  by_cases failed : allocated = false
  · rw [if_pos failed]
    exact ⟨added, conserved.fits, fun _ => Or.inr (by simp), fun now => absurd now dirty,
      fun now => open_now now⟩
  rw [if_neg failed]
  rcases offer_cases { session.stream with
      deltaX := session.stream.deltaX + deltaX
      deltaY := session.stream.deltaY + deltaY } .mouseMoveRel with success | ⟨code, unchanged⟩
  · rw [success]
    exact ⟨added, conserved.fits, fun _ => Or.inl rfl,
      fun _ => Or.inl (List.mem_append_right _ List.mem_cons_self), fun now => open_now now⟩
  · rw [if_neg (ne_of_gt code), unchanged, if_neg fun closed => by
      rw [closed] at code
      exact absurd code (by decide)]
    exact ⟨added, conserved.fits, fun _ => Or.inr (by simp [code]), fun now => absurd now dirty,
      fun now => open_now now⟩

theorem Conserved.mousePosition (conserved : Conserved session) (allocated : Bool)
    (x y width height : ℤ) :
    Conserved (step settings session (.mousePosition allocated x y width height)) := by
  have moved : ∀ {absoluteDirty : Bool} {packets : List Packet}, Conserved (session.call
      { session.stream with
        x := x
        y := y
        width := width
        height := height
        absoluteDirty := absoluteDirty
        packetQueue := session.stream.packetQueue ++ packets }) := fun {_} {_} =>
    ⟨conserved.total, conserved.fits, conserved.pending,
      fun dirty => (conserved.dirty dirty).imp_left (List.mem_append_left _), conserved.fresh⟩
  have still : Conserved (session.call { session.stream with
      x := x
      y := y
      width := width
      height := height }) := by
    have same := @moved session.stream.absoluteDirty []
    rw [List.append_nil] at same
    exact same
  unfold step LiSendMousePositionEvent
  dsimp only
  split_ifs with closed dirty failed success
  · exact conserved.extend (Extended.refl _)
  · exact still
  · exact still
  · rcases offer_cases { session.stream with
        x := x
        y := y
        width := width
        height := height } .mouseMoveAbs with offered | ⟨code, unchanged⟩
    · rw [offered]
      exact moved
    · exact absurd success (ne_of_gt code)
  · rcases offer_cases { session.stream with
        x := x
        y := y
        width := width
        height := height } .mouseMoveAbs with offered | ⟨code, unchanged⟩
    · rw [offered] at success
      exact absurd rfl success
    · rw [unchanged]
      exact still

theorem Conserved.startInputStream (conserved : Conserved session) (allocated : Bool) :
    Conserved (step settings session (.startInputStream allocated)) := by
  unfold step InputStream.startInputStream
  dsimp only
  by_cases used : session.stream.initialized = true ∨ session.stream.draining = true
  · rw [if_pos used]
    exact conserved
  · rw [if_neg used]
    simp only [not_or, Bool.not_eq_true] at used
    have clean := conserved.fresh used.1 used.2
    have started : ∀ {packets : List Packet}, Conserved (session.call { session.stream with
        thread := .waiting
        initialized := true
        packetQueue := session.stream.packetQueue ++ packets }) := fun {_} =>
      ⟨conserved.total, conserved.fits, conserved.pending,
        fun dirty => absurd (clean.symm.trans dirty) Bool.false_ne_true, fun now => by cases now⟩
    split_ifs
    · obtain ⟨packets, delta, offered⟩ := queuePacket_extended { session.stream with
        thread := .waiting
        initialized := true } allocated .haptics
      rw [offered]
      exact ⟨conserved.total, conserved.fits, conserved.pending,
        fun dirty => absurd (clean.symm.trans dirty) Bool.false_ne_true, fun now => by cases now⟩
    · have same := @started []
      rw [List.append_nil] at same
      exact same

theorem Conserved.step (conserved : Conserved session) (event : Event) :
    Conserved (step settings session event) := by
  by_cases queues : Queues event = true
  · obtain ⟨after, extended, called⟩ := step_extended settings session queues
    rw [called]
    exact conserved.extend extended
  · cases event with
    | startInputStream allocated => exact conserved.startInputStream allocated
    | stopInputStream =>
        exact ⟨conserved.total, conserved.fits, conserved.pending, conserved.dirty,
          fun _ live => by cases live⟩
    | mouseMove allocated deltaX deltaY => exact conserved.mouseMove allocated deltaX deltaY
    | mousePosition allocated x y width height =>
        exact conserved.mousePosition allocated x y width height
    | sendStep sends => exact conserved.sendStep sends
    | mouseButton allocated action button => exact absurd rfl queues
    | utf8Text allocated text => exact absurd rfl queues
    | multiController allocated buttonFlags packet => exact absurd rfl queues
    | scroll allocated scrollAmount => exact absurd rfl queues

theorem run_append (settings : Settings) (events : List Event) (event : Event) :
    run settings (events ++ [event]) = InputDelivery.step settings (run settings events) event := by
  rw [run, List.foldl_append]
  rfl

theorem run_conserved (settings : Settings) (events : List Event) :
    Conserved (run settings events) := by
  induction events using List.reverseRecOn with
  | nil =>
      refine ⟨rfl, fun sent none => absurd none List.not_mem_nil,
        fun something => absurd rfl something, fun dirty => ?_, fun _ _ => rfl⟩
      cases dirty
  | append_singleton events event ih =>
      rw [run_append]
      exact ih.step event

end Motion

section Order

/-- Some controller packets were left out, each directly before another one with the same
buttons. -/
inductive Thinned : List Packet → List Packet → Prop
  | refl (packets : List Packet) : Thinned packets packets
  | leaveOut {packets before after : List Packet} {packet next : MultiController} :
      Thinned packets (before ++ .multiController packet :: .multiController next :: after) →
      batchable packet next = true →
      Thinned packets (before ++ .multiController next :: after)

theorem Thinned.append {packets rest : List Packet} (thinned : Thinned packets rest)
    (more : List Packet) : Thinned (packets ++ more) (rest ++ more) := by
  induction thinned with
  | refl => exact .refl _
  | leaveOut _ same ih =>
      rw [List.append_assoc] at ih ⊢
      exact .leaveOut ih same

/-- The packets whose place in the order is kept. -/
def plain : Packet → Bool
  | .mouseMoveRel | .mouseMoveAbs | .unicode _ => false
  | _ => true

def sentPacket : Sent → Option Packet
  | .packet packet => some packet
  | _ => none

/-- The packet that the thread holds in a loop. -/
def held : Thread → List Packet
  | .batching packet => [.multiController packet]
  | _ => []

/-- The plain packets that were sent, the one at hand, and those that wait. -/
def line (stream : Stream) : List Packet :=
  stream.sent.filterMap sentPacket ++ (held stream.thread ++ stream.packetQueue.filter plain)

structure Ordered (session : Session) : Prop where
  thinned : Thinned (session.queued.filter plain) (line session.stream)
  fresh : session.stream.initialized = false → session.stream.draining = false →
    session.stream.thread = .stopped

variable {session : Session} {settings : Settings}

theorem batch_eq {packet next : MultiController} (same : batchable packet next = true) :
    batch packet next = next := by
  obtain ⟨flags, flags2, number, mask⟩ := of_decide_eq_true same
  unfold batch
  rw [← flags, ← flags2, ← number, ← mask]

theorem Ordered.extend (ordered : Ordered session) {after : Stream} {packets : List Packet}
    (queue : after.packetQueue = session.stream.packetQueue ++ packets)
    (sent : after.sent = session.stream.sent)
    (thread : held after.thread = held session.stream.thread)
    (fresh : after.initialized = false → after.draining = false → after.thread = .stopped) :
    Ordered (session.call after) := by
  refine ⟨?_, fresh⟩
  unfold Session.call
  dsimp only
  rw [queue, List.drop_left, List.filter_append]
  have longer : line after = line session.stream ++ packets.filter plain := by
    unfold line
    rw [sent, thread, queue, List.filter_append]
    simp only [List.append_assoc]
  rw [longer]
  exact ordered.thinned.append _

theorem Ordered.call (ordered : Ordered session) {after : Stream}
    (extended : Extended session.stream after) : Ordered (session.call after) := by
  obtain ⟨packets, delta, rfl⟩ := extended
  exact ordered.extend rfl rfl rfl ordered.fresh

theorem Ordered.go (ordered : Ordered session) (running : session.stream.thread ≠ .stopped)
    {after : Stream} (same : line after = line session.stream)
    (initialized : after.initialized = session.stream.initialized)
    (draining : after.draining = session.stream.draining) :
    Ordered { session with stream := after } := by
  refine ⟨?_, fun closed live => ?_⟩
  · rw [same]
    exact ordered.thinned
  · exact absurd (ordered.fresh (initialized.symm.trans closed) (draining.symm.trans live)) running

theorem held_next {sends : Bool} {next : Thread} (nothing : held next = []) :
    held (if sends then next else .stopped) = [] := by
  cases sends with
  | false => rfl
  | true => exact nothing

theorem sentPacket_send (stream : Stream) (sends : Bool) (sent : Sent) (next : Thread) :
    (send stream sends sent next).sent.filterMap sentPacket =
      stream.sent.filterMap sentPacket ++ [sent].filterMap sentPacket :=
  List.filterMap_append

/-- The thread holds no packet, and goes on to hold none. -/
theorem line_same {before after : Stream} (sent : after.sent = before.sent)
    (before_held : held before.thread = []) (after_held : held after.thread = [])
    (queue : after.packetQueue.filter plain = before.packetQueue.filter plain) :
    line after = line before := by
  unfold line
  rw [sent, before_held, after_held, queue]

/-- Something else than a plain packet is sent. -/
theorem line_other {stream : Stream} {sent : Sent} {sends : Bool} {next : Thread}
    {before : Stream} (sent_before : stream.sent = before.sent)
    (before_held : held before.thread = []) (next_held : held next = [])
    (other : sentPacket sent = none)
    (queue : stream.packetQueue.filter plain = before.packetQueue.filter plain) :
    line (send stream sends sent next) = line before := by
  have nothing : [sent].filterMap sentPacket = [] := List.filterMap_cons_none other
  have unheld : held (send stream sends sent next).thread = [] := held_next next_held
  unfold line
  rw [sentPacket_send, nothing, List.append_nil, sent_before, unheld, before_held,
    List.nil_append, List.nil_append]
  exact congrArg _ queue

/-- The packet that was at the front of the line is sent. -/
theorem line_packet {stream : Stream} {packet : Packet} {sends : Bool} {before : Stream}
    (sent_before : stream.sent = before.sent)
    (front : held before.thread ++ before.packetQueue.filter plain =
      packet :: stream.packetQueue.filter plain) :
    line (send stream sends (.packet packet) .waiting) = line before := by
  have unheld : held (send stream sends (.packet packet) .waiting).thread = [] := held_next rfl
  unfold line
  rw [sentPacket_send, sent_before, unheld, front, List.nil_append, List.append_assoc]
  rfl

theorem Ordered.sendStep (ordered : Ordered session) (sends : Bool) :
    Ordered (step settings session (.sendStep sends)) := by
  unfold step InputStream.sendStep
  dsimp only
  cases running : session.stream.thread with
  | stopped => exact ordered
  | waiting =>
      have not_stopped : session.stream.thread ≠ .stopped := by simp [running]
      have none_held : held session.stream.thread = [] := by rw [running]; rfl
      dsimp only
      cases queued : session.stream.packetQueue with
      | nil =>
          dsimp only
          split_ifs
          · exact ordered.go not_stopped (line_same rfl none_held rfl (by rw [queued])) rfl rfl
          · exact ordered
      | cons packet rest =>
          -- A packet that keeps its place is at the front of the line.
          have front : plain packet = true →
              held session.stream.thread ++ session.stream.packetQueue.filter plain =
                packet :: rest.filter plain := by
            intro kept
            rw [none_held, queued, List.nil_append, List.filter_cons_of_pos kept]
          have skipped : plain packet = false →
              rest.filter plain = session.stream.packetQueue.filter plain := by
            intro other
            rw [queued, List.filter_cons_of_neg (by simp [other])]
          cases packet with
          | mouseMoveRel =>
              exact ordered.go not_stopped (line_same rfl none_held rfl (skipped rfl)) rfl rfl
          | mouseMoveAbs =>
              exact ordered.go not_stopped (line_other rfl none_held rfl rfl (skipped rfl)) rfl rfl
          | multiController packet =>
              refine ordered.go not_stopped ?_ rfl rfl
              unfold line
              rw [front rfl]
              rfl
          | unicode text =>
              exact ordered.go not_stopped (line_same rfl none_held rfl (skipped rfl)) rfl rfl
          | mouseButton action button =>
              exact ordered.go not_stopped (line_packet rfl (front rfl)) rfl rfl
          | controller packet =>
              exact ordered.go not_stopped (line_packet rfl (front rfl)) rfl rfl
          | scroll amount =>
              exact ordered.go not_stopped (line_packet rfl (front rfl)) rfl rfl
          | haptics => exact ordered.go not_stopped (line_packet rfl (front rfl)) rfl rfl
  | batching packet =>
      have not_stopped : session.stream.thread ≠ .stopped := by simp [running]
      have holding : held session.stream.thread = [.multiController packet] := by
        rw [running]
        rfl
      have sending : Ordered { session with
          stream := (send session.stream sends (.packet (.multiController packet)) .waiting) } := by
        refine ordered.go not_stopped (line_packet rfl ?_) rfl rfl
        rw [holding]
        rfl
      dsimp only
      split
      · rename_i next rest queued
        by_cases same : batchable packet next = true
        · rw [if_pos same, batch_eq same]
          refine ⟨?_, fun closed live => absurd (ordered.fresh closed live) not_stopped⟩
          have thinned := ordered.thinned
          unfold line at thinned ⊢
          rw [holding, queued] at thinned
          exact .leaveOut thinned same
        · rw [if_neg same]
          exact sending
      · exact sending
  | moving =>
      have not_stopped : session.stream.thread ≠ .stopped := by simp [running]
      have none_held : held session.stream.thread = [] := by rw [running]; rfl
      dsimp only
      split_ifs
      · exact ordered.go not_stopped (line_same rfl none_held rfl rfl) rfl rfl
      · exact ordered.go not_stopped (line_other rfl none_held rfl rfl rfl) rfl rfl
  | splitting text =>
      have not_stopped : session.stream.thread ≠ .stopped := by simp [running]
      have none_held : held session.stream.thread = [] := by rw [running]; rfl
      dsimp only
      split
      · exact ordered.go not_stopped (line_same rfl none_held rfl rfl) rfl rfl
      · exact ordered.go not_stopped (line_other rfl none_held rfl rfl rfl) rfl rfl

/-- A call whose only effect on the line is a packet for the motion or the position. -/
theorem Ordered.offered (ordered : Ordered session) {called : Stream}
    (queue : called.packetQueue = session.stream.packetQueue ∨
      ∃ packet, called.packetQueue = session.stream.packetQueue ++ [packet])
    (sent : called.sent = session.stream.sent) (thread : called.thread = session.stream.thread)
    (initialized : called.initialized = session.stream.initialized)
    (draining : called.draining = session.stream.draining) :
    Ordered (session.call called) := by
  have fresh : called.initialized = false → called.draining = false →
      called.thread = .stopped := by
    intro closed live
    rw [thread]
    exact ordered.fresh (initialized.symm.trans closed) (draining.symm.trans live)
  rcases queue with same | ⟨packet, longer⟩
  · exact ordered.extend (same.trans (List.append_nil _).symm) sent (congrArg held thread) fresh
  · exact ordered.extend longer sent (congrArg held thread) fresh

theorem Ordered.mouseMove (ordered : Ordered session) (allocated : Bool) (deltaX deltaY : ℤ) :
    Ordered (step settings session (.mouseMove allocated deltaX deltaY)) := by
  have called : Ordered
      (session.call (LiSendMouseMoveEvent session.stream allocated deltaX deltaY).2) := by
    unfold LiSendMouseMoveEvent
    dsimp only
    split_ifs
    · exact ordered.offered (Or.inl rfl) rfl rfl rfl rfl
    · exact ordered.offered (Or.inl rfl) rfl rfl rfl rfl
    · exact ordered.offered (Or.inl rfl) rfl rfl rfl rfl
    · exact ordered.offered (Or.inl rfl) rfl rfl rfl rfl
    all_goals
      rcases offer_cases { session.stream with
        deltaX := session.stream.deltaX + deltaX
        deltaY := session.stream.deltaY + deltaY } .mouseMoveRel with offered | ⟨_, unchanged⟩
    · rw [offered]
      exact ordered.offered (Or.inr ⟨_, rfl⟩) rfl rfl rfl rfl
    · rw [unchanged]
      exact ordered.offered (Or.inl rfl) rfl rfl rfl rfl
    · rw [offered]
      exact ordered.offered (Or.inr ⟨_, rfl⟩) rfl rfl rfl rfl
    · rw [unchanged]
      exact ordered.offered (Or.inl rfl) rfl rfl rfl rfl
  exact ⟨called.thinned, called.fresh⟩

theorem Ordered.mousePosition (ordered : Ordered session) (allocated : Bool)
    (x y width height : ℤ) :
    Ordered (step settings session (.mousePosition allocated x y width height)) := by
  unfold step LiSendMousePositionEvent
  dsimp only
  split_ifs
  · exact ordered.call (Extended.refl _)
  · exact ordered.offered (Or.inl rfl) rfl rfl rfl rfl
  · exact ordered.offered (Or.inl rfl) rfl rfl rfl rfl
  all_goals
    rcases offer_cases { session.stream with
      x := x
      y := y
      width := width
      height := height } .mouseMoveAbs with offered | ⟨_, unchanged⟩
  · rw [offered]
    exact ordered.offered (Or.inr ⟨_, rfl⟩) rfl rfl rfl rfl
  · rw [unchanged]
    exact ordered.offered (Or.inl rfl) rfl rfl rfl rfl
  · rw [offered]
    exact ordered.offered (Or.inr ⟨_, rfl⟩) rfl rfl rfl rfl
  · rw [unchanged]
    exact ordered.offered (Or.inl rfl) rfl rfl rfl rfl

theorem Ordered.step (ordered : Ordered session) (event : Event) :
    Ordered (step settings session event) := by
  by_cases queues : Queues event = true
  · obtain ⟨after, extended, called⟩ := step_extended settings session queues
    rw [called]
    exact ordered.call extended
  · cases event with
    | startInputStream allocated =>
        unfold InputDelivery.step InputStream.startInputStream
        dsimp only
        by_cases used : session.stream.initialized = true ∨ session.stream.draining = true
        · rw [if_pos used]
          exact ordered
        · rw [if_neg used]
          simp only [not_or, Bool.not_eq_true] at used
          have stopped := ordered.fresh used.1 used.2
          obtain ⟨packets, delta, offered⟩ := queuePacket_extended { session.stream with
            thread := .waiting
            initialized := true } allocated .haptics
          split_ifs
          · rw [offered]
            exact ordered.extend rfl rfl (by rw [stopped]; rfl) fun now => by cases now
          · exact ordered.extend (List.append_nil _).symm rfl (by rw [stopped]; rfl)
              fun now => by cases now
    | stopInputStream => exact ⟨ordered.thinned, fun _ live => by cases live⟩
    | mouseMove allocated deltaX deltaY => exact ordered.mouseMove allocated deltaX deltaY
    | mousePosition allocated x y width height =>
        exact ordered.mousePosition allocated x y width height
    | sendStep sends => exact ordered.sendStep sends
    | mouseButton allocated action button => exact absurd rfl queues
    | utf8Text allocated text => exact absurd rfl queues
    | multiController allocated buttonFlags packet => exact absurd rfl queues
    | scroll allocated scrollAmount => exact absurd rfl queues

theorem run_ordered (settings : Settings) (events : List Event) :
    Ordered (run settings events) := by
  induction events using List.reverseRecOn with
  | nil => exact ⟨.refl _, fun _ _ => rfl⟩
  | append_singleton events event ih =>
      rw [run_append]
      exact ih.step event

/-- The state that a packet gives to a controller. -/
def controls (controllerNumber : ℤ) : Packet → Option MultiController
  | .multiController packet =>
    if packet.controllerNumber = controllerNumber then some packet else none
  | _ => none

/-- The last state that the packets give to a controller. -/
def latest (controllerNumber : ℤ) (packets : List Packet) : Option MultiController :=
  (packets.filterMap (controls controllerNumber)).getLast?

theorem latest_plain (controllerNumber : ℤ) (packets : List Packet) :
    latest controllerNumber (packets.filter plain) = latest controllerNumber packets := by
  have other : ∀ packet, plain packet = false → controls controllerNumber packet = none := by
    rintro packet not_plain
    cases packet with
    | multiController packet => cases not_plain
    | mouseMoveRel => rfl
    | mouseMoveAbs => rfl
    | mouseButton action button => rfl
    | controller packet => rfl
    | scroll amount => rfl
    | unicode text => rfl
    | haptics => rfl
  unfold latest
  rw [List.filterMap_filter]
  congr 1
  refine List.filterMap_congr fun packet _ => ?_
  cases kept : plain packet with
  | true => rfl
  | false => exact (other packet kept).symm

theorem Thinned.latest {packets rest : List Packet} (thinned : Thinned packets rest)
    (controllerNumber : ℤ) : latest controllerNumber packets = latest controllerNumber rest := by
  induction thinned with
  | refl => rfl
  | @leaveOut before after packet next _ same ih =>
      have number := (of_decide_eq_true same).2.2.1
      rw [ih]
      unfold InputDelivery.latest
      simp only [List.filterMap_append, List.filterMap_cons, controls, number]
      split_ifs
      · simp only [List.getLast?_append, List.getLast?_cons_cons]
      · rfl

/-- In any order of what the threads do, button, wheel and controller packets leave in the order in
which they were queued, and a controller packet is left out only directly before one with the same
buttons, so that the last one of every controller is sent. -/
theorem sent_in_order (settings : Settings) (events : List Event) :
    Thinned ((run settings events).queued.filter plain) (line (run settings events).stream) ∧
    ((run settings events).stream.thread = .waiting →
      (run settings events).stream.packetQueue = [] → ∀ controllerNumber,
        latest controllerNumber ((run settings events).stream.sent.filterMap sentPacket) =
          latest controllerNumber (run settings events).queued) := by
  have thinned := (run_ordered settings events).thinned
  refine ⟨thinned, fun waiting empty controllerNumber => ?_⟩
  have all_sent : line (run settings events).stream =
      (run settings events).stream.sent.filterMap sentPacket := by
    unfold line
    rw [waiting, empty]
    exact List.append_nil _
  rw [← all_sent, ← thinned.latest controllerNumber]
  exact latest_plain controllerNumber _

end Order

end MoonlightWii.Limelight.InputDelivery
