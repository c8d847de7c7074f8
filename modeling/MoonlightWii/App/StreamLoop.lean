import MoonlightWii.Foundation.GuardedRun
import MoonlightWii.Wii.Input

/-!
# The streaming part of `do_stream` and its two stop requests

Three parties write the global `state` without a lock: the main thread from the
call of `LiStartConnection` on, the input thread in `wii_input_update`, and the
callback `connection_terminated`, which moonlight-common-c runs on a thread of
its own from the moment `LiStartConnection` has been called.  Each event is one
atomic step of one party.
-/

set_option autoImplicit false

namespace MoonlightWii.App.StreamLoop

open Foundation.GuardedRun
open MoonlightWii.Wii.Input

inductive AppState where
  | invalid
  | disconnected
  | connecting
  | connected
  | pairing
  | startStream
  | stopStream
  | streaming
  deriving DecidableEq, Repr

/-- `connection_terminated`: what it leaves in `is_error` and `message_buffer`. -/
def terminationNotice (errorCode : Int) : Bool × String :=
  if errorCode = 0 then
    (false, "Connection has been terminated gracefully.\n")
  else if errorCode = -100 then
    (true, "No video received from host.\n Check the host PC's firewall and port forwarding rules.\n")
  else if errorCode = -101 then
    (true, "Your network connection isn't performing well.\n Reduce your video bitrate setting or try a faster connection.\n")
  else if errorCode = -102 then
    (true, "The connection was unexpectedly terminated by the host due to a video capture error.\n Make sure no DRM-protected content is playing on the host.\n")
  else if errorCode = -103 then
    (true, "The connection was terminated by the host due to DRM-protected content.\n Close any DRM-protected content on the host and try again.\n")
  else
    (true, "Connection terminated with error: " ++ toString errorCode ++ "\n")

inductive MainThread where
  | startConnection
  | enableHome
  | startInputThread
  | setStreaming
  | loopTest
  | draw
  | stopInputThread
  | stopConnection
  | quitApp
  | clearState
  | connectionFailed
  | returned
  deriving DecidableEq, Repr

/-- The input thread between two scans, or about to carry out what the last
`wii_input_update` decided. -/
inductive InputThread where
  | absent
  | polling
  | deciding (update : InputUpdate)
  deriving DecidableEq, Repr

structure Session where
  state : AppState
  running : Bool
  homeEnabled : Bool
  home : HomeButton
  isError : Bool
  messageBuffer : String
  inputThreadRunning : Bool
  main : MainThread
  input : InputThread
  quitAppAfter : Bool
  sent : List ControllerEvent
  quitRequested : Bool
  /-- Ghost: `connection_terminated` or a short Home press has stored
  `STATE_STOP_STREAM` since `LiStartConnection` was called. -/
  stopRequested : Bool

inductive Event where
  | connectionResult (err : Int)
  | main
  /-- `pthread_create` fails in `start_input_thread`. -/
  | inputThreadRefused
  | scan (microsNow : UInt64) (wiimote : WpadData)
  | act
  | connectionTerminated (errorCode : Int)

def mainStep (session : Session) : Option Session :=
  match session.main with
  | .enableHome => some { session with homeEnabled := true, main := .startInputThread }
  | .startInputThread =>
      some { session with inputThreadRunning := true, input := .polling, main := .setStreaming }
  | .setStreaming => some { session with state := .streaming, main := .loopTest }
  | .loopTest =>
      if session.running && session.state = .streaming then
        some { session with main := .draw }
      else
        some { session with main := .stopInputThread }
  | .draw => some { session with main := .loopTest }
  | .stopInputThread =>
      -- pthread_join returns once the thread has left its loop
      if session.inputThreadRunning then
        some { session with inputThreadRunning := false }
      else if session.input = .absent then
        some { session with main := .stopConnection }
      else
        none
  | .stopConnection =>
      some { session with main := if session.quitAppAfter then .quitApp else .clearState }
  | .quitApp => some { session with quitRequested := true, main := .clearState }
  | .clearState => some { session with state := .invalid, main := .returned }
  | .connectionFailed => some { session with main := .returned }
  | .startConnection => none
  | .returned => none

def inputScan (session : Session) (microsNow : UInt64) (wiimote : WpadData) : Option Session :=
  match session.input with
  | .polling =>
      if session.inputThreadRunning then
        let (update, home) := wiiInputUpdate session.homeEnabled session.home microsNow wiimote
        some { session with home := home, input := .deciding update }
      else
        some { session with input := .absent }
  | _ => none

def inputAct (session : Session) : Option Session :=
  match session.input with
  | .deciding .nothing => some { session with input := .polling }
  | .deciding .stopRunning => some { session with running := false, input := .polling }
  | .deciding .stopStream =>
      some { session with state := .stopStream, stopRequested := true, input := .polling }
  | .deciding (.send event) =>
      some { session with sent := session.sent ++ [event], input := .polling }
  | _ => none

def connectionTerminated (session : Session) (errorCode : Int) : Session :=
  { session with
    messageBuffer := (terminationNotice errorCode).2
    isError := (terminationNotice errorCode).1
    state := .stopStream
    stopRequested := true }

def step (session : Session) : Event → Option Session
  | .connectionResult err =>
      match session.main with
      | .startConnection =>
          if err ≠ 0 then
            some { session with
              messageBuffer := "Failed to start connection"
              isError := true
              main := .connectionFailed }
          else
            some { session with main := .enableHome }
      | _ => none
  | .main => mainStep session
  | .inputThreadRefused =>
      match session.main with
      | .startInputThread =>
          some { session with inputThreadRunning := false, main := .setStreaming }
      | _ => none
  | .scan microsNow wiimote => inputScan session microsNow wiimote
  | .act => inputAct session
  | .connectionTerminated errorCode => some (connectionTerminated session errorCode)

/-- The state in which `do_stream` calls `LiStartConnection`, whatever earlier
menus and streams left in the other globals. -/
def callStartConnection (session : Session) : Session :=
  { session with
    main := .startConnection
    input := .absent
    inputThreadRunning := false
    stopRequested := false }

/-- A requested stop keeps the main thread from streaming on. -/
def StopHonoured (session : Session) : Prop :=
  session.stopRequested = true →
    ¬ ((session.main = .loopTest ∨ session.main = .draw) ∧ session.state = .streaming)

/-- `state = STATE_STREAMING` is executed only while no stop has been requested. -/
def AssignedBeforeStop (session : Session) (event : Event) : Prop :=
  event = .main → session.main = .setStreaming → session.stopRequested = false

def StopStands (session : Session) : Prop :=
  session.stopRequested = true → session.state ≠ .streaming

theorem mainStep_stands (session next : Session) (stands : StopStands session)
    (order : session.main = .setStreaming → session.stopRequested = false)
    (stepped : mainStep session = some next) : StopStands next := by
  unfold mainStep at stepped
  cases thread : session.main with
  | setStreaming =>
      simp only [thread, Option.some.injEq] at stepped
      subst next
      intro requested
      rw [order thread] at requested
      cases requested
  | clearState =>
      simp only [thread, Option.some.injEq] at stepped
      subst next
      intro _ streaming
      cases streaming
  | loopTest =>
      simp only [thread] at stepped
      split at stepped <;> cases Option.some.inj stepped <;> exact stands
  | stopInputThread =>
      simp only [thread] at stepped
      split at stepped
      · cases Option.some.inj stepped
        exact stands
      · split at stepped
        · cases Option.some.inj stepped
          exact stands
        · cases stepped
  | startConnection => simp [thread] at stepped
  | returned => simp [thread] at stepped
  | enableHome => simp only [thread] at stepped; cases Option.some.inj stepped; exact stands
  | startInputThread => simp only [thread] at stepped; cases Option.some.inj stepped; exact stands
  | draw => simp only [thread] at stepped; cases Option.some.inj stepped; exact stands
  | stopConnection => simp only [thread] at stepped; cases Option.some.inj stepped; exact stands
  | quitApp => simp only [thread] at stepped; cases Option.some.inj stepped; exact stands
  | connectionFailed => simp only [thread] at stepped; cases Option.some.inj stepped; exact stands

theorem inputScan_stands (session next : Session) (microsNow : UInt64) (wiimote : WpadData)
    (stands : StopStands session)
    (stepped : inputScan session microsNow wiimote = some next) : StopStands next := by
  unfold inputScan at stepped
  cases thread : session.input with
  | absent => simp [thread] at stepped
  | deciding update => simp [thread] at stepped
  | polling =>
      simp only [thread] at stepped
      split at stepped <;> cases Option.some.inj stepped <;> exact stands

theorem inputAct_stands (session next : Session) (stands : StopStands session)
    (stepped : inputAct session = some next) : StopStands next := by
  unfold inputAct at stepped
  cases thread : session.input with
  | absent => simp [thread] at stepped
  | polling => simp [thread] at stepped
  | deciding update =>
      cases update with
      | stopStream =>
          simp only [thread, Option.some.injEq] at stepped
          subst next
          intro _ streaming
          cases streaming
      | nothing => simp only [thread] at stepped; cases Option.some.inj stepped; exact stands
      | stopRunning => simp only [thread] at stepped; cases Option.some.inj stepped; exact stands
      | send event => simp only [thread] at stepped; cases Option.some.inj stepped; exact stands

theorem step_stands (session : Session) (event : Event) (next : Session)
    (stands : StopStands session) (order : AssignedBeforeStop session event)
    (stepped : step session event = some next) : StopStands next := by
  cases event with
  | connectionResult err =>
      simp only [step] at stepped
      split at stepped
      · split at stepped <;> cases Option.some.inj stepped <;> exact stands
      · cases stepped
  | main => exact mainStep_stands session next stands (order rfl) stepped
  | inputThreadRefused =>
      simp only [step] at stepped
      split at stepped
      · cases Option.some.inj stepped
        exact stands
      · cases stepped
  | scan microsNow wiimote =>
      exact inputScan_stands session next microsNow wiimote stands stepped
  | act => exact inputAct_stands session next stands stepped
  | connectionTerminated errorCode =>
      cases Option.some.inj stepped
      intro _ streaming
      cases streaming

/-- An assignment after a stop request loses the request at once. -/
theorem late_assignment_loses_stop (session : Session) (event : Event) (next : Session)
    (late : ¬ AssignedBeforeStop session event) (stepped : step session event = some next) :
    ¬ StopHonoured next := by
  simp only [AssignedBeforeStop, Classical.not_imp] at late
  obtain ⟨rfl, thread, requested⟩ := late
  simp only [step, mainStep, thread, Option.some.injEq] at stepped
  subst next
  intro honoured
  exact honoured (Bool.of_not_eq_false requested) ⟨Or.inl rfl, rfl⟩

/-- In every run of the three parties, a stop request is honoured in every state
exactly when the main thread's `state = STATE_STREAMING` comes before every stop
request. -/
theorem stop_honoured_iff (session final : Session) (events : List Event)
    (reached : run step (callStartConnection session) events = some final) :
    Throughout step StopHonoured (callStartConnection session) events ↔
      Along step AssignedBeforeStop (callStartConnection session) events := by
  apply throughout_iff_along StopStands
  · intro state stands requested streaming
    exact stands requested streaming.2
  · exact step_stands
  · intro state event next _ late stepped
    exact late_assignment_loses_stop state event next late stepped
  · intro requested
    cases requested
  · exact reached

def freshSession : Session where
  state := .invalid
  running := true
  homeEnabled := true
  home := ⟨0, false, false⟩
  isError := false
  messageBuffer := ""
  inputThreadRunning := false
  main := .returned
  input := .absent
  quitAppAfter := false
  sent := []
  quitRequested := false
  stopRequested := false

theorem stop_honoured_in_plain_stream :
    Throughout step StopHonoured (callStartConnection freshSession)
      [.connectionResult 0, .main, .main, .main, .main, .main,
        .connectionTerminated 0, .main, .main] := by
  refine (stop_honoured_iff freshSession _ _ rfl).mpr ?_
  simp [Along, AssignedBeforeStop, step, mainStep, callStartConnection, freshSession,
    connectionTerminated]

/-- The host terminates the connection just after it was established: the main
thread then overwrites the request and streams. -/
theorem stop_request_lost :
    ¬ ∀ (session final : Session) (events : List Event),
      run step (callStartConnection session) events = some final →
        Throughout step StopHonoured (callStartConnection session) events := by
  intro always
  let events : List Event :=
    [.connectionResult 0, .main, .main, .connectionTerminated (-102), .main]
  have throughout := always freshSession _ events rfl
  have lost : ¬ Throughout step StopHonoured (callStartConnection freshSession) events := by
    simp [Throughout, StopHonoured, step, mainStep, callStartConnection, freshSession,
      connectionTerminated, events]
  exact lost throughout

end MoonlightWii.App.StreamLoop
