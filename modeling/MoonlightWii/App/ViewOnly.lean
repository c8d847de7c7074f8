import MoonlightWii.App.SettingsMenu
import MoonlightWii.App.StreamLoop

/-!
# Streams of the view-only mode (`main.c`, `input.c`)

A run of the program alternates between the settings menu and streams.  The setting
`viewonly`, which the file documents as disabling all input processing, comes from the
configuration that was loaded or from the menu.  `do_stream` hands the configuration to
the stream, and starts the input thread.
-/

set_option autoImplicit false

namespace MoonlightWii.App.ViewOnly

open Foundation.GuardedRun
open MoonlightWii.App.Configuration
open MoonlightWii.App.SettingsMenu
open MoonlightWii.App.StreamLoop hiding step Event
open MoonlightWii.Wii.Input

structure Program where
  config : Configuration
  session : Session
  /-- Ghost: a press of Home has been acted upon since the stream began. -/
  homeStopped : Bool

inductive Event where
  | edit (edit : Edit)
  /-- `do_stream` calls `LiStartConnection`. -/
  | doStream
  | stream (event : StreamLoop.Event)

/-- The stream of a configuration; what was sent is counted anew. -/
def enterStream (config : Configuration) (session : Session) : Session :=
  callStartConnection { session with quitAppAfter := config.quitappafter, sent := [] }

/-- The input thread is about to stop the stream. -/
def stopping (session : Session) (event : StreamLoop.Event) : Bool :=
  match event, session.input with
  | .act, .deciding .stopStream => true
  | .act, .deciding .stopRunning => true
  | _, _ => false

def step (program : Program) : Event → Option Program
  | .edit edit =>
      if program.session.main = .returned then
        some { program with config := applyEdit program.config edit }
      else
        none
  | .doStream =>
      if program.session.main = .returned then
        some
          { program with
            session := enterStream program.config program.session
            homeStopped := false }
      else
        none
  | .stream event =>
      match StreamLoop.step program.session event with
      | none => none
      | some session =>
          some
            { program with
              session := session
              homeStopped := program.homeStopped || stopping program.session event }

/-- The main menu, with a configuration that has been loaded. -/
def start (config : Configuration) (session : Session) : Program :=
  ⟨config, { session with main := .returned, input := .absent }, false⟩

/-! ## What the setting promises -/

/-- The main thread draws frames, now or after its next test. -/
def StreamsOn (session : Session) : Prop :=
  (session.main = .loopTest ∨ session.main = .draw) ∧ session.running = true ∧
    session.state = .streaming

/-- What a scan shows of the Home button. -/
def homeAction (session : Session) (microsNow : UInt64) (wiimote : WpadData) : HomeAction :=
  (homePoll session.home microsNow (wiimote.held .home)).1

/-- A scan of the running input thread that Home ends is taken for a stop. -/
def HomeHeard (session : Session) : Prop :=
  ∀ microsNow wiimote next, inputScan session microsNow wiimote = some next →
    session.inputThreadRunning = true → wiimote.ready = true →
      (homeAction session microsNow wiimote = .back → next.input = .deciding .stopStream) ∧
        (homeAction session microsNow wiimote = .quit → next.input = .deciding .stopRunning)

/-- No controller event is sent or about to be sent, and Home ends the stream. -/
structure Shielded (program : Program) : Prop where
  noneSent : program.session.sent = []
  noneDecided : ∀ event, program.session.input ≠ .deciding (.send event)
  homeHeard : HomeHeard program.session
  homeObeyed : program.homeStopped = true → ¬ StreamsOn program.session

def ViewOnlyKept (program : Program) : Prop :=
  program.config.viewonly = true → program.session.main ≠ .returned → Shielded program

/-- In the view-only mode the input thread only ever scans a remote that is not there
or whose Home button it acts upon, and `state = STATE_STREAMING` is not executed after
a short press of Home. -/
def Unprovoked (program : Program) : Event → Prop
  | .stream (.scan microsNow wiimote) =>
      program.config.viewonly = true → program.session.inputThreadRunning = true →
        wiimote.ready = true → homeAction program.session microsNow wiimote ≠ .none
  | .stream .main =>
      program.config.viewonly = true → program.session.main = .setStreaming →
        program.homeStopped = true → program.session.running = false
  | _ => True

/-! ## The phases of a stream -/

/-- Outside these phases there is no input thread. -/
def MayPoll (main : MainThread) : Prop :=
  main = .setStreaming ∨ main = .loopTest ∨ main = .draw ∨ main = .stopInputThread

structure Phased (session : Session) : Prop where
  thread : session.input ≠ .absent → MayPoll session.main
  home : session.input ≠ .absent ∨ session.main = .startInputThread → session.homeEnabled = true

theorem enterStream_phased (config : Configuration) (session : Session) :
    Phased (enterStream config session) where
  thread := fun present => absurd rfl present
  home := by
    rintro (present | starting)
    · exact absurd rfl present
    · cases starting

/-- What a step of the main thread can do to the parts that the promise is about. -/
structure MainEffect (session next : Session) : Prop where
  sent : next.sent = session.sent
  running : next.running = session.running
  home : session.homeEnabled = true → next.homeEnabled = true
  starting : next.main = .startInputThread → next.homeEnabled = true
  input : next.input = session.input ∨
    (session.main = .startInputThread ∧ next.main = .setStreaming ∧ next.input = .polling)
  leaving : MayPoll session.main → MayPoll next.main ∨ session.input = .absent
  state : next.state = session.state ∨ next.state = .invalid ∨ session.main = .setStreaming

theorem mainStep_effect (session next : Session) (stepped : mainStep session = some next) :
    MainEffect session next := by
  unfold mainStep at stepped
  cases main : session.main with
  | startConnection => simp [main] at stepped
  | returned => simp [main] at stepped
  | stopInputThread =>
      simp only [main] at stepped
      split at stepped
      · cases Option.some.inj stepped
        constructor <;> simp [MayPoll, main]
      · split at stepped
        · cases Option.some.inj stepped
          constructor <;> simp_all [MayPoll]
        · cases stepped
  | loopTest =>
      simp only [main] at stepped
      split at stepped <;> cases Option.some.inj stepped <;> constructor <;> simp [MayPoll, main]
  | stopConnection =>
      simp only [main, Option.some.injEq] at stepped
      subst next
      cases session.quitAppAfter <;> constructor <;> simp [MayPoll, main]
  | enableHome | startInputThread | setStreaming | draw | quitApp | clearState
  | connectionFailed =>
      simp only [main, Option.some.injEq] at stepped
      subst next
      constructor <;> simp [MayPoll, main]

theorem mainStep_phased (session next : Session) (phased : Phased session)
    (stepped : mainStep session = some next) : Phased next := by
  have effect := mainStep_effect session next stepped
  constructor
  · intro present
    rcases effect.input with same | ⟨-, streaming, -⟩
    · rw [same] at present
      exact (effect.leaving (phased.thread present)).resolve_right present
    · exact .inl streaming
  · rintro (present | starting)
    · rcases effect.input with same | ⟨starting, -, -⟩
      · rw [same] at present
        exact effect.home (phased.home (.inl present))
      · exact effect.home (phased.home (.inr starting))
    · exact effect.starting starting

/-! ## Scans of the remote -/

/-- What the input thread decides, while Home is polled. -/
theorem wiiInputUpdate_action {session : Session} (home : session.homeEnabled = true)
    (microsNow : UInt64) {wiimote : WpadData} (ready : wiimote.ready = true) :
    (wiiInputUpdate session.homeEnabled session.home microsNow wiimote).1 =
      match homeAction session microsNow wiimote with
      | .quit => .stopRunning
      | .back => .stopStream
      | .none => .send (sendControllerEvent wiimote) := by
  unfold wiiInputUpdate homeAction
  simp only [ready, home, Bool.not_true, Bool.false_eq_true, if_false, if_true]
  cases homePoll session.home microsNow (wiimote.held .home) with
  | mk action polled =>
      cases action with
      | none => rfl
      | back => rfl
      | quit => rfl

theorem wiiInputUpdate_absent {session : Session} (microsNow : UInt64) {wiimote : WpadData}
    (unready : wiimote.ready = false) :
    (wiiInputUpdate session.homeEnabled session.home microsNow wiimote).1 = .nothing := by
  simp [wiiInputUpdate, unready]

/-- A scan changes the thread alone: it ends, or carries the decision of the update. -/
structure ScanEffect (session next : Session) (microsNow : UInt64) (wiimote : WpadData) :
    Prop where
  polling : session.input = .polling
  main : next.main = session.main
  sent : next.sent = session.sent
  running : next.running = session.running
  state : next.state = session.state
  homeEnabled : next.homeEnabled = session.homeEnabled
  input : next.input =
    if session.inputThreadRunning = true then
      .deciding (wiiInputUpdate session.homeEnabled session.home microsNow wiimote).1
    else .absent

theorem inputScan_effect (session next : Session) (microsNow : UInt64) (wiimote : WpadData)
    (stepped : inputScan session microsNow wiimote = some next) :
    ScanEffect session next microsNow wiimote := by
  unfold inputScan at stepped
  cases thread : session.input with
  | absent => simp [thread] at stepped
  | deciding update => simp [thread] at stepped
  | polling =>
      simp only [thread] at stepped
      by_cases looping : session.inputThreadRunning = true
      · rw [if_pos looping] at stepped
        cases Option.some.inj stepped
        exact ⟨thread, rfl, rfl, rfl, rfl, rfl, by rw [if_pos looping]⟩
      · rw [if_neg looping] at stepped
        cases Option.some.inj stepped
        exact ⟨thread, rfl, rfl, rfl, rfl, rfl, by rw [if_neg looping]⟩

theorem homeHeard_of_phased {session : Session} (phased : Phased session) :
    HomeHeard session := by
  intro microsNow wiimote next stepped looping ready
  have effect := inputScan_effect session next microsNow wiimote stepped
  have home : session.homeEnabled = true := by
    apply phased.home
    rw [effect.polling]
    exact .inl (by simp)
  rw [effect.input, if_pos looping, wiiInputUpdate_action home microsNow ready]
  constructor
  · intro back
    rw [back]
  · intro quit
    rw [quit]

/-- The thread carries out what it decided. -/
structure ActEffect (session next : Session) : Prop where
  main : next.main = session.main
  homeEnabled : next.homeEnabled = session.homeEnabled
  input : next.input = .polling
  decided : (stopping session .act = true ∧ next.sent = session.sent ∧
      (next.running = false ∨ next.state = .stopStream)) ∨
    (stopping session .act = false ∧ next.running = session.running ∧
      next.state = session.state ∧
      ((∀ event, session.input ≠ .deciding (.send event)) → next.sent = session.sent))
  present : session.input ≠ .absent

theorem inputAct_effect (session next : Session) (stepped : inputAct session = some next) :
    ActEffect session next := by
  unfold inputAct at stepped
  cases thread : session.input with
  | absent => simp [thread] at stepped
  | polling => simp [thread] at stepped
  | deciding update =>
      cases update with
      | nothing | stopRunning | stopStream | send =>
          simp only [thread] at stepped
          cases Option.some.inj stepped
          constructor <;> simp [stopping, thread]

/-! ## The invariant -/

structure Sound (program : Program) : Prop where
  phased : Phased program.session
  quiet : program.config.viewonly = true → program.session.main ≠ .returned →
    program.session.sent = [] ∧ ∀ event, program.session.input ≠ .deciding (.send event)
  stopped : program.config.viewonly = true → program.session.main ≠ .returned →
    program.homeStopped = true →
      program.session.running = false ∨ program.session.state ≠ .streaming

theorem viewOnlyKept_of_sound (program : Program) (sound : Sound program) :
    ViewOnlyKept program := by
  intro viewonly streaming
  have quiet := sound.quiet viewonly streaming
  refine ⟨quiet.1, quiet.2, homeHeard_of_phased sound.phased, ?_⟩
  rintro stopped ⟨-, running, state⟩
  rcases sound.stopped viewonly streaming stopped with ended | left
  · rw [ended] at running
    cases running
  · exact left state

theorem main_sound (program next : Program) (sound : Sound program)
    (unprovoked : Unprovoked program (.stream .main))
    (stepped : step program (.stream .main) = some next) : Sound next := by
  simp only [step, StreamLoop.step] at stepped
  split at stepped
  · cases stepped
  · rename_i session moved
    cases Option.some.inj stepped
    have effect := mainStep_effect program.session session moved
    have streaming : program.session.main ≠ .returned := by
      intro returned
      simp [mainStep, returned] at moved
    refine ⟨mainStep_phased program.session session sound.phased moved, ?_, ?_⟩
    · intro viewonly _
      have quiet := sound.quiet viewonly streaming
      refine ⟨effect.sent.trans quiet.1, ?_⟩
      rcases effect.input with same | ⟨-, -, polling⟩
      · simp only [same]
        exact quiet.2
      · simp only [polling]
        simp
    · intro viewonly _ stopped
      simp only [stopping, Bool.or_false] at stopped
      simp only [effect.running]
      rcases effect.state with same | left | assigned
      · rw [same]
        exact sound.stopped viewonly streaming stopped
      · rw [left]
        exact .inr (by simp)
      · exact .inl (unprovoked viewonly assigned stopped)

theorem scan_sound (program next : Program) (microsNow : UInt64) (wiimote : WpadData)
    (sound : Sound program)
    (unprovoked : Unprovoked program (.stream (.scan microsNow wiimote)))
    (stepped : step program (.stream (.scan microsNow wiimote)) = some next) : Sound next := by
  simp only [step, StreamLoop.step] at stepped
  split at stepped
  · cases stepped
  · rename_i session moved
    cases Option.some.inj stepped
    have effect := inputScan_effect program.session session microsNow wiimote moved
    have present : program.session.input ≠ .absent := by
      rw [effect.polling]
      simp
    have home := sound.phased.home (.inl present)
    refine ⟨⟨?_, ?_⟩, ?_, ?_⟩
    · intro _
      simp only [effect.main]
      exact sound.phased.thread present
    · intro _
      exact effect.homeEnabled.trans home
    · intro viewonly streaming
      simp only [effect.main] at streaming
      refine ⟨effect.sent.trans (sound.quiet viewonly streaming).1, ?_⟩
      intro event
      simp only [effect.input]
      split
      · rename_i looping
        cases ready : wiimote.ready with
        | false =>
            rw [wiiInputUpdate_absent microsNow ready]
            simp
        | true =>
            have acted := unprovoked viewonly looping ready
            rw [wiiInputUpdate_action home microsNow ready]
            cases action : homeAction program.session microsNow wiimote with
            | none => exact absurd action acted
            | back => simp
            | quit => simp
      · simp
    · intro viewonly streaming stopped
      simp only [effect.main] at streaming
      simp only [stopping, Bool.or_false] at stopped
      simp only [effect.running, effect.state]
      exact sound.stopped viewonly streaming stopped

theorem act_sound (program next : Program) (sound : Sound program)
    (stepped : step program (.stream .act) = some next) : Sound next := by
  simp only [step, StreamLoop.step] at stepped
  split at stepped
  · cases stepped
  · rename_i session moved
    cases Option.some.inj stepped
    have effect := inputAct_effect program.session session moved
    refine ⟨⟨?_, ?_⟩, ?_, ?_⟩
    · intro _
      simp only [effect.main]
      exact sound.phased.thread effect.present
    · intro _
      exact effect.homeEnabled.trans (sound.phased.home (.inl effect.present))
    · intro viewonly streaming
      simp only [effect.main] at streaming
      have quiet := sound.quiet viewonly streaming
      constructor
      · rcases effect.decided with ⟨-, sent, -⟩ | ⟨-, -, -, sent⟩
        · exact sent.trans quiet.1
        · exact (sent quiet.2).trans quiet.1
      · simp only [effect.input]
        simp
    · intro viewonly streaming stopped
      simp only [effect.main] at streaming
      rcases effect.decided with ⟨-, -, ended | left⟩ | ⟨unstopped, running, state, -⟩
      · exact .inl ended
      · refine .inr ?_
        simp only [left]
        simp
      · simp only [unstopped, Bool.or_false] at stopped
        simp only [running, state]
        exact sound.stopped viewonly streaming stopped

/-- The main thread moves on without touching what the promise is about. -/
theorem waiting_sound {program : Program} {main : MainThread} {isError inputThreadRunning : Bool}
    {messageBuffer : String} (sound : Sound program)
    (streaming : program.session.main ≠ .returned)
    (phase : program.session.input = .absent ∨ MayPoll main)
    (moved : main ≠ .startInputThread) :
    Sound
      { program with
        session :=
          { program.session with
            main := main
            isError := isError
            inputThreadRunning := inputThreadRunning
            messageBuffer := messageBuffer }
        homeStopped := program.homeStopped || false } where
  phased := ⟨fun present => phase.resolve_left present,
    fun started => sound.phased.home (started.imp id fun starting => absurd starting moved)⟩
  quiet := fun viewonly _ => sound.quiet viewonly streaming
  stopped := by
    intro viewonly _ stopped
    rw [Bool.or_false] at stopped
    exact sound.stopped viewonly streaming stopped

theorem step_sound (program : Program) (event : Event) (next : Program)
    (sound : Sound program) (unprovoked : Unprovoked program event)
    (stepped : step program event = some next) : Sound next := by
  cases event with
  | edit edit =>
      simp only [step] at stepped
      split at stepped
      · rename_i returned
        cases Option.some.inj stepped
        exact ⟨sound.phased, fun _ streaming => absurd returned streaming,
          fun _ streaming => absurd returned streaming⟩
      · cases stepped
  | doStream =>
      simp only [step] at stepped
      split at stepped
      · cases Option.some.inj stepped
        exact ⟨enterStream_phased _ _,
          fun _ _ => ⟨rfl, fun _ => by simp [enterStream, callStartConnection]⟩,
          fun _ _ unstopped => absurd unstopped Bool.false_ne_true⟩
      · cases stepped
  | stream event =>
      cases event with
      | main => exact main_sound program next sound unprovoked stepped
      | scan microsNow wiimote =>
          exact scan_sound program next microsNow wiimote sound unprovoked stepped
      | act => exact act_sound program next sound stepped
      | connectionResult err =>
          cases main : program.session.main with
          | startConnection =>
              have absent : program.session.input = .absent := by
                by_contra present
                simpa [MayPoll, main] using sound.phased.thread present
              simp only [step, StreamLoop.step, main] at stepped
              split at stepped
              · cases stepped
              · rename_i session moved
                cases Option.some.inj stepped
                split at moved
                · cases Option.some.inj moved
                  exact waiting_sound sound (by simp [main]) (.inl absent) (by simp)
                · cases Option.some.inj moved
                  exact waiting_sound sound (by simp [main]) (.inl absent) (by simp)
          | _ => simp [step, StreamLoop.step, main] at stepped
      | inputThreadRefused =>
          cases main : program.session.main with
          | startInputThread =>
              simp only [step, StreamLoop.step, main] at stepped
              cases Option.some.inj stepped
              exact waiting_sound sound (by simp [main]) (.inr (.inl rfl)) (by simp)
          | _ => simp [step, StreamLoop.step, main] at stepped
      | connectionTerminated errorCode =>
          simp only [step, StreamLoop.step] at stepped
          cases Option.some.inj stepped
          refine ⟨⟨sound.phased.thread, sound.phased.home⟩, sound.quiet, ?_⟩
          exact fun _ _ _ => .inr (by simp [connectionTerminated])

/-! ## Runs -/

/-- The first provoked step breaks the promise at once. -/
theorem provoked_breaks (program : Program) (event : Event) (next : Program)
    (sound : Sound program) (provoked : ¬ Unprovoked program event)
    (stepped : step program event = some next) : ¬ ViewOnlyKept next := by
  cases event with
  | edit edit => exact absurd trivial provoked
  | doStream => exact absurd trivial provoked
  | stream event =>
      cases event with
      | main =>
          simp only [Unprovoked, Classical.not_imp] at provoked
          obtain ⟨viewonly, assigned, stopped, running⟩ := provoked
          simp only [step, StreamLoop.step, mainStep, assigned] at stepped
          cases Option.some.inj stepped
          intro kept
          have shielded := kept viewonly (by simp)
          refine shielded.homeObeyed ?_ ⟨.inl rfl, Bool.of_not_eq_false running, rfl⟩
          simp only [stopped, Bool.true_or]
      | scan microsNow wiimote =>
          simp only [Unprovoked, Classical.not_imp, not_not] at provoked
          obtain ⟨viewonly, looping, ready, action⟩ := provoked
          simp only [step, StreamLoop.step] at stepped
          split at stepped
          · cases stepped
          · rename_i session moved
            cases Option.some.inj stepped
            have effect := inputScan_effect program.session session microsNow wiimote moved
            have present : program.session.input ≠ .absent := by
              rw [effect.polling]
              simp
            have streaming : session.main ≠ .returned := by
              rw [effect.main]
              intro returned
              simpa [MayPoll, returned] using sound.phased.thread present
            intro kept
            refine (kept viewonly streaming).noneDecided (sendControllerEvent wiimote) ?_
            simp only [effect.input, if_pos looping]
            rw [wiiInputUpdate_action (sound.phased.home (.inl present)) microsNow ready, action]
      | act => exact absurd trivial provoked
      | connectionResult err => exact absurd trivial provoked
      | inputThreadRefused => exact absurd trivial provoked
      | connectionTerminated errorCode => exact absurd trivial provoked

theorem start_sound (config : Configuration) (session : Session) :
    Sound (start config session) where
  phased := ⟨fun present => absurd rfl present, fun started => absurd started (by simp [start])⟩
  quiet := fun _ streaming => absurd rfl streaming
  stopped := fun _ streaming => absurd rfl streaming

/-- In every run of settings and streams, the view-only mode keeps its promise in every
state exactly when nothing provokes the input thread while it is set. -/
theorem viewonly_kept_iff_unprovoked (config : Configuration) (session : Session)
    (events : List Event) (final : Program)
    (reached : run step (start config session) events = some final) :
    Throughout step ViewOnlyKept (start config session) events ↔
      Along step Unprovoked (start config session) events :=
  throughout_iff_along Sound viewOnlyKept_of_sound step_sound provoked_breaks
    (start_sound config session) reached

/-- A remote on the table, or none. -/
def noRemote : WpadData := ⟨false, false, fun _ => false, fun _ => false, none⟩

def remoteHolding (button : Button) : WpadData :=
  ⟨true, true, fun held => held == button, fun _ => false, none⟩

/-- The menu sets the mode, the stream is started and enters its loop. -/
def viewonlyStream : List Event :=
  [.edit (.viewonly (some true)), .doStream, .stream (.connectionResult 0), .stream .main,
    .stream .main, .stream .main]

theorem viewonly_kept_without_remote :
    Throughout step ViewOnlyKept (start defaults freshSession)
      (viewonlyStream ++ [.stream (.scan 0 noRemote), .stream .act]) := by
  refine (viewonly_kept_iff_unprovoked defaults freshSession _ _ rfl).mpr ?_
  simp [Along, Unprovoked, viewonlyStream, step, StreamLoop.step, mainStep, inputScan, inputAct,
    wiiInputUpdate, start, enterStream, callStartConnection, freshSession, noRemote,
    WpadData.ready, stopping]

/-- Button A is sent to the host. -/
theorem viewonly_sends_button :
    ¬ ∀ (config : Configuration) (session : Session) (events : List Event) (final : Program),
      run step (start config session) events = some final →
        final.config.viewonly = true → final.session.main ≠ .returned →
          final.session.sent = [] := by
  intro none_sent
  have sent := none_sent defaults freshSession
    (viewonlyStream ++ [.stream (.scan 0 (remoteHolding .a)), .stream .act]) _ rfl rfl (by decide)
  cases sent

end MoonlightWii.App.ViewOnly
