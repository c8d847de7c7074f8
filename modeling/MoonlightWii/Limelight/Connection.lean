import Mathlib.Data.Int.Notation
import Mathlib.Data.List.Induction

/-!
# Starting and stopping a connection

`Connection.c` of the streaming library.  A connection is made in stages, which a failed start or
a stop undoes.  Other threads may report that the host has gone, or interrupt the attempt, at any
time.
-/

set_option autoImplicit false

namespace MoonlightWii.Limelight.Connection

inductive Stage
  | platformInit
  | nameResolution
  | audioStreamInit
  | rtspHandshake
  | controlStreamInit
  | videoStreamInit
  | inputStreamInit
  | controlStreamStart
  | videoStreamStart
  | audioStreamStart
  | inputStreamStart
  deriving DecidableEq

/-- The stages in the order of their numbers, `STAGE_PLATFORM_INIT` and on. -/
def stages : List Stage :=
  [.platformInit, .nameResolution, .audioStreamInit, .rtspHandshake, .controlStreamInit,
    .videoStreamInit, .inputStreamInit, .controlStreamStart, .videoStreamStart,
    .audioStreamStart, .inputStreamStart]

/-- The stages whose result `LiStartConnection` does not look at. -/
def Stage.unchecked : Stage → Bool
  | .videoStreamInit | .inputStreamInit => true
  | _ => false

/-- What is called on the way; `undone` is the function that undoes a stage. -/
inductive Action
  | installed
  | interrupted
  | stageStarting (stage : Stage)
  | stageFailed (stage : Stage) (err : ℤ)
  | stageComplete (stage : Stage)
  | undone (stage : Stage)
  | connectionStarted
  | connectionTerminated (errorCode : ℤ)
  deriving DecidableEq

/-- Where the caller's thread is. -/
inductive Phase
  | outside
  | starting
  | stopping
  deriving DecidableEq

/-- The static variables, and what was called. -/
structure Connection where
  stage : ℕ
  phase : Phase
  hooked : Bool
  alreadyTerminated : Bool
  connectionInterrupted : Bool
  log : List Action

/-- What `LiStartConnection` finds before it installs its callbacks, and after. -/
inductive Arguments
  | refused
  | misconfigured
  | valid
  deriving DecidableEq

inductive Event
  | LiStartConnection (arguments : Arguments)
  | stageReturns (err : ℤ)
  | LiStopConnection
  | undo
  | LiInterruptConnection
  | connectionTerminated (errorCode : ℤ)

def initial : Connection := ⟨0, .outside, false, false, false, []⟩

/-- The beginning of `LiStopConnection`. -/
def beginStop (connection : Connection) : Connection :=
  { connection with
    phase := .stopping
    alreadyTerminated := true
    connectionInterrupted := true
    log := connection.log ++ [.interrupted] }

/-- Announces the next stage, if there is one. -/
def nextStage (connection : Connection) : Connection :=
  match stages[connection.stage]? with
  | some stage => { connection with log := connection.log ++ [.stageStarting stage] }
  | none =>
    { connection with
      phase := .outside
      log := connection.log ++ [.connectionStarted] }

/-- The beginning of `LiStartConnection`. -/
def beginStart (connection : Connection) : Arguments → Connection
  | .refused => beginStop connection
  | .misconfigured => beginStop { connection with
      hooked := true
      alreadyTerminated := false
      connectionInterrupted := false
      log := connection.log ++ [.installed] }
  | .valid => nextStage { connection with
      phase := .starting
      hooked := true
      alreadyTerminated := false
      connectionInterrupted := false
      log := connection.log ++ [.installed] }

/-- The function of the next stage returns. -/
def stageReturns (connection : Connection) (err : ℤ) : Connection :=
  match stages[connection.stage]? with
  | none => connection
  | some stage =>
    if err ≠ 0 ∧ stage.unchecked = false then
      beginStop { connection with log := connection.log ++ [.stageFailed stage err] }
    else
      nextStage { connection with
        stage := connection.stage + 1
        log := connection.log ++ [.stageComplete stage] }

/-- The next stage that `LiStopConnection` undoes. -/
def undo (connection : Connection) : Connection :=
  match connection.stage, stages[connection.stage - 1]? with
  | stage + 1, some undone =>
    { connection with
      stage := stage
      log := connection.log ++ [.undone undone] }
  | _, _ => { connection with phase := .outside }

/-- `ClInternalConnectionTerminated`, once it is installed. -/
def terminated (connection : Connection) (errorCode : ℤ) : Connection :=
  if connection.hooked = false ∨ connection.alreadyTerminated ∨
      connection.connectionInterrupted then connection
  else { connection with
    alreadyTerminated := true
    log := connection.log ++ [.connectionTerminated errorCode] }

/-- The caller does not start a connection while there is one, or stop one that is starting. -/
def step (connection : Connection) : Event → Connection
  | .LiStartConnection arguments =>
    if connection.phase = .outside ∧ connection.stage = 0 then beginStart connection arguments
    else connection
  | .stageReturns err =>
    if connection.phase = .starting then stageReturns connection err else connection
  | .LiStopConnection =>
    if connection.phase = .outside then beginStop connection else connection
  | .undo => if connection.phase = .stopping then undo connection else connection
  | .LiInterruptConnection =>
    { connection with
      connectionInterrupted := true
      log := connection.log ++ [.interrupted] }
  | .connectionTerminated errorCode => terminated connection errorCode

def run (events : List Event) : Connection := events.foldl step initial

section Ladder

/-- The stages that are complete and not undone, the latest first; nothing if another than the
latest was undone. -/
def follow (complete : Option (List Stage)) : Action → Option (List Stage)
  | .stageComplete stage => complete.map (stage :: ·)
  | .undone stage => complete.bind fun
    | latest :: earlier => if latest = stage then some earlier else none
    | [] => none
  | _ => complete

def complete (log : List Action) : Option (List Stage) := log.foldl follow (some [])

theorem complete_append (log : List Action) (action : Action) :
    complete (log ++ [action]) = follow (complete log) action := by
  unfold complete
  rw [List.foldl_append]
  rfl

/-- The stages complete are those below the recorded number, and outside there are none or all. -/
structure Laddered (connection : Connection) : Prop where
  complete : complete connection.log = some (stages.take connection.stage).reverse
  bound : connection.stage ≤ stages.length
  resting : connection.phase = .outside →
    connection.stage = 0 ∨ connection.stage = stages.length
  going : connection.phase = .starting → connection.stage < stages.length

variable {connection : Connection}

theorem take_succ_reverse {n : ℕ} {stage : Stage} (found : stages[n]? = some stage) :
    (stages.take (n + 1)).reverse = stage :: (stages.take n).reverse := by
  rw [List.take_add_one, found]
  simp

theorem Laddered.beginStop (laddered : Laddered connection) :
    Laddered (Connection.beginStop connection) := by
  refine ⟨?_, laddered.bound, fun outside => ?_, fun starting => ?_⟩
  · change Connection.complete (connection.log ++ [.interrupted]) = _
    rw [complete_append]
    exact laddered.complete
  · cases outside
  · cases starting

/-- From a state in which a stage has just become complete. -/
theorem nextStage_laddered
    (complete : Connection.complete connection.log = some (stages.take connection.stage).reverse)
    (bound : connection.stage ≤ stages.length) (starting : connection.phase = .starting) :
    Laddered (nextStage connection) := by
  unfold nextStage
  cases found : stages[connection.stage]? with
  | none =>
      have full := List.getElem?_eq_none_iff.mp found
      refine ⟨?_, bound, fun _ => Or.inr (Nat.le_antisymm bound full), fun starting => ?_⟩
      · dsimp only
        rw [complete_append]
        exact complete
      · cases starting
  | some stage =>
      obtain ⟨below, _⟩ := List.getElem?_eq_some_iff.mp found
      refine ⟨?_, bound, fun outside => ?_, fun _ => below⟩
      · dsimp only
        rw [complete_append]
        exact complete
      · cases starting.symm.trans outside

theorem Laddered.step (laddered : Laddered connection) (event : Event) :
    Laddered (step connection event) := by
  cases event with
  | LiStartConnection arguments =>
      unfold Connection.step
      dsimp only
      split_ifs with idle
      · have logged : Connection.complete (connection.log ++ [.installed]) =
            some (stages.take connection.stage).reverse := by
          rw [complete_append]
          exact laddered.complete
        cases arguments with
        | refused => exact laddered.beginStop
        | misconfigured =>
            exact Laddered.beginStop ⟨logged, laddered.bound, laddered.resting, laddered.going⟩
        | valid => exact nextStage_laddered logged laddered.bound rfl
      · exact laddered
  | stageReturns err =>
      unfold Connection.step
      dsimp only
      split_ifs with starting
      · unfold stageReturns
        cases found : stages[connection.stage]? with
        | none => exact laddered
        | some stage =>
            dsimp only
            split_ifs
            · refine Laddered.beginStop ⟨?_, laddered.bound, laddered.resting, laddered.going⟩
              dsimp only
              rw [complete_append]
              exact laddered.complete
            · refine nextStage_laddered ?_ (laddered.going starting) starting
              dsimp only
              rw [complete_append, laddered.complete, take_succ_reverse found]
              rfl
      · exact laddered
  | LiStopConnection =>
      unfold Connection.step
      dsimp only
      split_ifs
      · exact laddered.beginStop
      · exact laddered
  | undo =>
      unfold Connection.step
      dsimp only
      split_ifs with stopping
      · have below := laddered.bound
        have complete := laddered.complete
        unfold Connection.undo
        cases number : connection.stage with
        | zero =>
            rw [number] at complete
            refine ⟨complete, Nat.zero_le _, fun _ => Or.inl rfl, fun starting => ?_⟩
            cases starting
        | succ n =>
            rw [number] at below complete
            have inside : n < stages.length := below
            have found : stages[n + 1 - 1]? = some stages[n] := List.getElem?_eq_getElem inside
            rw [found]
            refine ⟨?_, Nat.le_of_lt inside, fun outside => ?_, fun _ => inside⟩
            · dsimp only
              rw [complete_append, complete, take_succ_reverse (List.getElem?_eq_getElem inside)]
              exact if_pos rfl
            · cases stopping.symm.trans outside
      · exact laddered
  | LiInterruptConnection =>
      refine ⟨?_, laddered.bound, laddered.resting, laddered.going⟩
      change Connection.complete (connection.log ++ [.interrupted]) = _
      rw [complete_append]
      exact laddered.complete
  | connectionTerminated errorCode =>
      unfold Connection.step terminated
      dsimp only
      split_ifs
      · exact laddered
      · refine ⟨?_, laddered.bound, laddered.resting, laddered.going⟩
        dsimp only
        rw [complete_append]
        exact laddered.complete

theorem run_laddered (events : List Event) : Laddered (run events) := by
  induction events using List.reverseRecOn with
  | nil =>
      refine ⟨rfl, Nat.zero_le _, fun _ => Or.inl rfl, fun starting => ?_⟩
      cases starting
  | append_singleton events event ih =>
      unfold run at ih ⊢
      rw [List.foldl_append]
      exact ih.step event

/-- A failed handshake is followed by the three functions that undo the stages before it. -/
example :
    let events := [.LiStartConnection .valid, .stageReturns 0, .stageReturns 0, .stageReturns 0,
      .stageReturns 5, .undo, .undo, .undo, .undo]
    (run events).phase = .outside ∧ (run events).stage = 0 ∧
      .undone .audioStreamInit ∈ (run events).log := by
  decide

end Ladder

section Termination

/-- A call after which the client is not told of the end of the connection any more. -/
def Silences : Action → Prop
  | .interrupted => True
  | .connectionTerminated _ => True
  | _ => False

/-- The client may be told: the callbacks are installed and nothing silences them. -/
def Audible (log : List Action) : Prop :=
  ∃ earlier later, log = earlier ++ .installed :: later ∧ ∀ action ∈ later, ¬ Silences action

/-- While the callback may be called, the log allows it, and so it did whenever it was. -/
structure Announced (connection : Connection) : Prop where
  audible : connection.hooked = true → connection.alreadyTerminated = false →
    connection.connectionInterrupted = false → Audible connection.log
  told : ∀ before errorCode after,
    connection.log = before ++ .connectionTerminated errorCode :: after → Audible before

variable {connection : Connection}

theorem Audible.append {log : List Action} (audible : Audible log) {action : Action}
    (quiet : ¬ Silences action) : Audible (log ++ [action]) := by
  obtain ⟨earlier, later, rfl, silent⟩ := audible
  refine ⟨earlier, later ++ [action], by simp, fun other member => ?_⟩
  rcases List.mem_append.mp member with before | now
  · exact silent other before
  · rw [List.mem_singleton.mp now]
    exact quiet

/-- Earlier calls stay as they were when another is added. -/
theorem told_append {log : List Action} {last : Action}
    (told : ∀ before errorCode after,
      log = before ++ .connectionTerminated errorCode :: after → Audible before)
    (now : ∀ errorCode, last = .connectionTerminated errorCode → Audible log) :
    ∀ before errorCode after,
      log ++ [last] = before ++ .connectionTerminated errorCode :: after → Audible before := by
  intro before errorCode after split
  rcases List.eq_nil_or_concat after with rfl | ⟨rest, final, rfl⟩
  · obtain ⟨rfl, same⟩ := List.append_inj' split rfl
    exact now errorCode (List.cons.inj same).1
  · rw [List.concat_eq_append, ← List.cons_append, ← List.append_assoc] at split
    exact told before errorCode rest (List.append_inj' split rfl).1

theorem Announced.log (announced : Announced connection) {action : Action}
    (quiet : ¬ Silences action) {stage : ℕ} {phase : Phase} :
    Announced { connection with
      stage := stage
      phase := phase
      log := connection.log ++ [action] } where
  audible hooked live free := (announced.audible hooked live free).append quiet
  told := told_append announced.told fun errorCode same => by
    rw [same] at quiet
    exact absurd trivial quiet

theorem Announced.nextStage (announced : Announced connection) :
    Announced (nextStage connection) := by
  unfold Connection.nextStage
  cases stages[connection.stage]? with
  | none => exact announced.log id
  | some stage => exact announced.log id

theorem Announced.beginStop (announced : Announced connection) :
    Announced (beginStop connection) where
  audible _ live := by cases live
  told := told_append announced.told fun errorCode same => by cases same

theorem Announced.installed (announced : Announced connection) {phase : Phase} :
    Announced { connection with
      phase := phase
      hooked := true
      alreadyTerminated := false
      connectionInterrupted := false
      log := connection.log ++ [.installed] } where
  audible _ _ _ := ⟨connection.log, [], rfl, fun action none => absurd none List.not_mem_nil⟩
  told := told_append announced.told fun errorCode same => by cases same

theorem Announced.step (announced : Announced connection) (event : Event) :
    Announced (step connection event) := by
  cases event with
  | LiStartConnection arguments =>
      unfold Connection.step beginStart
      dsimp only
      split_ifs
      · cases arguments with
        | refused => exact announced.beginStop
        | misconfigured => exact announced.installed.beginStop
        | valid => exact announced.installed.nextStage
      · exact announced
  | stageReturns err =>
      unfold Connection.step
      dsimp only
      split_ifs
      · unfold stageReturns
        cases stages[connection.stage]? with
        | none => exact announced
        | some stage =>
            dsimp only
            by_cases failed : err ≠ 0 ∧ stage.unchecked = false
            · rw [if_pos failed]
              exact (announced.log id).beginStop
            · rw [if_neg failed]
              exact (announced.log id).nextStage
      · exact announced
  | LiStopConnection =>
      unfold Connection.step
      dsimp only
      split_ifs
      · exact announced.beginStop
      · exact announced
  | undo =>
      unfold Connection.step Connection.undo
      dsimp only
      split_ifs
      · split
        · exact announced.log id
        · exact ⟨announced.audible, announced.told⟩
      · exact announced
  | LiInterruptConnection =>
      refine ⟨fun _ _ free => ?_, ?_⟩
      · cases free
      · exact told_append announced.told fun errorCode same => by cases same
  | connectionTerminated errorCode =>
      unfold Connection.step terminated
      dsimp only
      split_ifs with silent
      · exact announced
      · simp only [not_or, Bool.not_eq_true, Bool.not_eq_false] at silent
        obtain ⟨hooked, live, free⟩ := silent
        refine ⟨fun _ dead => ?_, ?_⟩
        · cases dead
        · exact told_append announced.told fun _ _ => announced.audible hooked live free

/-- The host goes away twice while the control stream starts. -/
def lostTwice : List Event :=
  [.LiStartConnection .valid, .stageReturns 0, .stageReturns 0, .connectionTerminated 3,
    .connectionTerminated 4]

end Termination

end MoonlightWii.Limelight.Connection
