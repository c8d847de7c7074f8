import MoonlightWii.App.Screens

/-!
# A press of Home unwinds the screens (`main.c`, `menu.c`, `input.c`)

From the poll that sets `want_main_menu` until `main_menu` clears it no screen polls again.
But a poll may bring A together with the end of the press, and only the app menu asks for the
flag before it acts on the selected line.
-/

set_option autoImplicit false

namespace MoonlightWii.App.HomeUnwinds

open Foundation.GuardedRun
open MoonlightWii.App.Configuration
open MoonlightWii.App.DoStream (AppEntry decideApp)
open MoonlightWii.App.MainMenu (trimAddress addressLimit)
open MoonlightWii.App.Screens
open MoonlightWii.App.SettingsMenu (Edit applyEdit encvals resolutions)
open MoonlightWii.Gamestream.Errors
open MoonlightWii.Wii.Input
open MoonlightWii.Wii.InputString
open MoonlightWii.Wii.Menu
open MoonlightWii.Wii.MenuPasses

/-! ## What a press should do -/

def Action.Still : Action → Prop
  | .request _ => False
  | .configure before after => after = before

/-- While the flag is set nothing is sent to the host and nothing is changed. -/
def OnlyUnwinds (program : Program) : Prop :=
  ∀ entry ∈ program.log, entry.wantMainMenu = true → Action.Still entry.action

/-! ## When it does -/

/-- The edit stores what is there already. -/
def SameSetting (config : Configuration) : Edit → Prop
  | .resolution r => ∀ row, r = some row → resolutions row = (config.width, config.height)
  | .fps v => 0 < v → v = config.fps
  | .bitrate v => 0 < v → v = config.bitrate
  | .viewonly v => ∀ on, v = some on → on = config.viewonly
  | .localaudio v => ∀ on, v = some on → on = config.localaudio
  | .quitappafter v => ∀ on, v = some on → on = config.quitappafter
  | .osdOverscan v => 0 ≤ v → v = config.osdOverscan
  | .encryption r => ∀ row, r = some row → encvals row = config.encryptionFlags

/-- The text that A confirms in an editor. -/
def confirmedText (maxlen : Nat) (editor : Editor) : Nat → Char :=
  finish maxlen (fun _ => nul) editor

def confirmedAddress (editor : Editor) : List Char :=
  trimAddress (cString (confirmedText addressLimit editor))

/-- Nothing is sent and nothing changes when A is pressed on this screen. -/
def ConfirmsNothing (program : Program) : Prop :=
  match program.screen with
  | .mainMenu sel =>
      if program.connected then sel ≠ 0 ∧ sel ≠ 1
      else sel = 0 → program.config.address = none
  | .settingsMenu _ => True
  | .choice choice sel => 0 ≤ sel → SameSetting program.config (choiceEdit sel choice)
  | .number number editor =>
      SameSetting program.config
        (numberEdit (enteredNumber (confirmedText numberLimit editor)) number)
  | .enterAddress connecting editor =>
      confirmedAddress editor ≠ [] →
        connecting = false ∧ program.config.address = some (confirmedAddress editor)
  | .selectApp _ _ => True
  | .waitForButton => True
  | .returned => True

/-- A poll that ends a press of Home comes without A, or A confirms nothing. -/
def Harmless (program : Program) (event : Event) : Prop :=
  (poll program.proc event.scan).2.wantMainMenu = true →
    (poll program.proc event.scan).1 .a = true → ConfirmsNothing program

theorem applyEdit_eq_iff (config : Configuration) (edit : Edit) :
    applyEdit config edit = config ↔ SameSetting config edit := by
  obtain ⟨width, height, fps, bitrate, packetSize, streamingRemotely, audioConfiguration,
    encryptionFlags, debugLevel, app, address, platform, audioDevice, configFile, keyDir, sops,
    localaudio, fullscreen, rotate, unsupported, quitappafter, viewonly, mouseEmulation, inputs,
    codec, hdr, pin, port, osdOverscan, tlsTest, autostream, inputAdded⟩ := config
  cases edit with
  | resolution r =>
      cases r with
      | none => simp [applyEdit, SameSetting]
      | some r => simp [applyEdit, SameSetting, Prod.ext_iff]
  | fps v => by_cases positive : 0 < v <;> simp [applyEdit, SameSetting, positive]
  | bitrate v => by_cases positive : 0 < v <;> simp [applyEdit, SameSetting, positive]
  | viewonly v => cases v <;> simp [applyEdit, SameSetting]
  | localaudio v => cases v <;> simp [applyEdit, SameSetting]
  | quitappafter v => cases v <;> simp [applyEdit, SameSetting]
  | osdOverscan v => by_cases nonneg : 0 ≤ v <;> simp [applyEdit, SameSetting, nonneg]
  | encryption r =>
      cases r with
      | none => simp [applyEdit, SameSetting]
      | some r => simp [applyEdit, SameSetting]

/-! ## Between two polls -/

/-- The flag is set only behind the last poll. -/
structure Settled (program : Program) : Prop where
  unwinds : OnlyUnwinds program
  cleared : program.proc.wantMainMenu = true → program.screen = .returned

structure Calm (program : Program) : Prop where
  unwinds : OnlyUnwinds program
  cleared : program.proc.wantMainMenu = false

/-- One stage of the code: the log grows, and the condition is met at its end if the other
one was met before. -/
structure Leads (before after : Program → Prop) (program next : Program) : Prop where
  log : program.log <+: next.log
  meets : before program → after next

variable {before between after : Program → Prop} {program middle next : Program}

theorem Leads.trans (first : Leads before between program middle)
    (second : Leads between after middle next) : Leads before after program next :=
  ⟨first.log.trans second.log, fun start => second.meets (first.meets start)⟩

theorem Leads.calm (stage : Leads OnlyUnwinds after program next) :
    Leads Calm after program next :=
  ⟨stage.log, fun calm => stage.meets calm.unwinds⟩

theorem unlogged_unwinds (same : next.log = program.log) :
    Leads OnlyUnwinds OnlyUnwinds program next := by
  refine ⟨same ▸ List.prefix_rfl, ?_⟩
  intro unwinds entry logged
  rw [same] at logged
  exact unwinds entry logged

theorem unlogged_settled (same : next.log = program.log)
    (shown : next.proc.wantMainMenu = true → next.screen = .returned) :
    Leads OnlyUnwinds Settled program next := by
  obtain ⟨log, unwinds⟩ := unlogged_unwinds same
  exact ⟨log, fun start => ⟨unwinds start, shown⟩⟩

/-! ## The stages -/

theorem act_unwinds (action : Action) (unwinds : OnlyUnwinds program)
    (still : program.proc.wantMainMenu = true → Action.Still action) :
    OnlyUnwinds (program.act action) := by
  intro entry logged
  rcases List.mem_append.mp logged with earlier | last
  · exact unwinds entry earlier
  · cases List.mem_singleton.mp last
    exact still

theorem act_calm (action : Action) (program : Program) :
    Leads Calm Calm program (program.act action) := by
  refine ⟨List.prefix_append _ _, ?_⟩
  intro calm
  refine ⟨act_unwinds action calm.unwinds ?_, calm.cleared⟩
  intro set
  rw [calm.cleared] at set
  cases set

theorem request_calm (call : HostCall) (program : Program) :
    Leads Calm Calm program (request call program) :=
  act_calm (.request call) program

theorem configure_calm (config : Configuration) (program : Program) :
    Leads Calm Calm program (configure config program) := by
  obtain ⟨log, calm⟩ := act_calm (.configure program.config config) program
  exact ⟨log, fun start => ⟨(calm start).unwinds, (calm start).cleared⟩⟩

/-- The value stored may be the one that was there. -/
theorem configure_same (config : Configuration) (same : config = program.config) :
    Leads OnlyUnwinds OnlyUnwinds program (configure config program) :=
  ⟨List.prefix_append _ _, fun unwinds => act_unwinds _ unwinds fun _ => same⟩

theorem mainMenu_leads (program : Program) :
    Leads OnlyUnwinds Settled program (mainMenu program) := by
  unfold mainMenu
  split
  · exact unlogged_settled rfl fun set => absurd set Bool.false_ne_true
  · exact unlogged_settled rfl fun _ => rfl

theorem mainMenu_unlogged (same : middle.log = program.log) :
    Leads OnlyUnwinds Settled program (mainMenu middle) :=
  (unlogged_unwinds same).trans (mainMenu_leads middle)

theorem shown_leads (screen : Screen) (cleared : program.proc.wantMainMenu = false) :
    Leads OnlyUnwinds Settled program { program with screen := screen } := by
  have unset : program.proc.wantMainMenu ≠ true := by
    rw [cleared]
    exact Bool.false_ne_true
  exact unlogged_settled rfl fun set => absurd set unset

theorem waitForButton_leads (program : Program) :
    Leads Calm Settled program (waitForButton program) := by
  unfold waitForButton
  split
  · exact ⟨List.prefix_rfl, fun calm => (shown_leads _ calm.cleared).meets calm.unwinds⟩
  · exact (mainMenu_leads program).calm

theorem leaves_cleared {proc : ProcState} (stays : proc.leaves = false) :
    proc.wantMainMenu = false :=
  (Bool.or_eq_false_iff.mp stays).2

theorem selectStart_cleared {count sel shown : Int} {proc : ProcState}
    (opened : selectStart count sel proc = some shown) : proc.wantMainMenu = false := by
  unfold selectStart selectHead at opened
  split at opened
  · cases opened
  · split at opened
    · cases opened
    · rename_i stays
      exact leaves_cleared (Bool.eq_false_iff.mpr stays)

theorem inputStart_cleared {charset : List Char} {maxlen : Nat} {initial : Option (List Char)}
    {proc : ProcState} {editor : Editor}
    (opened : inputStart charset maxlen initial proc = some editor) :
    proc.wantMainMenu = false := by
  unfold inputStart inputHead at opened
  split at opened
  · cases opened
  · split at opened
    · cases opened
    · rename_i stays
      exact leaves_cleared (Bool.eq_false_iff.mpr stays)

theorem settingsMenu_leads (program : Program) :
    Leads OnlyUnwinds Settled program (settingsMenu program) := by
  unfold settingsMenu
  split
  · rename_i opened
    exact shown_leads _ (selectStart_cleared opened)
  · exact mainMenu_leads program

theorem openChoice_leads (choice : Choice) (program : Program) :
    Leads OnlyUnwinds Settled program (openChoice choice program) := by
  unfold openChoice
  split
  · rename_i opened
    exact shown_leads _ (selectStart_cleared opened)
  · exact settingsMenu_leads program

theorem openNumber_leads (number : Number) (program : Program) :
    Leads OnlyUnwinds Settled program (openNumber number program) := by
  unfold openNumber
  dsimp only
  split
  · rename_i opened
    exact shown_leads _ (inputStart_cleared opened)
  · exact settingsMenu_leads program

theorem enterAddress_leads (connecting : Bool) (program : Program) :
    Leads OnlyUnwinds Settled program (enterAddress connecting program) := by
  unfold enterAddress
  split
  · rename_i opened
    exact shown_leads _ (inputStart_cleared opened)
  · exact mainMenu_leads program

theorem settingsSelected_leads (sel : Int) (program : Program) :
    Leads OnlyUnwinds Settled program (settingsSelected sel program) := by
  unfold settingsSelected
  split_ifs
  · exact openChoice_leads .resolution program
  · exact openNumber_leads .fps program
  · exact openNumber_leads .bitrate program
  · exact openChoice_leads .viewonly program
  · exact openChoice_leads .localaudio program
  · exact openChoice_leads .quitappafter program
  · exact openNumber_leads .osdOverscan program
  · exact openChoice_leads .encryption program
  · exact settingsMenu_leads program

theorem choiceMade_calm (choice : Choice) (r : Int) (program : Program) :
    Leads Calm Settled program (choiceMade choice r program) := by
  unfold choiceMade
  split
  · exact (configure_calm _ program).trans (settingsMenu_leads _).calm
  · exact (settingsMenu_leads program).calm

theorem numberMade_calm (number : Number) (out : Option (Nat → Char)) (program : Program) :
    Leads Calm Settled program (numberMade number out program) := by
  cases out with
  | none => exact (settingsMenu_leads program).calm
  | some text => exact (configure_calm _ program).trans (settingsMenu_leads _).calm

theorem stream_calm (replies : Replies) (program : Program) :
    Leads Calm Settled program (stream replies program) := by
  have launched : Leads Calm Calm program (request .startApp program) := request_calm _ program
  have connecting : Leads Calm Calm program
      (request .startConnection (request .startApp program)) := launched.trans (request_calm _ _)
  unfold stream
  split
  · exact launched.trans (waitForButton_leads _)
  · split
    · exact connecting.trans (waitForButton_leads _)
    · refine connecting.trans ?_
      dsimp only
      split
      · refine Leads.trans ?_ ((request_calm .quitApp _).trans (mainMenu_leads _).calm)
        exact ⟨List.prefix_rfl, fun calm => ⟨calm.unwinds, calm.cleared⟩⟩
      · refine Leads.trans ?_ (mainMenu_leads _)
        exact ⟨List.prefix_rfl, fun calm => calm.unwinds⟩

/-- The app menu is the one that asks for the flag before it goes on. -/
theorem afterApplist_leads (haveList : Bool) (appId : Int) (replies : Replies)
    (program : Program) :
    Leads OnlyUnwinds Settled program (afterApplist haveList appId replies program) := by
  cases home : program.proc.wantMainMenu with
  | true =>
      have backs : afterApplist haveList appId replies program = mainMenu program := by
        simp only [afterApplist, decideApp, home, if_true]
      rw [backs]
      exact mainMenu_leads program
  | false =>
      have asked : Leads Calm Calm program
          (if !program.proc.wantMainMenu && (decide (appId < 0) && !haveList) then
            request .applist program else program) := by
        split
        · exact request_calm _ program
        · exact ⟨List.prefix_rfl, id⟩
      have goes : Leads Calm Settled program (afterApplist haveList appId replies program) := by
        unfold afterApplist
        dsimp only
        split
        · exact (mainMenu_leads program).calm
        · exact asked.trans (waitForButton_leads _)
        · exact asked.trans (stream_calm replies _)
      exact ⟨goes.log, fun unwinds => goes.meets ⟨unwinds, home⟩⟩

theorem appSelected_leads (list : List AppEntry) (sel : Int) (replies : Replies)
    (program : Program) :
    Leads OnlyUnwinds Settled program (appSelected list sel replies program) :=
  afterApplist_leads true _ replies program

theorem doStream_asked (replies : Replies) (program : Program) :
    Leads OnlyUnwinds Settled (request .applist program) (doStream replies program) := by
  unfold doStream
  split
  · dsimp only
    split
    · rename_i opened
      exact shown_leads _ (selectStart_cleared opened)
    · exact afterApplist_leads true _ replies _
  · exact afterApplist_leads false _ replies _

theorem doStream_calm (replies : Replies) (program : Program) :
    Leads Calm Settled program (doStream replies program) :=
  (request_calm .applist program).trans (doStream_asked replies program).calm

theorem connectServer_asked (replies : Replies) (program : Program) :
    Leads Calm Settled (request .getStatus program) (connectServer replies program) := by
  have stored (connected : Bool) : Leads Calm Calm (request .getStatus program)
      { request .getStatus program with paired := replies.paired, connected := connected } :=
    ⟨List.prefix_rfl, fun calm => ⟨calm.unwinds, calm.cleared⟩⟩
  unfold connectServer
  split
  · dsimp only
    split
    · exact (stored true).trans (doStream_calm replies _)
    · exact (stored true).trans (mainMenu_leads _).calm
  · exact (stored program.connected).trans (waitForButton_leads _)

theorem connectServer_calm (replies : Replies) (program : Program) :
    Leads Calm Settled program (connectServer replies program) :=
  (request_calm .getStatus program).trans (connectServer_asked replies program)

theorem addressEntered_calm (connecting : Bool) (out : Option (Nat → Char)) (replies : Replies)
    (program : Program) :
    Leads Calm Settled program (addressEntered connecting out replies program) := by
  unfold addressEntered
  split
  · exact (mainMenu_leads program).calm
  · dsimp only
    split
    · exact (mainMenu_leads program).calm
    · split
      · exact (configure_calm _ program).trans (connectServer_calm replies _)
      · exact (configure_calm _ program).trans (mainMenu_leads _).calm

def pairingCall (program : Program) : HostCall :=
  if program.paired then HostCall.unpair else .pair

theorem pairing_asked (replies : Replies) (program : Program) :
    Leads Calm Settled (request (pairingCall program) program) (pairing replies program) := by
  refine Leads.trans ?_ (waitForButton_leads _)
  exact ⟨List.prefix_rfl, fun calm => ⟨calm.unwinds, calm.cleared⟩⟩

theorem pairing_calm (replies : Replies) (program : Program) :
    Leads Calm Settled program (pairing replies program) :=
  (request_calm _ program).trans (pairing_asked replies program)

/-! ## A press without a confirmed line -/

theorem connectedSelected_unwinds (sel : Int) (replies : Replies) (program : Program)
    (harmless : sel ≠ 0 ∧ sel ≠ 1) :
    Leads OnlyUnwinds Settled program (connectedSelected sel replies program) := by
  unfold connectedSelected
  rw [if_neg harmless.1, if_neg harmless.2]
  split_ifs
  · exact settingsMenu_leads program
  · exact enterAddress_leads false program
  · exact mainMenu_unlogged rfl
  · exact mainMenu_unlogged rfl
  · exact mainMenu_leads program

theorem connectedSelected_calm (sel : Int) (replies : Replies) (program : Program) :
    Leads Calm Settled program (connectedSelected sel replies program) := by
  by_cases streams : sel = 0
  · rw [connectedSelected, if_pos streams]
    exact doStream_calm replies program
  · by_cases pairs : sel = 1
    · rw [connectedSelected, if_neg streams, if_pos pairs]
      exact pairing_calm replies program
    · exact (connectedSelected_unwinds sel replies program ⟨streams, pairs⟩).calm

theorem disconnectedSelected_unwinds (sel : Int) (replies : Replies) (program : Program)
    (harmless : sel = 0 → program.config.address = none) :
    Leads OnlyUnwinds Settled program (disconnectedSelected sel replies program) := by
  unfold disconnectedSelected
  split_ifs with connects
  · rw [harmless connects]
    exact enterAddress_leads true program
  · exact enterAddress_leads false program
  · exact settingsMenu_leads program
  · exact mainMenu_unlogged rfl
  · exact mainMenu_leads program

theorem disconnectedSelected_calm (sel : Int) (replies : Replies) (program : Program) :
    Leads Calm Settled program (disconnectedSelected sel replies program) := by
  by_cases harmless : sel = 0 → program.config.address = none
  · exact (disconnectedSelected_unwinds sel replies program harmless).calm
  · obtain ⟨connects, address⟩ := Classical.not_imp.mp harmless
    obtain ⟨text, present⟩ := Option.ne_none_iff_exists'.mp address
    rw [disconnectedSelected, if_pos connects, present]
    exact connectServer_calm replies program

theorem mainSelected_calm (sel : Int) (replies : Replies) (program : Program) :
    Leads Calm Settled program (mainSelected sel replies program) := by
  unfold mainSelected
  split
  · exact connectedSelected_calm sel replies program
  · exact disconnectedSelected_calm sel replies program

theorem choiceMade_unwinds (choice : Choice) (r : Int) (program : Program)
    (same : 0 ≤ r → SameSetting program.config (choiceEdit r choice)) :
    Leads OnlyUnwinds Settled program (choiceMade choice r program) := by
  unfold choiceMade
  split
  · rename_i chosen
    exact (configure_same _ ((applyEdit_eq_iff _ _).mpr (same chosen))).trans
      (settingsMenu_leads _)
  · exact settingsMenu_leads program

theorem numberMade_unwinds (number : Number) (text : Nat → Char) (program : Program)
    (same : SameSetting program.config (numberEdit (enteredNumber text) number)) :
    Leads OnlyUnwinds Settled program (numberMade number (some text) program) :=
  (configure_same _ ((applyEdit_eq_iff _ _).mpr same)).trans (settingsMenu_leads _)

theorem addressEntered_unwinds (connecting : Bool) (text : Nat → Char) (replies : Replies)
    (program : Program)
    (same : trimAddress (cString text) ≠ [] →
      connecting = false ∧ program.config.address = some (trimAddress (cString text))) :
    Leads OnlyUnwinds Settled program
      (addressEntered connecting (some text) replies program) := by
  unfold addressEntered
  dsimp only
  split
  · exact mainMenu_leads program
  · rename_i entered
    obtain ⟨edits, present⟩ := same entered
    rw [edits, if_neg Bool.false_ne_true]
    refine (configure_same _ ?_).trans (mainMenu_leads _)
    rw [← present]

/-! ## One poll -/

theorem passScreen_calm (btns : Button → Bool) (replies : Replies)
    (passed : passScreen btns replies program = some next) : Leads Calm Settled program next := by
  have stays (screen : Screen) : Leads Calm Settled program { program with screen := screen } :=
    ⟨List.prefix_rfl, fun calm => (shown_leads screen calm.cleared).meets calm.unwinds⟩
  unfold passScreen at passed
  split at passed
  · split at passed
    · cases passed
      exact stays _
    · cases passed
      exact mainSelected_calm _ replies program
  · split at passed
    · cases passed
      exact stays _
    · cases passed
      split
      · exact (mainMenu_leads program).calm
      · exact (settingsSelected_leads _ program).calm
  · split at passed
    · cases passed
      exact stays _
    · cases passed
      exact choiceMade_calm _ _ program
  · split at passed
    · cases passed
      exact stays _
    · cases passed
      exact numberMade_calm _ _ program
  · split at passed
    · cases passed
      exact stays _
    · cases passed
      exact addressEntered_calm _ _ replies program
  · split at passed
    · cases passed
      exact stays _
    · cases passed
      exact (appSelected_leads _ _ replies program).calm
  · cases passed
    split
    · exact (mainMenu_leads program).calm
    · split
      · exact (mainMenu_leads program).calm
      · exact waitForButton_leads program
  · cases passed

/-- A press of Home alone. -/
theorem passScreen_home (btns : Button → Bool) (replies : Replies)
    (home : program.proc.wantMainMenu = true) (alone : ¬ btns .a = true)
    (passed : passScreen btns replies program = some next) :
    Leads OnlyUnwinds Settled program next := by
  unfold passScreen at passed
  split at passed
  · rw [selectPass_home _ _ _ home, if_neg alone] at passed
    cases passed
    unfold mainSelected
    split
    · exact connectedSelected_unwinds (-1) replies program ⟨by decide, by decide⟩
    · exact disconnectedSelected_unwinds (-1) replies program fun connects => by cases connects
  · rw [selectPass_home _ _ _ home, if_neg alone] at passed
    cases passed
    exact mainMenu_leads program
  · rw [selectPass_home _ _ _ home, if_neg alone] at passed
    cases passed
    exact settingsMenu_leads program
  · rw [inputPass_home _ _ _ _ _ home, if_neg alone] at passed
    cases passed
    exact settingsMenu_leads program
  · rw [inputPass_home _ _ _ _ _ home, if_neg alone] at passed
    cases passed
    exact mainMenu_leads program
  · rw [selectPass_home _ _ _ home, if_neg alone] at passed
    cases passed
    exact appSelected_leads _ _ replies program
  · cases passed
    rw [if_neg alone, home, if_pos rfl]
    exact mainMenu_leads program
  · cases passed

/-- A press of Home together with A. -/
theorem passScreen_confirmed (btns : Button → Bool) (replies : Replies)
    (home : program.proc.wantMainMenu = true) (a : btns .a = true)
    (nothing : ConfirmsNothing program)
    (passed : passScreen btns replies program = some next) :
    Leads OnlyUnwinds Settled program next := by
  unfold passScreen at passed
  split at passed
  · rename_i sel shown
    rw [ConfirmsNothing, shown] at nothing
    rw [selectPass_home _ _ _ home, if_pos a] at passed
    cases passed
    unfold mainSelected
    dsimp only at nothing
    split
    · rename_i connected
      rw [if_pos connected] at nothing
      exact connectedSelected_unwinds sel replies program nothing
    · rename_i disconnected
      rw [if_neg disconnected] at nothing
      exact disconnectedSelected_unwinds sel replies program nothing
  · rw [selectPass_home _ _ _ home, if_pos a] at passed
    cases passed
    split
    · exact mainMenu_leads program
    · exact settingsSelected_leads _ program
  · rename_i choice sel shown
    rw [ConfirmsNothing, shown] at nothing
    rw [selectPass_home _ _ _ home, if_pos a] at passed
    cases passed
    exact choiceMade_unwinds choice sel program nothing
  · rename_i number editor shown
    rw [ConfirmsNothing, shown] at nothing
    rw [inputPass_home _ _ _ _ _ home, if_pos a] at passed
    obtain rfl := Option.some.inj passed
    exact numberMade_unwinds number _ program nothing
  · rename_i connecting editor shown
    rw [ConfirmsNothing, shown] at nothing
    rw [inputPass_home _ _ _ _ _ home, if_pos a] at passed
    obtain rfl := Option.some.inj passed
    exact addressEntered_unwinds connecting _ replies program nothing
  · rw [selectPass_home _ _ _ home, if_pos a] at passed
    cases passed
    exact appSelected_leads _ _ replies program
  · cases passed
    rw [if_pos a]
    exact mainMenu_leads program
  · cases passed

theorem step_settled {event : Event} (settled : Settled program)
    (harmless : Harmless program event) (stepped : step program event = some next) :
    Settled next := by
  unfold step at stepped
  unfold Harmless at harmless
  generalize poll program.proc event.scan = polled at stepped harmless
  obtain ⟨btns, proc⟩ := polled
  cases home : proc.wantMainMenu with
  | false => exact (passScreen_calm btns event.replies stepped).meets ⟨settled.unwinds, home⟩
  | true =>
      by_cases a : btns .a = true
      · have nothing : ConfirmsNothing { program with proc := proc } := harmless home a
        exact (passScreen_confirmed btns event.replies home a nothing stepped).meets
          settled.unwinds
      · exact (passScreen_home btns event.replies home a stepped).meets settled.unwinds

/-! ## A confirmed line -/

theorem act_breaks (action : Action) (home : program.proc.wantMainMenu = true)
    (moves : ¬ Action.Still action) (grown : (program.act action).log <+: next.log) :
    ¬ OnlyUnwinds next := by
  intro unwinds
  have logged : ⟨program.proc.wantMainMenu, action⟩ ∈ next.log :=
    grown.subset (List.mem_append_right _ (List.mem_singleton.mpr rfl))
  exact moves (unwinds _ logged home)

theorem request_breaks {call : HostCall} (home : program.proc.wantMainMenu = true)
    (grown : (request call program).log <+: next.log) : ¬ OnlyUnwinds next :=
  act_breaks (.request call) home id grown

theorem configure_breaks {config : Configuration} (home : program.proc.wantMainMenu = true)
    (differs : config ≠ program.config) (grown : (configure config program).log <+: next.log) :
    ¬ OnlyUnwinds next :=
  act_breaks (.configure program.config config) home differs grown

theorem connectServer_breaks (replies : Replies) (program : Program)
    (home : program.proc.wantMainMenu = true) :
    ¬ OnlyUnwinds (connectServer replies program) :=
  request_breaks home (connectServer_asked replies program).log

theorem mainSelected_breaks (sel : Int) (replies : Replies)
    (home : program.proc.wantMainMenu = true) (shown : program.screen = .mainMenu sel)
    (confirms : ¬ ConfirmsNothing program) :
    ¬ OnlyUnwinds (mainSelected sel replies program) := by
  rw [ConfirmsNothing, shown] at confirms
  dsimp only at confirms
  unfold mainSelected
  split
  · rename_i connected
    rw [if_pos connected] at confirms
    by_cases streams : sel = 0
    · rw [connectedSelected, if_pos streams]
      exact request_breaks home (doStream_asked replies program).log
    · have pairs : sel = 1 := by
        by_contra other
        exact confirms ⟨streams, other⟩
      rw [connectedSelected, if_neg streams, if_pos pairs]
      exact request_breaks home (pairing_asked replies program).log
  · rename_i disconnected
    rw [if_neg disconnected] at confirms
    obtain ⟨connects, address⟩ := Classical.not_imp.mp confirms
    obtain ⟨text, present⟩ := Option.ne_none_iff_exists'.mp address
    rw [disconnectedSelected, if_pos connects, present]
    exact connectServer_breaks replies program home

theorem choiceMade_breaks (choice : Choice) (r : Int) (home : program.proc.wantMainMenu = true)
    (differs : ¬ (0 ≤ r → SameSetting program.config (choiceEdit r choice))) :
    ¬ OnlyUnwinds (choiceMade choice r program) := by
  obtain ⟨chosen, other⟩ := Classical.not_imp.mp differs
  rw [choiceMade, if_pos chosen]
  exact configure_breaks home (mt (applyEdit_eq_iff _ _).mp other) (settingsMenu_leads _).log

theorem numberMade_breaks (number : Number) (text : Nat → Char)
    (home : program.proc.wantMainMenu = true)
    (differs : ¬ SameSetting program.config (numberEdit (enteredNumber text) number)) :
    ¬ OnlyUnwinds (numberMade number (some text) program) :=
  configure_breaks home (mt (applyEdit_eq_iff _ _).mp differs) (settingsMenu_leads _).log

theorem addressEntered_breaks (connecting : Bool) (text : Nat → Char) (replies : Replies)
    (home : program.proc.wantMainMenu = true)
    (differs : ¬ (trimAddress (cString text) ≠ [] →
      connecting = false ∧ program.config.address = some (trimAddress (cString text)))) :
    ¬ OnlyUnwinds (addressEntered connecting (some text) replies program) := by
  obtain ⟨entered, other⟩ := Classical.not_imp.mp differs
  unfold addressEntered
  dsimp only
  rw [if_neg entered]
  cases connecting with
  | true =>
      rw [if_pos rfl]
      exact connectServer_breaks replies _ home
  | false =>
      refine configure_breaks home ?_ (mainMenu_leads _).log
      intro same
      exact other ⟨rfl, by rw [← same]⟩

theorem passScreen_breaks (btns : Button → Bool) (replies : Replies)
    (home : program.proc.wantMainMenu = true) (a : btns .a = true)
    (confirms : ¬ ConfirmsNothing program)
    (passed : passScreen btns replies program = some next) : ¬ OnlyUnwinds next := by
  unfold passScreen at passed
  split at passed
  · rename_i sel shown
    rw [selectPass_home _ _ _ home, if_pos a] at passed
    cases passed
    exact mainSelected_breaks sel replies home shown confirms
  · rename_i sel shown
    rw [ConfirmsNothing, shown] at confirms
    exact absurd trivial confirms
  · rename_i choice sel shown
    rw [ConfirmsNothing, shown] at confirms
    rw [selectPass_home _ _ _ home, if_pos a] at passed
    cases passed
    exact choiceMade_breaks choice sel home confirms
  · rename_i number editor shown
    rw [ConfirmsNothing, shown] at confirms
    rw [inputPass_home _ _ _ _ _ home, if_pos a] at passed
    obtain rfl := Option.some.inj passed
    exact numberMade_breaks number _ home confirms
  · rename_i connecting editor shown
    rw [ConfirmsNothing, shown] at confirms
    rw [inputPass_home _ _ _ _ _ home, if_pos a] at passed
    obtain rfl := Option.some.inj passed
    exact addressEntered_breaks connecting _ replies home confirms
  · rename_i list sel shown
    rw [ConfirmsNothing, shown] at confirms
    exact absurd trivial confirms
  · rename_i shown
    rw [ConfirmsNothing, shown] at confirms
    exact absurd trivial confirms
  · cases passed

theorem step_breaks {event : Event} (harmful : ¬ Harmless program event)
    (stepped : step program event = some next) : ¬ OnlyUnwinds next := by
  unfold step at stepped
  unfold Harmless at harmful
  generalize poll program.proc event.scan = polled at stepped harmful
  obtain ⟨btns, proc⟩ := polled
  obtain ⟨home, confirming⟩ := Classical.not_imp.mp harmful
  obtain ⟨a, confirms⟩ := Classical.not_imp.mp confirming
  have confirms : ¬ ConfirmsNothing { program with proc := proc } := confirms
  exact passScreen_breaks btns event.replies home a confirms stepped

/-! ## Every sequence of polls -/

theorem startProgram_settled (proc : ProcState) (config : Configuration) (paired : Bool) :
    Settled (startProgram proc config paired) :=
  (mainMenu_leads _).meets fun _ logged => absurd logged List.not_mem_nil

/-- The press only unwinds the screens exactly when A confirms nothing in the poll that ends
it. -/
theorem home_unwinds_iff (proc : ProcState) (config : Configuration) (paired : Bool)
    (events : List Event) (final : Program)
    (ran : run step (startProgram proc config paired) events = some final) :
    Throughout step OnlyUnwinds (startProgram proc config paired) events ↔
      Along step Harmless (startProgram proc config paired) events :=
  throughout_iff_along Settled (fun _ settled => settled.unwinds)
    (fun _ _ _ settled harmless stepped => step_settled settled harmless stepped)
    (fun _ _ _ _ harmful stepped => step_breaks harmful stepped)
    (startProgram_settled proc config paired) ran

def bootProc : ProcState where
  running := true
  wantMainMenu := false
  homeEnabled := true
  home := ⟨0, false, false⟩

def unreachableHost : Replies :=
  ⟨gsIoError, false, .error gsIoError, .error gsIoError, gsIoError, -1,
    ⟨0, false, false⟩, true⟩

/-- One poll with Home held or not, and the buttons that have gone down since the last one. -/
def polled (held : Bool) (pressed : List Button) : Event where
  scan :=
    { microsNow := 0
      wiimote := ⟨true, true, fun button => held && button == .home,
        fun button => pressed.contains button, none⟩ }
  replies := unreachableHost

/-- From the main menu into the list of resolutions. -/
def toResolutions : List Event :=
  [polled false [.down], polled false [.down], polled false [.a], polled false [.a]]

/-- Home alone in the list of resolutions. -/
def homeAlone : List Event :=
  toResolutions ++ [polled true [.home], polled true [.down], polled false []]

theorem home_alone_unwinds :
    Throughout step OnlyUnwinds (startProgram bootProc defaults false) homeAlone := by
  refine (home_unwinds_iff bootProc defaults false homeAlone _ rfl).mpr ?_
  refine ⟨fun home => ?_, fun home => ?_, fun home => ?_, fun home => ?_, fun home => ?_,
    fun home => ?_, fun _ a => ?_, trivial⟩
  · cases home
  · cases home
  · cases home
  · cases home
  · cases home
  · cases home
  · cases a

/-- A goes down when Home comes up: the resolution is changed. -/
theorem home_with_a_changes_resolution :
    ¬ ∀ (proc : ProcState) (config : Configuration) (paired : Bool) (events : List Event),
      Throughout step OnlyUnwinds (startProgram proc config paired) events := by
  intro always
  have all := always bootProc defaults false
    (toResolutions ++ [polled true [.home], polled true [.down], polled false [.a]])
  have unwinds := throughout_last all rfl
  have changed := unwinds
    ⟨true, .configure defaults { defaults with width := 854, height := 480 }⟩
    (List.mem_of_getLast? rfl) rfl
  have width := congrArg Configuration.width changed
  exact absurd width (by decide)

end MoonlightWii.App.HomeUnwinds
