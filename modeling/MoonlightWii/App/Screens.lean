import MoonlightWii.App.DoStream
import MoonlightWii.App.MainMenu
import MoonlightWii.App.SettingsMenu
import MoonlightWii.Wii.MenuPasses

/-!
# The screens of the program (`main.c`)

`main_menu` and all that is below it, from one poll of the remote to the next.  The result
of a call to the host comes with the poll that leads to it; between two polls no function of
the host is called twice, except `gs_applist`.  Drawing and the written file are left out.
-/

set_option autoImplicit false

namespace MoonlightWii.App.Screens

open MoonlightWii.App.Configuration
open MoonlightWii.App.DoStream
open MoonlightWii.App.MainMenu (trimAddress addressLimit)
open MoonlightWii.App.SettingsMenu (Edit applyEdit)
open MoonlightWii.Gamestream.Errors
open MoonlightWii.Wii.Input
open MoonlightWii.Wii.InputString
open MoonlightWii.Wii.Menu
open MoonlightWii.Wii.MenuPasses

/-! ## State -/

inductive HostCall where
  | getStatus
  | pair
  | unpair
  | applist
  | startApp
  | startConnection
  | quitApp
  deriving DecidableEq

/-- The results of the calls to the host, and what a stream leaves behind. -/
structure Replies where
  status : Int
  /-- `server->paired` after the call. -/
  paired : Bool
  listed : Applist
  relisted : Applist
  started : Int
  connection : Int
  home : HomeButton
  running : Bool

/-- The entries of `settings_menu` with a list, and those with a number. -/
inductive Choice where
  | resolution
  | viewonly
  | localaudio
  | quitappafter
  | encryption

inductive Number where
  | fps
  | bitrate
  | osdOverscan

/-- The screen that polls the remote next, with its selected line or its editor. -/
inductive Screen where
  | mainMenu (sel : Int)
  | settingsMenu (sel : Int)
  | choice (choice : Choice) (sel : Int)
  | number (number : Number) (editor : Editor)
  /-- `connecting`: `main_menu` connects when the address has been entered. -/
  | enterAddress (connecting : Bool) (editor : Editor)
  | selectApp (list : List AppEntry) (sel : Int)
  | waitForButton
  /-- `main_menu` has returned. -/
  | returned

inductive Action where
  | request (call : HostCall)
  | configure (before after : Configuration)
  deriving DecidableEq

/-- An action, and `want_main_menu` at that time. -/
structure Logged where
  wantMainMenu : Bool
  action : Action
  deriving DecidableEq

structure Program where
  proc : ProcState
  config : Configuration
  connected : Bool
  paired : Bool
  screen : Screen
  /-- Ghost: the requests and the stores into the configuration. -/
  log : List Logged

def Program.act (program : Program) (action : Action) : Program :=
  { program with log := program.log ++ [⟨program.proc.wantMainMenu, action⟩] }

def request (call : HostCall) (program : Program) : Program := program.act (.request call)

def configure (config : Configuration) (program : Program) : Program :=
  { program.act (.configure program.config config) with config := config }

/-! ## The main menu and the screens that go back to it -/

def mainCount (program : Program) : Int := if program.connected then 6 else 4

/-- The top of the loop: the flag has just been cleared, so that the menu polls. -/
def mainMenu (program : Program) : Program :=
  if program.proc.running then
    { program with
      proc := { program.proc with wantMainMenu := false }
      screen := .mainMenu 0 }
  else
    { program with screen := .returned }

def stopRunning (program : Program) : Program :=
  { program with proc := { program.proc with running := false } }

/-- The loop of `wait_for_button` looks at the flag only after its first poll. -/
def waitForButton (program : Program) : Program :=
  if program.proc.running then { program with screen := .waitForButton } else mainMenu program

/-! ## `settings_menu` -/

def settingsCount : Int := 8

/-- Its test of `wii_proc_running` is also the first one of `menu_select`; behind the loop
are `save_config` and the return. -/
def settingsMenu (program : Program) : Program :=
  match selectStart settingsCount 0 program.proc with
  | some sel => { program with screen := .settingsMenu sel }
  | none => mainMenu program

def choiceCount : Choice → Int
  | .resolution => 4
  | .viewonly => 2
  | .localaudio => 2
  | .quitappafter => 2
  | .encryption => 4

/-- The first line of `menu_select_bool`. -/
def boolRow (initial : Bool) : Int := if initial then 0 else 1

def currentRow (config : Configuration) : Choice → Int
  | .resolution =>
      if config.width = 854 then 1
      else if config.width = 1280 then 2
      else if config.width = 1920 then 3
      else 0
  | .viewonly => boolRow config.viewonly
  | .localaudio => boolRow config.localaudio
  | .quitappafter => boolRow config.quitappafter
  | .encryption =>
      let video := config.encryptionFlags &&& encflgVideo ≠ 0
      let audio := config.encryptionFlags &&& encflgAudio ≠ 0
      if video ∧ audio then 3 else if video then 2 else if audio then 1 else 0

def rowOf (r : Int) : Option (Fin 4) :=
  if inside : 0 ≤ r ∧ r < 4 then some ⟨r.toNat, by omega⟩ else none

/-- The result of `menu_select_bool`. -/
def boolOf (r : Int) : Option Bool := if r < 0 then none else some (r == 0)

def choiceEdit (r : Int) : Choice → Edit
  | .resolution => .resolution (rowOf r)
  | .viewonly => .viewonly (boolOf r)
  | .localaudio => .localaudio (boolOf r)
  | .quitappafter => .quitappafter (boolOf r)
  | .encryption => .encryption (rowOf r)

def openChoice (choice : Choice) (program : Program) : Program :=
  match selectStart (choiceCount choice) (currentRow program.config choice) program.proc with
  | some sel => { program with screen := .choice choice sel }
  | none => settingsMenu program

def choiceMade (choice : Choice) (r : Int) (program : Program) : Program :=
  if 0 ≤ r then
    settingsMenu (configure (applyEdit program.config (choiceEdit r choice)) program)
  else settingsMenu program

def digits : List Char := "0123456789".toList

def numberLimit : Nat := 15

def currentNumber (config : Configuration) : Number → Int32
  | .fps => config.fps
  | .bitrate => config.bitrate
  | .osdOverscan => config.osdOverscan

/-- What `menu_input_int` returns for the text in `out`. -/
def enteredNumber (out : Nat → Char) : Int32 :=
  let v := atoiInt (cString out)
  if v < 0 then 0 else v

def numberEdit (v : Int32) : Number → Edit
  | .fps => .fps v
  | .bitrate => .bitrate v
  | .osdOverscan => .osdOverscan v

def openNumber (number : Number) (program : Program) : Program :=
  let initial := currentNumber program.config number
  let buf := snprintf 16 (decimal (if initial < 0 then 0 else initial.toInt))
  match inputStart digits numberLimit (some buf) program.proc with
  | some editor => { program with screen := .number number editor }
  | none => settingsMenu program

/-- `applyEdit` makes the tests of `v`. -/
def numberMade (number : Number) (out : Option (Nat → Char)) (program : Program) : Program :=
  match out with
  | some text =>
      settingsMenu
        (configure (applyEdit program.config (numberEdit (enteredNumber text) number)) program)
  | none => settingsMenu program

def settingsSelected (sel : Int) (program : Program) : Program :=
  if sel = 0 then openChoice .resolution program
  else if sel = 1 then openNumber .fps program
  else if sel = 2 then openNumber .bitrate program
  else if sel = 3 then openChoice .viewonly program
  else if sel = 4 then openChoice .localaudio program
  else if sel = 5 then openChoice .quitappafter program
  else if sel = 6 then openNumber .osdOverscan program
  else if sel = 7 then openChoice .encryption program
  else settingsMenu program

/-! ## Streams -/

/-- From the call of `gs_start_app` on. -/
def stream (replies : Replies) (program : Program) : Program :=
  let launched := request .startApp program
  if replies.started < 0 then waitForButton launched
  else
    let connecting := request .startConnection launched
    if replies.connection ≠ 0 then waitForButton connecting
    else
      let streamed : Program :=
        { connecting with proc :=
          { connecting.proc with
            homeEnabled := true
            home := replies.home
            running := connecting.proc.running && replies.running } }
      mainMenu (if streamed.config.quitappafter then request .quitApp streamed else streamed)

/-- Behind the app menu; `get_app_id` asks for the list again when there is none. -/
def afterApplist (haveList : Bool) (appId : Int) (replies : Replies) (program : Program) :
    Program :=
  let asked :=
    if !program.proc.wantMainMenu && (decide (appId < 0) && !haveList) then
      request .applist program
    else program
  match decideApp haveList appId program.proc replies.relisted program.config.app with
  | .backedOut => mainMenu program
  | .appNotFound _ => waitForButton asked
  | .start _ => stream replies asked

def doStream (replies : Replies) (program : Program) : Program :=
  let asked := request .applist program
  match replies.listed with
  | .ok (first :: others) =>
      let list := first :: others
      match selectStart (appNames list).length 0 asked.proc with
      | some sel => { asked with screen := .selectApp list sel }
      | none => afterApplist true (findAppId asked.config.app list) replies asked
  | _ => afterApplist false (-1) replies asked

def appSelected (list : List AppEntry) (sel : Int) (replies : Replies) (program : Program) :
    Program :=
  afterApplist true
    (if 0 ≤ sel then walkToSelected sel list else findAppId program.config.app list)
    replies program

/-! ## Connecting -/

def connectServer (replies : Replies) (program : Program) : Program :=
  let asked : Program := { request .getStatus program with paired := replies.paired }
  if replies.status = gsOk then
    let connected : Program := { asked with connected := true }
    if connected.config.autostream then doStream replies connected else mainMenu connected
  else waitForButton asked

def addressCharset : List Char := "0123456789.".toList

/-- Both callers go back to the top of the loop when 0 is returned. -/
def enterAddress (connecting : Bool) (program : Program) : Program :=
  match inputStart addressCharset addressLimit (some (program.config.address.getD []))
      program.proc with
  | some editor => { program with screen := .enterAddress connecting editor }
  | none => mainMenu program

def addressEntered (connecting : Bool) (out : Option (Nat → Char)) (replies : Replies)
    (program : Program) : Program :=
  match out with
  | none => mainMenu program
  | some text =>
      let addr := trimAddress (cString text)
      if addr = [] then mainMenu program
      else
        let stored := configure { program.config with address := some addr } program
        if connecting then connectServer replies stored else mainMenu stored

/-! ## The entries of the main menu -/

/-- `do_pair` and `do_unpair`. -/
def pairing (replies : Replies) (program : Program) : Program :=
  let call := if program.paired then HostCall.unpair else .pair
  waitForButton { request call program with paired := replies.paired }

def connectedSelected (sel : Int) (replies : Replies) (program : Program) : Program :=
  if sel = 0 then doStream replies program
  else if sel = 1 then pairing replies program
  else if sel = 2 then settingsMenu program
  else if sel = 3 then enterAddress false program
  else if sel = 4 then mainMenu { program with connected := false }
  else if sel = 5 then mainMenu (stopRunning program)
  else mainMenu program

def disconnectedSelected (sel : Int) (replies : Replies) (program : Program) : Program :=
  if sel = 0 then
    match program.config.address with
    | none => enterAddress true program
    | some _ => connectServer replies program
  else if sel = 1 then enterAddress false program
  else if sel = 2 then settingsMenu program
  else if sel = 3 then mainMenu (stopRunning program)
  else mainMenu program

def mainSelected (sel : Int) (replies : Replies) (program : Program) : Program :=
  if program.connected then connectedSelected sel replies program
  else disconnectedSelected sel replies program

/-! ## One poll -/

structure Event where
  scan : Scan
  replies : Replies

/-- The pass of a screen from its poll to the next one. -/
def passScreen (btns : Button → Bool) (replies : Replies) (program : Program) : Option Program :=
  match program.screen with
  | .mainMenu sel =>
      match selectPass (mainCount program) sel btns program.proc with
      | .polls next => some { program with screen := .mainMenu next }
      | .returned r => some (mainSelected r replies program)
  | .settingsMenu sel =>
      match selectPass settingsCount sel btns program.proc with
      | .polls next => some { program with screen := .settingsMenu next }
      | .returned r =>
          some (if r < 0 then mainMenu program else settingsSelected r program)
  | .choice choice sel =>
      match selectPass (choiceCount choice) sel btns program.proc with
      | .polls next => some { program with screen := .choice choice next }
      | .returned r => some (choiceMade choice r program)
  | .number number editor =>
      match inputPass digits numberLimit (fun _ => nul) editor btns program.proc with
      | .polls next => some { program with screen := .number number next }
      | .returned out => some (numberMade number out program)
  | .enterAddress connecting editor =>
      match inputPass addressCharset addressLimit (fun _ => nul) editor btns program.proc with
      | .polls next => some { program with screen := .enterAddress connecting next }
      | .returned out => some (addressEntered connecting out replies program)
  | .selectApp list sel =>
      match selectPass (appNames list).length sel btns program.proc with
      | .polls next => some { program with screen := .selectApp list next }
      | .returned r => some (appSelected list r replies program)
  | .waitForButton =>
      some
        (if btns .a then mainMenu program
        else if program.proc.wantMainMenu then mainMenu program
        else waitForButton program)
  | .returned => none

def step (program : Program) (event : Event) : Option Program :=
  let polled := poll program.proc event.scan
  passScreen polled.1 event.replies { program with proc := polled.2 }

/-- The program when `main` calls `main_menu`. -/
def startProgram (proc : ProcState) (config : Configuration) (paired : Bool) : Program :=
  mainMenu ⟨proc, config, false, paired, .returned, []⟩

end MoonlightWii.App.Screens
