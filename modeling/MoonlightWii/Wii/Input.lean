/-!
# Wiimote input (`input.c`)

A scan of the remote is the argument of one call.  Buttons are named instead of
encoded: `held` is the level `btns_l | btns_h`, `pressed` the edge `btns_d`.
-/

set_option autoImplicit false

namespace MoonlightWii.Wii.Input

inductive Button where
  | a
  | b
  | one
  | two
  | up
  | down
  | left
  | right
  | plus
  | minus
  | home
  deriving DecidableEq, Repr

structure Nunchuk where
  heldZ : Bool
  heldC : Bool
  btnsZ : Bool
  btnsC : Bool
  posX : UInt8
  posY : UInt8
  centerX : UInt8
  centerY : UInt8

/-- `WPAD_Data(WPAD_CHAN_0)` after a scan. -/
structure WpadData where
  errNone : Bool
  dataPresent : Bool
  held : Button → Bool
  pressed : Button → Bool
  nunchuk : Option Nunchuk

def WpadData.ready (wiimote : WpadData) : Bool :=
  wiimote.errNone && wiimote.dataPresent

/-! ## The Home button -/

def homeHoldMicros : UInt64 := 3 * 1000 * 1000

structure HomeButton where
  homeDownMicros : UInt64
  homeHeld : Bool
  homeLongFired : Bool

inductive HomeAction where
  | none
  | back
  | quit
  deriving DecidableEq, Repr

def homePoll (home : HomeButton) (microsNow : UInt64) (homeDown : Bool) :
    HomeAction × HomeButton :=
  if homeDown then
    if !home.homeHeld then
      (.none, { homeHeld := true, homeLongFired := false, homeDownMicros := microsNow })
    else if !home.homeLongFired && homeHoldMicros < microsNow - home.homeDownMicros then
      (.quit, { home with homeLongFired := true })
    else
      (.none, home)
  else
    let action := if home.homeHeld && !home.homeLongFired then HomeAction.back else .none
    (action, { home with homeHeld := false, homeLongFired := false })

/-! ## One update of the input thread -/

/-- The arguments of `LiSendMultiControllerEvent` that are not constants. -/
structure ControllerEvent where
  buttonFlags : UInt16
  rightTrigger : UInt8
  leftStickX : Int
  leftStickY : Int
  deriving DecidableEq, Repr

/-- The `CHECKBTN` lines of `send_controller_event`. -/
def buttonTable : List (Button × UInt16) :=
  [(.a, 0x1000), (.b, 0x2000), (.one, 0x0100), (.two, 0x0200), (.up, 0x0001),
    (.down, 0x0002), (.left, 0x0004), (.right, 0x0008), (.plus, 0x0010), (.minus, 0x0020)]

def sendControllerEvent (wiimote : WpadData) : ControllerEvent :=
  let buttonFlags := buttonTable.foldl
    (fun flags entry => if wiimote.held entry.1 then flags ||| entry.2 else flags) 0
  match wiimote.nunchuk with
  | none => ⟨buttonFlags, 0, 0, 0⟩
  | some nunchuk =>
      let withC := if nunchuk.heldC then buttonFlags ||| 0x8000 else buttonFlags
      let withZ := if nunchuk.heldZ then withC ||| 0x4000 else withC
      ⟨withZ, if nunchuk.heldZ then 0xFF else 0,
        ((nunchuk.posX.toNat : Int) - nunchuk.centerX.toNat) * 2,
        ((nunchuk.posY.toNat : Int) - nunchuk.centerY.toNat) * 2⟩

inductive InputUpdate where
  | nothing
  | stopRunning
  | stopStream
  | send (event : ControllerEvent)
  deriving DecidableEq, Repr

def wiiInputUpdate (homeEnabled : Bool) (home : HomeButton) (microsNow : UInt64)
    (wiimote : WpadData) : InputUpdate × HomeButton :=
  if !wiimote.ready then
    (.nothing, home)
  else if homeEnabled then
    match homePoll home microsNow (wiimote.held .home) with
    | (.quit, polled) => (.stopRunning, polled)
    | (.back, polled) => (.stopStream, polled)
    | (.none, polled) => (.send (sendControllerEvent wiimote), polled)
  else
    (.send (sendControllerEvent wiimote), home)

/-! ## One poll of the menus -/

inductive MenuPoll where
  | nothing
  | stopRunning
  | wantMainMenu
  deriving DecidableEq, Repr

structure Triggered where
  btns : Button → Bool
  poll : MenuPoll
  home : HomeButton

def wiiInputButtonsTriggered (homeEnabled : Bool) (home : HomeButton) (microsNow : UInt64)
    (wiimote : WpadData) : Triggered :=
  if !wiimote.ready then
    ⟨fun _ => false, .nothing, home⟩
  else
    let (action, polled) :=
      if homeEnabled then homePoll home microsNow (wiimote.held .home)
      else (HomeAction.none, home)
    let btns : Button → Bool := fun button =>
      wiimote.pressed button ||
        match wiimote.nunchuk with
        | none => false
        | some nunchuk =>
            (button == .two && nunchuk.btnsZ) || (button == .one && nunchuk.btnsC)
    match action with
    | .quit => ⟨btns, .stopRunning, polled⟩
    | .back => ⟨btns, .wantMainMenu, polled⟩
    | .none => ⟨btns, .nothing, polled⟩

end MoonlightWii.Wii.Input
