import MoonlightWii.Foundation.FirstMatch
import MoonlightWii.Gamestream.Pair
import MoonlightWii.Gamestream.XmlLists

/-!
# Reading the host's status (`gs_get_status` and `gs_applist` in `client.c`)

`load_server_status` also writes texts and flags that no other call reads; they
are kept beside the server data.  A first request goes out over https, and where
it fails a second one over http.
-/

set_option autoImplicit false

namespace MoonlightWii.Gamestream.GetStatus

open Foundation.EarlyExit
open Foundation.FirstMatch
open MoonlightWii.Gamestream.Errors
open MoonlightWii.Gamestream.Pair
open MoonlightWii.Gamestream.Request
open MoonlightWii.Gamestream.Xml
open MoonlightWii.Gamestream.XmlLists

structure ServerInfo where
  uuid : Option CString
  mac : Option CString
  hostname : Option CString
  gpuType : Option CString
  gsVersion : Option CString
  serverInfoAppVersion : Option CString
  serverInfoGfeVersion : Option CString
  supportsHdr : Bool
  serverCodecModeSupport : Int

structure StatusCall where
  call : Call
  info : ServerInfo

abbrev StatusM := EStateM Int StatusCall

def onCall {α : Type} (program : GsM α) : StatusM α := fun state =>
  match program state.call with
  | .ok value call => .ok value { state with call := call }
  | .error ret call => .error ret { state with call := call }

theorem onCall_ensures {α : Type} {pre : Call → Prop} {program : GsM α}
    {done : α → Call → Prop} {left : Int → Call → Prop} (ensured : Ensures pre program done left) :
    Ensures (fun state => pre state.call) (onCall program)
      (fun value state => done value state.call) (fun ret state => left ret state.call) := by
  intro state holds
  have ran := ensured state.call holds
  unfold onCall
  cases result : program state.call with
  | ok value call =>
      rw [result] at ran
      exact ran
  | error ret call =>
      rw [result] at ran
      exact ran

def storeInfo (change : ServerInfo → ServerInfo) : StatusM PUnit :=
  modify fun state => { state with info := change state.info }

def storeServer (change : Server → Server) : StatusM PUnit :=
  modify fun state => { state with call := { state.call with server := change state.call.server } }

/-! ## `load_server_status` -/

/-- `if (xml_search(..., node, &field) != GS_OK) goto cleanup;` with `ret` still
`GS_INVALID`. -/
def searchText (document : Document) (node : String) : StatusM CString :=
  onCall (searchOrInvalid document node)

def searchInto (document : Document) (node : String) (store : CString → ServerInfo → ServerInfo) :
    StatusM PUnit := do
  let text ← searchText document node
  storeInfo (store text)

def readHostname (document : Document) : StatusM PUnit := do
  match ← onCall (report (xmlSearch document "hostname".toList)) with
  | .ok hostname => storeInfo fun info => { info with hostname := some hostname }
  | .error _ => modify fun state =>
      { state with info := { state.info with hostname := some state.call.server.address } }

def readModes (unwritten : Nat → CString) (document : Document) : StatusM PUnit := do
  match ← onCall (report (xmlModelist unwritten document)) with
  | .ok modes => storeServer fun server => { server with modes := modes }
  | .error _ => throw gsInvalid

def strstr (text : CString) (word : String) : Bool := (locate word.toList text).isSome

/-- The flags and numbers that are derived from the texts. -/
def storeStatus (currentGameText pairedText appVersion stateText codecText : CString) :
    StatusM PUnit := do
  let serverCodecModeSupport := atoi codecText
  storeServer fun server =>
    { server with
      paired := decide (pairedText = "1".toList)
      currentGame := if strstr stateText "_SERVER_BUSY" then atoi currentGameText else 0
      supports4K := decide (serverCodecModeSupport ≠ 0)
      serverMajorVersion := atoi appVersion
      isGfe := strstr stateText "MJOLNIR" }
  storeInfo fun info =>
    { info with
      supportsHdr := decide (serverCodecModeSupport / 512 % 2 = 1)
      serverCodecModeSupport := serverCodecModeSupport }

def readServerInfo (unwritten : Nat → CString) (document : Document) : StatusM PUnit := do
  let status ← onCall (report (xmlStatus document))
  if status = gsError then throw gsError else
  searchInto document "uniqueid" fun text info => { info with uuid := some text }
  searchInto document "mac" fun text info => { info with mac := some text }
  readHostname document
  let currentGameText ← searchText document "currentgame"
  let pairedText ← searchText document "PairStatus"
  let appVersion ← searchText document "appversion"
  storeInfo fun info => { info with serverInfoAppVersion := some appVersion }
  let stateText ← searchText document "state"
  let codecText ← searchText document "ServerCodecModeSupport"
  searchInto document "gputype" fun text info => { info with gpuType := some text }
  searchInto document "GsVersion" fun text info => { info with gsVersion := some text }
  searchInto document "GfeVersion" fun text info => { info with serverInfoGfeVersion := some text }
  readModes unwritten document
  if currentGameText = [] ∨ pairedText = [] ∨ appVersion = [] ∨ stateText = [] then
    throw gsInvalid
  else
    storeStatus currentGameText pairedText appVersion stateText codecText

/-- One turn of the loop; `unwritten` is the heap of `xml_modelist` in it. -/
def statusAttempt (world : World) (client : Client) (secure : Bool) (unwritten : Nat → CString) :
    StatusM PUnit := do
  let url ← onCall (buildUrl world client 4096 secure "serverinfo" none)
  if ← onCall (httpDataAlloc world) then
    match ← onCall (httpRequest world url) with
    | .failed => throw gsIoError
    | .completed document => readServerInfo unwritten document
  else
    throw gsOutOfMemory

def maxSupportedGfeVersion : Int := 7

def minSupportedGfeVersion : Int := 3

def unsupportedVersion (text : String) (state : StatusCall) : Int × StatusCall :=
  (gsUnsupportedVersion, { state with call :=
    { state.call with lastError := some (gsSetError gsUnsupportedVersion text.toList) } })

def checkVersion (state : StatusCall) : Int × StatusCall :=
  if state.call.server.unsupported then (gsOk, state)
  else if maxSupportedGfeVersion < state.call.server.serverMajorVersion then
    unsupportedVersion ("Ensure you're running the latest version of Moonlight " ++
      "or downgrade GeForce Experience and try again") state
  else if state.call.server.serverMajorVersion < minSupportedGfeVersion then
    unsupportedVersion ("Moonlight requires a newer version of GeForce Experience. " ++
      "Please upgrade GFE on your PC and try again.") state
  else
    (gsOk, state)

def loadServerStatus (world : World) (client : Client) (unwritten : Bool → Nat → CString)
    (state : StatusCall) : Int × StatusCall :=
  match statusAttempt world client true (unwritten true) state with
  | .ok _ after => checkVersion after
  | .error _ between =>
      match statusAttempt world client false (unwritten false) between with
      | .ok _ after => checkVersion after
      | .error ret after => (ret, after)

/-- `LiInitializeServerInformation` clears `serverInfo` first. -/
def initializeStatus (address : CString) (unsupported : Bool) (state : StatusCall) : StatusCall where
  call :=
    { state.call with server :=
      { state.call.server with
        address := address, unsupported := unsupported, rtspSessionUrl := none } }
  info :=
    { state.info with
      serverInfoAppVersion := none, serverInfoGfeVersion := none, serverCodecModeSupport := 0 }

def gsGetStatus (world : World) (client : Client) (unwritten : Bool → Nat → CString)
    (address : CString) (unsupported : Bool) (state : StatusCall) : Int × StatusCall :=
  loadServerStatus world client unwritten (initializeStatus address unsupported state)

/-! ## `gs_applist` -/

def readApplist (unwritten : Nat → CString) (document : Document) : GsM (Int × Option AppList) := do
  let status ← report (xmlStatus document)
  if status = gsError then pure (gsError, none) else
  match ← report (xmlApplist unwritten document) with
  | .ok list => pure (gsOk, some list)
  | .error _ => pure (gsInvalid, none)

/-- The returned code, and what is stored in `*list`. -/
def gsApplist (world : World) (client : Client) (unwritten : Nat → CString) :
    GsM (Int × Option AppList) := do
  if ← httpDataAlloc world then
    let url ← buildUrl world client 4096 true "applist" none
    match ← httpRequest world url with
    | .failed => do
        setError (gsSetError gsIoError "Failed to get apps list".toList)
        pure (gsIoError, none)
    | .completed document => readApplist unwritten document
  else do
    setError (gsSetError gsOutOfMemory "Out of memory".toList)
    pure (gsOutOfMemory, none)

end MoonlightWii.Gamestream.GetStatus
