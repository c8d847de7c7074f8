import MoonlightWii.Gamestream.FailedCalls
import MoonlightWii.Gamestream.GetStatus
import MoonlightWii.Gamestream.PairRequests

/-!
# Every request arrives whole or not at all

The calls of the library that talk to the host, over a client whose identity
`gs_conf_load` read.
-/

set_option autoImplicit false

namespace MoonlightWii.Gamestream.CompleteRequests

open Foundation.EarlyExit
open MoonlightWii.Gamestream.Conf
open MoonlightWii.Gamestream.Crypto
open MoonlightWii.Gamestream.Errors
open MoonlightWii.Gamestream.FailedCalls
open MoonlightWii.Gamestream.GetStatus
open MoonlightWii.Gamestream.PairRequests
open MoonlightWii.Gamestream.QuitApp
open MoonlightWii.Gamestream.Request
open MoonlightWii.Gamestream.RequestTarget
open MoonlightWii.Gamestream.SentRequests
open MoonlightWii.Gamestream.StartApp
open MoonlightWii.Gamestream.Xml
open MoonlightWii.Gamestream.XmlLists

/-! ## `gs_start_app`, `gs_quit_app` and `gs_applist` -/

section Calls

variable {watch : Watch} {draws : Nat}

theorem quitAppBody_stays (intended : watch.intends (plainRequest true "cancel")) :
    Stays watch draws (quitAppBody watch.world watch.client) := by
  refine stays_bind (stays_httpDataAlloc _) fun allocated => ?_
  refine stays_ite ?_ (stays_fail _ _)
  refine stays_built 4096 true "cancel" none (plainRequest_sendable intended (by decide))
    fun url sendable => ?_
  refine stays_bind (stays_requestOrExit sendable) fun document => ?_
  refine stays_bind (stays_statusOrExitOne document) fun _ => ?_
  refine stays_bind (stays_searchOrExit document "cancel") fun cancelled => ?_
  exact stays_ite (stays_fail _ _) (stays_modify _ (fun _ => rfl) (fun _ => rfl) fun _ => rfl)

theorem readApplist_stays (unwritten : Nat → CString) (document : Document) :
    Stays watch draws (readApplist unwritten document) := by
  apply stays_report_bind
  apply stays_ite
  · exact stays_pure _
  · apply stays_report_bind
    cases (xmlApplist unwritten document).result with
    | ok list => exact stays_pure _
    | error ret => exact stays_pure _

theorem gsApplist_stays (unwritten : Nat → CString)
    (intended : watch.intends (plainRequest true "applist")) :
    Stays watch draws (gsApplist watch.world watch.client unwritten) := by
  refine stays_bind (stays_httpDataAlloc _) fun allocated => ?_
  refine stays_ite ?_ (stays_bind (stays_setError _) fun _ => stays_pure _)
  refine stays_built 4096 true "applist" none (plainRequest_sendable intended (by decide))
    fun url sendable => ?_
  refine stays_bind (stays_httpRequest sendable) fun answer => ?_
  cases answer with
  | failed => exact stays_bind (stays_setError _) fun _ => stays_pure _
  | completed document => exact readApplist_stays unwritten document

theorem sessionValue_stays (document : Document) : Stays watch draws (sessionValue document) := by
  apply stays_report_bind
  cases (xmlSearchEx document "gamesession".toList true).result with
  | ok value => exact stays_pure value
  | error code =>
      apply stays_report_bind
      cases (xmlSearchEx document "resume".toList true).result with
      | ok value => exact stays_pure value
      | error ret => exact stays_throw ret

theorem storeSessionUrl_stays (document : Document) :
    Stays watch draws (storeSessionUrl document) := by
  apply stays_report_bind
  cases (xmlSearchEx document "sessionUrl0".toList true).result with
  | ok url => exact stays_modify _ (fun _ => rfl) (fun _ => rfl) fun _ => rfl
  | error ret => exact stays_pure _

theorem readLaunchAnswer_stays (document : Document) :
    Stays watch draws (readLaunchAnswer document) := by
  refine stays_bind (stays_statusOrExitOne document) fun _ => ?_
  refine stays_bind (sessionValue_stays document) fun value => ?_
  exact stays_ite (stays_fail _ _) (storeSessionUrl_stays document)

/-- The launch that a call in this state asks for. -/
def intendedLaunch (world : World) (config : StreamConfig) (launch : Launch) (call : Call) :
    IntendedRequest :=
  launchRequest config launch (call.server.currentGame == 0) (drawn world call.draws 16)
    (drawn world (call.draws + 1) 4 ++ List.replicate 12 0)

variable {config : StreamConfig} {launch : Launch} {call : Call}

/-- The running game decides the action of a launch. -/
def Launching (watch : Watch) (call : Call) (draws : Nat) (state : Call) : Prop :=
  state.server.currentGame = call.server.currentGame ∧ Drawn watch draws state

theorem launching_draw {left : Int → Call → Prop} (count : Nat) :
    Ensures (Launching watch call draws) (drbgRandom watch.world count)
      (fun value state => value = drawn watch.world draws count ∧
        Launching watch call (draws + 1) state) left := by
  rintro state ⟨game, rfl, issued⟩
  exact ⟨rfl, game, rfl, issued.address, issued.sent⟩

theorem launching_fail {α : Type} (code : Int) (text : String) :
    Ensures (Launching watch call draws) (fail code text : GsM α)
      (fun _ => Issued watch) (fun _ => Issued watch) :=
  ensures_weaken (stays_issues (stays_fail code text)) (fun _ holds => holds.2)
    (fun _ _ issued => issued) fun _ _ issued => issued

theorem launch_sendable (ints : IntArguments config launch)
    (intended : watch.intends (intendedLaunch watch.world config launch call)) (index : Nat) :
    Sendable watch (launchUrl config launch (call.server.currentGame == 0)
      (drawn watch.world call.draws 16)
      (drawn watch.world (call.draws + 1) 4 ++ List.replicate 12 0)
      (constructUrl watch.client (watch.world.uuid index) 4096 true watch.address
        (if call.server.currentGame == 0 then "launch" else "resume").toList
        (some ("appid=".toList ++ decimal launch.appId)))) := by
  have size : (drawn watch.world call.draws 16).length = 16 := by simp [drawn]
  exact ⟨index, _, intended, launchUrl_arrives watch.memory watch.noColon watch.noSlash
    watch.identified (watch.known index) ints _ size _⟩

theorem requestLaunch_issues (ints : IntArguments config launch)
    (intended : watch.intends (intendedLaunch watch.world config launch call)) :
    Ensures (Launching watch call call.draws)
      (requestLaunch watch.world watch.client config launch)
      (fun _ => Issued watch) (fun _ => Issued watch) := by
  refine ensures_bind _ (launching_draw 16) fun key => ensures_fact fun known => ?_
  subst known
  refine ensures_bind _ (launching_draw 4) fun ivHead => ensures_fact fun known => ?_
  subst known
  refine ensures_bind (fun _ => Launching watch call (call.draws + 2))
    (ensures_modify _ fun state holds => ⟨holds.1, holds.2.1, holds.2.2.address, holds.2.2.sent⟩)
    fun _ => ?_
  refine ensures_bind (fun _ => Launching watch call (call.draws + 2))
    (fun state holds => ⟨holds.1, holds.2.1, holds.2.2.address, holds.2.2.sent⟩) fun allocated => ?_
  refine ensures_ite (fun _ => ?_) fun _ => ?_
  · refine ensures_bind (fun (read state : Call) =>
      read.server.currentGame = call.server.currentGame ∧ Drawn watch (call.draws + 2) state)
      (ensures_get fun _ holds => holds) fun read => ensures_fact fun game => ?_
    rw [game]
    refine ensures_bind (fun _ => Drawn watch (call.draws + 2)) (ensures_modify _ fun state holds =>
      ⟨holds.1, holds.2.address, holds.2.sent⟩) fun _ => ?_
    refine ensures_built 4096 true _ _ (fun _ holds => holds.2.address) fun index => ?_
    exact stays_issues (stays_requestOrExit (launch_sendable ints intended index))
  · exact launching_fail _ _

theorem startAppBody_issues (ints : IntArguments config launch)
    (intended : watch.intends (intendedLaunch watch.world config launch call))
    (started : Issued watch call) :
    Ensures (fun state => state = call) (startAppBody watch.world watch.client config launch)
      (fun _ => Issued watch) (fun _ => Issued watch) := by
  refine ensures_bind (fun _ state => state = call) ?_ fun _ => ?_
  · refine ensures_ite (fun _ => ensures_pure _ fun _ same => same) fun _ => ?_
    refine ensures_throw _ fun state same => ?_
    rw [same]
    exact started
  refine ensures_bind (fun read state => read = call ∧ Launching watch call call.draws state)
    (ensures_get fun state same => ⟨same, ?_⟩) fun read => ensures_fact fun same => ?_
  · rw [same]
    exact ⟨rfl, rfl, started⟩
  subst same
  refine ensures_ite (fun _ => launching_fail _ _) fun _ => ?_
  refine ensures_ite (fun _ => launching_fail _ _) fun _ => ?_
  refine ensures_bind _ (requestLaunch_issues ints intended) fun document => ?_
  refine ensures_bind (fun _ => Issued watch)
    (ensures_modify _ fun state issued => ⟨issued.address, issued.sent⟩) fun _ => ?_
  exact issues_of_stays fun draws => readLaunchAnswer_stays document

end Calls

/-! ## `gs_get_status` -/

/-- The invariant for programs that also write the texts of the status. -/
def Watches (watch : Watch) {α : Type} (program : StatusM α) : Prop :=
  Ensures (fun state => Issued watch state.call) program
    (fun _ state => Issued watch state.call) (fun _ state => Issued watch state.call)

section Status

variable {watch : Watch} {α β : Type}

theorem watches_onCall {program : GsM α} (stays : ∀ draws, Stays watch draws program) :
    Watches watch (onCall program) :=
  onCall_ensures (issues_of_stays stays)

theorem watches_throw (ret : Int) : Watches watch (throw ret : StatusM α) :=
  ensures_throw ret fun _ issued => issued

theorem watches_bind {program : StatusM α} {next : α → StatusM β} (first : Watches watch program)
    (second : ∀ value, Watches watch (next value)) : Watches watch (program >>= next) :=
  ensures_bind _ first second

theorem watches_ite {condition : Prop} [Decidable condition] {first second : StatusM α}
    (yes : Watches watch first) (no : Watches watch second) :
    Watches watch (if condition then first else second) :=
  ensures_ite (fun _ => yes) fun _ => no

theorem watches_storeInfo (change : ServerInfo → ServerInfo) : Watches watch (storeInfo change) :=
  ensures_modify _ fun _ issued => issued

theorem watches_storeServer (change : Server → Server)
    (address : ∀ server, (change server).address = server.address) :
    Watches watch (storeServer change) :=
  ensures_modify _ fun _ issued => ⟨(address _).trans issued.address, issued.sent⟩

theorem searchText_watches (document : Document) (node : String) :
    Watches watch (searchText document node) :=
  watches_onCall fun _ => searchOrInvalid_stays document node

theorem searchInto_watches (document : Document) (node : String)
    (store : CString → ServerInfo → ServerInfo) : Watches watch (searchInto document node store) :=
  watches_bind (searchText_watches document node) fun text => watches_storeInfo (store text)

theorem readHostname_watches (document : Document) : Watches watch (readHostname document) := by
  refine watches_bind (watches_onCall fun _ => stays_report _) fun found => ?_
  cases found with
  | ok hostname => exact watches_storeInfo _
  | error ret => exact ensures_modify _ fun _ issued => issued

theorem readModes_watches (unwritten : Nat → CString) (document : Document) :
    Watches watch (readModes unwritten document) := by
  refine watches_bind (watches_onCall fun _ => stays_report _) fun read => ?_
  cases read with
  | ok modes => exact watches_storeServer _ fun _ => rfl
  | error ret => exact watches_throw _

theorem storeStatus_watches (currentGameText pairedText appVersion stateText codecText : CString) :
    Watches watch (storeStatus currentGameText pairedText appVersion stateText codecText) :=
  watches_bind (watches_storeServer _ fun _ => rfl) fun _ => watches_storeInfo _

theorem readServerInfo_watches (unwritten : Nat → CString) (document : Document) :
    Watches watch (readServerInfo unwritten document) := by
  refine watches_bind (watches_onCall fun _ => stays_report _) fun status => ?_
  refine watches_ite (watches_throw _) ?_
  refine watches_bind (searchInto_watches document _ _) fun _ => ?_
  refine watches_bind (searchInto_watches document _ _) fun _ => ?_
  refine watches_bind (readHostname_watches document) fun _ => ?_
  refine watches_bind (searchText_watches document _) fun currentGameText => ?_
  refine watches_bind (searchText_watches document _) fun pairedText => ?_
  refine watches_bind (searchText_watches document _) fun appVersion => ?_
  refine watches_bind (watches_storeInfo _) fun _ => ?_
  refine watches_bind (searchText_watches document _) fun stateText => ?_
  refine watches_bind (searchText_watches document _) fun codecText => ?_
  refine watches_bind (searchInto_watches document _ _) fun _ => ?_
  refine watches_bind (searchInto_watches document _ _) fun _ => ?_
  refine watches_bind (searchInto_watches document _ _) fun _ => ?_
  refine watches_bind (readModes_watches unwritten document) fun _ => ?_
  exact watches_ite (watches_throw _) (storeStatus_watches _ _ _ _ _)

theorem statusUrl_sendable {secure : Bool} {left : Int → Call → Prop}
    (intended : watch.intends (plainRequest secure "serverinfo")) :
    Ensures (Issued watch)
      (buildUrl watch.world watch.client 4096 secure "serverinfo" none)
      (fun url call => Sendable watch url ∧ Issued watch call) left := by
  intro call issued
  have built := plainRequest_sendable intended (by decide) call.sent.length
  rw [← issued.address] at built
  exact ⟨built, issued⟩

theorem statusAttempt_watches (secure : Bool) (unwritten : Nat → CString)
    (intended : watch.intends (plainRequest secure "serverinfo")) :
    Watches watch (statusAttempt watch.world watch.client secure unwritten) := by
  refine ensures_bind _ (onCall_ensures (statusUrl_sendable intended)) fun url =>
    ensures_fact fun sendable => ?_
  refine watches_bind (watches_onCall fun _ => stays_httpDataAlloc _) fun allocated => ?_
  refine watches_ite ?_ (watches_throw _)
  refine watches_bind (watches_onCall fun _ => stays_httpRequest sendable) fun answer => ?_
  cases answer with
  | failed => exact watches_throw _
  | completed document => exact readServerInfo_watches unwritten document

theorem checkVersion_issued (state : StatusCall) (issued : Issued watch state.call) :
    Issued watch (checkVersion state).2.call := by
  unfold checkVersion
  split
  · exact issued
  · split
    · exact ⟨issued.address, issued.sent⟩
    · split
      · exact ⟨issued.address, issued.sent⟩
      · exact issued

theorem loadServerStatus_issued (unwritten : Bool → Nat → CString)
    (secure : watch.intends (plainRequest true "serverinfo"))
    (plain : watch.intends (plainRequest false "serverinfo")) (state : StatusCall)
    (issued : Issued watch state.call) :
    Issued watch (loadServerStatus watch.world watch.client unwritten state).2.call := by
  have first := statusAttempt_watches true (unwritten true) secure state issued
  unfold loadServerStatus
  cases ran : statusAttempt watch.world watch.client true (unwritten true) state with
  | ok value after =>
      rw [ran] at first
      exact checkVersion_issued after first
  | error ret between =>
      rw [ran] at first
      have second := statusAttempt_watches false (unwritten false) plain between first
      simp only
      cases again : statusAttempt watch.world watch.client false (unwritten false) between with
      | ok value after =>
          rw [again] at second
          exact checkVersion_issued after second
      | error code after =>
          rw [again] at second
          exact second

end Status

/-! ## All calls -/

inductive Command where
  | getStatus (address : CString) (unsupported : Bool) (unwritten : Bool → Nat → CString)
  | applist (unwritten : Nat → CString)
  | operation (operation : Operation)

/-- The address that the requests of a command go to. -/
def Command.address (state : StatusCall) : Command → CString
  | .getStatus address _ _ => address
  | .applist _ => state.call.server.address
  | .operation _ => state.call.server.address

/-- The numbers that a command prints are of the type `int`. -/
def Command.Ints : Command → Prop
  | .operation (.startApp config launch) => IntArguments config launch
  | _ => True

def finalCall {α : Type} : EStateM.Result Int Call α → Call
  | .ok _ after => after
  | .error _ after => after

def issue (world : World) (client : Client) (command : Command) (state : StatusCall) :
    StatusCall :=
  match command with
  | .getStatus address unsupported unwritten =>
      (gsGetStatus world client unwritten address unsupported state).2
  | .applist unwritten =>
      { state with call := finalCall (gsApplist world client unwritten state.call) }
  | .operation operation =>
      { state with call := (perform world client operation state.call).2 }

/-- The requests that a command may send, started in this state by a client whose
certificate is this file. -/
def Intends (world : World) (file : List UInt8) (call : Call) (command : Command)
    (request : IntendedRequest) : Prop :=
  match command with
  | .getStatus _ _ _ =>
      request = plainRequest true "serverinfo" ∨ request = plainRequest false "serverinfo"
  | .applist _ => request = plainRequest true "applist"
  | .operation (.pair mbedtls _ pin) => PairIntends world mbedtls pin file call request
  | .operation .unpair => request = plainRequest false "unpair"
  | .operation (.startApp config launch) => request = intendedLaunch world config launch call
  | .operation .quitApp => request = plainRequest true "cancel"

theorem finalCall_issued {watch : Watch} {α : Type} {pre : Call → Prop} {program : GsM α}
    (ensured : Ensures pre program (fun _ => Issued watch) (fun _ => Issued watch)) {call : Call}
    (holds : pre call) : Issued watch (finalCall (program call)) := by
  have ran := ensured call holds
  cases result : program call with
  | ok value after =>
      rw [result] at ran
      exact ran
  | error ret after =>
      rw [result] at ran
      exact ran

theorem returned_call (result : EStateM.Result Int Call Int) :
    (returned result).2 = finalCall result := by
  cases result with
  | ok ret after => rfl
  | error ret after => rfl

theorem gsStartApp_call (world : World) (client : Client) (config : StreamConfig)
    (launch : Launch) (call : Call) :
    (gsStartApp world client config launch call).2 =
      finalCall (startAppBody world client config launch call) := by
  unfold gsStartApp
  cases startAppBody world client config launch call with
  | ok value after => rfl
  | error ret after => rfl

theorem gsQuitApp_call (world : World) (client : Client) (call : Call) :
    (gsQuitApp world client call).2 = finalCall (quitAppBody world client call) := by
  unfold gsQuitApp
  cases quitAppBody world client call with
  | ok value after => rfl
  | error ret after => rfl

theorem perform_issued {watch : Watch} {file : List UInt8} {call : Call} (operation : Operation)
    (hexed : watch.client.certHex = bytesToHex (file.take 4095))
    (ints : (Command.operation operation).Ints)
    (intended : ∀ request, Intends watch.world file call (.operation operation) request →
      watch.intends request)
    (issued : Issued watch call) :
    Issued watch (perform watch.world watch.client operation call).2 := by
  cases operation with
  | pair mbedtls stack pin => exact gsPair_issues stack hexed intended issued
  | unpair =>
      unfold perform
      rw [returned_call]
      exact finalCall_issued (issues_of_stays fun _ => gsUnpair_stays (intended _ rfl)) issued
  | startApp config launch =>
      unfold perform
      rw [gsStartApp_call]
      exact finalCall_issued (startAppBody_issues ints (intended _ rfl) issued) rfl
  | quitApp =>
      unfold perform
      rw [gsQuitApp_call]
      exact finalCall_issued (issues_of_stays fun _ => quitAppBody_stays (intended _ rfl)) issued

theorem issue_issued {watch : Watch} {file : List UInt8} {state : StatusCall} (command : Command)
    (hexed : watch.client.certHex = bytesToHex (file.take 4095)) (ints : command.Ints)
    (intended : ∀ request, Intends watch.world file state.call command request →
      watch.intends request)
    (address : command.address state = watch.address) (before : watch.before = state.call.sent) :
    Issued watch (issue watch.world watch.client command state).call := by
  have unsent : ∃ urls, state.call.sent = watch.before ++ urls ∧ ∀ url ∈ urls, Sendable watch url :=
    ⟨[], by rw [before, List.append_nil], fun url member => absurd member List.not_mem_nil⟩
  cases command with
  | getStatus target unsupported unwritten =>
      exact loadServerStatus_issued unwritten (intended _ (.inl rfl)) (intended _ (.inr rfl)) _
        ⟨address, unsent⟩
  | applist unwritten =>
      exact finalCall_issued
        (issues_of_stays fun _ => gsApplist_stays unwritten (intended _ rfl)) ⟨address, unsent⟩
  | operation operation => exact perform_issued operation hexed ints intended ⟨address, unsent⟩

/-- A certificate file of two bytes, and the default unique id. -/
def smallDirectory : KeyDirectory where
  keydir := "/moonlight".toList
  uniqueId := .ok [48, 49, 50, 51, 52, 53, 54, 55, 56, 57, 65, 66, 67, 68, 69, 70]
  certificate := .ok { text := [], sig := [] }
  certFile := some [45, 10]
  keyError := none

def smallClient : Client where
  uniqueId := "0123456789ABCDEF".toList
  certHex := "2d0a".toList
  certSig := []

def launchCommand : Command :=
  .operation (.startApp
    { width := 1280, height := 720, fps := 60, audioConfiguration := 197322,
      supportedVideoFormats := 1 }
    { appId := 7, isGfe := false, sops := true, localaudio := false, gamepadMask := 1 })

def freshStatus : StatusCall where
  call := freshCall true
  info :=
    { uuid := none, mac := none, hostname := none, gpuType := none, gsVersion := none,
      serverInfoAppVersion := none, serverInfoGfeVersion := none, supportsHdr := false,
      serverCodecModeSupport := 0 }

end MoonlightWii.Gamestream.CompleteRequests
