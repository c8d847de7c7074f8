import MoonlightWii.Gamestream.StartApp
import MoonlightWii.Wii.Menu

/-!
# From the app list to the connection (`do_stream` in `main.c`)

The results of the two possible `gs_applist` calls are inputs, as are the scans of
the remote.  The state of the library is the one in which `gs_start_app` is called.
-/

set_option autoImplicit false

namespace MoonlightWii.App.DoStream

open MoonlightWii.Gamestream.Errors
open MoonlightWii.Gamestream.Request
open MoonlightWii.Gamestream.StartApp
open MoonlightWii.Wii.Input
open MoonlightWii.Wii.Menu

structure AppEntry where
  name : Option CString
  id : Int
  hdr : Int
  deriving DecidableEq

abbrev Applist := Except Int (List AppEntry)

structure Settings where
  stream : StreamConfig
  app : CString
  sops : Bool
  localaudio : Bool

/-! ## The chosen app -/

def findAppId (name : CString) : List AppEntry → Int
  | [] => -1
  | app :: rest => if app.name = some name then app.id else findAppId name rest

def getAppId (relisted : Applist) (name : CString) : Int :=
  match relisted with
  | .ok list => findAppId name list
  | .error _ => -1

/-- The array `names[128]` of the menu. -/
def appNames (list : List AppEntry) : List (Option CString) := (list.take 128).map AppEntry.name

/-- `for (int i = 0; i < sel && it != NULL; it = it->next);` and the id found there.
The loop has no `i++`, so every round compares 0 with `sel`. -/
def walkToSelected (sel : Int) : List AppEntry → Int
  | [] => -1
  | app :: rest => if 0 < sel then walkToSelected sel rest else app.id

inductive Choice where
  | backedOut
  | appNotFound (message : CString)
  /-- `gs_start_app` is called with this id. -/
  | start (appId : Int)
  deriving DecidableEq

/-- From the end of the app menu to the call of `gs_start_app`. -/
def decideApp (haveList : Bool) (appId : Int) (proc : ProcState) (relisted : Applist)
    (name : CString) : Choice :=
  if proc.wantMainMenu then
    .backedOut
  else
    let appId := if appId < 0 && !haveList then getAppId relisted name else appId
    if appId < 0 then .appNotFound (snprintf 256 ("Can't find app ".toList ++ name))
    else .start appId

def chooseApp (listed relisted : Applist) (name : CString) (proc : ProcState)
    (scans : List Scan) : Option (Choice × ProcState × List Scan) :=
  match listed with
  | .ok (first :: others) =>
      let list := first :: others
      match menuSelect (appNames list).length 0 proc scans with
      | none => none
      | some (sel, after, rest) =>
          let appId := if 0 ≤ sel then walkToSelected sel list else findAppId name list
          some (decideApp true appId after relisted name, after, rest)
  | _ => some (decideApp false (-1) proc relisted name, proc, scans)

/-! ## The started app -/

def gamepadMask : Nat → Int
  | 0 => 0
  | gamepads + 1 => gamepadMask gamepads * 2 + 1

def errorMessage (call : Call) : CString :=
  match call.lastError with
  | some error => error.message
  | none => []

def startAppMessage (config : StreamConfig) (ret : Int) (call : Call) : CString :=
  if ret = gsNotSupported4K then
    "Server doesn't support 4K".toList
  else if ret = gsNotSupportedMode then
    snprintf 256 ("Server doesn't support ".toList ++ decimal config.width ++ 'x' ::
      decimal config.height ++ " (".toList ++ decimal config.fps ++ " fps)".toList)
  else if ret = gsNotSupportedSopsResolution then
    "Optimal Playable Settings isn't supported for this resolution".toList
  else if ret = gsError then
    snprintf 512 ("Gamestream error:\n".toList ++ errorMessage call)
  else
    snprintf 256 ("Errorcode starting app: ".toList ++ decimal ret)

inductive Outcome where
  | backedOut
  | failed (message : CString)
  /-- `LiStartConnection` is called. -/
  | startConnection
  deriving DecidableEq

def launchApp (world : World) (client : Client) (settings : Settings) (gamepads : Nat)
    (appId : Int) (call : Call) : Outcome × Call :=
  let (ret, after) := gsStartApp world client settings.stream
    ⟨appId, call.server.isGfe, settings.sops, settings.localaudio, gamepadMask gamepads⟩ call
  if ret < 0 then (.failed (startAppMessage settings.stream ret after), after)
  else (.startConnection, after)

/-- `do_stream` up to the call of `LiStartConnection`; `none` is still in the menu. -/
def doStream (world : World) (client : Client) (settings : Settings) (gamepads : Nat)
    (listed relisted : Applist) (proc : ProcState) (scans : List Scan) (call : Call) :
    Option (Outcome × Call) :=
  match chooseApp listed relisted settings.app proc scans with
  | none => none
  | some (.backedOut, _, _) => some (.backedOut, call)
  | some (.appNotFound message, _, _) => some (.failed message, call)
  | some (.start appId, _, _) => some (launchApp world client settings gamepads appId call)

/-! ## The confirmed app -/

theorem walkToSelected_first (app : AppEntry) (rest : List AppEntry) :
    walkToSelected 0 (app :: rest) = app.id :=
  if_neg (Int.lt_irrefl 0)

/-- Past the first position the walk only stops at the end of the list. -/
theorem walkToSelected_later (sel : Int) (later : 0 < sel) (list : List AppEntry) :
    walkToSelected sel list = -1 := by
  induction list with
  | nil => rfl
  | cons app rest ih =>
      rw [walkToSelected, if_pos later]
      exact ih

theorem appNames_row (list : List AppEntry) (index : Nat)
    (shown : index < (appNames list).length) :
    ∃ entry, list[index]? = some entry ∧
      (rowY index, entry.name) ∈ menuRenderBase (appNames list) := by
  unfold appNames at shown
  rw [List.length_map, List.length_take] at shown
  have inside : index < list.length := by omega
  refine ⟨list[index], List.getElem?_eq_getElem inside, ?_⟩
  rw [menuRenderBase_row]
  unfold appNames
  rw [List.getElem?_map, List.getElem?_take_of_lt (by omega), List.getElem?_eq_getElem inside]
  rfl

theorem decideApp_listed_start (appId : Int) (proc : ProcState) (relisted : Applist)
    (name : CString) (wanted : Int) :
    decideApp true appId proc relisted name = .start wanted ↔
      proc.wantMainMenu = false ∧ 0 ≤ appId ∧ appId = wanted := by
  unfold decideApp
  cases proc.wantMainMenu with
  | true => simp
  | false =>
      simp only [Bool.not_true, Bool.and_false, Bool.false_eq_true, if_false, true_and]
      split
      · simp only [reduceCtorEq, false_iff]
        omega
      · simp only [Choice.start.injEq]
        omega

/-- `gs_start_app` is called with this id, unless Home backs out to the main menu. -/
def StartsUnlessHome (appId : Int) (after : ProcState) (rest : List Scan)
    (chosen : Option (Choice × ProcState × List Scan)) : Prop :=
  after.wantMainMenu = false → chosen = some (.start appId, after, rest)

/-- The id of the entry confirmed in the app menu is the one passed on exactly when
that entry is the first one and its id is not negative. -/
theorem confirmed_app_started_iff (list : List AppEntry) (relisted : Applist) (name : CString)
    (proc after : ProcState) (scans rest : List Scan) (sel : Nat)
    (confirmed : menuSelect (appNames list).length 0 proc scans =
      some ((sel : Int), after, rest)) :
    ∃ entry, list[sel]? = some entry ∧
      (rowY sel, entry.name) ∈ menuRenderBase (appNames list) ∧
      (StartsUnlessHome entry.id after rest (chooseApp (.ok list) relisted name proc scans) ↔
        after.wantMainMenu = true ∨ (sel = 0 ∧ 0 ≤ entry.id)) := by
  have range := menuSelect_range _ _ _ _ _ _ _ confirmed
  obtain ⟨entry, found, shown⟩ := appNames_row list sel (by omega)
  refine ⟨entry, found, shown, ?_⟩
  cases list with
  | nil => cases found
  | cons first others =>
      have chosen : chooseApp (.ok (first :: others)) relisted name proc scans =
          some (decideApp true (walkToSelected sel (first :: others)) after relisted name,
            after, rest) := by
        simp only [chooseApp, confirmed]
        rw [if_pos (Int.natCast_nonneg sel)]
      unfold StartsUnlessHome
      rw [chosen]
      simp only [Option.some.injEq, Prod.mk.injEq, and_true, decideApp_listed_start]
      cases home : after.wantMainMenu with
      | true => simp
      | false =>
          simp only [true_and, forall_const, Bool.false_eq_true, false_or]
          cases sel with
          | zero =>
              cases Option.some.inj found
              simp [walkToSelected_first]
          | succ earlier =>
              rw [walkToSelected_later _ (by omega)]
              constructor
              · intro starts
                omega
              · intro never
                omega

def plainProc : ProcState where
  running := true
  wantMainMenu := false
  homeEnabled := false
  home := ⟨0, false, false⟩

def pressing (button : Button) : Scan where
  microsNow := 0
  wiimote := ⟨true, true, fun _ => false, fun pressed => pressed == button, none⟩

def desktopAndGame : List AppEntry :=
  [⟨some "Desktop".toList, 881448767, 0⟩, ⟨some "Game".toList, 1093255277, 1⟩]

theorem confirmed_first_app_started :
    StartsUnlessHome 881448767 plainProc []
      (chooseApp (.ok desktopAndGame) (.error gsIoError) [] plainProc [pressing .a]) := by
  obtain ⟨entry, found, _, starts⟩ := confirmed_app_started_iff desktopAndGame (.error gsIoError)
    [] plainProc plainProc [pressing .a] [] 0 rfl
  cases Option.some.inj found
  exact starts.mpr (.inr ⟨rfl, by decide⟩)

/-- Down and A: the second entry is confirmed, and no app is found. -/
theorem confirmed_second_app_not_found :
    ¬ ∀ (list : List AppEntry) (relisted : Applist) (name : CString) (proc after : ProcState)
      (scans rest : List Scan) (sel : Nat),
      menuSelect (appNames list).length 0 proc scans = some ((sel : Int), after, rest) →
        ∃ entry, list[sel]? = some entry ∧
          StartsUnlessHome entry.id after rest (chooseApp (.ok list) relisted name proc scans) := by
  intro always
  obtain ⟨entry, found, starts⟩ := always desktopAndGame (.error gsIoError) "Game".toList
    plainProc plainProc [pressing .down, pressing .a] [] 1 rfl
  cases Option.some.inj found
  have notFound : (chooseApp (.ok desktopAndGame) (.error gsIoError) "Game".toList plainProc
      [pressing .down, pressing .a]).map Prod.fst =
        some (.appNotFound "Can't find app Game".toList) := by
    decide
  rw [starts rfl] at notFound
  cases notFound

/-! ## The launched app -/

theorem launchApp_connects (world : World) (client : Client) (settings : Settings)
    (gamepads : Nat) (appId : Int) (call after : Call)
    (connects : launchApp world client settings gamepads appId call = (.startConnection, after)) :
    0 ≤ (gsStartApp world client settings.stream
      ⟨appId, call.server.isGfe, settings.sops, settings.localaudio, gamepadMask gamepads⟩
      call).1 := by
  unfold launchApp at connects
  simp only at connects
  split at connects
  · cases connects
  · rename_i success
    omega

theorem doStream_connects (world : World) (client : Client) (settings : Settings)
    (gamepads : Nat) (listed relisted : Applist) (proc : ProcState) (scans : List Scan)
    (call after : Call)
    (connects : doStream world client settings gamepads listed relisted proc scans call =
      some (.startConnection, after)) :
    ∃ appId left rest, chooseApp listed relisted settings.app proc scans =
        some (.start appId, left, rest) ∧
      launchApp world client settings gamepads appId call = (.startConnection, after) := by
  unfold doStream at connects
  split at connects
  · cases connects
  · cases connects
  · cases connects
  · rename_i appId left rest chosen
    exact ⟨appId, left, rest, chosen, Option.some.inj connects⟩

/-- `gs_start_app` reports success only for a launch that the host accepted, and
`do_stream` connects only for such a launch. -/
def SuccessMeansAccepted (world : World) (client : Client) (settings : Settings)
    (gamepads : Nat) (call : Call) : Prop :=
  (∀ launch, 0 ≤ (gsStartApp world client settings.stream launch call).1 →
    LaunchAccepted world call) ∧
  ∀ listed relisted proc scans after,
    doStream world client settings gamepads listed relisted proc scans call =
      some (.startConnection, after) → LaunchAccepted world call

/-- Success means an accepted launch exactly when the answer, where one arrives, is
well formed and has status 200. -/
theorem success_means_accepted_iff (world : World) (client : Client) (settings : Settings)
    (gamepads : Nat) (call : Call) :
    SuccessMeansAccepted world client settings gamepads call ↔
      ¬ LaunchRefused world settings.stream call := by
  constructor
  · intro means refused
    let launch : Launch := ⟨0, false, false, false, 0⟩
    have success := gsStartApp_refused world client settings.stream launch call refused
    exact not_accepted_of_refused world settings.stream refused (means.1 launch success)
  · intro notRefused
    have accepted (launch : Launch)
        (success : 0 ≤ (gsStartApp world client settings.stream launch call).1) :
        LaunchAccepted world call :=
      (gsStartApp_success world client settings.stream launch call success).resolve_right
        notRefused
    refine ⟨accepted, ?_⟩
    intro listed relisted proc scans after connects
    obtain ⟨appId, _, _, _, launched⟩ := doStream_connects world client settings gamepads listed
      relisted proc scans call after connects
    exact accepted _ (launchApp_connects world client settings gamepads appId call after launched)

def refusingHost : World :=
  constantHost
    { events :=
        [.startElement "root".toList [("status_code".toList, "401".toList)],
          .endElement "root".toList]
      error := none }

def settings720p : Settings where
  stream := ⟨1280, 720, 60, 0x302CA, 1⟩
  app := "Desktop".toList
  sops := true
  localaudio := false

/-- A launch answered with status 401 is taken for a started app. -/
theorem refused_launch_connects :
    ¬ ∀ (world : World) (client : Client) (settings : Settings) (gamepads : Nat) (call : Call),
      SuccessMeansAccepted world client settings gamepads call := by
  intro always
  have means := always refusingHost ⟨"0123456789ABCDEF".toList, [], []⟩ settings720p 1
    (freshCall true)
  have connects : (doStream refusingHost ⟨"0123456789ABCDEF".toList, [], []⟩ settings720p 1
      (.ok desktopAndGame) (.error gsIoError) plainProc [pressing .a] (freshCall true)).map Prod.fst =
        some .startConnection := by
    decide
  obtain ⟨⟨outcome, after⟩, ran, same⟩ := Option.map_eq_some_iff.mp connects
  cases same
  obtain ⟨document, completed, accepted⟩ := means.2 _ _ _ _ _ ran
  cases completed
  exact absurd accepted.2.1 (by decide)

end MoonlightWii.App.DoStream
