import MoonlightWii.Gamestream.Crypto
import MoonlightWii.Gamestream.Request

/-!
# Starting an app (`gs_start_app` in `client.c`)
-/

set_option autoImplicit false

namespace MoonlightWii.Gamestream.StartApp

open Foundation.EarlyExit
open MoonlightWii.Gamestream.Crypto
open MoonlightWii.Gamestream.Errors
open MoonlightWii.Gamestream.Request
open MoonlightWii.Gamestream.Xml

structure StreamConfig where
  width : Int
  height : Int
  fps : Int
  audioConfiguration : Nat
  supportedVideoFormats : Nat

structure Launch where
  appId : Int
  isGfe : Bool
  sops : Bool
  localaudio : Bool
  gamepadMask : Int

def supportsMode (server : Server) (config : StreamConfig) : Bool :=
  server.modes.any fun mode =>
    mode.width == config.width && mode.height == config.height && mode.refresh == config.fps

/-- A 32 bit word read as an `int`. -/
def toInt32 (word : Nat) : Int :=
  if word % 4294967296 < 2147483648 then word % 4294967296
  else (word % 4294967296 : Nat) - 4294967296

/-- The IV begins with `rikeyid`, most significant byte first. -/
def rikeyid (iv : List UInt8) : Int :=
  toInt32 ((iv.take 4).foldl (fun word byte => word * 256 + byte.toNat) 0)

def surroundAudioInfo (configuration : Nat) : Int :=
  toInt32 (configuration / 65536 % 65536 * 65536 + configuration / 256 % 256)

def videoFormatMask10Bit : Nat := 0x2200

def boolText (value : Bool) : CString := if value then "1".toList else "0".toList

def launchParams (config : StreamConfig) (launch : Launch) (resume : Bool)
    (key iv : List UInt8) : List (String × CString) :=
  let fps := if launch.isGfe && 60 < config.fps then 0 else config.fps
  [("mode", decimal config.width ++ 'x' :: decimal config.height ++ 'x' :: decimal fps),
    ("additionalStates", "1".toList), ("sops", boolText launch.sops),
    ("rikey", bytesToHex key), ("rikeyid", decimal (rikeyid iv)),
    ("surroundAudioInfo", decimal (surroundAudioInfo config.audioConfiguration))] ++
  if !resume || !launch.isGfe then
    (if config.supportedVideoFormats &&& videoFormatMask10Bit ≠ 0 then
      [("hdrMode", "1".toList), ("clientHdrCapVersion", "0".toList),
        ("clientHdrCapSupportedFlagsInUint32", "0".toList),
        ("clientHdrCapMetaDataId", "NV_STATIC_METADATA_TYPE_1".toList),
        ("clientHdrCapDisplayData", "0x0x0x0x0x0x0x0x0x0x0".toList)]
    else []) ++
    [("localAudioPlayMode", boolText launch.localaudio),
      ("remoteControllersBitmap", decimal launch.gamepadMask),
      ("gcmap", decimal launch.gamepadMask)]
  else []

def launchUrlQueryParameters : CString := "&corever=1".toList

def launchUrl (config : StreamConfig) (launch : Launch) (resume : Bool) (key iv : List UInt8)
    (url : CString) : CString :=
  strlcat 4096
    ((launchParams config launch resume key iv).foldl
      (fun url param => appendParam 4096 param.1 param.2 url) url)
    launchUrlQueryParameters

/-- The `gamesession` value, or else the `resume` value. -/
def sessionValue (document : Document) : GsM CString := do
  match ← report (xmlSearchEx document "gamesession".toList true) with
  | .ok value => pure value
  | .error _ =>
      match ← report (xmlSearchEx document "resume".toList true) with
      | .ok value => pure value
      | .error ret => throw ret

def storeSessionUrl (document : Document) : GsM PUnit := do
  match ← report (xmlSearchEx document "sessionUrl0".toList true) with
  | .ok url => modify fun call =>
      { call with server := { call.server with rtspSessionUrl := some url } }
  | .error _ => pure ⟨⟩

def readLaunchAnswer (document : Document) : GsM PUnit := do
  statusOrExitOne document
  let value ← sessionValue document
  if value = "0".toList then fail gsFailed "App start request failed"
  else storeSessionUrl document

/-- From the random keys to the answer; `resume` is true where no game runs. -/
def requestLaunch (world : World) (client : Client) (config : StreamConfig) (launch : Launch) :
    GsM Document := do
  let key ← drbgRandom world 16
  let ivHead ← drbgRandom world 4
  let iv := ivHead ++ List.replicate 12 0
  modify fun call => { call with remoteInput := some (key, iv) }
  if ← httpDataAlloc world then
    let call ← get
    let resume := call.server.currentGame == 0
    modify fun call => { call with timeout := if resume then 30 else 120 }
    let url ← buildUrl world client 4096 true (if resume then "launch" else "resume")
      (some ("appid=".toList ++ decimal launch.appId))
    requestOrExit world (launchUrl config launch resume key iv url)
  else
    fail gsOutOfMemory "Out of memory"

def startAppBody (world : World) (client : Client) (config : StreamConfig) (launch : Launch) :
    GsM PUnit := do
  drbgSeed world
  let call ← get
  if supportsMode call.server config = false ∧ call.server.unsupported = false then
    fail gsNotSupportedMode "Selected mode is not supported by the host" else
  if 2160 ≤ config.height ∧ call.server.supports4K = false then
    fail gsNotSupported4K "Host doesn't support 4K" else
  let document ← requestLaunch world client config launch
  modify fun call => { call with server := { call.server with currentGame := launch.appId } }
  readLaunchAnswer document

def gsStartApp (world : World) (client : Client) (config : StreamConfig) (launch : Launch)
    (call : Call) : Int × Call :=
  match startAppBody world client config launch call with
  | .ok _ after => (gsOk, after)
  | .error ret after => (ret, after)

/-! ## The returned code -/

/-- A well-formed answer of status 200 whose `gamesession` or `resume` value is
present and not `0`. -/
def Accepted (document : Document) : Prop :=
  document.error = none ∧ statusCode document = statusOk ∧
    ∃ value, ((xmlSearchEx document "gamesession".toList true).result = .ok value ∨
      (xmlSearchEx document "resume".toList true).result = .ok value) ∧ value ≠ "0".toList

def LaunchAccepted (world : World) (call : Call) : Prop :=
  ∃ document, world.answer call.sent.length = .completed document ∧ Accepted document

def LaunchSent (world : World) (config : StreamConfig) (call : Call) : Prop :=
  world.seed.code = 0 ∧
    ¬ (supportsMode call.server config = false ∧ call.server.unsupported = false) ∧
    ¬ (2160 ≤ config.height ∧ call.server.supports4K = false) ∧
    world.allocates call.allocations = true

/-- The request is sent and completes, but its answer is malformed or has another
status than 200. -/
def LaunchRefused (world : World) (config : StreamConfig) (call : Call) : Prop :=
  LaunchSent world config call ∧
    ∃ document, world.answer call.sent.length = .completed document ∧
      (xmlStatus document).result ≠ gsOk

def Anywhere : Call → Prop := fun _ => True

theorem sessionValue_ensures (document : Document) :
    Ensures Anywhere (sessionValue document)
      (fun value _ => (xmlSearchEx document "gamesession".toList true).result = .ok value ∨
        (xmlSearchEx document "resume".toList true).result = .ok value)
      (fun ret _ => ret < 0) := by
  refine ensures_reported (fun _ _ holds => holds) _ ?_
  cases session : (xmlSearchEx document "gamesession".toList true).result with
  | ok value => exact ensures_pure _ fun _ _ => .inl rfl
  | error code =>
      refine ensures_reported (fun _ _ holds => holds) _ ?_
      cases resumed : (xmlSearchEx document "resume".toList true).result with
      | ok value => exact ensures_pure _ fun _ _ => .inr rfl
      | error ret =>
          have invalid := xmlSearchEx_error document _ _ ret resumed
          exact ensures_throw _ fun _ _ => by rw [invalid]; decide

theorem storeSessionUrl_returns (document : Document) (kept : Prop) (holds : kept) :
    Ensures Anywhere (storeSessionUrl document) (fun _ _ => kept) (fun ret _ => ret < 0) := by
  refine ensures_reported (fun _ _ holds => holds) _ ?_
  cases (xmlSearchEx document "sessionUrl0".toList true).result with
  | ok url => exact ensures_modify _ fun _ _ => holds
  | error ret => exact ensures_pure _ fun _ _ => holds

/-- The answer is left with a code of 0 or more exactly on a refused status. -/
theorem readLaunchAnswer_ensures (document : Document) :
    Ensures Anywhere (readLaunchAnswer document) (fun _ _ => Accepted document)
      (fun ret _ => 0 ≤ ret ↔ (xmlStatus document).result ≠ gsOk) := by
  refine ensures_bind (fun _ call => (xmlStatus document).result = gsOk ∧ Anywhere call) ?_
    fun _ => ensures_fact fun accepted => ?_
  · refine ensures_reported (fun _ _ holds => holds) _ ?_
    refine ensures_ite (fun refused => ?_) fun accepted => ?_
    · exact ensures_throw _ fun _ _ => iff_of_true (by decide) refused
    · exact ensures_pure _ fun _ _ => ⟨Classical.not_not.mp accepted, trivial⟩
  have negative (ret : Int) (below : ret < 0) :
      0 ≤ ret ↔ (xmlStatus document).result ≠ gsOk :=
    iff_of_false (by omega) fun refused => refused accepted
  refine ensures_bind (fun value call =>
    ((xmlSearchEx document "gamesession".toList true).result = .ok value ∨
      (xmlSearchEx document "resume".toList true).result = .ok value) ∧ Anywhere call) ?_
    fun value => ensures_fact fun found => ?_
  · exact ensures_weaken (sessionValue_ensures document) (fun _ holds => holds)
      (fun _ _ found => ⟨found, trivial⟩) fun ret _ below => negative ret below
  refine ensures_ite (fun _ => ?_) fun started => ?_
  · exact fun _ _ => negative gsFailed (by decide)
  · have wellFormed := (xmlStatus_ok_iff document).mp accepted
    exact ensures_weaken
      (storeSessionUrl_returns document (Accepted document)
        ⟨wellFormed.1, wellFormed.2, value, found, started⟩)
      (fun _ holds => holds) (fun _ _ kept => kept) fun ret _ below => negative ret below

variable (world : World) (client : Client) (config : StreamConfig) (launch : Launch)

theorem requestLaunch_ensures (call : Call) :
    Ensures (SameStart call) (requestLaunch world client config launch)
      (fun document _ => (world.allocates call.allocations = true ∧
        world.answer call.sent.length = .completed document) ∧ True)
      (fun ret _ => ret < 0 ∧ ¬ (world.allocates call.allocations = true ∧
        ∃ document, world.answer call.sent.length = .completed document)) := by
  refine ensures_bind (fun _ => SameStart call) (fun _ same => same) fun key => ?_
  refine ensures_bind (fun _ => SameStart call) (fun _ same => same) fun ivHead => ?_
  refine ensures_bind (fun _ => SameStart call) (fun _ same => same) fun _ => ?_
  refine ensures_bind (fun allocated state =>
    allocated = world.allocates call.allocations ∧ state.sent = call.sent) ?_
    fun allocated => ensures_fact fun known => ?_
  · exact fun state same => ⟨by rw [← same.2.2], same.2.1⟩
  refine ensures_ite (fun yes => ?_) fun no => ?_
  · refine ensures_bind (fun (_ state : Call) => state.sent = call.sent)
      (ensures_get fun _ same => same) fun read => ?_
    refine ensures_bind (fun (_ : PUnit) (state : Call) => state.sent = call.sent)
      (ensures_modify _ fun _ same => same) fun _ => ?_
    refine ensures_bind (fun (_ : CString) (state : Call) => state.sent = call.sent)
      (fun _ same => same) fun url => ?_
    refine ensures_bind (fun answer _ => answer = world.answer call.sent.length ∧ True) ?_
      fun answer => ensures_fact fun answered => ?_
    · exact fun state same => ⟨by rw [← same], trivial⟩
    cases answer with
    | failed =>
        refine ensures_throw _ fun _ _ => ⟨by decide, ?_⟩
        rintro ⟨_, document, completed⟩
        rw [← answered] at completed
        cases completed
    | completed document =>
        exact ensures_pure _ fun _ _ => ⟨⟨known ▸ yes, answered.symm⟩, trivial⟩
  · refine fun _ _ => ⟨by decide, ?_⟩
    exact fun sent => no (known.trans sent.1)

theorem startAppBody_ensures (call : Call) :
    Ensures (fun state => state = call) (startAppBody world client config launch)
      (fun _ _ => LaunchAccepted world call ∧ ¬ LaunchRefused world config call)
      (fun ret _ => 0 ≤ ret ↔ LaunchRefused world config call) := by
  refine ensures_bind (fun _ state => world.seed.code = 0 ∧ state = call) ?_
    fun _ => ensures_fact fun seeded => ?_
  · refine ensures_ite (fun seeded => ensures_pure _ fun _ same => ⟨seeded, same⟩) fun failed => ?_
    refine ensures_throw _ fun _ _ => iff_of_false ?_ fun refused => failed refused.1.1
    have nonpos := world.seed.nonpos
    omega
  refine ensures_bind (fun read state => read = call ∧ state = call)
    (ensures_get fun _ same => ⟨same, same⟩) fun read => ensures_fact fun same => ?_
  subst same
  refine ensures_ite (fun unsupported => ?_) fun supported => ?_
  · exact fun _ _ => iff_of_false (by decide) fun refused => refused.1.2.1 unsupported
  refine ensures_ite (fun tooLarge => ?_) fun fits => ?_
  · exact fun _ _ => iff_of_false (by decide) fun refused => refused.1.2.2.1 tooLarge
  have start (state : Call) (same : state = read) : SameStart read state := by
    rw [same]
    exact ⟨rfl, rfl, rfl⟩
  refine ensures_bind _ (ensures_weaken (requestLaunch_ensures world client config launch read)
    start (fun _ _ done => done) fun ret _ left => ?_) fun document => ensures_fact fun sent => ?_
  · refine iff_of_false (by omega) ?_
    rintro ⟨⟨_, _, _, allocates⟩, document, completed, _⟩
    exact left.2 ⟨allocates, document, completed⟩
  have exact : LaunchRefused world config read ↔ (xmlStatus document).result ≠ gsOk := by
    constructor
    · rintro ⟨_, other, completed, refused⟩
      rw [sent.2] at completed
      cases completed
      exact refused
    · exact fun refused => ⟨⟨seeded, supported, fits, sent.1⟩, document, sent.2, refused⟩
  refine ensures_bind (fun _ => Anywhere) (fun _ _ => trivial) fun _ => ?_
  rw [exact]
  refine ensures_weaken (readLaunchAnswer_ensures document) (fun _ holds => holds)
    (fun _ _ accepted => ⟨⟨document, sent.2, accepted⟩, ?_⟩) fun _ _ left => left
  exact fun refused => refused ((xmlStatus_ok_iff document).mpr ⟨accepted.1, accepted.2.1⟩)

theorem not_accepted_of_refused {call : Call} (refused : LaunchRefused world config call) :
    ¬ LaunchAccepted world call := by
  obtain ⟨_, document, completed, status⟩ := refused
  rintro ⟨other, same, accepted⟩
  rw [completed] at same
  cases same
  exact status ((xmlStatus_ok_iff document).mpr ⟨accepted.1, accepted.2.1⟩)

/-- A code of 0 or more means an accepted launch, except after a refused one. -/
theorem gsStartApp_success (call : Call)
    (success : 0 ≤ (gsStartApp world client config launch call).1) :
    LaunchAccepted world call ∨ LaunchRefused world config call := by
  have ensured := startAppBody_ensures world client config launch call call rfl
  unfold gsStartApp at success
  cases ran : startAppBody world client config launch call with
  | ok value after =>
      rw [ran] at ensured
      exact .inl ensured.1
  | error ret after =>
      rw [ran] at ensured success
      exact .inr (ensured.mp success)

theorem gsStartApp_refused (call : Call) (refused : LaunchRefused world config call) :
    0 ≤ (gsStartApp world client config launch call).1 := by
  have ensured := startAppBody_ensures world client config launch call call rfl
  unfold gsStartApp
  cases ran : startAppBody world client config launch call with
  | ok value after => exact Int.le_refl 0
  | error ret after =>
      rw [ran] at ensured
      exact ensured.mpr refused

end MoonlightWii.Gamestream.StartApp
