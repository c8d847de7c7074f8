import MoonlightWii.Foundation.EarlyExit
import MoonlightWii.Gamestream.Xml

/-!
# Requests to the host (`client.c`)

A call of the library runs over the server data, with everything that comes from
outside in `World`: the host's answer to each request, the random bytes, the
UUIDs and the outcome of allocations.  `goto cleanup` leaves through an exit
whose code is the value of `ret` there.
-/

set_option autoImplicit false

namespace MoonlightWii.Gamestream.Request

open Foundation.EarlyExit
open MoonlightWii.Gamestream.Errors
open MoonlightWii.Gamestream.Xml

/-! ## State -/

structure DisplayMode where
  width : Int
  height : Int
  refresh : Int

structure Server where
  address : CString
  serverMajorVersion : Int
  paired : Bool
  supports4K : Bool
  unsupported : Bool
  isGfe : Bool
  currentGame : Int
  modes : List DisplayMode
  rtspSessionUrl : Option CString

def Server.withPaired (server : Server) (paired : Bool) : Server :=
  { server with paired := paired }

structure Client where
  uniqueId : CString
  certHex : CString
  certSig : List UInt8

/-- What `http_request` returns: every failure is `-1`. -/
inductive Answer where
  | failed
  | completed (document : Document)

/-- `mbedtls_ctr_drbg_seed` returns 0 or a negative error code. -/
structure SeedResult where
  code : Int
  nonpos : code ≤ 0

structure World where
  seed : SeedResult
  /-- The answer to the request with this number. -/
  answer : Nat → Answer
  uuid : Nat → CString
  allocates : Nat → Bool
  random : Nat → Nat → UInt8

structure Call where
  server : Server
  sent : List CString
  allocations : Nat
  draws : Nat
  timeout : Int
  lastError : Option GsError
  remoteInput : Option (List UInt8 × List UInt8)

abbrev GsM := EStateM Int Call

/-! ## Exits and errors -/

def setError (error : GsError) : GsM PUnit :=
  modify fun call => { call with lastError := some error }

/-- `gs_set_error(code, text)` and `goto cleanup` with `ret`. -/
def exitWith {α : Type} (ret : Int) (code : Int) (text : String) : GsM α := do
  setError (gsSetError code text.toList)
  throw ret

/-- `ret = gs_set_error(code, text); goto cleanup`. -/
def fail {α : Type} (code : Int) (text : String) : GsM α :=
  exitWith code code text

/-- A parser's result, after its error has been recorded. -/
def report {α : Type} (reported : Reported α) : GsM α := do
  match reported.recorded with
  | some error => setError error
  | none => pure ⟨⟩
  pure reported.result

/-! ## URLs -/

/-- `construct_url`; `uuidstr_random` never fails. -/
def constructUrl (client : Client) (uuid : CString) (ulen : Nat) (secure : Bool)
    (address action : CString) (params : Option CString) : CString :=
  let proto := if secure then "https" else "http"
  let port := if secure then "47984" else "47989"
  let url := proto.toList ++ "://".toList ++ address ++ ":".toList ++ port.toList ++ "/".toList ++
    action ++ "?uniqueid=".toList ++ client.uniqueId ++ "&uuid=".toList ++ uuid.take 36
  match params with
  | some text => snprintf ulen (url ++ "&".toList ++ snprintf 4096 text)
  | none => snprintf ulen url

/-- `append_param`, with the text that the format gives. -/
def appendParam (ulen : Nat) (param : String) (text url : CString) : CString :=
  let value := snprintf 256 text
  if ulen < url.length + (param.length + value.length + 3) then url
  else url ++ '&' :: param.toList ++ '=' :: value

def strlcat (size : Nat) (url text : CString) : CString :=
  url ++ text.take (size - 1 - url.length)

/-! ## Primitive steps -/

def httpDataAlloc (world : World) : GsM Bool := do
  let call ← get
  set { call with allocations := call.allocations + 1 }
  pure (world.allocates call.allocations)

def buildUrl (world : World) (client : Client) (ulen : Nat) (secure : Bool) (action : String)
    (params : Option CString) : GsM CString := do
  let call ← get
  pure (constructUrl client (world.uuid call.sent.length) ulen secure call.server.address
    action.toList params)

def httpRequest (world : World) (url : CString) : GsM Answer := do
  let call ← get
  set { call with sent := call.sent ++ [url] }
  pure (world.answer call.sent.length)

def drbgRandom (world : World) (count : Nat) : GsM (List UInt8) := do
  let call ← get
  set { call with draws := call.draws + 1 }
  pure ((List.range count).map (world.random call.draws))

/-- `if ((ret = mbedtls_ctr_drbg_seed(...)) != 0) goto cleanup;` -/
def drbgSeed (world : World) : GsM PUnit :=
  if world.seed.code = 0 then pure ⟨⟩ else throw world.seed.code

/-- `if ((ret = http_request(...)) != GS_OK) goto cleanup;` -/
def requestOrExit (world : World) (url : CString) : GsM Document := do
  match ← httpRequest world url with
  | .completed document => pure document
  | .failed => throw (-1)

/-- `if ((ret = xml_search(...)) != GS_OK) goto cleanup;` -/
def searchOrExit (document : Document) (node : String) : GsM CString := do
  match ← report (xmlSearch document node.toList) with
  | .ok value => pure value
  | .error ret => throw ret

/-- `if ((ret = xml_status(...) != GS_OK)) goto cleanup;`: the comparison binds
tighter than the assignment, so `ret` is 1 at the exit. -/
def statusOrExitOne (document : Document) : GsM PUnit := do
  let status ← report (xmlStatus document)
  if status ≠ gsOk then throw 1 else pure ⟨⟩

def setPaired (paired : Bool) : GsM PUnit :=
  modify fun call => { call with server := call.server.withPaired paired }

/-! ## `gs_unpair` -/

/-- `gs_unpair`; it returns its code instead of leaving. -/
def gsUnpair (world : World) (client : Client) : GsM Int := do
  if ← httpDataAlloc world then
    let url ← buildUrl world client 4096 false "unpair" none
    match ← httpRequest world url with
    | .failed => pure (-1)
    | .completed document =>
        let status ← report (xmlStatus document)
        if status = gsError then
          pure gsError
        else
          setPaired false
          pure gsOk
  else
    pure gsOutOfMemory

/-! ## Steps that leave the server data alone -/

/-- The server data stays as it is, and the program leaves only with the allowed
codes. -/
def Keeps (server : Server) (allowed : Int → Prop) {α : Type} (program : GsM α) : Prop :=
  Ensures (fun call => call.server = server) program (fun _ call => call.server = server)
    (fun ret call => allowed ret ∧ call.server = server)

section Keeping

variable {server : Server} {allowed : Int → Prop} {α β : Type}

theorem keeps_pure (value : α) : Keeps server allowed (pure value) :=
  ensures_pure value fun _ same => same

theorem keeps_bind {program : GsM α} {next : α → GsM β} (first : Keeps server allowed program)
    (second : ∀ value, Keeps server allowed (next value)) :
    Keeps server allowed (program >>= next) :=
  ensures_bind _ first second

theorem keeps_throw (ret : Int) (may : allowed ret) :
    Keeps server allowed (throw ret : GsM α) :=
  ensures_throw ret fun _ same => ⟨may, same⟩

theorem keeps_ite {condition : Prop} [Decidable condition] {first second : GsM α}
    (yes : condition → Keeps server allowed first)
    (no : ¬ condition → Keeps server allowed second) :
    Keeps server allowed (if condition then first else second) :=
  ensures_ite yes no

theorem keeps_setError (error : GsError) : Keeps server allowed (setError error) :=
  ensures_modify _ fun _ same => same

theorem keeps_exitWith (ret code : Int) (text : String) (may : allowed ret) :
    Keeps server allowed (exitWith ret code text : GsM α) :=
  keeps_bind (keeps_setError _) fun _ => keeps_throw ret may

theorem keeps_fail (code : Int) (text : String) (may : allowed code) :
    Keeps server allowed (fail code text : GsM α) :=
  keeps_exitWith code code text may

theorem keeps_httpDataAlloc (world : World) : Keeps server allowed (httpDataAlloc world) :=
  fun _ same => same

theorem keeps_buildUrl (world : World) (client : Client) (ulen : Nat) (secure : Bool)
    (action : String) (params : Option CString) :
    Keeps server allowed (buildUrl world client ulen secure action params) :=
  fun _ same => same

theorem keeps_httpRequest (world : World) (url : CString) :
    Keeps server allowed (httpRequest world url) :=
  fun _ same => same

theorem keeps_drbgRandom (world : World) (count : Nat) :
    Keeps server allowed (drbgRandom world count) :=
  fun _ same => same

theorem ensures_reported {pre : Call → Prop}
    (stable : ∀ call error, pre call → pre { call with lastError := some error })
    (reported : Reported α) {next : α → GsM β}
    {done : β → Call → Prop} {left : Int → Call → Prop}
    (second : Ensures pre (next reported.result) done left) :
    Ensures pre (report reported >>= next) done left := by
  have first : Ensures pre (report reported)
      (fun value call => value = reported.result ∧ pre call) left := by
    intro call holds
    unfold report
    cases reported.recorded with
    | none => exact ⟨rfl, holds⟩
    | some error => exact ⟨rfl, stable call error holds⟩
  refine ensures_bind _ first fun value => ensures_fact fun known => ?_
  rw [known]
  exact second

theorem ensures_report_bind (reported : Reported α) {next : α → GsM β}
    {done : β → Call → Prop} {left : Int → Call → Prop}
    (second : Ensures (fun call => call.server = server) (next reported.result) done left) :
    Ensures (fun call => call.server = server) (report reported >>= next) done left :=
  ensures_reported (fun _ _ same => same) reported second

theorem keeps_report_bind (reported : Reported α) {next : α → GsM β}
    (second : Keeps server allowed (next reported.result)) :
    Keeps server allowed (report reported >>= next) :=
  ensures_report_bind reported second

theorem keeps_requestOrExit (world : World) (url : CString) (may : allowed (-1)) :
    Keeps server allowed (requestOrExit world url) := by
  refine keeps_bind (keeps_httpRequest world url) fun answer => ?_
  cases answer with
  | failed => exact keeps_throw _ may
  | completed document => exact keeps_pure document

theorem keeps_searchOrExit (document : Document) (node : String) (may : allowed gsInvalid) :
    Keeps server allowed (searchOrExit document node) := by
  refine keeps_report_bind _ ?_
  cases searched : (xmlSearch document node.toList).result with
  | ok value => exact keeps_pure value
  | error ret =>
      have invalid := xmlSearchEx_error document node.toList false ret searched
      exact keeps_throw ret (invalid ▸ may)

theorem keeps_statusOrExitOne (document : Document) (may : allowed 1) :
    Keeps server allowed (statusOrExitOne document) :=
  keeps_report_bind _ (keeps_ite (fun _ => keeps_throw 1 may) fun _ => keeps_pure _)

end Keeping

/-- The parts of the state that decide the first request of a call. -/
def SameStart (call state : Call) : Prop :=
  state.server = call.server ∧ state.sent = call.sent ∧ state.allocations = call.allocations

/-- `gs_unpair` returns, and the only server field it may write is the pairing
flag, to false. -/
theorem gsUnpair_ensures (server : Server) (world : World) (client : Client) :
    Ensures (fun call => call.server = server) (gsUnpair world client)
      (fun _ call => call.server = server ∨ call.server = server.withPaired false)
      (fun _ _ => False) := by
  have kept {α : Type} {program : GsM α} (keeps : Keeps server (fun _ => False) program) :
      Ensures (fun call => call.server = server) program (fun _ call => call.server = server)
        (fun _ _ => False) :=
    ensures_weaken keeps (fun _ same => same) (fun _ _ same => same) (fun _ _ never => never.1)
  refine ensures_bind _ (kept (keeps_httpDataAlloc world)) fun allocated => ?_
  refine ensures_ite (fun _ => ?_) fun _ => ensures_pure _ fun _ same => .inl same
  refine ensures_bind _ (kept (keeps_buildUrl world client 4096 false "unpair" none)) fun url => ?_
  refine ensures_bind _ (kept (keeps_httpRequest world url)) fun answer => ?_
  cases answer with
  | failed => exact ensures_pure _ fun _ same => .inl same
  | completed document =>
      refine ensures_report_bind (xmlStatus document) ?_
      refine ensures_ite (fun _ => ensures_pure _ fun _ same => .inl same) fun _ => ?_
      refine ensures_bind (fun _ call => call.server = server.withPaired false)
        (ensures_modify _ fun call same => ?_) fun _ => ensures_pure _ fun _ same => .inr same
      simp only [same]

/-! ## A plain host -/

/-- The host that gives every request the same answer. -/
def constantHost (document : Document) : World where
  seed := ⟨0, Int.le_refl 0⟩
  answer := fun _ => .completed document
  uuid := fun _ => "00000000-0000-0000-0000-000000000000".toList
  allocates := fun _ => true
  random := fun _ _ => 0

/-- No request sent yet, and a server of generation 7 whose modes are not checked. -/
def freshCall (paired : Bool) : Call where
  server :=
    { address := "10.0.0.2".toList
      serverMajorVersion := 7
      paired := paired
      supports4K := false
      unsupported := true
      isGfe := false
      currentGame := 0
      modes := []
      rtspSessionUrl := none }
  sent := []
  allocations := 0
  draws := 0
  timeout := 5
  lastError := none
  remoteInput := none

end MoonlightWii.Gamestream.Request
